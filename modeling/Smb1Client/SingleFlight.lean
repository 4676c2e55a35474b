import Smb1Client.DialCache

/-!
Single-flight dialling: one dial for a key at a time, each call that waits on one given what
it came to, and no slot taken from its owner; as long as the window of the sweeper is a
`Duration`. Past that, the first cold lookup leaves a dial that nobody ends.
-/

namespace Smb1Client

namespace DialCache

variable {κ : Type} [DecidableEq κ] {s s' : State κ} {e : Event κ}

/-! ## A call that waits -/

/-- What a call that waited on a dial is given for the dial's outcome: the same entry, or an error
of the same kind. -/
inductive Delivered : Outcome → Outcome → Prop
  | ok (cached : ℕ) : Delivered (.ok cached) (.ok cached)
  | error {error given : ClientError} (same : given.kind = error.kind) :
      Delivered (.error error) (.error given)

theorem delivered_received (outcome : Outcome) :
    Delivered outcome (State.received (some outcome)) := by
  cases outcome with
  | ok cached => exact .ok cached
  | error error => exact .error error.kind_duplicate

/-- The resumptions a waiting call has left, once the dial is finished. -/
def Wait.left : Wait → ℕ
  | .checking => 2
  | .changing => 3
  | .parked => 3
  | .reading => 1

/-- The call whose step an event is. -/
def Event.call : Event κ → Option ℕ
  | .look c => some c
  | .judge c _ => some c
  | .forget c => some c
  | .poll c => some c
  | .drop c => some c
  | _ => none

/-- The dial whose step an event is. -/
def Event.dial : Event κ → Option ℕ
  | .dialled d _ => some d
  | .store d => some d
  | .publish d => some d
  | _ => none

/-- A call changes its place by its own steps and by a send alone. -/
theorem call_kept {c : ℕ} {call : Call κ} (held : s.calls[c]? = some call)
    (stepped : s.step e = some s') (others : e.call ≠ some c) :
    s'.calls[c]? = some call ∨ ∃ d, e = .publish d ∧ s'.calls[c]? = some (call.wake d) := by
  have elsewhere : ∀ {s₁ : State κ} {c' : ℕ} {call' : Call κ}, s₁.calls = s.calls →
      some c' ≠ some c → (s₁.setCall c' call').calls[c]? = some call := by
    intro s₁ c' call' same other
    rw [State.setCall, same]
    exact (List.getElem?_set_ne fun same => other (congrArg some same)).trans held
  cases moves_of_step stepped with
  | acquired key alive =>
      exact Or.inl ((List.getElem?_append_left (List.getElem?_eq_some_iff.mp held).1).trans held)
  | met looking ready => exact Or.inl (elsewhere rfl others)
  | joined looking dialing found => exact Or.inl (elsewhere rfl others)
  | started looking cold =>
      exact Or.inl ((List.getElem?_set_ne fun same => others (congrArg some same)).trans held)
  | panicked looking cold overflow => exact Or.inl (elsewhere rfl others)
  | judged healthy judging => exact Or.inl (elsewhere rfl others)
  | forgot forgetting => exact Or.inl (elsewhere (calls_forget _ _ _) others)
  | @resumed c' d' seen' wait' dial _ waiting found resumed =>
      left
      cases wait' with
      | checking =>
          cases resumed
          exact elsewhere rfl others
      | changing =>
          cases resumed
          exact elsewhere rfl others
      | parked => cases resumed
      | reading =>
          cases resumed
          exact elsewhere rfl others
  | dropped before active => exact Or.inl (elsewhere rfl others)
  | concluded result found dialing =>
      left
      rw [conclude_eq_withConnections]
      exact held
  | stored found => exact Or.inl held
  | @published d key outcome done found =>
      unfold State.send
      split
      · refine Or.inr ⟨d, rfl, ?_⟩
        rw [List.getElem?_map, held]
        rfl
      · exact Or.inl held
  | swept stale spared => exact Or.inl held
  | closed quiet => exact Or.inl held

/-- A step of a call finds it active, and a waiting call steps by its resumptions and its end. -/
theorem call_of_step {c : ℕ} (stepped : s.step e = some s') (own : e.call = some c) :
    ∃ call, s.calls[c]? = some call ∧ call.active = true ∧
      ∀ d seen wait, call = .waiting d seen wait → e = .poll c ∨ e = .drop c := by
  cases moves_of_step stepped with
  | acquired key alive => cases own
  | met looking held =>
      cases own
      exact ⟨_, looking, rfl, fun d seen wait same => by cases same⟩
  | joined looking held found =>
      cases own
      exact ⟨_, looking, rfl, fun d seen wait same => by cases same⟩
  | started looking cold =>
      cases own
      exact ⟨_, looking, rfl, fun d seen wait same => by cases same⟩
  | panicked looking cold overflow =>
      cases own
      exact ⟨_, looking, rfl, fun d seen wait same => by cases same⟩
  | judged healthy judging =>
      cases own
      exact ⟨_, judging, rfl, fun d seen wait same => by cases same⟩
  | forgot forgetting =>
      cases own
      exact ⟨_, forgetting, rfl, fun d seen wait same => by cases same⟩
  | resumed waiting found resumed =>
      cases own
      exact ⟨_, waiting, rfl, fun d seen wait same => Or.inl rfl⟩
  | dropped held active =>
      cases own
      exact ⟨_, held, active, fun d seen wait same => Or.inr rfl⟩
  | concluded result found dialing => cases own
  | stored found => cases own
  | published found => cases own
  | swept stale spared => cases own
  | closed quiet => cases own

theorem returned_kept {c : ℕ} {result : Outcome}
    (returned : s.calls[c]? = some (.returned result)) (stepped : s.step e = some s') :
    s'.calls[c]? = some (.returned result) := by
  have others : e.call ≠ some c := by
    intro own
    obtain ⟨call, held, active, -⟩ := call_of_step stepped own
    cases returned.symm.trans held
    cases active
  rcases call_kept returned stepped others with same | ⟨d, -, same⟩
  · exact same
  · exact same

/-- A dial changes by its own steps alone. -/
theorem dial_kept {d : ℕ} {dial : Dial κ} (found : s.dials[d]? = some dial)
    (stepped : s.step e = some s') (others : e.dial ≠ some d) : s'.dials[d]? = some dial := by
  have elsewhere : ∀ {s₁ : State κ} {d' : ℕ} {dial' : Dial κ}, s₁.dials = s.dials →
      some d' ≠ some d → (s₁.setDial d' dial').dials[d]? = some dial := by
    intro s₁ d' dial' same other
    rw [State.setDial, same]
    exact (List.getElem?_set_ne fun same => other (congrArg some same)).trans found
  cases moves_of_step stepped with
  | acquired key alive => exact found
  | met looking held => exact found
  | joined looking held found' => exact found
  | started looking cold =>
      exact (List.getElem?_append_left (List.getElem?_eq_some_iff.mp found).1).trans found
  | panicked looking cold overflow =>
      exact (List.getElem?_append_left (List.getElem?_eq_some_iff.mp found).1).trans found
  | judged healthy judging => exact found
  | forgot forgetting => exact (congrArg (·[d]?) (dials_forget _ _ _)).trans found
  | @resumed c' d' seen' wait' dial' _ waiting' found' resumed =>
      cases wait' with
      | checking =>
          cases resumed
          exact found
      | changing =>
          cases resumed
          exact found
      | parked => cases resumed
      | reading =>
          cases resumed
          exact found
  | dropped held active => exact found
  | concluded result found' dialing =>
      rw [conclude_eq_withConnections]
      exact elsewhere rfl others
  | stored found' => exact elsewhere rfl others
  | published found' =>
      unfold State.send
      split
      · exact elsewhere rfl others
      · exact elsewhere rfl others
  | swept stale spared => exact found
  | closed quiet => exact found

/-- A step of a dial finds it started, and not finished. -/
theorem dial_of_step {d : ℕ} (stepped : s.step e = some s') (own : e.dial = some d) :
    ∃ dial, s.dials[d]? = some dial ∧ dial.stage ≠ .created ∧ dial.stage ≠ .finished := by
  cases moves_of_step stepped with
  | acquired key alive => cases own
  | met looking held => cases own
  | joined looking held found => cases own
  | started looking cold => cases own
  | panicked looking cold overflow => cases own
  | judged healthy judging => cases own
  | forgot forgetting => cases own
  | resumed waiting found resumed => cases own
  | dropped held active => cases own
  | concluded result found dialing =>
      cases own
      refine ⟨_, found, ?_, ?_⟩
      · rw [dialing]
        exact fun same => by cases same
      · rw [dialing]
        exact fun same => by cases same
  | stored found =>
      cases own
      exact ⟨_, found, (fun same => by cases same), (fun same => by cases same)⟩
  | published found =>
      cases own
      exact ⟨_, found, (fun same => by cases same), (fun same => by cases same)⟩
  | swept stale spared => cases own
  | closed quiet => cases own

/-- What a finished dial came to is there for good. -/
theorem finished_kept {d : ℕ} {dial : Dial κ} (found : s.dials[d]? = some dial)
    (finished : dial.stage = .finished) (stepped : s.step e = some s') :
    s'.dials[d]? = some dial := by
  refine dial_kept found stepped fun own => ?_
  obtain ⟨dial', found', -, unfinished⟩ := dial_of_step stepped own
  cases found.symm.trans found'
  exact unfinished finished

theorem returned_of_run {c : ℕ} {result : Outcome} {later : List (Event κ)} {log : List Empty}
    (returned : s.calls[c]? = some (.returned result))
    (ran : (machine κ).run s later = some (s', log)) :
    s'.calls[c]? = some (.returned result) := by
  refine Trace.Machine.invariant (P := fun s => s.calls[c]? = some (.returned result)) returned ?_
    ran
  intro s e s' out returned moved
  obtain ⟨s'', stepped, same⟩ := Option.map_eq_some_iff.mp moved
  cases same
  exact returned_kept returned stepped

/-- A call whose dial has finished runs, and each of its resumptions takes it nearer. -/
theorem resumes_of_finished (sound : s.Sound) {c d seen : ℕ} {wait : Wait} {dial : Dial κ}
    (waiting : s.calls[c]? = some (.waiting d seen wait)) (found : s.dials[d]? = some dial)
    (finished : dial.stage = .finished) :
    ∃ s', s.step (.poll c) = some s' ∧
      ((∃ seen' wait', s'.calls[c]? = some (.waiting d seen' wait') ∧ wait'.left < wait.left) ∨
        s'.calls[c]? = some (.returned (State.received dial.outcome))) := by
  obtain ⟨dial', found', waits⟩ := sound.waits c d seen wait waiting
  cases found.symm.trans found'
  have value := waits.sent finished
  have resume : s.step (.poll c) = s.resume c d seen dial wait := by
    rw [State.step, waiting]
    dsimp only
    rw [found]
    rfl
  rw [resume]
  cases wait with
  | checking =>
      refine ⟨_, rfl, Or.inl ⟨dial.done.version, .reading, ?_, by decide⟩⟩
      rw [if_pos value]
      exact State.getElem?_set_of_some waiting
  | changing =>
      refine ⟨_, rfl, Or.inl ⟨dial.done.version, .checking, ?_, by decide⟩⟩
      have news : dial.done.version ≠ seen := by
        rw [waits.unseen (Or.inl rfl)]
        rcases (sound.whole d dial found).version_eq with ⟨-, version, -⟩ | ⟨unsent, -⟩
        · rw [version]
          exact one_ne_zero
        · cases unsent.symm.trans value
      rw [if_neg news]
      exact State.getElem?_set_of_some waiting
  | parked => exact absurd rfl (waits.awake finished)
  | reading => exact ⟨_, rfl, Or.inr (State.getElem?_set_of_some waiting)⟩

/-- **A finished dial is heard.** However the other tasks run, a call that waits on it has come back
with its outcome, or is a resumption nearer to that for each it was given. -/
theorem hears {c d seen : ℕ} {wait : Wait} {dial : Dial κ} {later : List (Event κ)}
    {log : List Empty} (sound : s.Sound) (waiting : s.calls[c]? = some (.waiting d seen wait))
    (found : s.dials[d]? = some dial) (finished : dial.stage = .finished)
    (ran : (machine κ).run s later = some (s', log)) (kept : .drop c ∉ later) :
    (∃ seen' wait', s'.calls[c]? = some (.waiting d seen' wait') ∧ s'.dials[d]? = some dial ∧
        s'.Sound ∧ wait'.left + later.count (.poll c) ≤ wait.left) ∨
      s'.calls[c]? = some (.returned (State.received dial.outcome)) := by
  induction later generalizing s seen wait log with
  | nil =>
      cases ran
      exact Or.inl ⟨seen, wait, waiting, found, sound, le_rfl⟩
  | cons e later ih =>
      obtain ⟨s₁, out, rest, moved, tail, -⟩ := Trace.Machine.run_cons ran
      obtain ⟨s₂, stepped, same⟩ := Option.map_eq_some_iff.mp moved
      cases same
      have undropped : e ≠ .drop c := fun same => kept (same ▸ List.mem_cons_self)
      have after := finished_kept found finished stepped
      have kept' : .drop c ∉ later := fun member => kept (List.mem_cons_of_mem _ member)
      by_cases polled : e = .poll c
      · subst polled
        obtain ⟨s₃, stepped', nearer⟩ := resumes_of_finished sound waiting found finished
        cases stepped.symm.trans stepped'
        rcases nearer with ⟨seen', wait', waiting', less⟩ | returned
        · rcases ih (sound.step stepped) waiting' after tail kept' with
            ⟨seen'', wait'', waiting'', found'', sound'', bound⟩ | returned
          · refine Or.inl ⟨seen'', wait'', waiting'', found'', sound'', ?_⟩
            rw [List.count_cons_self]
            omega
          · exact Or.inr returned
        · exact Or.inr (returned_of_run returned tail)
      · have others : e.call ≠ some c := by
          intro own
          obtain ⟨call, held, -, steps⟩ := call_of_step stepped own
          cases waiting.symm.trans held
          rcases steps d seen wait rfl with same | same
          · exact polled same
          · exact undropped same
        have still : s₁.calls[c]? = some (.waiting d seen wait) := by
          rcases call_kept waiting stepped others with same | ⟨d', -, woken⟩
          · exact same
          · obtain ⟨dial', found', waits⟩ := sound.waits c d seen wait waiting
            cases found.symm.trans found'
            rw [woken, State.wake_of_ne (waits.awake finished)]
        rw [List.count_cons_of_ne polled]
        exact ih (sound.step stepped) still after tail kept'

/-! ## A dial that is not finished -/

/-- The steps a dial has left. -/
def Stage.left : Stage → ℕ
  | .created => 4
  | .dialing => 3
  | .decided _ => 2
  | .stored => 1
  | .finished => 0

/-- A dial that was started and is not finished waits for no other task. -/
theorem dial_moves {d : ℕ} {dial : Dial κ} (found : s.dials[d]? = some dial)
    (spawned : dial.stage ≠ .created) (unfinished : dial.stage ≠ .finished) :
    ∃ e s' dial', e.dial = some d ∧ s.step e = some s' ∧ s'.dials[d]? = some dial' ∧
      dial'.stage.left < dial.stage.left := by
  obtain ⟨key, stage, outcome, done⟩ := dial
  cases stage with
  | created => exact absurd rfl spawned
  | dialing =>
      have stepped : s.step (.dialled d (.ok ())) = some ((s.conclude key d (.ok ())).setDial d
          ⟨key, .decided (.ok d), outcome, done⟩) := by
        rw [State.step, found]
        rfl
      have moved : ((s.conclude key d (.ok ())).setDial d
          ⟨key, .decided (.ok d), outcome, done⟩).dials[d]? =
            some ⟨key, .decided (.ok d), outcome, done⟩ := by
        rw [conclude_eq_withConnections]
        exact State.getElem?_set_of_some found
      exact ⟨_, _, _, rfl, stepped, moved, Nat.lt_succ_self 2⟩
  | decided outcome' =>
      have stepped : s.step (.store d) =
          some (s.setDial d ⟨key, .stored, some outcome', done⟩) := by
        rw [State.step, found]
      exact ⟨_, _, _, rfl, stepped, State.getElem?_set_of_some found, Nat.lt_succ_self 1⟩
  | stored =>
      have stepped : s.step (.publish d) = some (s.send d ⟨key, .stored, outcome, done⟩) := by
        rw [State.step, found]
      have sent : ∃ done', (s.send d ⟨key, .stored, outcome, done⟩).dials[d]? =
          some ⟨key, .finished, outcome, done'⟩ := by
        unfold State.send
        split
        · exact ⟨_, State.getElem?_set_of_some found⟩
        · exact ⟨_, State.getElem?_set_of_some found⟩
      obtain ⟨done', sent⟩ := sent
      exact ⟨_, _, _, rfl, stepped, sent, Nat.lt_succ_self 0⟩
  | finished => exact absurd rfl unfinished

/-- A call waits on a dial until that has finished. -/
theorem waits_until_finished (sound : s.Sound) {c d seen : ℕ} {wait : Wait} {dial : Dial κ}
    (waiting : s.calls[c]? = some (.waiting d seen wait)) (found : s.dials[d]? = some dial)
    (unfinished : dial.stage ≠ .finished) (stepped : s.step e = some s') (kept : e ≠ .drop c) :
    ∃ seen' wait', s'.calls[c]? = some (.waiting d seen' wait') := by
  by_cases own : e.call = some c
  · obtain ⟨call, held, -, steps⟩ := call_of_step stepped own
    cases waiting.symm.trans held
    rcases steps d seen wait rfl with rfl | same
    · cases moves_of_step stepped with
      | resumed waiting' found' resumed =>
          cases waiting.symm.trans waiting'
          obtain ⟨dial', found'', waits⟩ := sound.waits c d seen wait waiting
          cases found.symm.trans found'
          cases found.symm.trans found''
          cases wait with
          | checking =>
              cases resumed
              exact ⟨_, _, State.getElem?_set_of_some waiting⟩
          | changing =>
              cases resumed
              split
              · exact ⟨_, _, State.getElem?_set_of_some waiting⟩
              · exact ⟨_, _, State.getElem?_set_of_some waiting⟩
          | parked => cases resumed
          | reading => exact absurd (waits.reading rfl) unfinished
    · exact absurd same kept
  · rcases call_kept waiting stepped own with same | ⟨d', -, woken⟩
    · exact ⟨seen, wait, same⟩
    · by_cases asleep : wait = .parked
      · subst asleep
        rw [Call.wake] at woken
        split at woken
        · exact ⟨_, _, woken⟩
        · exact ⟨_, _, woken⟩
      · rw [State.wake_of_ne asleep] at woken
        exact ⟨_, _, woken⟩

/-! ## Slots -/

/-- Who takes a slot from the cache, or puts another in its place: the dial that owns it, a `forget`
or a sweep of that same entry, and the close. -/
inductive Releases (s : State κ) (key : κ) : Event κ → Slot → Prop
  | dial (d : ℕ) (result : Except ClientError Unit) :
      Releases s key (.dialled d result) (.dialing d)
  | forget {c cached : ℕ} (forgetting : s.calls[c]? = some (.forgetting key cached)) :
      Releases s key (.forget c) (.ready cached)
  | sweep {stale : List ℕ} {cached : ℕ} (old : cached ∈ stale) :
      Releases s key (.sweep stale) (.ready cached)
  | close (slot : Slot) : Releases s key .close slot

theorem releases_of_step (sound : s.Sound) {key : κ} {slot : Slot} (stepped : s.step e = some s')
    (held : s.connections key = some slot) (changed : s'.connections key ≠ some slot) :
    Releases s key e slot := by
  cases moves_of_step stepped with
  | acquired key alive => exact absurd held changed
  | met looking ready => exact absurd held changed
  | joined looking dialing found => exact absurd held changed
  | @started c key' looking cold =>
      have other : key ≠ key' := by
        rintro rfl
        cases cold.symm.trans held
      exact absurd ((Function.update_of_ne other _ _).trans held) changed
  | panicked looking cold overflow => exact absurd sound.roomy (Nat.not_le_of_lt overflow)
  | judged healthy judging => exact absurd held changed
  | @forgot c key' cached forgetting =>
      by_cases mine : s.connections key' = some (.ready cached)
      · by_cases here : key = key'
        · subst here
          cases mine.symm.trans held
          exact .forget forgetting
        · refine absurd ?_ changed
          rw [State.forget, if_pos mine]
          exact (Function.update_of_ne here _ _).trans held
      · refine absurd ?_ changed
        rw [State.forget, if_neg mine]
        exact held
  | @resumed c d seen wait dial _ waiting found resumed =>
      cases wait with
      | checking =>
          cases resumed
          exact absurd held changed
      | changing =>
          cases resumed
          exact absurd held changed
      | parked => cases resumed
      | reading =>
          cases resumed
          exact absurd held changed
  | dropped before active => exact absurd held changed
  | @concluded d dial result found dialing =>
      have alive : s.closed = false := by
        apply Bool.eq_false_of_not_eq_true
        intro closed
        cases (sound.empty closed key).symm.trans held
      by_cases here : key = dial.key
      · subst here
        cases (sound.flight d dial found dialing alive).symm.trans held
        exact .dial d result
      · obtain ⟨connections, same, others, -⟩ := sound.conclude_eq found dialing result
        rw [same] at changed
        exact absurd ((others key here).trans held) changed
  | stored found => exact absurd held changed
  | published found =>
      refine absurd ?_ changed
      unfold State.send
      split <;> exact held
  | swept stale spared =>
      rcases spared key with same | ⟨-, cached, old, ready⟩
      · exact absurd (same.trans held) changed
      · cases ready.symm.trans held
        exact .sweep old
  | closed quiet => exact .close slot

/-! ## Single flight -/

/-- What holds of a cache that dials once for all who wait. -/
structure SingleFlight (s : State κ) : Prop where
  /-- At most one dial for a key is in flight. -/
  one : ∀ (d d' : ℕ) (dial dial' : Dial κ), s.dials[d]? = some dial → s.dials[d']? = some dial' →
    dial.stage = .dialing → dial'.stage = .dialing → dial.key = dial'.key → d = d'
  /-- Until its dial is finished, a call waits for that, and the dial for nobody. -/
  waits : ∀ (c d seen : ℕ) (wait : Wait), s.calls[c]? = some (.waiting d seen wait) →
    ∃ dial, s.dials[d]? = some dial ∧ (dial.stage ≠ .finished →
      (∃ e s' dial', e.dial = some d ∧ s.step e = some s' ∧ s'.dials[d]? = some dial' ∧
        dial'.stage.left < dial.stage.left) ∧
      ∀ e s', s.step e = some s' → e ≠ .drop c →
        ∃ seen' wait', s'.calls[c]? = some (.waiting d seen' wait'))
  /-- Once it is finished, the call is given its outcome by the third resumption, however the other
  tasks run, and is never without one. -/
  heard : ∀ (c d seen : ℕ) (wait : Wait) (dial : Dial κ),
    s.calls[c]? = some (.waiting d seen wait) → s.dials[d]? = some dial → dial.stage = .finished →
      ∃ outcome, dial.outcome = some outcome ∧ ∀ later s' log,
        (machine κ).run s later = some (s', log) → .drop c ∉ later →
          (∃ given, s'.calls[c]? = some (.returned given) ∧ Delivered outcome given) ∨
            (s'.step (.poll c)).isSome = true ∧ later.count (.poll c) < 3
  /-- A dial that failed has no slot. -/
  failed : ∀ (d : ℕ) (dial : Dial κ) (error : ClientError), s.dials[d]? = some dial →
    dial.decision = some (.error error) →
      ∀ key, s.connections key ≠ some (.dialing d) ∧ s.connections key ≠ some (.ready d)
  /-- A slot is taken by its owner alone. -/
  owned : ∀ e s' key slot, s.step e = some s' → s.connections key = some slot →
    s'.connections key ≠ some slot → Releases s key e slot
  /-- After the close there is no entry. -/
  closed : s.closed = true → ∀ key, s.connections key = none

theorem heard_of_sound (sound : s.Sound) {c d seen : ℕ} {wait : Wait} {dial : Dial κ}
    (waiting : s.calls[c]? = some (.waiting d seen wait)) (found : s.dials[d]? = some dial)
    (finished : dial.stage = .finished) :
    ∃ outcome, dial.outcome = some outcome ∧ ∀ later s' log,
      (machine κ).run s later = some (s', log) → .drop c ∉ later →
        (∃ given, s'.calls[c]? = some (.returned given) ∧ Delivered outcome given) ∨
          (s'.step (.poll c)).isSome = true ∧ later.count (.poll c) < 3 := by
  obtain ⟨outcome, written⟩ := (sound.whole d dial found).outcome_of_finished finished
  refine ⟨outcome, written, fun later s' log ran kept => ?_⟩
  rcases hears sound waiting found finished ran kept with
    ⟨seen', wait', waiting', found', sound', bound⟩ | returned
  · right
    obtain ⟨s'', polled, -⟩ := resumes_of_finished sound' waiting' found' finished
    have remaining : 1 ≤ wait'.left := by cases wait' <;> decide
    have most : wait.left ≤ 3 := by cases wait <;> decide
    exact ⟨by rw [polled]; rfl, by omega⟩
  · left
    rw [written] at returned
    exact ⟨_, returned, delivered_received outcome⟩

theorem singleFlight_of_sound (sound : s.Sound) : SingleFlight s := by
  refine ⟨sound.single, ?waits, ?heard, ?failed, ?owned, sound.empty⟩
  case waits =>
    intro c d seen wait waiting
    obtain ⟨dial, found, -⟩ := sound.waits c d seen wait waiting
    refine ⟨dial, found, fun unfinished => ⟨?_, fun e s' stepped kept =>
      waits_until_finished sound waiting found unfinished stepped kept⟩⟩
    exact dial_moves found (sound.whole d dial found).spawned unfinished
  case heard => exact fun c d seen wait dial => heard_of_sound sound
  case failed => exact fun d dial error found failed => sound.failed found failed
  case owned => exact fun e s' key slot => releases_of_step sound

/-! ## The window of the sweeper -/

/-- A call that waits on a dial with no task to end it. -/
structure Stalled (c d : ℕ) (s : State κ) : Prop where
  waiting : ∃ seen wait, s.calls[c]? = some (.waiting d seen wait) ∧ wait ≠ .reading
  created : ∃ key, s.dials[d]? = some (Dial.new key)

/-- Such a call goes on waiting, until it is dropped. -/
theorem Stalled.step {c d : ℕ} (stalled : Stalled c d s) (stepped : s.step e = some s')
    (kept : e ≠ .drop c) : Stalled c d s' := by
  obtain ⟨⟨seen, wait, waiting, asks⟩, key, found⟩ := stalled
  have still : e.dial ≠ some d := by
    intro own
    obtain ⟨dial, found', spawned, -⟩ := dial_of_step stepped own
    cases found.symm.trans found'
    exact spawned rfl
  refine ⟨?_, key, dial_kept found stepped still⟩
  by_cases own : e.call = some c
  · obtain ⟨call, held, -, steps⟩ := call_of_step stepped own
    cases waiting.symm.trans held
    rcases steps d seen wait rfl with rfl | same
    · cases moves_of_step stepped with
      | resumed waiting' found' resumed =>
          cases waiting.symm.trans waiting'
          cases found.symm.trans found'
          cases wait with
          | checking =>
              cases resumed
              exact ⟨_, _, State.getElem?_set_of_some waiting, fun same => by cases same⟩
          | changing =>
              cases resumed
              split
              · exact ⟨_, _, State.getElem?_set_of_some waiting, fun same => by cases same⟩
              · exact ⟨_, _, State.getElem?_set_of_some waiting, fun same => by cases same⟩
          | parked => cases resumed
          | reading => exact absurd rfl asks
    · exact absurd same kept
  · rcases call_kept waiting stepped own with same | ⟨d', published, woken⟩
    · exact ⟨seen, wait, same, asks⟩
    · refine ⟨seen, wait, woken.trans ?_, asks⟩
      have other : d ≠ d' := by
        rintro rfl
        exact still (congrArg Event.dial published)
      cases wait with
      | parked => exact congrArg some (if_neg other)
      | checking => rfl
      | changing => rfl
      | reading => rfl

theorem Stalled.run {c d : ℕ} {later : List (Event κ)} {log : List Empty}
    (stalled : Stalled c d s) (ran : (machine κ).run s later = some (s', log))
    (kept : .drop c ∉ later) : Stalled c d s' := by
  induction later generalizing s log with
  | nil =>
      cases ran
      exact stalled
  | cons e later ih =>
      obtain ⟨s₁, out, rest, moved, tail, -⟩ := Trace.Machine.run_cons ran
      obtain ⟨s₂, stepped, same⟩ := Option.map_eq_some_iff.mp moved
      cases same
      exact ih (stalled.step stepped fun same => kept (same ▸ List.mem_cons_self)) tail
        fun member => kept (List.mem_cons_of_mem _ member)

/-- And it is not what single flight is. -/
theorem Stalled.not_singleFlight {c d : ℕ} (stalled : Stalled c d s) : ¬ SingleFlight s := by
  intro single
  obtain ⟨⟨seen, wait, waiting, -⟩, key, created⟩ := stalled
  obtain ⟨dial, found, goesOn⟩ := single.waits c d seen wait waiting
  cases created.symm.trans found
  obtain ⟨⟨e, s', dial', own, stepped, -⟩, -⟩ := goesOn fun same => by cases same
  obtain ⟨dial, found', spawned, -⟩ := dial_of_step stepped own
  cases created.symm.trans found'
  exact spawned rfl

theorem look_of_overflow {c : ℕ} {key : κ} (looking : s.calls[c]? = some (.looking key))
    (cold : s.connections key = none) (idle : (s.sweeper || s.closed) = false)
    (overflow : DURATION_MAX < s.overall * EVICT_AFTER_DEADLINES) :
    s.step (.look c) = some ((s.enter key).setCall c .panicked) := by
  have panics : (s.enter key).ensureSweeper = none :=
    (if_neg (ne_true_of_eq_false idle)).trans (if_neg (Nat.not_le_of_lt overflow))
  rw [State.step, looking]
  dsimp only
  rw [State.slot, cold]
  dsimp only
  rw [panics]

theorem look_of_dialing {c d : ℕ} {key : κ} {dial : Dial κ}
    (looking : s.calls[c]? = some (.looking key)) (held : s.connections key = some (.dialing d))
    (found : s.dials[d]? = some dial) :
    s.step (.look c) = some (s.setCall c (.waiting d dial.done.version .checking)) := by
  rw [State.step, looking]
  dsimp only
  rw [State.slot, held]
  dsimp only
  rw [found]
  rfl

/-- Two calls look a key up, the first of them in a cold cache. -/
def bothLook (key : κ) : List (Event κ) := [.acquire key, .look 0, .acquire key, .look 1]

/-- Where the window is no `Duration`, the first lookup panics and the second waits on what it
left. -/
theorem run_bothLook (key : κ) {overall : Duration}
    (overflow : DURATION_MAX < overall * EVICT_AFTER_DEADLINES) :
    ∃ s, (machine κ).run (State.init overall) (bothLook key) = some (s, []) ∧
      s.calls[0]? = some .panicked ∧ Stalled 1 0 s := by
  let empty : State κ := ⟨overall, fun _ => none, [], [.looking key], false, false⟩
  let left : State κ := ⟨overall, Function.update (fun _ => none) key (some (.dialing 0)),
    [Dial.new key], [.panicked, .looking key], false, false⟩
  have held : left.connections key = some (.dialing 0) :=
    Function.update_self key (some (Slot.dialing 0)) fun _ => none
  have panics : empty.step (.look 0) = some ((empty.enter key).setCall 0 .panicked) :=
    look_of_overflow rfl rfl rfl overflow
  have joins : left.step (.look 1) = some (left.setCall 1 (.waiting 0 0 .checking)) :=
    look_of_dialing rfl held rfl
  have acquired : (machine κ).run (State.init overall) [.acquire key] = some (empty, []) := rfl
  have acquiredAgain : (machine κ).run ((empty.enter key).setCall 0 .panicked) [.acquire key] =
      some (left, []) := rfl
  refine ⟨left.setCall 1 (.waiting 0 0 .checking), ?_, rfl, ⟨0, .checking, rfl, ?_⟩, key, rfl⟩
  · exact Trace.Machine.run_append acquired (Trace.Machine.run_append
      (Trace.Machine.run_singleton (congrArg (Option.map (·, [])) panics))
      (Trace.Machine.run_append acquiredAgain
        (Trace.Machine.run_singleton (congrArg (Option.map (·, [])) joins))))
  · exact fun same => by cases same

/-- **Dialling is single-flight** in every run of the cache, exactly where twenty overall deadlines
are a `Duration`. -/
theorem dialling_is_single_flight_iff (key : κ) (overall : Duration) :
    (∀ es s log, (machine κ).run (State.init overall) es = some (s, log) → SingleFlight s) ↔
      overall * EVICT_AFTER_DEADLINES ≤ DURATION_MAX := by
  constructor
  · intro single
    by_contra overflow
    obtain ⟨s, ran, -, stalled⟩ := run_bothLook key (Nat.lt_of_not_le overflow)
    exact stalled.not_singleFlight (single _ s [] ran)
  · exact fun roomy es s log ran => singleFlight_of_sound (sound_of_run roomy ran)

/-- Two calls on one key, the second dropped before its dial has come to an entry, which the cache
closes over. -/
def joinedRun : List (Event ℕ) :=
  [.acquire 7, .look 0, .acquire 7, .look 1, .poll 0, .poll 0, .drop 1, .dialled 0 (.ok ()),
    .store 0, .publish 0, .poll 0, .poll 0, .poll 0, .close]

theorem dialling_is_single_flight_joinedRun :
    ∃ s log, (machine ℕ).run (State.init 300000000000) joinedRun = some (s, log) ∧
      s.calls[0]? = some (.returned (.ok 0)) ∧ SingleFlight s := by
  cases ran : (machine ℕ).run (State.init 300000000000) joinedRun with
  | none => cases ran
  | some result =>
      obtain ⟨s, log⟩ := result
      have roomy : 300000000000 * EVICT_AFTER_DEADLINES ≤ DURATION_MAX := by decide
      refine ⟨s, log, rfl, ?_, (dialling_is_single_flight_iff 7 _).mpr roomy _ s log ran⟩
      cases ran
      rfl

/-- Without a deadline, the first lookup panics, and whoever looks the key up next waits for
good. -/
theorem endless_deadline_stalls :
    ∃ s, (machine ℕ).run (State.init DURATION_MAX) (bothLook 7) = some (s, []) ∧
      s.calls[0]? = some .panicked ∧ ¬ SingleFlight s ∧
      ∀ later s' log, (machine ℕ).run s later = some (s', log) → .drop 1 ∉ later →
        ∃ seen wait, s'.calls[1]? = some (.waiting 0 seen wait) := by
  obtain ⟨s, ran, panicked, stalled⟩ := run_bothLook 7 (by decide :
    DURATION_MAX < DURATION_MAX * EVICT_AFTER_DEADLINES)
  refine ⟨s, ran, panicked, stalled.not_singleFlight, fun later s' log goesOn kept => ?_⟩
  obtain ⟨⟨seen, wait, waiting, -⟩, -⟩ := stalled.run goesOn kept
  exact ⟨seen, wait, waiting⟩

end DialCache

end Smb1Client
