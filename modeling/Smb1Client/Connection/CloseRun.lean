import Smb1Client.Connection.CloseOrder

/-!
How many closes go ahead of a request that waits.

The count of closes in a row begins again whenever the loop's head finds either channel empty,
also where a request still waits. What is left of the run is `World.allowance`, which is nothing
where the count is back at none and no close waits; a close that comes in there is what renews it.
-/

namespace Smb1Client

open Trace

namespace World

variable {w w' : World} {e : Event} {out : List Effect}

/-- A step in which a request waits and is not taken. -/
def waits (v : World × Event) : Bool :=
  match v.2 with
  | .takeRequest _ => false
  | _ => !v.1.actor.requests.queue.isEmpty

/-- A step that begins a close. -/
def beginsClose (v : World × Event) : Bool :=
  match v.2 with
  | .takeClose _ => !v.1.actor.closes.queue.isEmpty
  | _ => false

/-- A close that comes in while none waits and the count is back at none. -/
def refills (v : World × Event) : Bool :=
  match v.2 with
  | .close _ => v.1.actor.closes.queue.isEmpty && v.1.actor.consecutiveCloses = 0
  | _ => false

/-- The close branch is open only while the run has some left. -/
structure Counted (w : World) : Prop where
  sound : w.Sound
  few : ∀ guards, w.phase = .selecting guards → guards.takeClose = true →
    w.actor.consecutiveCloses < CLOSE_RUN

theorem counted_new (limit : ℕ) (timeouts : Timeouts) : (new limit timeouts).Counted where
  sound := sound_new limit timeouts
  few := fun _ no => nomatch no

theorem Counted.of_left (sound : w.Sound) (left : ∀ guards, w.phase ≠ .selecting guards) :
    w.Counted where
  sound := sound
  few := fun guards selecting => absurd selecting (left guards)

theorem few_of_guards {a : Actor} (opened : a.guards.takeClose = true) :
    a.consecutiveCloses < CLOSE_RUN := by
  simp only [Actor.guards, Bool.and_eq_true, decide_eq_true_eq] at opened
  exact opened.2

theorem Counted.step (counted : w.Counted) (stepped : w.step e = some (w', out)) : w'.Counted := by
  have sound := counted.sound.step stepped
  cases counted.sound.moves stepped with
  | request => exact ⟨sound, counted.few⟩
  | close => exact ⟨sound, counted.few⟩
  | dropRequests => exact ⟨sound, counted.few⟩
  | dropCloses => exact ⟨sound, counted.few⟩
  | advance => exact ⟨sound, counted.few⟩
  | finished => exact .of_left sound (fun _ no => nomatch no)
  | waits =>
      refine ⟨sound, fun guards same opened => ?_⟩
      cases same
      exact few_of_guards opened
  | took => exact .of_left sound (fun _ => conclude_not_selecting)
  | channelEnded => exact .of_left sound (fun _ no => nomatch no)
  | unrouted => exact .of_left sound (fun _ => conclude_not_selecting)
  | routed => exact .of_left sound (fun _ => conclude_not_selecting)
  | writeFailed => exact .of_left sound (fun _ => conclude_not_selecting)
  | wrote => exact .of_left sound (fun _ => conclude_not_selecting)
  | silent => exact .of_left sound (fun _ => conclude_not_selecting)
  | ticked => exact .of_left sound (fun _ => conclude_not_selecting)
  | teardown => exact .of_left sound (fun _ no => nomatch no)

/-- How many closes may still go ahead of a waiting request before a refill. -/
def allowance (w : World) : ℕ :=
  if w.actor.closes.queue = [] ∧ w.actor.consecutiveCloses = 0 then 0
  else CLOSE_RUN - w.actor.consecutiveCloses

theorem allowance_le_sub (w : World) : w.allowance ≤ CLOSE_RUN - w.actor.consecutiveCloses := by
  rw [allowance]
  split
  · exact Nat.zero_le _
  · exact Nat.le_refl _

theorem allowance_le (w : World) : w.allowance ≤ CLOSE_RUN :=
  w.allowance_le_sub.trans (Nat.sub_le _ _)

theorem allowance_congr (closes : w'.actor.closes.queue = w.actor.closes.queue)
    (count : w'.actor.consecutiveCloses = w.actor.consecutiveCloses) :
    w'.allowance = w.allowance := by
  rw [allowance, allowance, closes, count]

theorem begins_count {a a' : Actor} {d : Dispatch} {callerGone : Bool} {verdict : Except Error Unit}
    (begins : a.Begins d callerGone a' verdict out) :
    a'.consecutiveCloses = a.consecutiveCloses := by
  cases begins <;> rfl

/-- The loop's head renews nothing while a request waits. -/
theorem allowance_evaluated (some : w.actor.requests.queue ≠ [])
    (reset : w'.actor = w.actor.resetRun) : w'.allowance ≤ w.allowance := by
  by_cases empty : w.actor.closes.queue = []
  · have drained : w'.allowance = 0 := by
      rw [allowance, reset, Actor.resetRun, if_pos (Or.inr empty)]
      exact if_pos ⟨empty, rfl⟩
    rw [drained]
    exact Nat.zero_le _
  · rw [Actor.resetRun, if_neg (not_or.mpr ⟨some, empty⟩)] at reset
    exact le_of_eq (allowance_congr (by rw [reset]) (by rw [reset]))

/-- A close that is begun is one of those the run allows. -/
theorem allowance_took {a : Actor} {verdict : Except Error Unit}
    (waits : w.actor.closes.queue ≠ []) (few : w.actor.consecutiveCloses < CLOSE_RUN)
    (count : a.consecutiveCloses = w.actor.consecutiveCloses + 1) :
    1 + (w.conclude a verdict).allowance ≤ w.allowance := by
  have before : w.allowance = CLOSE_RUN - w.actor.consecutiveCloses := by
    rw [allowance]
    exact if_neg fun none => absurd none.1 waits
  have after := (w.conclude a verdict).allowance_le_sub
  rw [actor_conclude, count] at after
  rw [before]
  omega

/-- The channels are dropped with the task. -/
theorem allowance_teardown (none : w'.actor.closes.queue = [])
    (count : w'.actor.consecutiveCloses = w.actor.consecutiveCloses) :
    w'.allowance ≤ w.allowance := by
  rw [allowance, allowance, none, count]
  split
  · exact Nat.zero_le _
  · next counts => rw [if_neg fun back => counts ⟨rfl, back.2⟩]

/-- **A step pays for the close it begins** out of the allowance, which only a refill renews while
a request waits. -/
theorem Counted.pays (counted : w.Counted) (stepped : w.step e = some (w', out))
    (waiting : waits (w, e) = true) :
    (beginsClose (w, e)).toNat + w'.allowance ≤ w.allowance ∨
      refills (w, e) = true ∧ beginsClose (w, e) = false := by
  have idle : ∀ {e : Event} {w' : World}, beginsClose (w, e) = false →
      w'.allowance ≤ w.allowance → (beginsClose (w, e)).toNat + w'.allowance ≤ w.allowance := by
    intro e w' none less
    rw [none]
    exact (le_of_eq (Nat.zero_add _)).trans less
  have kept : ∀ {e : Event} {w' : World}, beginsClose (w, e) = false →
      w'.actor.closes.queue = w.actor.closes.queue →
        w'.actor.consecutiveCloses = w.actor.consecutiveCloses →
          (beginsClose (w, e)).toNat + w'.allowance ≤ w.allowance := fun none closes count =>
    idle none (le_of_eq (allowance_congr closes count))
  have some : ∀ {e : Event}, waits (w, e) = true → w.actor.requests.queue ≠ [] := by
    intro e waiting none
    unfold waits at waiting
    split at waiting
    · cases waiting
    · rw [none] at waiting
      cases waiting
  cases counted.sound.moves stepped with
  | request request => exact Or.inl (kept rfl rfl rfl)
  | close request =>
      by_cases renews : w.actor.closes.queue = [] ∧ w.actor.consecutiveCloses = 0
      · refine Or.inr ⟨?_, rfl⟩
        rw [refills]
        simp [renews]
      · refine Or.inl (idle rfl ?_)
        rw [allowance, allowance, if_neg renews]
        refine le_of_eq (if_neg fun none => ?_)
        exact absurd none.1 (List.append_ne_nil_of_right_ne_nil _ (List.cons_ne_nil _ _))
  | dropRequests => exact Or.inl (kept rfl rfl rfl)
  | dropCloses => exact Or.inl (kept rfl rfl rfl)
  | advance => exact Or.inl (kept rfl rfl rfl)
  | finished => exact Or.inl (idle rfl (allowance_evaluated (some waiting) rfl))
  | waits => exact Or.inl (idle rfl (allowance_evaluated (some waiting) rfl))
  | @took guards isClose callerGone d rest a verdict _ phase opened queue begins =>
      cases isClose with
      | false => cases waiting
      | true =>
          have queue : w.actor.closes.queue = d :: rest := queue
          have nonempty : w.actor.closes.queue ≠ [] := by
            rw [queue]
            exact List.cons_ne_nil _ _
          have paid := @allowance_took w a verdict nonempty (counted.few guards phase opened)
            (by rw [begins_count begins]; rfl)
          exact Or.inl ((Nat.add_le_add_right (Bool.toNat_le _) _).trans paid)
  | @channelEnded guards isClose callerGone phase opened queue =>
      cases isClose with
      | false => cases waiting
      | true =>
          have queue : w.actor.closes.queue = [] := queue
          refine Or.inl (kept ?_ rfl rfl)
          change (!w.actor.closes.queue.isEmpty) = false
          rw [queue]
          rfl
  | unrouted => exact Or.inl (kept rfl (by rw [actor_conclude]) (by rw [actor_conclude]))
  | routed => exact Or.inl (kept rfl (by rw [actor_conclude]) (by rw [actor_conclude]))
  | writeFailed => exact Or.inl (kept rfl (by rw [actor_conclude]) (by rw [actor_conclude]))
  | wrote => exact Or.inl (kept rfl (by rw [actor_conclude]) (by rw [actor_conclude]))
  | silent => exact Or.inl (kept rfl (by rw [actor_conclude]) (by rw [actor_conclude]))
  | ticked => exact Or.inl (kept rfl (by rw [actor_conclude]) (by rw [actor_conclude]))
  | teardown => exact Or.inl (idle rfl (allowance_teardown rfl rfl))

theorem countP_singleton_toNat {α : Type*} (p : α → Bool) (a : α) :
    [a].countP p = (p a).toNat := by
  rw [List.countP_singleton]
  cases p a <;> rfl

/-- No close renews the allowance once one has been begun. -/
def Calm (vs : List (World × Event)) : Prop :=
  vs.Pairwise fun u v => beginsClose u = true → refills v = false

instance (vs : List (World × Event)) : Decidable (Calm vs) :=
  inferInstanceAs (Decidable (vs.Pairwise _))

/-- While a request waits, what has been begun and what may still be are a run at most. -/
theorem Counted.begun_le {es : List Event} {log : List Effect} (counted : w.Counted)
    (ran : connection.run w es = some (w', log))
    (waiting : ∀ v ∈ connection.visits w es, waits v = true)
    (calm : Calm (connection.visits w es)) :
    (connection.visits w es).countP beginsClose + w'.allowance ≤ CLOSE_RUN := by
  have spent : (∀ v ∈ connection.visits w es, waits v = true) → Calm (connection.visits w es) →
      w'.Counted ∧ (connection.visits w es).countP beginsClose + w'.allowance ≤ CLOSE_RUN := by
    apply Machine.run_induction (P := fun done w (_ : List Effect) =>
      (∀ v ∈ done, waits v = true) → Calm done →
        w.Counted ∧ done.countP beginsClose + w.allowance ≤ CLOSE_RUN)
      (fun _ _ => ⟨counted, (le_of_eq (Nat.zero_add _)).trans w.allowance_le⟩) ?_ ran
    intro done w log e w' out before stepped waiting calm
    obtain ⟨earlier, -, across⟩ := List.pairwise_append.mp calm
    obtain ⟨counted, few⟩ := before (fun v member => waiting v (List.mem_append_left _ member))
      earlier
    refine ⟨counted.step stepped, ?_⟩
    rw [List.countP_append, countP_singleton_toNat]
    rcases counted.pays stepped (waiting (w, e) (by simp)) with paid | ⟨renewed, idle⟩
    · omega
    · have none : done.countP beginsClose = 0 := by
        rw [List.countP_eq_zero]
        intro u member began
        have refused := across u member (w, e) List.mem_cons_self began
        rw [renewed] at refused
        cases refused
      rw [none, idle]
      exact (le_of_eq (Nat.zero_add _)).trans w'.allowance_le
  exact (spent waiting calm).2

/-- **Closes do not starve a request**: at most a run of them is begun while one waits, from any
state that is reached, where once one has been begun none comes in that finds no close waiting and
the count back at none. -/
theorem closes_do_not_starve (limit : ℕ) (timeouts : Timeouts) (es es' : List Event)
    (log log' : List Effect) (reached : connection.run (new limit timeouts) es = some (w, log))
    (ran : connection.run w es' = some (w', log'))
    (waiting : ∀ v ∈ connection.visits w es', waits v = true)
    (calm : Calm (connection.visits w es')) :
    (connection.visits w es').countP beginsClose ≤ CLOSE_RUN := by
  have counted : w.Counted := Machine.invariant (m := connection) (counted_new limit timeouts)
    (fun w e w' out counted stepped => counted.step stepped) reached
  exact (Nat.le_add_right _ _).trans (counted.begun_le ran waiting calm)

/-- Two closes come in behind a request that waits, and go ahead of it. -/
def twoClosesGo : List Event :=
  [.close (bareRequest Command.CLOSE), .close (bareRequest Command.CLOSE), .evaluate,
    .takeClose false, .evaluate, .written (.ok 36), .evaluate, .takeClose false]

theorem closes_do_not_starve_behindTwo :
    ∃ w, (connection.visits w twoClosesGo).countP beginsClose = 2 ∧
    (connection.visits w twoClosesGo).countP beginsClose ≤ CLOSE_RUN := by
  have happened : ((connection.run (new 50 ⟨10, 10⟩) [.request (bareRequest Command.ECHO)]).map
      fun result => ((connection.run result.1 twoClosesGo).isSome &&
        (connection.visits result.1 twoClosesGo).all waits &&
          decide (Calm (connection.visits result.1 twoClosesGo)),
        (connection.visits result.1 twoClosesGo).countP beginsClose)) = some (true, 2) := by
    decide +kernel
  obtain ⟨⟨w, log⟩, reached, facts⟩ := Option.map_eq_some_iff.mp happened
  obtain ⟨facts, two⟩ := Prod.ext_iff.mp facts
  simp only [Bool.and_eq_true, List.all_eq_true, decide_eq_true_eq] at facts
  obtain ⟨⟨runs, waiting⟩, calm⟩ := facts
  obtain ⟨⟨w', log'⟩, ran⟩ := Option.isSome_iff_exists.mp runs
  exact ⟨w, two, closes_do_not_starve 50 ⟨10, 10⟩ _ twoClosesGo log log' reached ran waiting calm⟩

/-- A close is begun, and while it is written the next comes in. -/
def oneByOne : List Event :=
  [.evaluate, .takeClose false, .evaluate, .close (bareRequest Command.CLOSE), .written (.ok 36)]

/-- Nine closes that come one by one are begun while a request waits and there is capacity. -/
theorem closes_one_by_one_starve :
    ((connection.run (new 50 ⟨10, 10⟩)
        [.close (bareRequest Command.CLOSE), .request (bareRequest Command.ECHO)]).map fun result =>
      let window := connection.visits result.1 (List.replicate 9 oneByOne).flatten
      ((connection.run result.1 (List.replicate 9 oneByOne).flatten).isSome, window.all waits,
        window.all (fun v => v.1.actor.table.charging < v.1.actor.table.limit),
        window.countP beginsClose)) = some (true, true, true, CLOSE_RUN + 1) := by
  decide +kernel

end World

end Smb1Client
