import Smb1Client.Resource.WriteSpan

/-!
`first_answered`, and when the chunks of a write are handed to the connection.

A chunk's request is handed over when its future is polled and the request channel has room for
it. A poll of `first_answered` goes through the chunks in order and stops at the first that is
ready, so that the ones behind it are not polled. `Polled` is `WriteSpan` with how far the future
of each chunk has come, and its outputs are the requests that are handed over. A poll is one step:
what comes while it is under way is to it as if it had come before or after.
-/

namespace Smb1Client

open Trace

/-- How far the future of a chunk has come. -/
inductive Handing where
  | unpolled
  | waits
  | handed
  deriving DecidableEq

/-- What an open channel does with a request: it has no room, or takes it; and the answer may be
there before the poll that handed the request over is done. -/
inductive Room where
  | full
  | takes
  | answers (outcome : Except Error Reply)
  deriving DecidableEq

/-- Whether a chunk's answer fails the write. A large chunk that is refused for its size does not,
and is put back. -/
def failsWrite (large : Bool) (length : ℕ) (outcome : Except Error Reply) : Bool :=
  match outcome with
  | .error _ => true
  | .ok reply =>
      !(refusesTheSize reply.status && large) && min (reply.acknowledged.getD 0) length = 0

/-- A write whose chunks are futures. `closed` says that the connection has ended. -/
structure Polled where
  span : WriteSpan
  stages : List Handing
  closed : Bool

inductive PolledEvent where
  | downgrade
  | issue (between : Bool)
  | reply (index : ℕ) (outcome : Except Error Reply)
  | close
  | poll (room : ℕ → Room)
  | finish

/-- A poll of `first_answered`: where it leaves the chunks, what it hands over, and the chunk that
is ready. -/
structure Pass where
  stages : List Handing
  asks : List WriteAndxRequest
  ready : Option (ℕ × Except Error Reply)

/-- A chunk is polled. -/
def pollChunk (closed : Bool) (c : WriteChunk) (stage : Handing) (room : Room) :
    Handing × List WriteAndxRequest × Option (Except Error Reply) :=
  match stage with
  | .handed => (.handed, [], c.outcome)
  | _ =>
      if closed then (.waits, [], some (.error .lost))
      else
        match room with
        | .full => (.waits, [], none)
        | .takes => (.handed, [c.request], none)
        | .answers outcome => (.handed, [c.request], some outcome)

/-- The chunks are polled in order, up to the first that is ready. -/
def firstAnswered (closed : Bool) (room : ℕ → Room) : ℕ → List WriteChunk → List Handing → Pass
  | _, [], stages => ⟨stages, [], none⟩
  | _, _ :: _, [] => ⟨[], [], none⟩
  | index, c :: issued, stage :: stages =>
      match pollChunk closed c stage (room index) with
      | (stage, asks, some outcome) => ⟨stage :: stages, asks, some (index, outcome)⟩
      | (stage, asks, none) =>
          let rest := firstAnswered closed room (index + 1) issued stages
          ⟨stage :: rest.stages, asks ++ rest.asks, rest.ready⟩

namespace Polled

def start (downgraded : Bool) (progress : WriteProgress) (data : Bytes) : Polled where
  span := .start downgraded progress data
  stages := []
  closed := false

def pass (s : Polled) (room : ℕ → Room) : Pass :=
  firstAnswered s.closed room 0 s.span.issued s.stages

/-- The outcome of the chunk that is ready, where it has not been told yet. -/
def told (call : WriteCall) (s : WriteSpan) (index : ℕ) (outcome : Except Error Reply) :
    Option WriteSpan :=
  if ((s.issued[index]?).bind (·.outcome)).isSome then some s
  else (WriteSpan.step call s (.reply index outcome)).map (·.1)

def step (call : WriteCall) (s : Polled) : PolledEvent → Option (Polled × List WriteAndxRequest)
  | .downgrade => (WriteSpan.step call s.span .downgrade).map fun (span, _) => ({ s with span }, [])
  | .issue between =>
      (WriteSpan.step call s.span (.issue between)).map fun (span, _) =>
        ({ s with span, stages := s.stages ++ [.unpolled] }, [])
  | .reply index outcome =>
      if s.stages[index]? = some .handed then
        (WriteSpan.step call s.span (.reply index outcome)).map fun (span, _) =>
          ({ s with span }, [])
      else none
  | .close => if s.closed then none else some ({ s with closed := true }, [])
  | .poll room =>
      if s.span.result.isSome ∨ (s.span.nextSpan call).isSome ∨ s.span.issued = [] then none
      else
        let pass := s.pass room
        match pass.ready with
        | none => some ({ s with stages := pass.stages }, pass.asks)
        | some (index, outcome) =>
            ((told call s.span index outcome).bind (WriteSpan.step call · (.answer index))).map
              fun (span, _) => ({ s with span, stages := pass.stages.eraseIdx index }, pass.asks)
  | .finish => (WriteSpan.step call s.span .finish).map fun (span, _) => ({ s with span }, [])

/-- A call of `write_span`. Its outputs are the requests it hands over. -/
def machine (call : WriteCall) : Machine Polled PolledEvent WriteAndxRequest where
  step := step call

end Polled

/-! ## What a poll does -/

/-- What a poll has come to: every chunk ahead of the ready one was polled and was not ready, and no
chunk behind it was polled. -/
structure Scanned (closed : Bool) (room : ℕ → Room) (index : ℕ) (issued : List WriteChunk)
    (stages : List Handing) (pass : Pass) : Prop where
  length : pass.stages.length = stages.length
  ready : ∀ k outcome, pass.ready = some (k, outcome) → ∃ m c stage, k = index + m ∧
    issued[m]? = some c ∧ stages[m]? = some stage ∧
      (pollChunk closed c stage (room k)).2.2 = some outcome ∧
        ∀ j > m, pass.stages[j]? = stages[j]?
  ahead : ∀ j c stage, issued[j]? = some c → stages[j]? = some stage →
    (∀ k outcome, pass.ready = some (k, outcome) → index + j < k) →
      (pollChunk closed c stage (room (index + j))).2.2 = none ∧
        pass.stages[j]? = some (pollChunk closed c stage (room (index + j))).1
  kept : ∀ (j : ℕ) stage', pass.stages[j]? = some stage' → ∃ stage, stages[j]? = some stage ∧
    (stage' = stage ∨ ∃ c, stage' = (pollChunk closed c stage (room (index + j))).1)

theorem firstAnswered_scanned (closed : Bool) (room : ℕ → Room) (index : ℕ)
    (issued : List WriteChunk) (stages : List Handing) :
    Scanned closed room index issued stages (firstAnswered closed room index issued stages) := by
  induction issued generalizing index stages with
  | nil =>
      exact ⟨rfl, fun k outcome => nofun, fun j c stage => nofun,
        fun j stage there => ⟨stage, there, Or.inl rfl⟩⟩
  | cons c issued ih =>
      cases stages with
      | nil =>
          exact ⟨rfl, fun k outcome => nofun, fun j c stage _ => nofun,
            fun j stage there => ⟨stage, there, Or.inl rfl⟩⟩
      | cons stage stages =>
          rw [firstAnswered]
          rcases polled : pollChunk closed c stage (room index) with ⟨stage', asks, _ | outcome⟩
          · have rest := ih (index + 1) stages
            dsimp only
            refine ⟨congrArg Nat.succ rest.length, fun k outcome ready => ?_,
              fun j c' stage₁ found at' before => ?_, fun j stage₁ there => ?_⟩
            · obtain ⟨m, c', stage₁, rfl, found, at', came, behind⟩ := rest.ready k outcome ready
              refine ⟨m + 1, c', stage₁, by omega, found, at', came, fun j later => ?_⟩
              obtain ⟨j, rfl⟩ := Nat.exists_eq_add_of_lt (Nat.zero_lt_of_lt later)
              have later : m < j := by omega
              simpa [Nat.add_comm 0 j] using behind j later
            · cases j with
              | zero =>
                  obtain rfl := Option.some.inj found
                  obtain rfl := Option.some.inj at'
                  rw [Nat.add_zero, polled]
                  exact ⟨rfl, rfl⟩
              | succ j =>
                  have same : index + (j + 1) = index + 1 + j := by omega
                  rw [same]
                  exact rest.ahead j c' stage₁ found at' fun k outcome ready => by
                    have := before k outcome ready
                    omega
            · cases j with
              | zero =>
                  obtain rfl := Option.some.inj there
                  exact ⟨stage, rfl, Or.inr ⟨c, by rw [Nat.add_zero, polled]⟩⟩
              | succ j =>
                  have same : index + (j + 1) = index + 1 + j := by omega
                  rw [same]
                  exact rest.kept j stage₁ there
          · dsimp only
            refine ⟨rfl, fun k outcome' ready => ?_, fun j c' stage₁ found at' before => ?_,
              fun j stage₁ there => ?_⟩
            · cases ready
              refine ⟨0, c, stage, rfl, rfl, rfl, by rw [polled], fun j later => ?_⟩
              cases j with
              | zero => exact absurd later (lt_irrefl 0)
              | succ j => rfl
            · have := before index outcome rfl
              omega
            · cases j with
              | zero =>
                  obtain rfl := Option.some.inj there
                  exact ⟨stage, rfl, Or.inr ⟨c, by rw [Nat.add_zero, polled]⟩⟩
              | succ j => exact ⟨stage₁, there, Or.inl rfl⟩

theorem Scanned.handed {closed : Bool} {room : ℕ → Room} {index : ℕ} {issued : List WriteChunk}
    {stages : List Handing} {pass : Pass} (scanned : Scanned closed room index issued stages pass)
    {j : ℕ} (handed : stages[j]? = some .handed) : pass.stages[j]? = some .handed := by
  have below : j < pass.stages.length := by
    rw [scanned.length]
    exact (List.getElem?_eq_some_iff.mp handed).1
  obtain ⟨stage, was, rfl | ⟨c, polled⟩⟩ := scanned.kept j _ (List.getElem?_eq_getElem below)
  · rw [List.getElem?_eq_getElem below, ← was, handed]
  · rw [List.getElem?_eq_getElem below, polled]
    cases was.symm.trans handed
    rfl

/-- A closed channel takes nothing. -/
theorem asks_of_closed (room : ℕ → Room) (index : ℕ) (issued : List WriteChunk)
    (stages : List Handing) : (firstAnswered true room index issued stages).asks = [] := by
  induction issued generalizing index stages with
  | nil => rfl
  | cons c issued ih =>
      cases stages with
      | nil => rfl
      | cons stage stages =>
          rw [firstAnswered]
          cases stage with
          | handed =>
              rw [pollChunk]
              cases c.outcome with
              | none => exact ih (index + 1) stages
              | some outcome => rfl
          | unpolled => rfl
          | waits => rfl

/-- What has been handed over is not handed over again. -/
theorem asks_of_handed (closed : Bool) (room : ℕ → Room) (index : ℕ) (issued : List WriteChunk)
    (stages : List Handing) (handed : ∀ stage ∈ stages, stage = .handed) :
    (firstAnswered closed room index issued stages).asks = [] := by
  induction issued generalizing index stages with
  | nil => rfl
  | cons c issued ih =>
      cases stages with
      | nil => rfl
      | cons stage stages =>
          obtain rfl := handed stage List.mem_cons_self
          rw [firstAnswered, pollChunk]
          cases c.outcome with
          | none => exact ih (index + 1) stages fun stage member =>
              handed stage (List.mem_cons_of_mem _ member)
          | some outcome => rfl

/-- What an answer leaves of a failure. -/
theorem WriteSpan.failure_of_acknowledge {s : WriteSpan} {c : WriteChunk}
    {outcome : Except Error Reply} (spared : failsWrite c.large c.length outcome = false) :
    (s.acknowledge c outcome).1.failure = s.failure := by
  cases outcome with
  | error error => cases spared
  | ok reply =>
      rw [WriteSpan.acknowledge]
      dsimp only
      split
      · rfl
      · next kept =>
          rw [failsWrite, Bool.eq_false_iff.mpr kept, Bool.not_false, Bool.true_and,
            decide_eq_false_iff_not, Reply.acknowledged] at spared
          by_cases success : reply.status = .SUCCESS
          · rw [if_neg (not_not.mpr success)] at spared ⊢
            cases decoded : WriteAndxResponse.decode reply.message with
            | error error =>
                rw [decoded] at spared
                exact absurd (Nat.zero_min _) spared
            | ok response =>
                rw [decoded] at spared
                have some : ¬ min response.count.toNat c.length = 0 := spared
                dsimp only
                rw [if_neg some]
          · rw [if_pos success] at spared
            exact absurd (Nat.zero_min _) spared

namespace Polled

variable {call : WriteCall} {s s' : Polled} {e : PolledEvent} {out : List WriteAndxRequest}

/-- What a step does. -/
inductive Stepped (call : WriteCall) (s : Polled) :
    PolledEvent → Polled → List WriteAndxRequest → Prop
  | downgrade {span : WriteSpan} {told : List WriteOut}
      (moved : WriteSpan.step call s.span .downgrade = some (span, told)) :
      Stepped call s .downgrade { s with span } []
  | issue {between : Bool} {span : WriteSpan} {told : List WriteOut}
      (moved : WriteSpan.step call s.span (.issue between) = some (span, told)) :
      Stepped call s (.issue between) { s with span, stages := s.stages ++ [.unpolled] } []
  | reply {index : ℕ} {outcome : Except Error Reply} {span : WriteSpan} {told : List WriteOut}
      (handed : s.stages[index]? = some .handed)
      (moved : WriteSpan.step call s.span (.reply index outcome) = some (span, told)) :
      Stepped call s (.reply index outcome) { s with span } []
  | close : Stepped call s .close { s with closed := true } []
  | waits {room : ℕ → Room} (none : (s.pass room).ready = none) :
      Stepped call s (.poll room) { s with stages := (s.pass room).stages } (s.pass room).asks
  | takes {room : ℕ → Room} {index : ℕ} {outcome : Except Error Reply} {span span' : WriteSpan}
      {log : List WriteOut} (ready : (s.pass room).ready = some (index, outcome))
      (knows : told call s.span index outcome = some span)
      (moved : WriteSpan.step call span (.answer index) = some (span', log)) :
      Stepped call s (.poll room)
        { s with span := span', stages := (s.pass room).stages.eraseIdx index } (s.pass room).asks
  | finish {span : WriteSpan} {told : List WriteOut}
      (moved : WriteSpan.step call s.span .finish = some (span, told)) :
      Stepped call s .finish { s with span } []

theorem step_cases (stepped : step call s e = some (s', out)) : Stepped call s e s' out := by
  cases e with
  | downgrade =>
      obtain ⟨⟨span, told⟩, moved, same⟩ := Option.map_eq_some_iff.mp stepped
      cases same
      exact .downgrade moved
  | issue between =>
      obtain ⟨⟨span, told⟩, moved, same⟩ := Option.map_eq_some_iff.mp stepped
      cases same
      exact .issue moved
  | reply index outcome =>
      rw [step] at stepped
      split at stepped
      · next handed =>
          obtain ⟨⟨span, told⟩, moved, same⟩ := Option.map_eq_some_iff.mp stepped
          cases same
          exact .reply handed moved
      · cases stepped
  | close =>
      rw [step] at stepped
      split at stepped <;> cases stepped
      exact .close
  | poll room =>
      rw [step] at stepped
      split at stepped
      · cases stepped
      · dsimp only at stepped
        split at stepped
        · next none =>
            cases stepped
            exact .waits none
        · next index outcome ready =>
            obtain ⟨⟨span', log⟩, moved, same⟩ := Option.map_eq_some_iff.mp stepped
            obtain ⟨span, knows, moved⟩ := Option.bind_eq_some_iff.mp moved
            cases same
            exact .takes ready knows moved
  | finish =>
      obtain ⟨⟨span, told⟩, moved, same⟩ := Option.map_eq_some_iff.mp stepped
      cases same
      exact .finish moved

theorem scanned (s : Polled) (room : ℕ → Room) :
    Scanned s.closed room 0 s.span.issued s.stages (s.pass room) :=
  firstAnswered_scanned s.closed room 0 s.span.issued s.stages

/-- A chunk that is ready has its outcome by the time it is taken. -/
theorem told_spec {index : ℕ} {outcome : Except Error Reply} {w w' : WriteSpan}
    (knows : told call w index outcome = some w') :
    w'.failure = w.failure ∧ ∃ c c', w.issued[index]? = some c ∧
      w'.issued = w.issued.set index c' ∧ c'.large = c.large ∧ c'.length = c.length ∧
        (c' = c ∧ c.outcome.isSome = true ∨ c.outcome = none ∧ c'.outcome = some outcome) := by
  rw [told] at knows
  split at knows
  · next came =>
      cases knows
      obtain ⟨had, of⟩ := Option.isSome_iff_exists.mp came
      obtain ⟨c, found, came⟩ := Option.bind_eq_some_iff.mp of
      have below := (List.getElem?_eq_some_iff.mp found).1
      refine ⟨rfl, c, c, found, ?_, rfl, rfl, Or.inl ⟨rfl, by rw [came]; rfl⟩⟩
      rw [← (List.getElem?_eq_some_iff.mp found).2, List.set_getElem_self]
  · obtain ⟨⟨span, log⟩, moved, same⟩ := Option.map_eq_some_iff.mp knows
    cases same
    cases WriteSpan.step_cases moved with
    | @reply index outcome c found waits =>
        exact ⟨rfl, c, _, found, rfl, rfl, rfl, Or.inr ⟨waits, rfl⟩⟩

theorem run_of_step {w w' : WriteSpan} {event : WriteEvent} {log : List WriteOut}
    (moved : WriteSpan.step call w event = some (w', log)) :
    (WriteSpan.machine call).run w [event] = some (w', log) :=
  Machine.run_singleton (m := WriteSpan.machine call) moved

/-- Every step is one of `WriteSpan`, two of them where the chunk that is taken had not been
told its outcome, or none. -/
theorem Stepped.spans (stepped : Stepped call s e s' out) :
    ∃ es log, (WriteSpan.machine call).run s.span es = some (s'.span, log) := by
  cases stepped with
  | downgrade moved => exact ⟨_, _, run_of_step moved⟩
  | issue moved => exact ⟨_, _, run_of_step moved⟩
  | reply handed moved => exact ⟨_, _, run_of_step moved⟩
  | close => exact ⟨[], [], rfl⟩
  | waits none => exact ⟨[], [], rfl⟩
  | takes ready knows moved =>
      rw [told] at knows
      split at knows
      · cases knows
        exact ⟨_, _, run_of_step moved⟩
      · obtain ⟨⟨span, told⟩, replied, same⟩ := Option.map_eq_some_iff.mp knows
        cases same
        exact ⟨_, _, Machine.run_append (run_of_step replied)
          (run_of_step moved)⟩
  | finish moved => exact ⟨_, _, run_of_step moved⟩

/-- **The polled loop is a run of `WriteSpan`.** -/
theorem spans_of_run {downgraded : Bool} {progress : WriteProgress} {es : List PolledEvent}
    {log : List WriteAndxRequest}
    (ran : (machine call).run (start downgraded progress call.data) es = some (s, log)) :
    ∃ es log, (WriteSpan.machine call).run (.start downgraded progress call.data) es =
      some (s.span, log) := by
  refine Machine.invariant (P := fun s : Polled => ∃ es log, (WriteSpan.machine call).run
    (.start downgraded progress call.data) es = some (s.span, log)) ⟨[], [], rfl⟩ ?_ ran
  intro s e s' out ⟨es, log, before⟩ stepped
  obtain ⟨more, log', after⟩ := (step_cases stepped).spans
  exact ⟨_, _, Machine.run_append before after⟩

/-- Where the chunk at a place was, before another was taken out. -/
def skip (out place : ℕ) : ℕ := if place < out then place else place + 1

theorem getElem?_skip {α : Type*} (l : List α) (out place : ℕ) :
    (l.eraseIdx out)[place]? = l[skip out place]? := by
  rw [List.getElem?_eraseIdx, skip]
  split <;> rfl

theorem skip_lt {out place behind : ℕ} (later : place < behind) :
    skip out place < skip out behind := by
  rw [skip, skip]
  split <;> split <;> omega

theorem skip_ne (out place : ℕ) : out ≠ skip out place := by
  rw [skip]
  split <;> omega

/-! ## Answers and the chunks behind them -/

/-- An answer that counts comes, or waits, with nothing behind it that is not done: no chunk is
issued behind one that waits; where one comes, the chunks behind its own are done; and where one is
there in the very poll that hands its request over, the chunks behind are done. -/
def Steady (counts : Bool → ℕ → Except Error Reply → Bool) (done : Handing → Bool) (s : Polled) :
    PolledEvent → Prop
  | .issue _ => ∀ c ∈ s.span.issued, ∀ outcome ∈ c.outcome, counts c.large c.length outcome = false
  | .reply index outcome => ∀ c ∈ s.span.issued[index]?, counts c.large c.length outcome = true →
      ∀ stage ∈ s.stages.drop (index + 1), done stage = true
  | .poll room => ∀ ready ∈ (s.pass room).ready, ∀ c ∈ s.span.issued[ready.1]?,
      counts c.large c.length ready.2 = true → s.closed = false →
        s.stages[ready.1]? ≠ some .handed →
          ∀ stage ∈ s.stages.drop (ready.1 + 1), done stage = true
  | _ => True

/-- The chunks polled ahead of an answer that fails the write find room. -/
def Roomy (s : Polled) : PolledEvent → Prop
  | .poll room => ∀ ready ∈ (s.pass room).ready, ∀ c ∈ s.span.issued[ready.1]?,
      failsWrite c.large c.length ready.2 = true →
        ∀ j < ready.1, s.stages[j]? = some .handed ∨ room j ≠ .full
  | _ => True

instance (counts : Bool → ℕ → Except Error Reply → Bool) (done : Handing → Bool) (s : Polled)
    (e : PolledEvent) : Decidable (s.Steady counts done e) := by
  cases e <;> unfold Steady <;> infer_instance

instance (s : Polled) (e : PolledEvent) : Decidable (s.Roomy e) := by
  cases e <;> unfold Roomy <;> infer_instance

/-- A chunk behind another. -/
theorem mem_behind {stages : List Handing} {index j : ℕ} {stage : Handing} (later : j > index)
    (there : stages[j]? = some stage) : stage ∈ stages.drop (index + 1) := by
  obtain ⟨more, rfl⟩ := Nat.exists_eq_add_of_le (Nat.succ_le_of_lt later)
  rw [← List.getElem?_drop] at there
  exact List.mem_of_getElem? there

/-- A chunk that was answered had been handed over; and behind an answer that counts, and that waits
to be taken, every chunk is done. -/
structure Ordered (counts : Bool → ℕ → Except Error Reply → Bool) (done : Handing → Bool)
    (s : Polled) : Prop where
  paired : s.stages.length = s.span.issued.length
  answered : ∀ (index : ℕ) c, s.span.issued[index]? = some c → c.outcome.isSome = true →
    s.stages[index]? = some .handed
  behind : ∀ (index : ℕ) c outcome, s.span.issued[index]? = some c → c.outcome = some outcome →
    counts c.large c.length outcome = true →
      ∀ j > index, ∀ stage, s.stages[j]? = some stage → done stage = true

variable {counts : Bool → ℕ → Except Error Reply → Bool} {done : Handing → Bool}

theorem ordered_start {downgraded : Bool} {progress : WriteProgress} {data : Bytes} :
    Ordered counts done (start downgraded progress data) :=
  ⟨rfl, fun _ _ => nofun, fun _ _ _ => nofun⟩

/-- What is done stays done when it is polled. -/
def Lasting (done : Handing → Bool) : Prop :=
  ∀ closed c stage room, done stage = true → done (pollChunk closed c stage room).1 = true

theorem done_of_done (lasts : Lasting done) {closed : Bool} {room : ℕ → Room} {first : ℕ}
    {issued : List WriteChunk} {stages : List Handing} {pass : Pass}
    (scanned : Scanned closed room first issued stages pass) {j : ℕ}
    (before : ∀ stage, stages[j]? = some stage → done stage = true) :
    ∀ stage, pass.stages[j]? = some stage → done stage = true := by
  intro stage' there
  obtain ⟨stage, was, rfl | ⟨c, rfl⟩⟩ := scanned.kept j stage' there
  · exact before stage' was
  · exact lasts _ _ _ _ (before stage was)

/-- Where an answer that counts is taken, what is behind it is done, unless the connection has
ended. -/
theorem Ordered.taken (ordered : Ordered counts done s) {room : ℕ → Room} {index : ℕ}
    {outcome : Except Error Reply} {c : WriteChunk} (steady : Steady counts done s (.poll room))
    (ready : (s.pass room).ready = some (index, outcome)) (found : s.span.issued[index]? = some c)
    (counted : counts c.large c.length outcome = true) :
    s.closed = true ∨ ∀ j > index, ∀ stage, s.stages[j]? = some stage → done stage = true := by
  obtain ⟨m, c', stage, same, found', there, came, -⟩ := (s.scanned room).ready index outcome ready
  rw [Nat.zero_add] at same
  subst same
  cases found.symm.trans found'
  cases closed : s.closed with
  | true => exact Or.inl rfl
  | false =>
      by_cases handed : stage = .handed
      · subst handed
        exact Or.inr (ordered.behind index c outcome found came counted)
      · refine Or.inr fun j later stage' behind => steady _ ready c found counted closed
          (fun same => ?_) stage' (mem_behind later behind)
        exact handed (Option.some.inj (there.symm.trans same))

theorem Ordered.stepped (lasts : Lasting done) (ordered : Ordered counts done s)
    (steady : Steady counts done s e) (stepped : Stepped call s e s' out) :
    Ordered counts done s' := by
  cases stepped with
  | downgrade moved =>
      cases WriteSpan.step_cases moved with
      | downgrade large => exact ⟨ordered.paired, ordered.answered, ordered.behind⟩
  | issue moved =>
      cases WriteSpan.step_cases moved with
      | issue running sound room took =>
          refine ⟨?_, ?_, ?_⟩
          · simp only [List.length_append, List.length_singleton, ordered.paired]
          · intro index c found came
            by_cases before : index < s.span.issued.length
            · rw [List.getElem?_append_left before] at found
              rw [List.getElem?_append_left (by rw [ordered.paired]; exact before)]
              exact ordered.answered index c found came
            · rw [List.getElem?_append_right (not_lt.mp before)] at found
              obtain rfl := List.mem_singleton.mp (List.mem_of_getElem? found)
              cases came
          · intro index c outcome found came counted
            rcases List.mem_append.mp (List.mem_of_getElem? found) with before | new
            · rw [steady c before outcome came] at counted
              cases counted
            · obtain rfl := List.mem_singleton.mp new
              cases came
  | @reply index outcome span told handed moved =>
      cases WriteSpan.step_cases moved with
      | @reply index outcome c found waits =>
          refine ⟨?_, ?_, ?_⟩
          · simp only [List.length_set, ordered.paired]
          · intro i c' found' came
            by_cases same : index = i
            · rw [← same]
              exact handed
            · rw [List.getElem?_set_ne same] at found'
              exact ordered.answered i c' found' came
          · intro i c' outcome' found' came counted
            by_cases same : index = i
            · subst same
              rw [List.getElem?_set_self (List.getElem?_eq_some_iff.mp found).1] at found'
              cases found'
              cases came
              exact fun j later stage behind =>
                steady c found counted stage (mem_behind later behind)
            · rw [List.getElem?_set_ne same] at found'
              exact ordered.behind i c' outcome' found' came counted
  | close => exact ⟨ordered.paired, ordered.answered, ordered.behind⟩
  | @waits room none =>
      have scanned := s.scanned room
      refine ⟨scanned.length.trans ordered.paired, fun i c found came => ?_,
        fun i c outcome found came counted j later => ?_⟩
      · exact scanned.handed (ordered.answered i c found came)
      · exact done_of_done lasts scanned (ordered.behind i c outcome found came counted j later)
  | @takes room index outcome span span' log ready knows moved =>
      have scanned := s.scanned room
      obtain ⟨-, c, c', found, issued, -, -, -⟩ := told_spec knows
      cases WriteSpan.step_cases moved with
      | @answer index outcome' c'' running full found' came =>
          refine ⟨?_, fun i taken found'' came' => ?_,
            fun i taken outcome'' found'' came' counted j later stage there => ?_⟩
          · rw [(WriteSpan.acknowledge_keeps outcome').1]
            dsimp only
            rw [issued, List.eraseIdx_set_eq, List.length_eraseIdx, List.length_eraseIdx,
              scanned.length, ordered.paired]
          · rw [(WriteSpan.acknowledge_keeps outcome').1] at found''
            dsimp only at found'' ⊢
            rw [issued, List.eraseIdx_set_eq, getElem?_skip] at found''
            rw [getElem?_skip]
            exact scanned.handed (ordered.answered (skip index i) taken found'' came')
          · rw [(WriteSpan.acknowledge_keeps outcome').1] at found''
            dsimp only at found'' there
            rw [issued, List.eraseIdx_set_eq, getElem?_skip] at found''
            rw [getElem?_skip] at there
            exact done_of_done lasts scanned (ordered.behind (skip index i) taken outcome'' found''
              came' counted (skip index j) (skip_lt later)) stage there
  | finish moved =>
      cases WriteSpan.step_cases moved with
      | finish running full drained => exact ⟨ordered.paired, ordered.answered, ordered.behind⟩

/-! ## A write that has failed -/

def isHanded (stage : Handing) : Bool := stage = .handed

def isPolled (stage : Handing) : Bool := stage ≠ .unpolled

theorem handed_lasts : Lasting isHanded := by
  intro closed c stage room handed
  obtain rfl := of_decide_eq_true handed
  rfl

theorem pollChunk_polled (closed : Bool) (c : WriteChunk) (stage : Handing) (room : Room) :
    isPolled (pollChunk closed c stage room).1 = true := by
  cases stage with
  | handed => rfl
  | unpolled => cases closed <;> cases room <;> rfl
  | waits => cases closed <;> cases room <;> rfl

theorem polled_lasts : Lasting isPolled := fun closed c stage room _ =>
  pollChunk_polled closed c stage room

/-- A poll that finds room, and no answer yet, hands the chunk over. -/
theorem pollChunk_handed {c : WriteChunk} {stage : Handing} {room : Room}
    (roomy : stage = .handed ∨ room ≠ .full) (waits : (pollChunk false c stage room).2.2 = none) :
    (pollChunk false c stage room).1 = .handed := by
  cases stage with
  | handed => rfl
  | _ =>
      rcases roomy with none | roomy
      · cases none
      · cases room with
        | full => exact absurd rfl roomy
        | takes => rfl
        | answers outcome => cases waits

/-- The chunk that is taken has the outcome that was ready. -/
theorem Ordered.told (ordered : Ordered counts done s) {room : ℕ → Room} {index : ℕ}
    {outcome : Except Error Reply} {span : WriteSpan}
    (ready : (s.pass room).ready = some (index, outcome))
    (knows : told call s.span index outcome = some span) :
    span.failure = s.span.failure ∧ ∃ c c', s.span.issued[index]? = some c ∧
      span.issued[index]? = some c' ∧ c'.large = c.large ∧ c'.length = c.length ∧
        c'.outcome = some outcome := by
  obtain ⟨failure, c, c', found, issued, large, length, came⟩ := told_spec knows
  obtain ⟨m, c₀, stage, same, found₀, there, polled, -⟩ :=
    (s.scanned room).ready index outcome ready
  rw [Nat.zero_add] at same
  subst same
  cases found.symm.trans found₀
  refine ⟨failure, c, c', found, ?_, large, length, ?_⟩
  · rw [issued]
    exact List.getElem?_set_self (List.getElem?_eq_some_iff.mp found).1
  · rcases came with ⟨rfl, came⟩ | ⟨-, came⟩
    · cases there.symm.trans (ordered.answered index c' found came)
      exact polled
    · exact came

/-- A write that has failed has nothing left to hand over. -/
def Stopped (s : Polled) : Prop :=
  s.span.failure ≠ none → s.closed = true ∨ ∀ stage ∈ s.stages, stage = .handed

theorem Stopped.asks (stopped : s.Stopped) (failed : s.span.failure ≠ none) (room : ℕ → Room) :
    (s.pass room).asks = [] := by
  rw [pass]
  rcases stopped failed with closed | handed
  · rw [closed]
    exact asks_of_closed room 0 s.span.issued s.stages
  · exact asks_of_handed s.closed room 0 s.span.issued s.stages handed

/-- Where an answer that counts is taken, every other chunk is done, unless the connection has
ended. -/
theorem Ordered.others (ordered : Ordered counts done s) {room : ℕ → Room} {index : ℕ}
    {outcome : Except Error Reply} {c : WriteChunk} (steady : Steady counts done s (.poll room))
    (ready : (s.pass room).ready = some (index, outcome)) (found : s.span.issued[index]? = some c)
    (counted : counts c.large c.length outcome = true)
    (finds : ∀ j < index, ∀ c stage, s.stages[j]? = some stage →
      (pollChunk false c stage (room j)).2.2 = none →
        done (pollChunk false c stage (room j)).1 = true) :
    s.closed = true ∨ ∀ stage ∈ (s.pass room).stages.eraseIdx index, done stage = true := by
  have scanned := s.scanned room
  cases closed : s.closed with
  | true => exact Or.inl rfl
  | false =>
      refine Or.inr fun stage member => ?_
      obtain ⟨place, there⟩ := List.getElem?_of_mem member
      rw [getElem?_skip] at there
      rcases lt_or_gt_of_ne (skip_ne index place) with behind | ahead
      · obtain ⟨m, -, -, same, -, -, -, kept⟩ := scanned.ready index outcome ready
        rw [Nat.zero_add] at same
        subst same
        rw [kept (skip index place) behind] at there
        rcases ordered.taken steady ready found counted with ended | all
        · rw [closed] at ended
          cases ended
        · exact all (skip index place) behind stage there
      · obtain ⟨stage₀, was, -⟩ := scanned.kept (skip index place) stage there
        have below : skip index place < s.span.issued.length := by
          rw [← ordered.paired]
          exact (List.getElem?_eq_some_iff.mp was).1
        obtain ⟨waits, polled⟩ := scanned.ahead (skip index place) _ stage₀
          (List.getElem?_eq_getElem below) was fun k outcome' ready' => by
            cases ready.symm.trans ready'
            omega
        rw [Nat.zero_add, closed] at waits polled
        rw [polled] at there
        rw [← Option.some.inj there]
        exact finds (skip index place) ahead _ stage₀ was waits

theorem Stopped.stepped (stopped : s.Stopped) (ordered : Ordered failsWrite isHanded s)
    (steady : Steady failsWrite isHanded s e) (roomy : Roomy s e)
    (stepped : Stepped call s e s' out) : s'.Stopped := by
  intro failed
  cases stepped with
  | downgrade moved =>
      cases WriteSpan.step_cases moved with
      | downgrade large => exact stopped failed
  | issue moved =>
      cases WriteSpan.step_cases moved with
      | issue running sound room took => exact absurd sound failed
  | reply handed moved =>
      cases WriteSpan.step_cases moved with
      | reply found waits => exact stopped failed
  | close => exact Or.inl rfl
  | @waits room none =>
      refine (stopped failed).imp_right fun handed stage member => ?_
      obtain ⟨place, there⟩ := List.getElem?_of_mem member
      exact of_decide_eq_true (done_of_done handed_lasts (s.scanned room)
        (fun stage was => decide_eq_true (handed stage (List.mem_of_getElem? was))) stage there)
  | @takes room index outcome span span' log ready knows moved =>
      obtain ⟨sameFailure, c, c', found, issued, large, length, came⟩ := ordered.told ready knows
      cases WriteSpan.step_cases moved with
      | @answer index outcome' c'' running full found' came' =>
          cases issued.symm.trans found'
          cases came.symm.trans came'
          by_cases before : s.span.failure = none
          · have fails : failsWrite c.large c.length outcome = true := by
              rw [← large, ← length]
              by_contra spared
              apply failed
              rw [WriteSpan.failure_of_acknowledge (Bool.eq_false_iff.mpr spared)]
              exact sameFailure.trans before
            refine (ordered.others steady ready found fails ?_).imp_right fun all stage member =>
              of_decide_eq_true (all stage member)
            intro j ahead c stage was waits
            refine decide_eq_true (pollChunk_handed ?_ waits)
            rcases roomy _ ready _ found fails j ahead with handed | room
            · exact Or.inl (Option.some.inj (was.symm.trans handed))
            · exact Or.inr room
          · refine (stopped before).imp_right fun handed stage member => ?_
            obtain ⟨place, there⟩ := List.getElem?_of_mem (List.mem_of_mem_eraseIdx member)
            exact of_decide_eq_true (done_of_done handed_lasts (s.scanned room)
              (fun stage was => decide_eq_true (handed stage (List.mem_of_getElem? was))) stage
              there)
  | finish moved =>
      cases WriteSpan.step_cases moved with
      | finish running full drained => exact stopped failed

/-! ## Runs -/

/-- **A write that has failed hands nothing over any more**, in a run in which no chunk is issued
behind an answer that fails the write, none comes with a chunk behind it that is not handed over,
and what is polled ahead of one finds room; and where an answer of any kind is taken every chunk has
been polled, in a run in which no chunk is issued behind an answer that waits, and none comes with a
chunk behind it that is not polled. -/
theorem failed_write_hands_over_nothing (call : WriteCall) (downgraded : Bool)
    (progress : WriteProgress) (es : List PolledEvent) :
    ((∀ v ∈ (machine call).visits (start downgraded progress call.data) es,
        Steady failsWrite isHanded v.1 v.2 ∧ Roomy v.1 v.2) →
      ∀ v ∈ (machine call).visits (start downgraded progress call.data) es,
        ∀ s' out, (machine call).step v.1 v.2 = some (s', out) →
          (v.1.span.failure ≠ none → out = []) ∧
            (s'.span.failure ≠ none → s'.closed = true ∨ ∀ stage ∈ s'.stages, stage = .handed)) ∧
      ((∀ v ∈ (machine call).visits (start downgraded progress call.data) es,
          Steady (fun _ _ _ => true) isPolled v.1 v.2) →
        ∀ v ∈ (machine call).visits (start downgraded progress call.data) es,
          ∀ room index outcome, v.2 = .poll room → (v.1.pass room).ready = some (index, outcome) →
            v.1.closed = true ∨
              ∀ stage ∈ (v.1.pass room).stages.eraseIdx index, stage ≠ .unpolled) := by
  constructor
  · rintro steady ⟨s, e⟩ visited s' out stepped
    have held := Machine.visits_induction (P := fun s => Ordered failsWrite isHanded s ∧ s.Stopped)
      ⟨ordered_start, fun failed => absurd rfl failed⟩
      (fun s e s' out holds (allowed : Steady failsWrite isHanded s e ∧ Roomy s e) stepped =>
        ⟨holds.1.stepped handed_lasts allowed.1 (step_cases stepped),
          holds.2.stepped holds.1 allowed.1 allowed.2 (step_cases stepped)⟩) steady
    obtain ⟨ordered, stopped⟩ := held (s, e) visited
    obtain ⟨calm, roomy⟩ := steady (s, e) visited
    refine ⟨fun failed => ?_, stopped.stepped ordered calm roomy (step_cases stepped)⟩
    cases step_cases stepped with
    | waits none => exact stopped.asks failed _
    | takes ready knows moved => exact stopped.asks failed _
    | _ => rfl
  · rintro steady ⟨s, e⟩ visited room index outcome same ready
    obtain rfl : e = .poll room := same
    have ordered := Machine.visits_induction (P := Ordered (fun _ _ _ => true) isPolled)
      ordered_start (fun s e s' out holds (allowed : Steady (fun _ _ _ => true) isPolled s e)
        stepped => holds.stepped polled_lasts allowed (step_cases stepped)) steady _ visited
    obtain ⟨m, c, stage, same, found, -⟩ := (s.scanned room).ready index outcome ready
    rw [Nat.zero_add] at same
    subst same
    exact (ordered.others (steady _ visited) ready found rfl
      fun j _ c stage _ _ => pollChunk_polled false c stage (room j)).imp_right
        fun all stage member => of_decide_eq_true (all stage member)

/-- A write of five chunks, four of them at a time. -/
def fiveChunks : WriteCall := ⟨⟨50, 4356, 0⟩, 1, 0, 4, .replicate 13329 7⟩

/-- The second of the four fails, which is taken before the fifth is issued. -/
def secondFails : List PolledEvent :=
  [.issue false, .issue false, .issue false, .issue false, .poll fun _ => .takes,
    .reply 1 (.error .timeout), .poll fun _ => .takes, .reply 0 (.ok (writeReply 3332)),
    .poll fun _ => .takes, .reply 0 (.ok (writeReply 3332)), .poll fun _ => .takes,
    .reply 0 (.ok (writeReply 3332)), .poll fun _ => .takes, .finish]

theorem failed_write_hands_over_nothing_secondFails :
    (∀ v ∈ (machine fiveChunks).visits (start false .new fiveChunks.data) secondFails,
      ∀ s' out, (machine fiveChunks).step v.1 v.2 = some (s', out) →
        v.1.span.failure ≠ none → out = []) ∧
      (∀ v ∈ (machine fiveChunks).visits (start false .new fiveChunks.data) secondFails,
        ∀ room index outcome, v.2 = .poll room → (v.1.pass room).ready = some (index, outcome) →
          v.1.closed = true ∨ ∀ stage ∈ (v.1.pass room).stages.eraseIdx index, stage ≠ .unpolled) ∧
        ∃ v ∈ (machine fiveChunks).visits (start false .new fiveChunks.data) secondFails,
          v.1.span.failure ≠ none ∧ v.1.span.issued.length = 3 := by
  have steady : ∀ v ∈ (machine fiveChunks).visits (start false .new fiveChunks.data) secondFails,
      Steady failsWrite isHanded v.1 v.2 ∧ Roomy v.1 v.2 := by decide +kernel
  have calm : ∀ v ∈ (machine fiveChunks).visits (start false .new fiveChunks.data) secondFails,
      Steady (fun _ _ _ => true) isPolled v.1 v.2 := by decide +kernel
  have stops := failed_write_hands_over_nothing fiveChunks false .new secondFails
  exact ⟨fun v visited s' out stepped => (stops.1 steady v visited s' out stepped).1,
    stops.2 calm, by decide +kernel⟩

/-- The first two are answered, the second with a failure, before the loop gets to either. -/
def twoAtOnce : List PolledEvent :=
  [.issue false, .issue false, .issue false, .issue false, .poll fun _ => .takes,
    .reply 0 (.ok (writeReply 3332)), .reply 1 (.error .timeout), .poll fun _ => .takes,
    .issue false, .poll fun _ => .takes]

theorem failed_write_hands_over_the_fifth :
    (((machine fiveChunks).run (start false .new fiveChunks.data) twoAtOnce).bind fun result =>
      ((machine fiveChunks).step result.1 (.poll fun _ => .takes)).map fun next =>
        (result.1.span.failure, next.2.map (·.offset))) =
      some (some (.ofConnection .timeout), [13328]) := by
  decide +kernel

end Polled

end Smb1Client
