import Smb1Client.ClientError
import Smb1Client.TimerRange

/-!
`client.rs`: the cache of connections, the dials in flight, and the calls of `acquire` that
wait on them.

A step is a stretch of one task's code that nothing interleaves with: a critical section of
the cache's lock, the write of a dial's outcome, the send on its `watch` channel, or one
resumption of a waiting call. How long an entry has been idle, what a probe comes to and what
the dialler hands back are for the event to say. A panic ends the call it strikes and leaves the
cache as that call had it, for the lock is taken back from a thread that died holding it.
-/

namespace Smb1Client

namespace ClientError

/-- The error a task that waited on somebody else's dial is given. -/
def duplicate : ClientError → ClientError
  | connectTimeout => connectTimeout
  | guestLogon => guestLogon
  | signingRequired => signingRequired
  | unsupportedServer requirement => unsupportedServer requirement
  | invalidPath refusal => invalidPath refusal
  | .status s => .status s
  | connectionLost s => connectionLost s
  | treeDisconnected => treeDisconnected
  | requestTimeout => requestTimeout
  | other => io other.kind

theorem kind_duplicate (error : ClientError) : error.duplicate.kind = error.kind := by
  cases error <;> rfl

end ClientError

namespace DialCache

/-! ## The cache -/

/-- What a dial comes to: an entry of the cache, named by the dial that made it. -/
abbrev Outcome := Except ClientError ℕ

/-- What the cache holds against one dial address. -/
inductive Slot where
  | dialing (dial : ℕ)
  | ready (cached : ℕ)
  deriving DecidableEq

/-- A `watch` channel: its value, and how often it has been sent on. -/
structure Watch where
  value : Bool
  version : ℕ
  deriving DecidableEq

/-- How far the task of a dial has come. -/
inductive Stage where
  /-- The cache has the dial, and no task does. -/
  | created
  /-- `inner.dial` is awaited. -/
  | dialing
  /-- The cache has been updated, and `finish` is next. -/
  | decided (outcome : Outcome)
  /-- `finish` has written the outcome. -/
  | stored
  /-- `finish` has sent. -/
  | finished
  deriving DecidableEq

/-- A dial, and the outcome every task waiting on it reads. -/
structure Dial (κ : Type) where
  key : κ
  stage : Stage
  outcome : Option Outcome
  done : Watch
  deriving DecidableEq

def Dial.new {κ : Type} (key : κ) : Dial κ := ⟨key, .created, none, ⟨false, 0⟩⟩

/-- A dial whose task has been started. -/
def Dial.spawned {κ : Type} (dial : Dial κ) : Dial κ := { dial with stage := .dialing }

/-- Where a call is in `Dial::wait`. -/
inductive Wait where
  /-- About to read the channel's value. -/
  | checking
  /-- About to poll `changed`. -/
  | changing
  /-- Asleep in `changed`. -/
  | parked
  /-- Past the loop, and about to read the outcome. -/
  | reading
  deriving DecidableEq

/-- How far a call of `acquire` has come. -/
inductive Call (κ : Type) where
  | looking (key : κ)
  | judging (key : κ) (cached : ℕ)
  | forgetting (key : κ) (cached : ℕ)
  | waiting (dial seen : ℕ) (wait : Wait)
  | returned (result : Outcome)
  | dropped
  | panicked
  deriving DecidableEq

namespace Call

variable {κ : Type}

/-- Whether the call still borrows the client. -/
def active : Call κ → Bool
  | returned _ => false
  | dropped => false
  | panicked => false
  | _ => true

/-- Whether the call holds a receiver of the dial's channel. -/
def receives (dial : ℕ) : Call κ → Bool
  | waiting d _ _ => d = dial
  | _ => false

/-- What a send does to a call that sleeps on the dial. -/
def wake (dial : ℕ) : Call κ → Call κ
  | waiting d seen .parked => if d = dial then waiting d seen .changing else waiting d seen .parked
  | other => other

end Call

structure State (κ : Type) where
  overall : Duration
  connections : κ → Option Slot
  dials : List (Dial κ)
  calls : List (Call κ)
  sweeper : Bool
  closed : Bool

inductive Event (κ : Type) where
  | acquire (key : κ)
  | look (call : ℕ)
  | judge (call : ℕ) (healthy : Bool)
  | forget (call : ℕ)
  | poll (call : ℕ)
  | drop (call : ℕ)
  | dialled (dial : ℕ) (result : Except ClientError Unit)
  | store (dial : ℕ)
  | publish (dial : ℕ)
  | sweep (stale : List ℕ)
  | close
  deriving DecidableEq

namespace State

variable {κ : Type} [DecidableEq κ]

def init (overall : Duration) : State κ := ⟨overall, fun _ => none, [], [], false, false⟩

def setCall (s : State κ) (c : ℕ) (call : Call κ) : State κ :=
  { s with calls := s.calls.set c call }

def setDial (s : State κ) (d : ℕ) (dial : Dial κ) : State κ :=
  { s with dials := s.dials.set d dial }

/-- Starts the sweeper where there is none. The window it sweeps by is a product that may be past
the last `Duration`, and then this panics. -/
def ensureSweeper (s : State κ) : Option (State κ) :=
  if s.sweeper || s.closed then some s
  else if s.overall * EVICT_AFTER_DEADLINES ≤ DURATION_MAX then some { s with sweeper := true }
  else none

/-- Puts a new dial in the cache. -/
def enter (s : State κ) (key : κ) : State κ :=
  { s with
    connections := Function.update s.connections key (some (.dialing s.dials.length))
    dials := s.dials ++ [Dial.new key] }

/-- Reads the cache for one key, starting a dial where it is cold. -/
def slot (s : State κ) (c : ℕ) (key : κ) : Option (State κ) :=
  match s.connections key with
  | some (.ready cached) => some (s.setCall c (.judging key cached))
  | some (.dialing dial) => s.dials[dial]?.map fun found =>
      s.setCall c (.waiting dial found.done.version .checking)
  | none =>
      match (s.enter key).ensureSweeper with
      | some swept => some ((swept.setDial s.dials.length (Dial.new key).spawned).setCall c
          (.waiting s.dials.length 0 .checking))
      -- the slot stays, and its dial with nobody to end it
      | none => some ((s.enter key).setCall c .panicked)

/-- Drops the cache's reference to one entry, where it is still that entry. -/
def forget (s : State κ) (key : κ) (cached : ℕ) : State κ :=
  if s.connections key = some (.ready cached) then
    { s with connections := Function.update s.connections key none }
  else s

/-- What the task of a dial does to the cache once the dial has come to something. -/
def conclude (s : State κ) (key : κ) (dial : ℕ) : Except ClientError Unit → State κ
  | .ok () =>
      if s.closed then s
      else { s with connections := Function.update s.connections key (some (.ready dial)) }
  | .error _ =>
      if s.connections key = some (.dialing dial) then
        { s with connections := Function.update s.connections key none }
      else s

/-- `done.send(true)`, which a channel without receivers loses. -/
def send (s : State κ) (dial : ℕ) (found : Dial κ) : State κ :=
  if s.calls.any (·.receives dial) then
    { s.setDial dial { found with stage := .finished, done := ⟨true, found.done.version + 1⟩ } with
      calls := s.calls.map (·.wake dial) }
  else s.setDial dial { found with stage := .finished }

/-- What a waiting call makes of the outcome it reads. -/
def received : Option Outcome → Outcome
  | some (.ok cached) => .ok cached
  | some (.error error) => .error error.duplicate
  | none => .error (.connectionLost none)

/-- One resumption of a waiting call, which no longer runs once it sleeps. -/
def resume (s : State κ) (c dial seen : ℕ) (found : Dial κ) : Wait → Option (State κ)
  | .checking => some (s.setCall c
      (.waiting dial found.done.version (if found.done.value then .reading else .changing)))
  | .changing => some (s.setCall c
      (if found.done.version = seen then .waiting dial seen .parked
        else .waiting dial found.done.version .checking))
  | .parked => none
  | .reading => some (s.setCall c (.returned (received found.outcome)))

def step (s : State κ) : Event κ → Option (State κ)
  | .acquire key => if s.closed then none else some { s with calls := s.calls ++ [.looking key] }
  | .look c =>
      match s.calls[c]? with
      | some (.looking key) => s.slot c key
      | _ => none
  | .judge c healthy =>
      match s.calls[c]? with
      | some (.judging key cached) => some (s.setCall c
          (if healthy then .returned (.ok cached) else .forgetting key cached))
      | _ => none
  | .forget c =>
      match s.calls[c]? with
      | some (.forgetting key cached) => some ((s.forget key cached).setCall c (.looking key))
      | _ => none
  | .poll c =>
      match s.calls[c]? with
      | some (.waiting dial seen wait) => s.dials[dial]?.bind fun found =>
          s.resume c dial seen found wait
      | _ => none
  | .drop c =>
      match s.calls[c]? with
      | some call => if call.active then some (s.setCall c .dropped) else none
      | none => none
  | .dialled dial result =>
      match s.dials[dial]? with
      | some ⟨key, .dialing, outcome, done⟩ => some ((s.conclude key dial result).setDial dial
          ⟨key, .decided (result.map fun _ => dial), outcome, done⟩)
      | _ => none
  | .store dial =>
      match s.dials[dial]? with
      | some ⟨key, .decided outcome, _, done⟩ =>
          some (s.setDial dial ⟨key, .stored, some outcome, done⟩)
      | _ => none
  | .publish dial =>
      match s.dials[dial]? with
      | some ⟨key, .stored, outcome, done⟩ => some (s.send dial ⟨key, .stored, outcome, done⟩)
      | _ => none
  | .sweep stale =>
      if s.sweeper && !s.closed then some
        { s with connections := fun key =>
            match s.connections key with
            | some (.ready cached) => if cached ∈ stale then none else some (.ready cached)
            | other => other }
      else none
  -- closing consumes the client, which no call may borrow then
  | .close =>
      if s.closed || s.calls.any (·.active) then none
      else some { s with connections := fun _ => none, sweeper := false, closed := true }

end State

/-- What a step is, with what it found. -/
inductive Moves {κ : Type} [DecidableEq κ] (s : State κ) : Event κ → State κ → Prop
  | acquired (key : κ) (alive : s.closed = false) :
      Moves s (.acquire key) { s with calls := s.calls ++ [.looking key] }
  | met {c : ℕ} {key : κ} {cached : ℕ} (looking : s.calls[c]? = some (.looking key))
      (held : s.connections key = some (.ready cached)) :
      Moves s (.look c) (s.setCall c (.judging key cached))
  | joined {c : ℕ} {key : κ} {d : ℕ} {dial : Dial κ} (looking : s.calls[c]? = some (.looking key))
      (held : s.connections key = some (.dialing d)) (found : s.dials[d]? = some dial) :
      Moves s (.look c) (s.setCall c (.waiting d dial.done.version .checking))
  | started {c : ℕ} {key : κ} (looking : s.calls[c]? = some (.looking key))
      (cold : s.connections key = none) :
      Moves s (.look c) { s with
        connections := Function.update s.connections key (some (.dialing s.dials.length))
        dials := s.dials ++ [(Dial.new key).spawned]
        calls := s.calls.set c (.waiting s.dials.length 0 .checking)
        sweeper := s.sweeper || !s.closed }
  | panicked {c : ℕ} {key : κ} (looking : s.calls[c]? = some (.looking key))
      (cold : s.connections key = none)
      (overflow : DURATION_MAX < s.overall * EVICT_AFTER_DEADLINES) :
      Moves s (.look c) ((s.enter key).setCall c .panicked)
  | judged {c : ℕ} {key : κ} {cached : ℕ} (healthy : Bool)
      (judging : s.calls[c]? = some (.judging key cached)) :
      Moves s (.judge c healthy)
        (s.setCall c (if healthy then .returned (.ok cached) else .forgetting key cached))
  | forgot {c : ℕ} {key : κ} {cached : ℕ}
      (forgetting : s.calls[c]? = some (.forgetting key cached)) :
      Moves s (.forget c) ((s.forget key cached).setCall c (.looking key))
  | resumed {c d seen : ℕ} {wait : Wait} {dial : Dial κ} {s' : State κ}
      (waiting : s.calls[c]? = some (.waiting d seen wait)) (found : s.dials[d]? = some dial)
      (resumed : s.resume c d seen dial wait = some s') : Moves s (.poll c) s'
  | dropped {c : ℕ} {call : Call κ} (held : s.calls[c]? = some call) (active : call.active = true) :
      Moves s (.drop c) (s.setCall c .dropped)
  | concluded {d : ℕ} {dial : Dial κ} (result : Except ClientError Unit)
      (found : s.dials[d]? = some dial) (dialing : dial.stage = .dialing) :
      Moves s (.dialled d result) ((s.conclude dial.key d result).setDial d
        { dial with stage := .decided (result.map fun _ => d) })
  | stored {d : ℕ} {key : κ} {outcome : Outcome} {before : Option Outcome} {done : Watch}
      (found : s.dials[d]? = some ⟨key, .decided outcome, before, done⟩) :
      Moves s (.store d) (s.setDial d ⟨key, .stored, some outcome, done⟩)
  | published {d : ℕ} {key : κ} {outcome : Option Outcome} {done : Watch}
      (found : s.dials[d]? = some ⟨key, .stored, outcome, done⟩) :
      Moves s (.publish d) (s.send d ⟨key, .stored, outcome, done⟩)
  | swept (stale : List ℕ) {connections : κ → Option Slot}
      (spared : ∀ key, connections key = s.connections key ∨
        connections key = none ∧ ∃ cached ∈ stale, s.connections key = some (.ready cached)) :
      Moves s (.sweep stale) { s with connections }
  | closed (quiet : s.calls.any (·.active) = false) :
      Moves s .close { s with connections := fun _ => none, sweeper := false, closed := true }

/-- What `ensure_sweeper` comes to: a sweeper, but for a closed cache, or a product that does not
fit. -/
theorem ensureSweeper_cases {κ : Type} (s : State κ) :
    s.ensureSweeper = some { s with sweeper := s.sweeper || !s.closed } ∨
      s.ensureSweeper = none ∧ DURATION_MAX < s.overall * EVICT_AFTER_DEADLINES := by
  obtain ⟨overall, connections, dials, calls, sweeper, closed⟩ := s
  unfold State.ensureSweeper
  by_cases fits : overall * EVICT_AFTER_DEADLINES ≤ DURATION_MAX
  · left
    cases sweeper <;> cases closed <;> simp [fits]
  · cases sweeper with
    | true => exact Or.inl rfl
    | false =>
        cases closed with
        | true => exact Or.inl rfl
        | false => exact Or.inr ⟨if_neg fits, Nat.lt_of_not_le fits⟩

/-- It panics exactly where one of the products it computes does not fit. -/
theorem ensureSweeper_eq_none_iff {κ : Type} (s : State κ) (last : Instant) :
    s.ensureSweeper = none ↔
      ¬ ∀ c ∈ ensureSweeperComputes s.sweeper s.closed s.overall, c.Fits last := by
  unfold State.ensureSweeper ensureSweeperComputes
  by_cases idle : (s.sweeper || s.closed) = true
  · rw [if_pos idle, if_pos idle]
    exact iff_of_false (Option.some_ne_none s) (not_not_intro (List.forall_mem_nil _))
  · rw [if_neg idle, if_neg idle, List.forall_mem_append, and_self]
    refine Iff.trans ?_ (not_congr List.forall_mem_singleton.symm)
    exact ite_eq_right_iff.trans (forall_congr' fun _ => iff_false_intro (Option.some_ne_none _))

/-- **The steps, inverted.** -/
theorem moves_of_step {κ : Type} [DecidableEq κ] {s s' : State κ} {e : Event κ}
    (stepped : s.step e = some s') : Moves s e s' := by
  cases e with
  | acquire key =>
      rw [State.step] at stepped
      split at stepped
      · cases stepped
      · next alive =>
          cases stepped
          exact .acquired key (Bool.eq_false_of_not_eq_true alive)
  | look c =>
      rw [State.step] at stepped
      split at stepped
      · next key looking =>
          unfold State.slot at stepped
          split at stepped
          · next cached held =>
              cases stepped
              exact .met looking held
          · next d held =>
              obtain ⟨dial, found, rfl⟩ := Option.map_eq_some_iff.mp stepped
              exact .joined looking held found
          · next cold =>
              rcases ensureSweeper_cases (s.enter key) with swept | ⟨panics, overflow⟩
              · rw [swept] at stepped
                cases stepped
                have spawned : (s.dials ++ [Dial.new key]).set s.dials.length
                    (Dial.new key).spawned = s.dials ++ [(Dial.new key).spawned] := by
                  rw [List.set_append_right _ _ le_rfl, Nat.sub_self]
                  rfl
                dsimp only [State.setCall, State.setDial, State.enter]
                rw [spawned]
                exact .started looking cold
              · rw [panics] at stepped
                cases stepped
                exact .panicked looking cold overflow
      · cases stepped
  | judge c healthy =>
      rw [State.step] at stepped
      split at stepped
      · next key cached judging =>
          cases stepped
          exact .judged healthy judging
      · cases stepped
  | forget c =>
      rw [State.step] at stepped
      split at stepped
      · next key cached forgetting =>
          cases stepped
          exact .forgot forgetting
      · cases stepped
  | poll c =>
      rw [State.step] at stepped
      split at stepped
      · next d seen wait waiting =>
          obtain ⟨dial, found, resumed⟩ := Option.bind_eq_some_iff.mp stepped
          exact .resumed waiting found resumed
      · cases stepped
  | drop c =>
      rw [State.step] at stepped
      split at stepped
      · next call held =>
          split at stepped
          · next active =>
              cases stepped
              exact .dropped held active
          · cases stepped
      · cases stepped
  | dialled d result =>
      rw [State.step] at stepped
      split at stepped
      · next key outcome done found =>
          cases stepped
          exact .concluded result found rfl
      · cases stepped
  | store d =>
      rw [State.step] at stepped
      split at stepped
      · next key outcome before done found =>
          cases stepped
          exact .stored found
      · cases stepped
  | publish d =>
      rw [State.step] at stepped
      split at stepped
      · next key outcome done found =>
          cases stepped
          exact .published found
      · cases stepped
  | sweep stale =>
      rw [State.step] at stepped
      split at stepped
      · cases stepped
        refine .swept stale fun key => ?_
        cases held : s.connections key with
        | none => exact Or.inl rfl
        | some slot =>
            cases slot with
            | dialing d => exact Or.inl rfl
            | ready cached =>
                dsimp only
                split
                · next old => exact Or.inr ⟨rfl, cached, old, rfl⟩
                · exact Or.inl rfl
      · cases stepped
  | close =>
      rw [State.step] at stepped
      split at stepped
      · cases stepped
      · next quiet =>
          cases stepped
          rw [Bool.or_eq_true, not_or] at quiet
          exact .closed (Bool.eq_false_of_not_eq_true quiet.2)

theorem calls_forget {κ : Type} [DecidableEq κ] (s : State κ) (key : κ) (cached : ℕ) :
    (s.forget key cached).calls = s.calls := by
  unfold State.forget
  split <;> rfl

theorem dials_forget {κ : Type} [DecidableEq κ] (s : State κ) (key : κ) (cached : ℕ) :
    (s.forget key cached).dials = s.dials := by
  unfold State.forget
  split <;> rfl

theorem conclude_eq_withConnections {κ : Type} [DecidableEq κ] (s : State κ) (key : κ) (d : ℕ)
    (result : Except ClientError Unit) :
    s.conclude key d result = { s with connections := (s.conclude key d result).connections } := by
  cases result with
  | ok _ =>
      rw [State.conclude]
      split <;> rfl
  | error error =>
      rw [State.conclude]
      split <;> rfl

def machine (κ : Type) [DecidableEq κ] : Trace.Machine (State κ) (Event κ) Empty where
  step s e := (s.step e).map (·, [])

/-! ## What holds of the cache -/

variable {κ : Type}

/-- What a dial has come to, from the moment the cache was updated. -/
def Dial.decision (dial : Dial κ) : Option Outcome :=
  match dial.stage with
  | .decided outcome => some outcome
  | _ => dial.outcome

/-- A dial as its task leaves it at one stage or another; a send may have been lost. -/
inductive Dial.Whole : Dial κ → Prop
  | dialing (key : κ) : Whole ⟨key, .dialing, none, ⟨false, 0⟩⟩
  | decided (key : κ) (outcome : Outcome) : Whole ⟨key, .decided outcome, none, ⟨false, 0⟩⟩
  | stored (key : κ) (outcome : Outcome) : Whole ⟨key, .stored, some outcome, ⟨false, 0⟩⟩
  | lost (key : κ) (outcome : Outcome) : Whole ⟨key, .finished, some outcome, ⟨false, 0⟩⟩
  | sent (key : κ) (outcome : Outcome) : Whole ⟨key, .finished, some outcome, ⟨true, 1⟩⟩

theorem Dial.Whole.undecided {dial : Dial κ} (whole : dial.Whole)
    (dialing : dial.stage = .dialing) :
    dial.decision = none := by
  cases whole with
  | dialing key => rfl
  | decided key outcome => cases dialing
  | stored key outcome => cases dialing
  | lost key outcome => cases dialing
  | sent key outcome => cases dialing

theorem Dial.Whole.concluded {dial : Dial κ} (whole : dial.Whole) (dialing : dial.stage = .dialing)
    (outcome : Outcome) : ({ dial with stage := .decided outcome } : Dial κ).Whole := by
  cases whole with
  | dialing key => exact .decided key outcome
  | decided key outcome => cases dialing
  | stored key outcome => cases dialing
  | lost key outcome => cases dialing
  | sent key outcome => cases dialing

theorem Dial.Whole.spawned {dial : Dial κ} (whole : dial.Whole) : dial.stage ≠ .created := by
  intro created
  cases whole <;> cases created

theorem Dial.Whole.outcome_of_finished {dial : Dial κ} (whole : dial.Whole)
    (finished : dial.stage = .finished) : ∃ outcome, dial.outcome = some outcome := by
  cases whole with
  | dialing key => cases finished
  | decided key outcome => cases finished
  | stored key outcome => cases finished
  | lost key outcome => exact ⟨outcome, rfl⟩
  | sent key outcome => exact ⟨outcome, rfl⟩

/-- What a call that waits on a dial can rely on: the send was not lost on it, and it does not
sleep past the send. -/
structure Waits (dial : Dial κ) (seen : ℕ) (wait : Wait) : Prop where
  sent : dial.stage = .finished → dial.done.value = true
  awake : dial.stage = .finished → wait ≠ .parked
  unseen : wait = .changing ∨ wait = .parked → seen = 0
  reading : wait = .reading → dial.stage = .finished

/-- Until it is finished, what becomes of a dial is nothing to a call that waits on it. -/
theorem Waits.advanced {dial dial' : Dial κ} {seen : ℕ} {wait : Wait} (waits : Waits dial seen wait)
    (before : dial.stage ≠ .finished) (after : dial'.stage ≠ .finished) :
    Waits dial' seen wait where
  sent finished := absurd finished after
  awake finished := absurd finished after
  unseen := waits.unseen
  reading reads := absurd (waits.reading reads) before

/-- A call that is about to read the channel has nothing to have missed but a lost send. -/
theorem Waits.checking {dial : Dial κ} {seen : ℕ}
    (sent : dial.stage = .finished → dial.done.value = true) : Waits dial seen .checking where
  sent := sent
  awake _ asleep := by cases asleep
  unseen asleep := by rcases asleep with same | same <;> cases same
  reading reads := by cases reads

/-- What the channel of a dial holds is what its version says. -/
theorem Dial.Whole.version_eq {dial : Dial κ} (whole : dial.Whole) :
    (dial.done.value = true ∧ dial.done.version = 1 ∧ dial.stage = .finished) ∨
      (dial.done.value = false ∧ dial.done.version = 0) := by
  cases whole with
  | dialing key => exact Or.inr ⟨rfl, rfl⟩
  | decided key outcome => exact Or.inr ⟨rfl, rfl⟩
  | stored key outcome => exact Or.inr ⟨rfl, rfl⟩
  | lost key outcome => exact Or.inr ⟨rfl, rfl⟩
  | sent key outcome => exact Or.inl ⟨rfl, rfl, rfl⟩

/-- The invariant of the cache. -/
structure State.Sound (s : State κ) : Prop where
  roomy : s.overall * EVICT_AFTER_DEADLINES ≤ DURATION_MAX
  whole : ∀ (d : ℕ) (dial : Dial κ), s.dials[d]? = some dial → dial.Whole
  slots : ∀ key d, s.connections key = some (.dialing d) →
    ∃ dial, s.dials[d]? = some dial ∧ dial.key = key ∧ dial.stage = .dialing
  ready : ∀ key cached, s.connections key = some (.ready cached) →
    ∃ dial, s.dials[cached]? = some dial ∧ dial.decision = some (.ok cached)
  flight : ∀ (d : ℕ) (dial : Dial κ), s.dials[d]? = some dial → dial.stage = .dialing →
    s.closed = false → s.connections dial.key = some (.dialing d)
  single : ∀ (d d' : ℕ) (dial dial' : Dial κ), s.dials[d]? = some dial →
    s.dials[d']? = some dial' → dial.stage = .dialing → dial'.stage = .dialing →
    dial.key = dial'.key → d = d'
  waits : ∀ (c d seen : ℕ) (wait : Wait), s.calls[c]? = some (.waiting d seen wait) →
    ∃ dial, s.dials[d]? = some dial ∧ Waits dial seen wait
  empty : s.closed = true → ∀ key, s.connections key = none
  idle : s.closed = true → ∀ (c : ℕ) (call : Call κ), s.calls[c]? = some call →
    call.active = false

namespace State

theorem sound_init {overall : Duration}
    (roomy : overall * EVICT_AFTER_DEADLINES ≤ DURATION_MAX) :
    (init overall : State κ).Sound where
  roomy := roomy
  whole d dial found := by cases found
  slots key d found := by cases found
  ready key cached found := by cases found
  flight d dial found := by cases found
  single d d' dial dial' found := by cases found
  waits c d seen wait found := by cases found
  empty closed := by cases closed
  idle closed := by cases closed

/-- A dial that failed has no slot. -/
theorem Sound.failed {s : State κ} (sound : s.Sound) {d : ℕ} {dial : Dial κ} {error : ClientError}
    (found : s.dials[d]? = some dial) (failed : dial.decision = some (.error error)) (key : κ) :
    s.connections key ≠ some (.dialing d) ∧ s.connections key ≠ some (.ready d) := by
  constructor
  · intro held
    obtain ⟨dial', found', -, dialing⟩ := sound.slots key d held
    cases found.symm.trans found'
    cases ((sound.whole d dial found).undecided dialing).symm.trans failed
  · intro held
    obtain ⟨dial', found', came⟩ := sound.ready key d held
    cases found.symm.trans found'
    cases came.symm.trans failed

/-! ### Steps that touch the calls, or the slots, alone -/

theorem Sound.withCalls {s : State κ} (sound : s.Sound) {calls : List (Call κ)}
    (waits : ∀ (c d seen : ℕ) (wait : Wait), calls[c]? = some (.waiting d seen wait) →
      ∃ dial, s.dials[d]? = some dial ∧ Waits dial seen wait)
    (idle : s.closed = true → ∀ (c : ℕ) (call : Call κ), calls[c]? = some call →
      call.active = false) :
    Sound { s with calls } :=
  { sound with waits, idle }

/-- An entry of a list that one entry was replaced in is the new one, or was there before. -/
theorem getElem?_set_cases {α : Type} {l : List α} {i j : ℕ} {x y : α}
    (found : (l.set i x)[j]? = some y) : (j = i ∧ y = x) ∨ (j ≠ i ∧ l[j]? = some y) := by
  rw [List.getElem?_set] at found
  split at found
  · next same =>
      split at found
      · cases found
        exact Or.inl ⟨same.symm, rfl⟩
      · cases found
  · next other => exact Or.inr ⟨fun same => other same.symm, found⟩

theorem Sound.setCall {s : State κ} (sound : s.Sound) {c : ℕ} {call : Call κ}
    (waits : ∀ d seen wait, call = .waiting d seen wait →
      ∃ dial, s.dials[d]? = some dial ∧ Waits dial seen wait)
    (idle : s.closed = true → call.active = false) : (s.setCall c call).Sound := by
  apply sound.withCalls
  · intro c' d seen wait found
    rcases getElem?_set_cases found with ⟨-, same⟩ | ⟨-, before⟩
    · exact waits d seen wait same.symm
    · exact sound.waits c' d seen wait before
  · intro closed c' call' found
    rcases getElem?_set_cases found with ⟨-, rfl⟩ | ⟨-, before⟩
    · exact idle closed
    · exact sound.idle closed c' call' before

theorem Sound.alive {s : State κ} (sound : s.Sound) {c : ℕ} {call : Call κ}
    (found : s.calls[c]? = some call) (active : call.active = true) : s.closed = false := by
  apply Bool.eq_false_of_not_eq_true
  intro closed
  cases (sound.idle closed c call found).symm.trans active

/-- A call that has come back, or not come to a dial yet, waits on nothing. -/
theorem Sound.setCall_of_active {s : State κ} (sound : s.Sound) {c : ℕ} {before call : Call κ}
    (found : s.calls[c]? = some before) (active : before.active = true)
    (apart : ∀ d seen wait, call ≠ .waiting d seen wait) : (s.setCall c call).Sound := by
  apply sound.setCall
  · exact fun d seen wait same => absurd same (apart d seen wait)
  · exact fun closed => absurd ((sound.alive found active).symm.trans closed) Bool.false_ne_true

theorem Sound.withConnections {s : State κ} (sound : s.Sound) {connections : κ → Option Slot}
    (fewer : ∀ key, connections key = s.connections key ∨
      connections key = none ∧ ∃ cached, s.connections key = some (.ready cached)) :
    Sound { s with connections } := by
  have still : ∀ key slot, connections key = some slot → s.connections key = some slot := by
    intro key slot held
    rcases fewer key with same | ⟨gone, -⟩
    · rw [← same, held]
    · rw [gone] at held
      cases held
  refine { sound with slots := ?slots, ready := ?ready, flight := ?flight, empty := ?empty }
  case slots => exact fun key d held => sound.slots key d (still _ _ held)
  case ready => exact fun key cached held => sound.ready key cached (still _ _ held)
  case flight =>
    intro d dial found dialing closed
    have held := sound.flight d dial found dialing closed
    rcases fewer dial.key with same | ⟨-, cached, ready⟩
    · exact same.trans held
    · rw [held] at ready
      cases ready
  case empty =>
    intro closed key
    rcases fewer key with same | ⟨gone, -⟩
    · exact same.trans (sound.empty closed key)
    · exact gone

/-! ### The steps of a dial -/

theorem getElem?_set_of_some {α : Type} {l : List α} {i : ℕ} {x y : α} (found : l[i]? = some x) :
    (l.set i y)[i]? = some y :=
  List.getElem?_set_self (List.getElem?_eq_some_iff.mp found).1

/-- Past its own lock section, a dial moves on without the cache. -/
theorem Sound.advance {s : State κ} (sound : s.Sound) {d : ℕ} {dial dial' : Dial κ}
    {calls : List (Call κ)} (found : s.dials[d]? = some dial) (before : dial.stage ≠ .dialing)
    (after : dial'.stage ≠ .dialing) (whole : dial'.Whole)
    (decision : dial'.decision = dial.decision)
    (waits : ∀ (c d' seen : ℕ) (wait : Wait), calls[c]? = some (.waiting d' seen wait) →
      ∃ held, (s.dials.set d dial')[d']? = some held ∧ Waits held seen wait)
    (idle : s.closed = true → ∀ (c : ℕ) (call : Call κ), calls[c]? = some call →
      call.active = false) :
    Sound { s.setDial d dial' with calls } where
  roomy := sound.roomy
  whole d' held found' := by
    rcases getElem?_set_cases found' with ⟨-, rfl⟩ | ⟨-, found'⟩
    · exact whole
    · exact sound.whole d' held found'
  slots key d' slot := by
    obtain ⟨held, found', named, dialing⟩ := sound.slots key d' slot
    have other : d ≠ d' := by
      rintro rfl
      rw [found] at found'
      cases found'
      exact before dialing
    exact ⟨held, (List.getElem?_set_ne other).trans found', named, dialing⟩
  ready key cached slot := by
    obtain ⟨held, found', came⟩ := sound.ready key cached slot
    by_cases same : d = cached
    · subst same
      rw [found] at found'
      cases found'
      exact ⟨dial', getElem?_set_of_some found, decision.trans came⟩
    · exact ⟨held, (List.getElem?_set_ne same).trans found', came⟩
  flight d' held found' dialing closed := by
    rcases getElem?_set_cases found' with ⟨-, rfl⟩ | ⟨-, found'⟩
    · exact absurd dialing after
    · exact sound.flight d' held found' dialing closed
  single d₁ d₂ held₁ held₂ found₁ found₂ dialing₁ dialing₂ same := by
    rcases getElem?_set_cases found₁ with ⟨-, rfl⟩ | ⟨-, found₁⟩
    · exact absurd dialing₁ after
    · rcases getElem?_set_cases found₂ with ⟨-, rfl⟩ | ⟨-, found₂⟩
      · exact absurd dialing₂ after
      · exact sound.single d₁ d₂ held₁ held₂ found₁ found₂ dialing₁ dialing₂ same
  waits := waits
  empty := sound.empty
  idle := idle

/-- A dial that no call waits on, or that stays short of its end, keeps what the calls rely on. -/
theorem Sound.waits_set {s : State κ} (sound : s.Sound) {d : ℕ} {dial dial' : Dial κ}
    (found : s.dials[d]? = some dial)
    (kept : ∀ (c seen : ℕ) (wait : Wait), s.calls[c]? = some (.waiting d seen wait) →
      Waits dial seen wait → Waits dial' seen wait) {c d' seen : ℕ} {wait : Wait}
    (waiting : s.calls[c]? = some (.waiting d' seen wait)) :
    ∃ held, (s.dials.set d dial')[d']? = some held ∧ Waits held seen wait := by
  obtain ⟨held, found', waits⟩ := sound.waits c d' seen wait waiting
  by_cases same : d = d'
  · subst same
    rw [found] at found'
    cases found'
    exact ⟨dial', getElem?_set_of_some found, kept c seen wait waiting waits⟩
  · exact ⟨held, (List.getElem?_set_ne same).trans found', waits⟩

/-- The one task that concludes a dial finds the slot it made, until the client is closed. -/
theorem Sound.conclude_eq [DecidableEq κ] {s : State κ} (sound : s.Sound) {d : ℕ} {dial : Dial κ}
    (found : s.dials[d]? = some dial) (dialing : dial.stage = .dialing)
    (result : Except ClientError Unit) :
    ∃ connections, s.conclude dial.key d result = { s with connections } ∧
      (∀ key, key ≠ dial.key → connections key = s.connections key) ∧
      (connections dial.key = none ∨
        connections dial.key = some (.ready d) ∧ result = .ok () ∧ s.closed = false) := by
  by_cases closed : s.closed = true
  · have gone := sound.empty closed dial.key
    refine ⟨s.connections, ?_, fun key _ => rfl, Or.inl gone⟩
    cases result with
    | ok _ => exact if_pos closed
    | error error =>
        exact if_neg fun held => by
          rw [gone] at held
          cases held
  · have alive := Bool.eq_false_of_not_eq_true closed
    have own := sound.flight d dial found dialing alive
    cases result with
    | ok _ =>
        exact ⟨_, if_neg closed, fun key other => Function.update_of_ne other _ _,
          Or.inr ⟨Function.update_self _ _ _, rfl, alive⟩⟩
    | error error =>
        exact ⟨_, if_pos own, fun key other => Function.update_of_ne other _ _,
          Or.inl (Function.update_self _ _ _)⟩

theorem Sound.dialled [DecidableEq κ] {s : State κ} (sound : s.Sound) {d : ℕ} {dial : Dial κ}
    (found : s.dials[d]? = some dial) (dialing : dial.stage = .dialing)
    (result : Except ClientError Unit) :
    ((s.conclude dial.key d result).setDial d
      { dial with stage := .decided (result.map fun _ => d) }).Sound := by
  obtain ⟨connections, same, others, own⟩ := sound.conclude_eq found dialing result
  rw [same]
  have advanced := (sound.whole d dial found).concluded dialing (result.map fun _ => d)
  -- a slot under another key is another dial's
  have apart : ∀ key d', connections key = some (.dialing d') → key ≠ dial.key ∧ d ≠ d' := by
    intro key d' slot
    have elsewhere : key ≠ dial.key := by
      rintro rfl
      rcases own with gone | ⟨ready, -, -⟩
      · rw [gone] at slot
        cases slot
      · rw [ready] at slot
        cases slot
    rw [others key elsewhere] at slot
    obtain ⟨held, found', named, -⟩ := sound.slots key d' slot
    refine ⟨elsewhere, ?_⟩
    rintro rfl
    rw [found] at found'
    cases found'
    exact elsewhere named.symm
  refine ⟨sound.roomy, ?whole, ?slots, ?ready, ?flight, ?single, ?waits, ?empty, ?idle⟩
  case whole =>
    intro d' held found'
    rcases getElem?_set_cases found' with ⟨-, rfl⟩ | ⟨-, found'⟩
    · exact advanced
    · exact sound.whole d' held found'
  case slots =>
    intro key d' slot
    obtain ⟨elsewhere, other⟩ := apart key d' slot
    obtain ⟨held, found', named, still⟩ :=
      sound.slots key d' ((others key elsewhere).symm.trans slot)
    exact ⟨held, (List.getElem?_set_ne other).trans found', named, still⟩
  case ready =>
    intro key cached slot
    by_cases here : key = dial.key
    · subst here
      rcases own with gone | ⟨ready, rfl, -⟩
      · cases gone.symm.trans slot
      · cases ready.symm.trans slot
        exact ⟨_, getElem?_set_of_some found, rfl⟩
    · obtain ⟨held, found', came⟩ := sound.ready key cached ((others key here).symm.trans slot)
      have other : d ≠ cached := by
        rintro rfl
        rw [found] at found'
        cases found'
        cases ((sound.whole d dial found).undecided dialing).symm.trans came
      exact ⟨held, (List.getElem?_set_ne other).trans found', came⟩
  case flight =>
    intro d' held found' still closed
    rcases getElem?_set_cases found' with ⟨-, rfl⟩ | ⟨other, found'⟩
    · cases still
    · have elsewhere : held.key ≠ dial.key := fun same =>
        other (sound.single d' d held dial found' found still dialing same)
      exact (others _ elsewhere).trans (sound.flight d' held found' still closed)
  case single =>
    intro d₁ d₂ held₁ held₂ found₁ found₂ still₁ still₂ same
    rcases getElem?_set_cases found₁ with ⟨-, rfl⟩ | ⟨-, found₁⟩
    · cases still₁
    · rcases getElem?_set_cases found₂ with ⟨-, rfl⟩ | ⟨-, found₂⟩
      · cases still₂
      · exact sound.single d₁ d₂ held₁ held₂ found₁ found₂ still₁ still₂ same
  case waits =>
    intro c d' seen wait waiting
    refine sound.waits_set found (fun c seen wait _ waits => waits.advanced ?_ ?_) waiting
    · rw [dialing]
      exact fun finished => by cases finished
    · exact fun finished => by cases finished
  case empty =>
    intro closed key
    by_cases here : key = dial.key
    · subst here
      rcases own with gone | ⟨-, -, alive⟩
      · exact gone
      · cases alive.symm.trans closed
    · exact (others key here).trans (sound.empty closed key)
  case idle => exact sound.idle

theorem Sound.store {s : State κ} (sound : s.Sound) {d : ℕ} {key : κ} {outcome : Outcome}
    {before : Option Outcome} {done : Watch}
    (found : s.dials[d]? = some ⟨key, .decided outcome, before, done⟩) :
    (s.setDial d ⟨key, .stored, some outcome, done⟩).Sound := by
  have whole : Dial.Whole ⟨key, .stored, some outcome, done⟩ := by
    cases sound.whole d _ found
    exact .stored key outcome
  refine sound.advance found (fun same => by cases same) (fun same => by cases same) whole rfl ?_
    sound.idle
  intro c d' seen wait waiting
  exact sound.waits_set found (fun c seen wait _ waits => waits.advanced
    (fun same => by cases same) (fun same => by cases same)) waiting

/-- A call that sleeps on the dial is up after the send, and any other call is where it was. -/
theorem wake_eq_waiting {call : Call κ} {d d' seen : ℕ} {wait : Wait}
    (woken : call.wake d = .waiting d' seen wait) :
    call = .waiting d' seen wait ∧ (d' = d → wait ≠ .parked) ∨
      d' = d ∧ wait = .changing ∧ call = .waiting d seen .parked := by
  cases call with
  | waiting held seen' wait' =>
      by_cases parked : wait' = .parked
      · subst parked
        by_cases same : held = d
        · subst same
          cases (if_pos rfl).symm.trans woken
          exact Or.inr ⟨rfl, rfl, rfl⟩
        · cases (if_neg same).symm.trans woken
          exact Or.inl ⟨rfl, fun here => absurd here same⟩
      · have untouched : (Call.waiting held seen' wait' : Call κ).wake d =
            .waiting held seen' wait' := by
          cases wait' <;> first | rfl | exact absurd rfl parked
        cases untouched.symm.trans woken
        exact Or.inl ⟨rfl, fun _ => parked⟩
  | looking key => cases woken
  | judging key cached => cases woken
  | forgetting key cached => cases woken
  | returned result => cases woken
  | dropped => cases woken
  | panicked => cases woken

theorem wake_of_ne {d d' seen : ℕ} {wait : Wait} (up : wait ≠ .parked) :
    (Call.waiting d seen wait : Call κ).wake d' = .waiting d seen wait := by
  cases wait with
  | parked => exact absurd rfl up
  | checking => rfl
  | changing => rfl
  | reading => rfl

theorem active_wake (call : Call κ) (d : ℕ) : (call.wake d).active = call.active := by
  unfold Call.wake
  split
  · split <;> rfl
  · rfl

theorem Sound.send {s : State κ} (sound : s.Sound) {d : ℕ} {key : κ} {outcome : Option Outcome}
    {done : Watch} (found : s.dials[d]? = some ⟨key, .stored, outcome, done⟩) :
    (s.send d ⟨key, .stored, outcome, done⟩).Sound := by
  unfold State.send
  have whole := sound.whole d _ found
  split
  · have sent : Dial.Whole ⟨key, .finished, outcome, ⟨true, done.version + 1⟩⟩ := by
      cases whole
      exact .sent key _
    refine sound.advance found (fun same => by cases same)
      (fun same => by cases same) sent rfl ?_ ?_
    · intro c d' seen wait waiting
      rw [List.getElem?_map] at waiting
      obtain ⟨call, before, woken⟩ := Option.map_eq_some_iff.mp waiting
      rcases wake_eq_waiting woken with ⟨rfl, up⟩ | ⟨rfl, rfl, rfl⟩
      · obtain ⟨held, found', waits⟩ := sound.waits c d' seen wait before
        by_cases same : d = d'
        · subst same
          rw [found] at found'
          cases found'
          exact ⟨_, getElem?_set_of_some found, fun _ => rfl, fun _ => up rfl, waits.unseen,
            fun _ => rfl⟩
        · exact ⟨held, (List.getElem?_set_ne same).trans found', waits⟩
      · obtain ⟨held, -, waits⟩ := sound.waits c d' seen .parked before
        exact ⟨_, getElem?_set_of_some found, fun _ => rfl, fun _ => (fun same => by cases same),
          fun _ => waits.unseen (Or.inr rfl), fun _ => rfl⟩
    · intro closed c call here
      rw [List.getElem?_map] at here
      obtain ⟨before, held, rfl⟩ := Option.map_eq_some_iff.mp here
      rw [active_wake]
      exact sound.idle closed c before held
  · next unheard =>
      have lost : Dial.Whole ⟨key, .finished, outcome, done⟩ := by
        cases whole
        exact .lost key _
      refine sound.advance found (fun same => by cases same) (fun same => by cases same) lost rfl ?_
        sound.idle
      intro c d' seen wait waiting
      refine sound.waits_set found (fun c seen wait held _ => absurd ?_ unheard) waiting
      exact List.any_eq_true.mpr ⟨_, List.mem_of_getElem? held, decide_eq_true rfl⟩

/-! ### The steps of a call -/

theorem Sound.resume {s s' : State κ} (sound : s.Sound) {c d seen : ℕ} {wait : Wait}
    {dial : Dial κ} (waiting : s.calls[c]? = some (.waiting d seen wait))
    (found : s.dials[d]? = some dial) (stepped : s.resume c d seen dial wait = some s') :
    s'.Sound := by
  have whole := sound.whole d dial found
  have waits : Waits dial seen wait := by
    obtain ⟨dial', found', waits⟩ := sound.waits c d seen wait waiting
    cases found.symm.trans found'
    exact waits
  have alive := sound.alive waiting rfl
  have again : ∀ {seen' : ℕ} {wait' : Wait}, Waits dial seen' wait' →
      (s.setCall c (.waiting d seen' wait')).Sound := fun waits' =>
    sound.setCall
      (fun d' seen' wait' same => by
        cases same
        exact ⟨dial, found, waits'⟩)
      fun closed => absurd (alive.symm.trans closed) Bool.false_ne_true
  cases wait with
  | checking =>
      cases stepped
      rcases whole.version_eq with ⟨value, -, finished⟩ | ⟨value, version⟩
      · rw [if_pos value]
        refine again ⟨waits.sent, fun _ asleep => ?_, fun asleep => ?_, fun _ => finished⟩
        · cases asleep
        · rcases asleep with same | same <;> cases same
      · rw [if_neg (Bool.not_eq_true _ ▸ value), version]
        exact again ⟨waits.sent, fun _ asleep => (by cases asleep), fun _ => rfl,
          fun reads => (by cases reads)⟩
  | changing =>
      cases stepped
      have first := waits.unseen (Or.inl rfl)
      split
      · next same =>
          refine again ⟨waits.sent, fun finished => ?_, fun _ => first, fun reads => by cases reads⟩
          rcases whole.version_eq with ⟨-, version, -⟩ | ⟨value, -⟩
          · rw [same, first] at version
            cases version
          · cases value.symm.trans (waits.sent finished)
      · exact again (.checking waits.sent)
  | parked => cases stepped
  | reading =>
      cases stepped
      exact sound.setCall_of_active waiting rfl fun d seen wait same => by cases same

theorem Sound.close {s : State κ} (sound : s.Sound) (idle : s.calls.any (·.active) = false) :
    Sound { s with connections := fun _ => none, sweeper := false, closed := true } :=
  { sound with
    slots := fun key d held => by cases held
    ready := fun key cached held => by cases held
    flight := fun d dial found dialing alive => by cases alive
    empty := fun _ key => rfl
    idle := fun _ c call found =>
      Bool.eq_false_of_not_eq_true (List.any_eq_false.mp idle call (List.mem_of_getElem? found)) }

theorem Sound.joined {s : State κ} (sound : s.Sound) {c : ℕ} {key : κ} {d : ℕ} {dial : Dial κ}
    (looking : s.calls[c]? = some (.looking key)) (held : s.connections key = some (.dialing d))
    (found : s.dials[d]? = some dial) :
    (s.setCall c (.waiting d dial.done.version .checking)).Sound := by
  have alive := sound.alive looking rfl
  obtain ⟨dial', found', -, dialing⟩ := sound.slots key d held
  cases found.symm.trans found'
  apply sound.setCall
  · intro d' seen wait same
    cases same
    refine ⟨dial, found, .checking fun finished => ?_⟩
    cases dialing.symm.trans finished
  · exact fun closed => absurd (alive.symm.trans closed) Bool.false_ne_true

variable [DecidableEq κ]

/-- A cold cache is given a dial, and the call that found it cold the first subscription. -/
theorem Sound.started {s : State κ} (sound : s.Sound) {c : ℕ} {key : κ}
    (looking : s.calls[c]? = some (.looking key)) (cold : s.connections key = none) :
    Sound { s with
      connections := Function.update s.connections key (some (.dialing s.dials.length))
      dials := s.dials ++ [(Dial.new key).spawned]
      calls := s.calls.set c (.waiting s.dials.length 0 .checking)
      sweeper := s.sweeper || !s.closed } := by
  have alive := sound.alive looking rfl
  have old : ∀ {d : ℕ} {dial : Dial κ}, s.dials[d]? = some dial →
      (s.dials ++ [(Dial.new key).spawned])[d]? = some dial := fun found =>
    (List.getElem?_append_left (List.getElem?_eq_some_iff.mp found).1).trans found
  have new : (s.dials ++ [(Dial.new key).spawned])[s.dials.length]? = some (Dial.new key).spawned :=
    List.getElem?_concat_length
  have either : ∀ {d : ℕ} {dial : Dial κ}, (s.dials ++ [(Dial.new key).spawned])[d]? = some dial →
      s.dials[d]? = some dial ∨ d = s.dials.length ∧ dial = (Dial.new key).spawned := by
    intro d dial found
    rcases Nat.lt_trichotomy d s.dials.length with below | rfl | above
    · exact Or.inl ((List.getElem?_append_left below).symm.trans found)
    · exact Or.inr ⟨rfl, Option.some.inj (found.symm.trans new)⟩
    · have out : (s.dials ++ [(Dial.new key).spawned])[d]? = none := by
        apply List.getElem?_eq_none
        rw [List.length_append, List.length_singleton]
        exact above
      cases out.symm.trans found
  have elsewhere : ∀ {d : ℕ} {dial : Dial κ}, s.dials[d]? = some dial → dial.stage = .dialing →
      dial.key ≠ key := by
    rintro d dial found dialing rfl
    cases cold.symm.trans (sound.flight d dial found dialing alive)
  refine ⟨sound.roomy, ?whole, ?slots, ?ready, ?flight, ?single, ?waits, ?empty, ?idle⟩
  case whole =>
    intro d dial found
    rcases either found with found | ⟨-, rfl⟩
    · exact sound.whole d dial found
    · exact .dialing key
  case slots =>
    intro key' d slot
    by_cases here : key' = key
    · subst here
      cases (Function.update_self _ _ _).symm.trans slot
      exact ⟨_, new, rfl, rfl⟩
    · obtain ⟨dial, found, rest⟩ :=
        sound.slots key' d ((Function.update_of_ne here _ _).symm.trans slot)
      exact ⟨dial, old found, rest⟩
  case ready =>
    intro key' cached slot
    by_cases here : key' = key
    · subst here
      cases (Function.update_self _ _ _).symm.trans slot
    · obtain ⟨dial, found, came⟩ :=
        sound.ready key' cached ((Function.update_of_ne here _ _).symm.trans slot)
      exact ⟨dial, old found, came⟩
  case flight =>
    intro d dial found dialing _
    rcases either found with found | ⟨rfl, rfl⟩
    · exact (Function.update_of_ne (elsewhere found dialing) _ _).trans
        (sound.flight d dial found dialing alive)
    · exact Function.update_self _ _ _
  case single =>
    intro d₁ d₂ dial₁ dial₂ found₁ found₂ dialing₁ dialing₂ same
    rcases either found₁ with found₁ | ⟨rfl, rfl⟩
    · rcases either found₂ with found₂ | ⟨rfl, rfl⟩
      · exact sound.single d₁ d₂ dial₁ dial₂ found₁ found₂ dialing₁ dialing₂ same
      · exact absurd same (elsewhere found₁ dialing₁)
    · rcases either found₂ with found₂ | ⟨rfl, rfl⟩
      · exact absurd same.symm (elsewhere found₂ dialing₂)
      · rfl
  case waits =>
    intro c' d seen wait waiting
    rcases getElem?_set_cases waiting with ⟨-, same⟩ | ⟨-, before⟩
    · cases same
      exact ⟨_, new, .checking fun finished => by cases finished⟩
    · obtain ⟨dial, found, waits⟩ := sound.waits c' d seen wait before
      exact ⟨dial, old found, waits⟩
  case empty => exact fun closed => absurd (alive.symm.trans closed) Bool.false_ne_true
  case idle => exact fun closed => absurd (alive.symm.trans closed) Bool.false_ne_true

theorem Sound.forget {s : State κ} (sound : s.Sound) (key : κ) (cached : ℕ) :
    (s.forget key cached).Sound := by
  unfold State.forget
  split
  · next held =>
      refine sound.withConnections fun key' => ?_
      by_cases here : key' = key
      · subst here
        exact Or.inr ⟨Function.update_self _ _ _, cached, held⟩
      · exact Or.inl (Function.update_of_ne here _ _)
  · exact sound

/-- **Every step keeps the invariant.** -/
theorem Sound.step {s s' : State κ} (sound : s.Sound) {e : Event κ} (stepped : s.step e = some s') :
    s'.Sound := by
  cases moves_of_step stepped with
  | acquired key alive =>
      refine sound.withCalls (fun c d seen wait waiting => ?_) fun closed =>
        absurd (alive.symm.trans closed) Bool.false_ne_true
      rcases Nat.lt_or_ge c s.calls.length with below | above
      · exact sound.waits c d seen wait ((List.getElem?_append_left below).symm.trans waiting)
      · rw [List.getElem?_append_right above] at waiting
        cases List.mem_singleton.mp (List.mem_of_getElem? waiting)
  | met looking held =>
      exact sound.setCall_of_active looking rfl fun d seen wait same => by cases same
  | joined looking held found => exact sound.joined looking held found
  | started looking cold => exact sound.started looking cold
  | panicked looking cold overflow => exact absurd sound.roomy (Nat.not_le_of_lt overflow)
  | judged healthy judging =>
      refine sound.setCall_of_active judging rfl fun d seen wait same => ?_
      cases healthy <;> cases same
  | @forgot c key cached forgetting =>
      have held : (s.forget key cached).calls[c]? = some (.forgetting key cached) := by
        rw [calls_forget, forgetting]
      exact (sound.forget key cached).setCall_of_active held rfl fun d seen wait same => by
        cases same
  | resumed waiting found resumed => exact sound.resume waiting found resumed
  | dropped held active =>
      exact sound.setCall_of_active held active fun d seen wait same => by cases same
  | concluded result found dialing => exact sound.dialled found dialing result
  | stored found => exact sound.store found
  | published found => exact sound.send found
  | swept stale spared =>
      refine sound.withConnections fun key => ?_
      rcases spared key with same | ⟨gone, cached, -, held⟩
      · exact Or.inl same
      · exact Or.inr ⟨gone, cached, held⟩
  | closed quiet => exact sound.close quiet

end State

theorem sound_of_run [DecidableEq κ] {overall : Duration} {s : State κ} {es : List (Event κ)}
    {log : List Empty} (roomy : overall * EVICT_AFTER_DEADLINES ≤ DURATION_MAX)
    (ran : (machine κ).run (State.init overall) es = some (s, log)) : s.Sound := by
  refine Trace.Machine.invariant (State.sound_init roomy) ?_ ran
  intro s e s' out sound stepped
  obtain ⟨s'', moved, same⟩ := Option.map_eq_some_iff.mp stepped
  cases same
  exact sound.step moved

end DialCache

end Smb1Client
