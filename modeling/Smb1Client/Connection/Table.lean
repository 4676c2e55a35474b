import Smb1Client.Lib.TableTotal
import Smb1Client.Connection.Types

/-!
The request table of `connection/table.rs`: every request the connection issues is
in exactly one state, and the actor owns one table of them.

The functions follow the source with its panics explicit; that none of them is
reached is `TableAccounting`'s subject.
-/

namespace Smb1Client

/-- The multiplex ids that may be issued: every 16-bit value but `0xFFFF`. -/
def POOL : ℕ := 65535

def LAST_MID : UInt16 := 0xFFFE

/-- How many multiplex ids may be retired before the connection fails. -/
def RETIREMENT_BUDGET : ℕ := 1024

/-- How many overall deadlines a lapsed request waits before it is given up on. -/
def GIVE_UP_DEADLINES : ℕ := 8

/-! ## Deadlines -/

/-- One element of the expiry index, ordered by instant and then by id. -/
structure Deadline where
  instant : Instant
  mid : UInt16
  deriving DecidableEq, Repr

namespace Deadline

def key (d : Deadline) : ℕ ×ₗ ℕ := toLex (d.instant, d.mid.toNat)

theorem key_injective : Function.Injective key := by
  intro a b same
  obtain ⟨instant, mid⟩ := a
  obtain ⟨instant', mid'⟩ := b
  simp only [key, EmbeddingLike.apply_eq_iff_eq, Prod.mk.injEq, UInt16.toNat_inj] at same
  rw [same.1, same.2]

instance : LinearOrder Deadline := LinearOrder.lift' key key_injective

end Deadline

/-- `BTreeSet::first`. -/
def firstDeadline (expiry : Finset Deadline) : Option Deadline :=
  if nonempty : expiry.Nonempty then some (expiry.min' nonempty) else none

theorem firstDeadline_eq_none {expiry : Finset Deadline} :
    firstDeadline expiry = none ↔ expiry = ∅ := by
  unfold firstDeadline
  split
  · next nonempty => simp [nonempty.ne_empty]
  · next none => simpa using none

theorem mem_of_firstDeadline {expiry : Finset Deadline} {d : Deadline}
    (first : firstDeadline expiry = some d) : d ∈ expiry := by
  unfold firstDeadline at first
  split at first
  · next nonempty =>
      rw [← Option.some.inj first]
      exact Finset.min'_mem expiry nonempty
  · cases first

/-! ## One request's row -/

/-- Where a request is. -/
inductive State where
  | onWire (reply : Option Ticket) (silenceAt overallAt : Instant)
  | lapsed (giveUpAt : Instant)
  | retired
  deriving DecidableEq, Repr

structure Entry where
  command : UInt8
  assembly : Option Assembly
  outcome : Option Ticket
  state : State

/-- What one arrival did to a request. -/
inductive Step where
  | continuing
  | completed
  | corrupted
  deriving DecidableEq, Repr

/-- How a message divides once it has reached its request. -/
inductive Arrival where
  | interim
  | fragment (response : TransactionResponse)
  | complete (transaction : Option TransactionBody)

/-- Divides an arrival before anything is done with it. -/
def classify (message : Message) (reassembles : Bool) : Except Error Arrival :=
  let status := message.header.status
  if status = .PENDING then .ok .interim
  else if reassembles = false then .ok (.complete none)
  else if status = .SUCCESS then
    match TransactionResponse.decode message with
    | .ok response => .ok (.fragment response)
    | .error error => .error (.wire error)
  else
    match TransactionResponse.decode message with
    | .ok response => .ok (.complete (some ⟨response.setup, response.parameters, response.data⟩))
    | .error _ => .ok (.complete none)

namespace Entry

/-- When this request next needs the actor's attention. -/
def expiresAt (e : Entry) : Option Instant :=
  match e.state with
  | .onWire _ silenceAt overallAt => some (min silenceAt overallAt)
  | .lapsed giveUpAt => some giveUpAt
  | .retired => none

/-- Whether this request charges capacity. -/
def charges (e : Entry) : Bool :=
  match e.state with
  | .onWire .. => true
  | _ => false

def isRetired (e : Entry) : Bool :=
  match e.state with
  | .retired => true
  | _ => false

/-- Restarts the silence clock of a request on the wire. -/
def touch (e : Entry) (now : Instant) (perRequest : Duration) : Entry :=
  match e.state with
  | .onWire reply _ overallAt => { e with state := .onWire reply (now + perRequest) overallAt }
  | _ => e

/-- Hands the outcome to the hook and to whoever is waiting. -/
def deliver (e : Entry) (outcome : Except Error Reply) : Entry × List Effect :=
  match e.state with
  | .onWire reply silenceAt overallAt =>
      ({ e with outcome := none, state := .onWire none silenceAt overallAt },
        (e.outcome.map (.ended · outcome)).toList ++ (reply.map (.answered · outcome)).toList)
  | _ => (e, [])

/-- Ends the request on a protocol error in what arrived. -/
def corrupt (e : Entry) (error : Error) : Entry × Step × List Effect :=
  let (e, effects) := e.deliver (.error error)
  (e, .corrupted, effects)

def accept (e : Entry) (message : Message) (now : Instant) (perRequest : Duration) :
    Except Panic (Entry × Step × List Effect) :=
  let e := e.touch now perRequest
  match classify message e.assembly.isSome with
  | .error error => .ok (e.corrupt error)
  | .ok .interim => .ok (e, .continuing, [])
  | .ok (.complete transaction) =>
      let (e, effects) := e.deliver (.ok { message, transaction })
      .ok (e, .completed, effects)
  | .ok (.fragment response) =>
      match e.assembly with
      | none => .error .fragmentWithoutAssembly
      | some assembly =>
          match assembly.accept response with
          | .error error => .ok (e.corrupt (.reassembly error))
          | .ok (assembly, .continuing) =>
              .ok ({ e with assembly := some assembly }, .continuing, [])
          | .ok (assembly, .complete) =>
              let (setup, parameters, data) := assembly.finish
              let (e, effects) := { e with assembly := none }.deliver
                (.ok { message, transaction := some { setup, parameters, data } })
              .ok (e, .completed, effects)

end Entry

/-! ## The table -/

structure RequestTable where
  entries : AList (fun _ : UInt16 => Entry)
  expiry : Finset Deadline
  charging : ℕ
  retired : ℕ
  cursor : UInt16
  limit : ℕ
  timeouts : Timeouts

namespace RequestTable

def new (limit : ℕ) (timeouts : Timeouts) : RequestTable where
  entries := ∅
  expiry := ∅
  charging := 0
  retired := 0
  cursor := 0
  limit := limit
  timeouts := timeouts

/-- When the actor next has timers to fire. -/
def nextExpiry (t : RequestTable) : Option Instant := (firstDeadline t.expiry).map (·.instant)

/-- The id after the cursor, `0xFFFF` passed over. -/
def advance (cursor : UInt16) : UInt16 := if cursor = LAST_MID then 0 else cursor + 1

/-- The loop of `allocate`, `attempts` turns of it. -/
def allocateFrom : ℕ → RequestTable → Option UInt16 × RequestTable
  | 0, t => (none, t)
  | attempts + 1, t =>
      let mid := t.cursor
      let t := { t with cursor := advance t.cursor }
      if mid ∉ t.entries then (some mid, t) else allocateFrom attempts t

/-- Takes a free multiplex id, or nothing where every one of them is held at once. -/
def allocate (t : RequestTable) : Option UInt16 × RequestTable :=
  if t.entries.entries.length ≥ POOL then (none, t) else allocateFrom POOL t

/-- Puts a request on the wire. -/
def dispatch (t : RequestTable) (mid : UInt16) (command : UInt8) (reply : Option Ticket)
    (assembly : Option Assembly) (outcome : Option Ticket) (now : Instant) : RequestTable :=
  let silenceAt := now + t.timeouts.perRequest
  let overallAt := now + t.timeouts.overall
  { t with
    expiry := insert ⟨min silenceAt overallAt, mid⟩ t.expiry
    entries := t.entries.insert mid
      { command, assembly, outcome, state := .onWire reply silenceAt overallAt }
    charging := t.charging + 1 }

/-- Removes an id's deadline from the index, where it has one. -/
def withdraw (expiry : Finset Deadline) (mid : UInt16) : Option Instant → Finset Deadline
  | some instant => expiry.erase ⟨instant, mid⟩
  | none => expiry

/-- Adds an id's deadline to the index, where it has one. -/
def enter (expiry : Finset Deadline) (mid : UInt16) : Option Instant → Finset Deadline
  | some instant => insert ⟨instant, mid⟩ expiry
  | none => expiry

/-- Moves an id's deadline in the index, where it changed. -/
def reindex (expiry : Finset Deadline) (mid : UInt16) (before after : Option Instant) :
    Finset Deadline :=
  if before ≠ after then enter (withdraw expiry mid before) mid after else expiry

/-- `charging -= 1`. -/
def discharge (t : RequestTable) : Except Panic RequestTable :=
  match t.charging with
  | 0 => .error .chargingUnderflow
  | charging + 1 => .ok { t with charging := charging }

/-- Withholds an id from the pool for the life of the connection. -/
def retire (t : RequestTable) (mid : UInt16) :
    Except Panic (RequestTable × Except Error Unit) :=
  match t.entries.lookup mid with
  | none => .error .retiredUnknown
  | some entry =>
      let entry := { entry with state := .retired, assembly := none }
      let t := { t with entries := t.entries.insert mid entry, retired := t.retired + 1 }
      .ok (t,
        if t.retired ≥ RETIREMENT_BUDGET then .error (.retirementBudget t.retired) else .ok ())

/-- What an arrival leaves of a request's deadline. -/
def deadlineAfter (e : Entry) : Step → Option Instant
  | .continuing => e.expiresAt
  | .completed | .corrupted => none

/-- Gives back the capacity of a request that an arrival has ended. -/
def settleCharge (t : RequestTable) (charged : Bool) : Step → Except Panic RequestTable
  | .continuing => .ok t
  | .completed | .corrupted => if charged then t.discharge else .ok t

/-- Routes one message to its request. -/
def accept (t : RequestTable) (message : Message) (now : Instant) :
    Except Panic (RequestTable × Except Error Unit × List Effect) :=
  let mid := message.header.mid
  let command := message.header.command
  match t.entries.lookup mid with
  | none => .ok (t, .error (.unroutable mid command), [])
  | some entry =>
      if entry.isRetired then .ok (t, .ok (), [])
      else if entry.command ≠ command then .ok (t, .error (.unroutable mid command), [])
      else do
        let (entry', step, effects) ← entry.accept message now t.timeouts.perRequest
        let t := { t with
          entries := t.entries.insert mid entry'
          expiry := reindex t.expiry mid entry.expiresAt (deadlineAfter entry' step) }
        let t ← t.settleCharge entry.charges step
        match step with
        | .continuing => .ok (t, .ok (), effects)
        | .completed => .ok ({ t with entries := t.entries.erase mid }, .ok (), effects)
        | .corrupted => do
            let (t, verdict) ← t.retire mid
            .ok (t, verdict, effects)

/-- One turn of the loop of `expire`, for a deadline that has passed. -/
def fire (t : RequestTable) (d : Deadline) (now : Instant) :
    Except Panic (RequestTable × Except Error Unit × List Effect) :=
  let t := { t with expiry := t.expiry.erase d }
  let giveUpAt := now + t.timeouts.overall * GIVE_UP_DEADLINES
  match t.entries.lookup d.mid with
  | none => .error .expiryDisagrees
  | some entry =>
      match entry.state with
      | .onWire .. => do
          let (entry, effects) := entry.deliver (.error .timeout)
          let entry := { entry with
            assembly := entry.assembly.map (·.release)
            state := .lapsed giveUpAt }
          let t := { t with entries := t.entries.insert d.mid entry }
          let t ← t.discharge
          .ok ({ t with expiry := insert ⟨giveUpAt, d.mid⟩ t.expiry }, .ok (), effects)
      | .lapsed _ => do
          let (t, verdict) ← t.retire d.mid
          .ok (t, verdict, [])
      | .retired => .error .retiredDeadline

/-- The loop of `expire`, at most `turns` turns of it. -/
def expireLoop : ℕ → RequestTable → Instant →
    Except Panic (RequestTable × Except Error Unit × List Effect)
  | 0, _, _ => .error .expireSpins
  | turns + 1, t, now =>
      match firstDeadline t.expiry with
      | none => .ok (t, .ok (), [])
      | some d =>
          if d.instant > now then .ok (t, .ok (), [])
          else do
            let (t, verdict, effects) ← t.fire d now
            match verdict with
            | .error error => .ok (t, .error error, effects)
            | .ok () => do
                let (t, verdict, later) ← expireLoop turns t now
                .ok (t, verdict, effects ++ later)

/-- Fires whatever the clock has reached. A request takes at most two turns: one to
lapse and one to be given up on. -/
def expire (t : RequestTable) (now : Instant) :
    Except Panic (RequestTable × Except Error Unit × List Effect) :=
  expireLoop (2 * t.entries.entries.length + 1) t now

/-- Ends every request the connection was holding. -/
def failAll (t : RequestTable) : RequestTable × List Effect :=
  ({ t with entries := ∅, expiry := ∅, charging := 0 },
    t.entries.entries.flatMap fun row =>
      if row.2.charges then (row.2.deliver (.error .lost)).2 else [])

end RequestTable

end Smb1Client
