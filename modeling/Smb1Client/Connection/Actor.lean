import Smb1Client.Lib.Trace
import Smb1Client.Connection.Table

/-!
The actor loop of `connection/actor.rs`, one `select` at a time.

The guards of a `select` are computed before it waits, from the channels as they are
then, and the branch it takes is any that is ready: so the loop's head and its wait
are separate phases, sends may come between them, and the branch is the event's
choice. Bytes of the socket come in as whole messages; how the reader finds their
boundaries is `Connection/Framing`.
-/

namespace Smb1Client

/-- How many closes may reach the wire in a row while a request waits behind them. -/
def CLOSE_RUN : ℕ := 8

/-- The commands whose response carries an AndX prologue. -/
def ANDX_RESPONSES : List UInt8 :=
  [Command.READ_ANDX, Command.WRITE_ANDX, Command.SESSION_SETUP_ANDX, Command.LOGOFF_ANDX,
    Command.TREE_CONNECT_ANDX, Command.NT_CREATE_ANDX]

/-- What the socket delivered. -/
inductive Inbound where
  | message (message : Message)
  | keepAlive

/-- What enters the request table at the first byte on the socket. -/
structure Queued where
  mid : UInt16
  command : UInt8
  reply : Option Ticket
  assembly : Option Assembly
  outcome : Option Ticket

/-- The frame the actor is putting on the socket. -/
structure Writing where
  frame : Bytes
  cursor : ℕ
  queued : Option Queued

/-- The receiving end of a channel: what waits in it, and whether a sender is left. -/
structure Channel where
  queue : List Dispatch
  senders : Bool

structure Actor where
  writing : Option Writing
  requests : Channel
  closes : Channel
  requestsDone : Bool
  closesDone : Bool
  table : RequestTable
  timeouts : Timeouts
  silentFor : Duration
  waitingSince : Option Instant
  consecutiveCloses : ℕ

/-- The command a response claims to chain, if it claims one. -/
def chainedCommand (m : Message) : Option UInt8 :=
  if m.header.command ∉ ANDX_RESPONSES then none
  else
    match m.words with
    | next :: _ => if next ≠ NO_FURTHER_COMMAND then some next else none
    | [] => none

namespace Actor

def new (limit : ℕ) (timeouts : Timeouts) : Actor where
  writing := none
  requests := ⟨[], true⟩
  closes := ⟨[], true⟩
  requestsDone := false
  closesDone := false
  table := .new limit timeouts
  timeouts := timeouts
  silentFor := 0
  waitingSince := none
  consecutiveCloses := 0

/-- The reassembly a request starts with: the command decides whether it has one. -/
def assemblyFor (request : Request) : Option Assembly :=
  if request.command = Command.TRANSACTION ∨ request.command = Command.TRANSACTION2 then
    some (.new request.maxParameterCount request.maxDataCount)
  else none

/-- Takes one request from a channel and starts putting it on the socket.
`callerGone` is what the caller's oneshot says of its receiver. -/
def begin (a : Actor) (d : Dispatch) (callerGone : Bool) :
    Actor × Except Error Unit × List Effect :=
  if d.reply.isSome ∧ callerGone = true then
    (a, .ok (), (d.request.outcome.map (.ended · (.error .lost))).toList)
  else
    let (allocated, table) := a.table.allocate
    let a := { a with table }
    match allocated with
    | none => (a, .error .poolExhausted, [])
    | some mid =>
        let header : SmbHeader :=
          { SmbHeader.request d.request.command with
            mid, tid := d.request.tid, uid := d.request.uid }
        match frame (message header d.request.body) with
        | .error error =>
            -- Nothing reached the socket: the failure is this request's alone.
            (a, .ok (), (d.request.outcome.map (.ended · (.error (.wire error)))).toList ++
              (d.reply.map (.answered · (.error (.wire error)))).toList)
        | .ok frame =>
            ({ a with
                writing := some
                  { frame, cursor := 0,
                    queued := some
                      { mid, command := d.request.command, reply := d.reply,
                        assembly := assemblyFor d.request, outcome := d.request.outcome } } },
              .ok (), [])

/-- Follows the connection in and out of having a caller waiting on it. -/
def noteWaiting (a : Actor) (now : Instant) : Actor :=
  match a.waitingSince, decide (a.table.charging > 0) with
  | none, true => { a with waitingSince := some now }
  | some since, false =>
      { a with silentFor := a.silentFor + (now - since), waitingSince := none }
  | _, _ => a

/-- How long the connection has been silent with a caller waiting on it. -/
def silentForAt (a : Actor) (now : Instant) : Duration :=
  a.silentFor + (match a.waitingSince with
    | some since => now - since
    | none => 0)

/-- Puts the queued half of a write on the wire, where the first byte has just gone. -/
def dispatchQueued (table : RequestTable) (queued : Option Queued) (now : Instant) :
    RequestTable :=
  match queued with
  | some q => table.dispatch q.mid q.command q.reply q.assembly q.outcome now
  | none => table

/-- Takes what the socket accepted of the frame in progress. -/
def wrote (a : Actor) (written : ℕ) (now : Instant) : Except Panic (Actor × Except Error Unit) :=
  if written = 0 then .ok (a, .error (.io .writeZero))
  else
    match a.writing with
    | none => .error .writtenWithoutWriting
    | some writing =>
        let cursor := writing.cursor + written
        let a := { a with
          table := dispatchQueued a.table writing.queued now
          writing :=
            if cursor ≥ writing.frame.length then none
            else some { writing with cursor, queued := none } }
        .ok (a.noteWaiting now, .ok ())

/-- Gives one inbound frame its outcome. -/
def route (a : Actor) (inbound : Inbound) (now : Instant) :
    Except Panic (Actor × Except Error Unit × List Effect) :=
  match inbound with
  | .keepAlive => .ok (a, .ok (), [])
  | .message message =>
      match chainedCommand message with
      | some next => .ok (a, .error (.chainedResponse next), [])
      | none => do
          let (table, verdict, effects) ← a.table.accept message now
          let a := { a with table, silentFor := 0, waitingSince := none }
          match verdict with
          | .error error => .ok (a, .error error, effects)
          | .ok () =>
              -- The reply reaches its caller before the session's end is looked at.
              .ok (a.noteWaiting now,
                if message.header.status = .USER_SESSION_DELETED then .error .sessionDeleted
                else .ok (), effects)

/-- Fires whatever the clock has reached. -/
def tick (a : Actor) (now : Instant) :
    Except Panic (Actor × Except Error Unit × List Effect) :=
  if a.waitingSince.isSome ∧ a.silentForAt now ≥ a.timeouts.overall then
    .ok (a, .error .silent, [])
  else do
    let (table, verdict, effects) ← a.table.expire now
    .ok ({ a with table }.noteWaiting now, verdict, effects)

def nextWake (a : Actor) : Option Instant :=
  let silence := a.waitingSince.map fun since => since + (a.timeouts.overall - a.silentFor)
  match a.table.nextExpiry, silence with
  | some expiry, some silence => some (min expiry silence)
  | some expiry, none => some expiry
  | none, silence => silence

/-! ## The head of the loop -/

/-- The run of closes counts only while both channels have something waiting. -/
def resetRun (a : Actor) : Actor :=
  if a.requests.queue = [] ∨ a.closes.queue = [] then { a with consecutiveCloses := 0 } else a

/-- Every handle has gone and nothing is outstanding. -/
def finished (a : Actor) : Bool :=
  a.requestsDone && a.closesDone && a.writing.isNone && a.table.charging = 0

def canAdmit (a : Actor) : Bool := a.writing.isNone && a.table.charging < a.table.limit

/-- The preconditions of the branches of one `select`. -/
structure Guards where
  takeClose : Bool
  takeRequest : Bool
  wake : Option Instant
  deriving DecidableEq, Repr

def guards (a : Actor) : Guards where
  takeClose := a.canAdmit && !a.closesDone && a.consecutiveCloses < CLOSE_RUN
  takeRequest :=
    a.canAdmit && !a.requestsDone && (a.consecutiveCloses ≥ CLOSE_RUN || a.closes.queue.isEmpty)
  wake := a.nextWake

end Actor

/-! ## The connection task and its surroundings -/

/-- Where the task is: at the loop's head, waiting in a `select` with its guards
computed, out of the loop, or gone with its channels. -/
inductive Phase where
  | head
  | selecting (guards : Actor.Guards)
  | stopped (verdict : Except Error Unit)
  | gone
  | panicked (panic : Panic)

/-- The connection task, the clock, and how many sends there have been. -/
structure World where
  actor : Actor
  phase : Phase
  clock : Instant
  tickets : ℕ

/-- What can happen next, inside the task or around it. -/
inductive Event where
  /-- A caller's request gets into the request channel. -/
  | request (request : Request)
  /-- A dropped handle's close is enqueued. -/
  | close (request : Request)
  /-- The last sender of the request channel goes. -/
  | dropRequests
  /-- The last sender of the close channel goes. -/
  | dropCloses
  | advance (span : Duration)
  /-- The head of the loop. -/
  | evaluate
  | takeClose (callerGone : Bool)
  | takeRequest (callerGone : Bool)
  | inbound (result : Except Error (Option Inbound))
  | written (result : Except IoError ℕ)
  | timer
  /-- `fail_all`, after which the task and its channels are dropped. -/
  | teardown

namespace World

def new (limit : ℕ) (timeouts : Timeouts) : World where
  actor := .new limit timeouts
  phase := .head
  clock := 0
  tickets := 0

/-- A request as it is sent: its oneshot and its hook are its own. -/
def stamp (w : World) (request : Request) (awaited : Bool) : Dispatch where
  ticket := w.tickets
  request := { request with outcome := request.outcome.map fun _ => w.tickets }
  reply := if awaited then some w.tickets else none

/-- The task goes on to the loop's head, or leaves the loop with an error. -/
def conclude (w : World) (a : Actor) : Except Error Unit → World
  | .ok () => { w with actor := a, phase := .head }
  | .error error => { w with actor := a, phase := .stopped (.error error) }

/-- The outcome of a handler that may panic. -/
def concludeOr (w : World) : Except Panic (Actor × Except Error Unit × List Effect) →
    World × List Effect
  | .error panic => ({ w with phase := .panicked panic }, [])
  | .ok (a, verdict, effects) => (w.conclude a verdict, effects)

/-- Whether the receiving ends are still there. -/
def receiving (w : World) : Bool :=
  match w.phase with
  | .gone | .panicked _ => false
  | _ => true

/-- A branch of the `select` that takes from a channel. -/
def takeFrom (w : World) (channel : Channel) (isClose callerGone : Bool) :
    Option (World × List Effect) :=
  match channel.queue with
  | d :: rest =>
      let a := w.actor
      let a : Actor :=
        if isClose then
          { a with closes := { channel with queue := rest },
                   consecutiveCloses := a.consecutiveCloses + 1 }
        else { a with requests := { channel with queue := rest }, consecutiveCloses := 0 }
      let (a, verdict, effects) := a.begin d callerGone
      some (w.conclude a verdict, effects)
  | [] =>
      if channel.senders then none
      else if isClose then
        some ({ w with actor := { w.actor with closesDone := true }, phase := .head }, [])
      else some ({ w with actor := { w.actor with requestsDone := true }, phase := .head }, [])

/-- What the reader's step came to. -/
def arrived (w : World) : Except Error (Option Inbound) → World × List Effect
  | .error error => (w.conclude w.actor (.error error), [])
  | .ok none => (w.conclude w.actor (.ok ()), [])
  | .ok (some inbound) => w.concludeOr (w.actor.route inbound w.clock)

/-- What the write in progress came to. A socket takes no more than it is offered. -/
def progressed (w : World) (writing : Writing) :
    Except IoError ℕ → Option (World × List Effect)
  | .error error => some (w.conclude w.actor (.error (.io error)), [])
  | .ok written =>
      if writing.cursor + written ≤ writing.frame.length then
        some (w.concludeOr ((w.actor.wrote written w.clock).map fun (a, verdict) =>
          (a, verdict, [])))
      else none

/-- One event, where it can happen. -/
def step (w : World) : Event → Option (World × List Effect)
  | .request request =>
      if w.receiving ∧ w.actor.requests.senders = true ∧
          w.actor.requests.queue.length < w.actor.table.limit then
        some ({ w with
          actor := { w.actor with
            requests := { w.actor.requests with
              queue := w.actor.requests.queue ++ [w.stamp request true] } }
          tickets := w.tickets + 1 }, [])
      else none
  | .close request =>
      if w.receiving ∧ w.actor.closes.senders = true then
        some ({ w with
          actor := { w.actor with
            closes := { w.actor.closes with
              queue := w.actor.closes.queue ++ [w.stamp request false] } }
          tickets := w.tickets + 1 }, [])
      else none
  | .dropRequests =>
      some ({ w with actor := { w.actor with
        requests := { w.actor.requests with senders := false } } }, [])
  | .dropCloses =>
      some ({ w with actor := { w.actor with
        closes := { w.actor.closes with senders := false } } }, [])
  | .advance span => some ({ w with clock := w.clock + span }, [])
  | .evaluate =>
      match w.phase with
      | .head =>
          let a := w.actor.resetRun
          if a.finished then some ({ w with actor := a, phase := .stopped (.ok ()) }, [])
          else some ({ w with actor := a, phase := .selecting a.guards }, [])
      | _ => none
  | .takeClose callerGone =>
      match w.phase with
      | .selecting guards =>
          if guards.takeClose then w.takeFrom w.actor.closes true callerGone else none
      | _ => none
  | .takeRequest callerGone =>
      match w.phase with
      | .selecting guards =>
          if guards.takeRequest then w.takeFrom w.actor.requests false callerGone else none
      | _ => none
  | .inbound result =>
      match w.phase with
      | .selecting _ => some (w.arrived result)
      | _ => none
  | .written result =>
      match w.phase, w.actor.writing with
      | .selecting _, some writing => w.progressed writing result
      | _, _ => none
  | .timer =>
      match w.phase with
      | .selecting guards =>
          if guards.wake.any (· ≤ w.clock) then some (w.concludeOr (w.actor.tick w.clock))
          else none
      | _ => none
  | .teardown =>
      match w.phase with
      | .stopped _ =>
          let (table, effects) := w.actor.table.failAll
          some ({ w with
            actor := { w.actor with
              table
              writing := none
              requests := { w.actor.requests with queue := [] }
              closes := { w.actor.closes with queue := [] } }
            phase := .gone }, effects)
      | _ => none

end World

/-- The connection task as a machine. -/
def connection : Trace.Machine World Event Effect := ⟨World.step⟩

end Smb1Client
