import Smb1Client.Connection.Actor
import Smb1Client.Connection.TableAccounting

/-!
What one step of the connection task does, said once.

`World.Moves` is the inversion of `World.step`: every property of runs is a case
analysis of it. It holds in the states `World.Sound` describes, which are those a
connection reaches: the table's accounts agree, the request being written has an id
and the capacity waiting for it, and nothing has panicked.
-/

namespace Smb1Client

/-- What a request that ends hands to its hook and to its caller. -/
def told (hook caller : Option Ticket) (outcome : Except Error Reply) : List Effect :=
  (hook.map (.ended · outcome)).toList ++ (caller.map (.answered · outcome)).toList

namespace Actor

variable {a a' : Actor} {now : Instant} {verdict : Except Error Unit} {effects : List Effect}

/-- The half of the write in progress that has not reached the table. -/
def queued (a : Actor) : Option Queued := a.writing.bind (·.queued)

/-! ## The actor's handlers -/

/-- The cases of `begin`, for a caller that is gone or not. -/
inductive Begins (a : Actor) (d : Dispatch) :
    Bool → Actor → Except Error Unit → List Effect → Prop
  | forgone : d.reply.isSome = true →
      Begins a d true a (.ok ()) (told d.request.outcome none (.error .lost))
  | exhausted {callerGone : Bool} : ¬ (d.reply.isSome = true ∧ callerGone = true) →
      a.table.allocate.1 = none →
      Begins a d callerGone { a with table := a.table.allocate.2 } (.error .poolExhausted) []
  | unsendable {callerGone : Bool} {mid : UInt16} (error : WireError) :
      a.table.allocate.1 = some mid →
      Begins a d callerGone { a with table := a.table.allocate.2 } (.ok ())
        (told d.request.outcome d.reply (.error (.wire error)))
  | started {callerGone : Bool} {mid : UInt16} (frame : Bytes) :
      a.table.allocate.1 = some mid →
      Begins a d callerGone
        { a with
          table := a.table.allocate.2
          writing := some
            { frame, cursor := 0,
              queued := some
                { mid, command := d.request.command, reply := d.reply,
                  assembly := assemblyFor d.request, outcome := d.request.outcome } } }
        (.ok ()) []

theorem begins (a : Actor) (d : Dispatch) (callerGone : Bool) :
    a.Begins d callerGone (a.begin d callerGone).1 (a.begin d callerGone).2.1
      (a.begin d callerGone).2.2 := by
  unfold begin
  by_cases gone : d.reply.isSome = true ∧ callerGone = true
  · rw [if_pos gone]
    rcases gone with ⟨awaited, rfl⟩
    have told := Begins.forgone (a := a) awaited
    rwa [Smb1Client.told, Option.map_none, Option.toList_none, List.append_nil] at told
  rw [if_neg gone]
  cases allocation : a.table.allocate with
  | mk allocated table =>
      cases allocated with
      | none =>
          have exhausted := Begins.exhausted (a := a) gone (by rw [allocation])
          rwa [allocation] at exhausted
      | some mid =>
          dsimp only
          split
          · next error _ =>
              have unsendable := @Begins.unsendable a d callerGone mid error (by rw [allocation])
              rwa [allocation] at unsendable
          · next frame _ =>
              have started := @Begins.started a d callerGone mid frame (by rw [allocation])
              rwa [allocation] at started

theorem Begins.channels {d : Dispatch} {callerGone : Bool}
    (begins : a.Begins d callerGone a' verdict effects) :
    a'.requests = a.requests ∧ a'.closes = a.closes := by
  cases begins <;> exact ⟨rfl, rfl⟩

theorem Begins.flags {d : Dispatch} {callerGone : Bool}
    (begins : a.Begins d callerGone a' verdict effects) :
    a'.requestsDone = a.requestsDone ∧ a'.closesDone = a.closesDone := by
  cases begins <;> exact ⟨rfl, rfl⟩

theorem Begins.entries_eq {d : Dispatch} {callerGone : Bool}
    (begins : a.Begins d callerGone a' verdict effects) :
    a'.table.entries = a.table.entries := by
  obtain ⟨cursor, frame⟩ := a.table.allocate_frame
  cases begins with
  | forgone => rfl
  | exhausted => rw [frame]
  | unsendable => rw [frame]
  | started => rw [frame]

theorem noteWaiting_frame (a : Actor) (now : Instant) :
    ∃ silentFor waitingSince,
      a.noteWaiting now = { a with silentFor := silentFor, waitingSince := waitingSince } := by
  unfold noteWaiting
  split
  · exact ⟨_, _, rfl⟩
  · exact ⟨_, _, rfl⟩
  · exact ⟨_, _, rfl⟩

theorem resetRun_frame (a : Actor) :
    ∃ closes, a.resetRun = { a with consecutiveCloses := closes } := by
  unfold resetRun
  split
  · exact ⟨0, rfl⟩
  · exact ⟨_, rfl⟩

/-- What becomes of the connection once a message has been routed. -/
def sessionVerdict (message : Message) : Except Error Unit → Except Error Unit
  | .error error => .error error
  | .ok () =>
      if message.header.status = .USER_SESSION_DELETED then .error .sessionDeleted else .ok ()

/-- What `route` does with a message that chains no command. -/
theorem route_message (accounts : a.table.Accounts) (message : Message)
    (unchained : chainedCommand message = none) (now : Instant) :
    ∃ table routed effects silentFor waitingSince,
      a.table.Accepts message now table routed effects ∧
      a.route (.message message) now =
        .ok ({ a with table, silentFor, waitingSince }, sessionVerdict message routed,
          effects) := by
  obtain ⟨table, routed, effects, accepted, accepts⟩ := accounts.accepts message now
  unfold route
  dsimp only
  rw [unchained]
  simp only [accepted, bind, Except.bind]
  cases routed with
  | error error => exact ⟨_, _, _, _, _, accepts, rfl⟩
  | ok =>
      obtain ⟨silentFor, waitingSince, frame⟩ :=
        noteWaiting_frame { a with table, silentFor := 0, waitingSince := none } now
      refine ⟨table, .ok (), effects, silentFor, waitingSince, accepts, ?_⟩
      dsimp only
      rw [frame]
      rfl

/-- The silence has lasted for the overall deadline with a caller waiting on it. -/
def SilentTooLong (a : Actor) (now : Instant) : Prop :=
  a.waitingSince.isSome = true ∧ a.silentForAt now ≥ a.timeouts.overall

theorem tick_cases (accounts : a.table.Accounts) (now : Instant) :
    a.SilentTooLong now ∧ a.tick now = .ok (a, .error .silent, []) ∨
      ∃ table verdict effects silentFor waitingSince, ¬ a.SilentTooLong now ∧
        RequestTable.Expires now a.table table verdict effects ∧ table.Accounts ∧
        a.tick now = .ok ({ a with table, silentFor, waitingSince }, verdict, effects) := by
  unfold tick
  split
  · next long => exact Or.inl ⟨long, rfl⟩
  · next short =>
    obtain ⟨table, verdict, effects, expired, expires, accounts'⟩ := accounts.expires now
    obtain ⟨silentFor, waitingSince, frame⟩ := noteWaiting_frame { a with table } now
    refine Or.inr ⟨table, verdict, effects, silentFor, waitingSince, short, expires, accounts', ?_⟩
    simp only [expired, bind, Except.bind]
    rw [frame]

/-- What is left of a write that has put more bytes on the socket. -/
def writingAfter (writing : Writing) (written : ℕ) : Option Writing :=
  if writing.cursor + written ≥ writing.frame.length then none
  else some { writing with cursor := writing.cursor + written, queued := none }

theorem wrote_cases {writing : Writing} (inProgress : a.writing = some writing) (written : ℕ)
    (now : Instant) :
    written = 0 ∧ a.wrote written now = .ok (a, .error (.io .writeZero)) ∨
      ∃ silentFor waitingSince, written ≠ 0 ∧ a.wrote written now =
        .ok ({ a with
          table := dispatchQueued a.table writing.queued now
          writing := writingAfter writing written
          silentFor := silentFor
          waitingSince := waitingSince }, .ok ()) := by
  unfold wrote
  split
  · next zero => exact Or.inl ⟨zero, rfl⟩
  · next some =>
    obtain ⟨silentFor, waitingSince, frame⟩ := noteWaiting_frame { a with
      table := dispatchQueued a.table writing.queued now
      writing := writingAfter writing written } now
    refine Or.inr ⟨silentFor, waitingSince, some, ?_⟩
    rw [inProgress]
    dsimp only
    unfold writingAfter at frame ⊢
    rw [frame]

@[simp] theorem queued_writingAfter {writing : Writing} {written : ℕ} :
    (writingAfter writing written).bind (·.queued) = none := by
  unfold writingAfter
  split <;> rfl

/-! ## The actor's invariant -/

/-- The accounts agree, and the request being written can still enter the table. -/
structure Sound (a : Actor) : Prop where
  accounts : a.table.Accounts
  free : ∀ q ∈ a.queued, q.mid ∉ a.table.entries
  capacity : a.queued.isSome = true → a.table.charging < a.table.limit

/-- With nothing queued the accounts are all there is. -/
theorem Sound.of_unqueued (accounts : a.table.Accounts) (unqueued : a.queued = none) :
    a.Sound where
  accounts := accounts
  free := by
    intro q member
    rw [unqueued] at member
    cases member
  capacity := by
    intro some
    rw [unqueued] at some
    cases some

theorem sound_new (limit : ℕ) (timeouts : Timeouts) : (new limit timeouts).Sound :=
  .of_unqueued (RequestTable.accounts_new limit timeouts) rfl

theorem queued_congr (writing : a'.writing = a.writing) : a'.queued = a.queued := by
  rw [queued, queued, writing]

/-- A table that holds no further ids and charges no more. -/
theorem Sound.narrow (sound : a.Sound) (writing : a'.writing = a.writing)
    (accounts : a'.table.Accounts) (fewer : ∀ mid ∈ a'.table.entries, mid ∈ a.table.entries)
    (less : a'.table.charging ≤ a.table.charging) (limit : a'.table.limit = a.table.limit) :
    a'.Sound where
  accounts := accounts
  free := by
    rw [queued_congr writing]
    exact fun q member held => sound.free q member (fewer _ held)
  capacity := by
    rw [queued_congr writing, limit]
    exact fun some => lt_of_le_of_lt less (sound.capacity some)

/-- The parts of an actor `Sound` does not look at. -/
theorem Sound.of_eq (sound : a.Sound) (table : a'.table = a.table)
    (writing : a'.writing = a.writing) : a'.Sound := by
  refine sound.narrow writing ?_ ?_ ?_ ?_ <;> rw [table]
  · exact sound.accounts
  · exact fun mid held => held

theorem Sound.begins {d : Dispatch} {callerGone : Bool} (sound : a.Sound)
    (idle : a.writing = none) (admits : a.table.charging < a.table.limit)
    (begins : a.Begins d callerGone a' verdict effects) : a'.Sound := by
  obtain ⟨cursor, frame⟩ := a.table.allocate_frame
  have moved := sound.accounts.allocate
  have unqueued : a.queued = none := by rw [queued, idle]; rfl
  cases begins with
  | forgone => exact sound
  | exhausted => exact .of_unqueued moved unqueued
  | unsendable => exact .of_unqueued moved unqueued
  | started _ allocated =>
      have absent := RequestTable.allocate_absent allocated
      refine ⟨moved, fun q member => ?_, fun _ => ?_⟩
      · cases member
        dsimp only
        rw [frame]
        exact absent
      · dsimp only
        rw [frame]
        exact admits

theorem Sound.wrote {writing : Writing} (sound : a.Sound) (inProgress : a.writing = some writing)
    (written : ℕ) (table : a'.table = dispatchQueued a.table writing.queued now)
    (rest : a'.writing = writingAfter writing written) : a'.Sound := by
  have queued' : a.queued = writing.queued := by rw [queued, inProgress, Option.bind_some]
  have free := sound.free
  have capacity := sound.capacity
  rw [queued'] at free capacity
  refine .of_unqueued ?_ (by rw [queued, rest, queued_writingAfter])
  rw [table]
  unfold dispatchQueued
  cases half : writing.queued with
  | none => exact sound.accounts
  | some q => exact sound.accounts.dispatch (free q half) (capacity (by rw [half]; rfl))

end Actor

/-! ## The table's charge goes down -/

namespace RequestTable

variable {t t' : RequestTable} {now : Instant} {verdict : Except Error Unit}
  {effects : List Effect}

theorem Accepts.charging_le {message : Message}
    (accepts : t.Accepts message now t' verdict effects) : t'.charging ≤ t.charging := by
  cases accepts with
  | unknown => exact le_rfl
  | remembered => exact le_rfl
  | mismatched => exact le_rfl
  | continued => exact le_rfl
  | completed => exact Nat.sub_le _ _
  | corrupted => exact Nat.sub_le _ _

theorem Fires.charging_le {d : Deadline} (fires : t.Fires d now t' verdict effects) :
    t'.charging ≤ t.charging := by
  cases fires with
  | lapsed => exact Nat.sub_le _ _
  | gaveUp => exact le_rfl

theorem Expires.charging_le (expires : Expires now t t' verdict effects) :
    t'.charging ≤ t.charging := by
  induction expires with
  | done => exact le_rfl
  | stop _ _ fires => exact fires.charging_le
  | turn _ _ fires _ ih => exact ih.trans fires.charging_le

end RequestTable

/-! ## The connection's steps -/

namespace World

variable {w w' : World} {e : Event} {out : List Effect}

/-- The actor with a dispatch taken from the front of one of its channels. -/
def taking (a : Actor) (isClose : Bool) (rest : List Dispatch) : Actor :=
  if isClose then
    { a with closes := { a.closes with queue := rest },
             consecutiveCloses := a.consecutiveCloses + 1 }
  else { a with requests := { a.requests with queue := rest }, consecutiveCloses := 0 }

/-- The channel a branch of the `select` takes from, and the guard of the branch. -/
def channel (a : Actor) (isClose : Bool) : Channel := if isClose then a.closes else a.requests

def guard (guards : Actor.Guards) (isClose : Bool) : Bool :=
  if isClose then guards.takeClose else guards.takeRequest

/-- The event of a branch that takes from a channel. -/
def takeEvent (isClose callerGone : Bool) : Event :=
  if isClose then .takeClose callerGone else .takeRequest callerGone

/-- The actor told that a channel has no senders left. -/
def ended (a : Actor) (isClose : Bool) : Actor :=
  if isClose then { a with closesDone := true } else { a with requestsDone := true }

/-- The cases of a step. -/
inductive Moves (w : World) : Event → World → List Effect → Prop
  | request (request : Request) : w.receiving = true →
      w.actor.requests.queue.length < w.actor.table.limit →
      Moves w (.request request) { w with
        actor := { w.actor with
          requests := { w.actor.requests with
            queue := w.actor.requests.queue ++ [w.stamp request true] } }
        tickets := w.tickets + 1 } []
  | close (request : Request) : w.receiving = true →
      Moves w (.close request) { w with
        actor := { w.actor with
          closes := { w.actor.closes with
            queue := w.actor.closes.queue ++ [w.stamp request false] } }
        tickets := w.tickets + 1 } []
  | dropRequests :
      Moves w .dropRequests { w with actor := { w.actor with
        requests := { w.actor.requests with senders := false } } } []
  | dropCloses :
      Moves w .dropCloses { w with actor := { w.actor with
        closes := { w.actor.closes with senders := false } } } []
  | advance (span : Duration) : Moves w (.advance span) { w with clock := w.clock + span } []
  | finished : w.phase = .head → w.actor.resetRun.finished = true →
      Moves w .evaluate { w with actor := w.actor.resetRun, phase := .stopped (.ok ()) } []
  | waits : w.phase = .head → w.actor.resetRun.finished = false →
      Moves w .evaluate
        { w with actor := w.actor.resetRun, phase := .selecting w.actor.resetRun.guards } []
  | took {guards : Actor.Guards} {isClose callerGone : Bool} {d : Dispatch}
      {rest : List Dispatch} {a : Actor} {verdict : Except Error Unit} {out : List Effect} :
      w.phase = .selecting guards → guard guards isClose = true →
      (channel w.actor isClose).queue = d :: rest →
      (taking w.actor isClose rest).Begins d callerGone a verdict out →
      Moves w (takeEvent isClose callerGone) (w.conclude a verdict) out
  | channelEnded {guards : Actor.Guards} {isClose callerGone : Bool} :
      w.phase = .selecting guards → guard guards isClose = true →
      (channel w.actor isClose).queue = [] →
      Moves w (takeEvent isClose callerGone)
        { w with actor := ended w.actor isClose, phase := .head } []
  | unrouted {guards : Actor.Guards} {result : Except Error (Option Inbound)}
      (verdict : Except Error Unit) : w.phase = .selecting guards →
      (∀ message, result = .ok (some (.message message)) →
        ∃ next, chainedCommand message = some next ∧ verdict = .error (.chainedResponse next)) →
      Moves w (.inbound result) (w.conclude w.actor verdict) []
  | routed {guards : Actor.Guards} {message : Message} {table : RequestTable}
      (routed : Except Error Unit) {silentFor : Duration} {waitingSince : Option Instant}
      {out : List Effect} : w.phase = .selecting guards → chainedCommand message = none →
      w.actor.table.Accepts message w.clock table routed out →
      Moves w (.inbound (.ok (some (.message message))))
        (w.conclude { w.actor with table, silentFor, waitingSince }
          (Actor.sessionVerdict message routed)) out
  | writeFailed {guards : Actor.Guards} {result : Except IoError ℕ} (error : Error) :
      w.phase = .selecting guards → (∀ written, result = .ok written → written = 0) →
      Moves w (.written result) (w.conclude w.actor (.error error)) []
  | wrote {guards : Actor.Guards} {writing : Writing} {written : ℕ} {silentFor : Duration}
      {waitingSince : Option Instant} : w.phase = .selecting guards →
      w.actor.writing = some writing → written ≠ 0 →
      Moves w (.written (.ok written))
        (w.conclude { w.actor with
          table := Actor.dispatchQueued w.actor.table writing.queued w.clock
          writing := Actor.writingAfter writing written
          silentFor := silentFor
          waitingSince := waitingSince } (.ok ())) []
  | silent {guards : Actor.Guards} : w.phase = .selecting guards →
      Moves w .timer (w.conclude w.actor (.error .silent)) []
  | ticked {guards : Actor.Guards} {table : RequestTable} {verdict : Except Error Unit}
      {silentFor : Duration} {waitingSince : Option Instant} {out : List Effect} :
      w.phase = .selecting guards →
      RequestTable.Expires w.clock w.actor.table table verdict out → table.Accounts →
      Moves w .timer (w.conclude { w.actor with table, silentFor, waitingSince } verdict) out
  | teardown {verdict : Except Error Unit} : w.phase = .stopped verdict →
      Moves w .teardown { w with
        actor := { w.actor with
          table := w.actor.table.failAll.1
          writing := none
          requests := { w.actor.requests with queue := [] }
          closes := { w.actor.closes with queue := [] } }
        phase := .gone } w.actor.table.failAll.2

/-- What every state of a connection's run satisfies. -/
structure Sound (w : World) : Prop where
  actor : w.phase ≠ .gone → w.actor.Sound
  admits : ∀ guards isClose, w.phase = .selecting guards → guard guards isClose = true →
    w.actor.writing = none ∧ w.actor.table.charging < w.actor.table.limit
  alive : ∀ panic, w.phase ≠ .panicked panic

theorem takeFrom_moves {guards : Actor.Guards} (isClose : Bool) {callerGone : Bool}
    (phase : w.phase = .selecting guards) (opened : guard guards isClose = true)
    (taken : w.takeFrom (channel w.actor isClose) isClose callerGone = some (w', out)) :
    w.Moves (takeEvent isClose callerGone) w' out := by
  unfold takeFrom at taken
  cases waiting : (channel w.actor isClose).queue with
  | cons d rest =>
      rw [waiting] at taken
      have begins := (taking w.actor isClose rest).begins d callerGone
      have moves := Moves.took phase opened waiting begins
      cases isClose <;> cases taken <;> exact moves
  | nil =>
      rw [waiting] at taken
      have moves := @Moves.channelEnded w guards isClose callerGone phase opened waiting
      dsimp only at taken
      split at taken
      · cases taken
      · cases isClose <;> cases taken <;> exact moves

theorem Sound.selecting {guards : Actor.Guards} (sound : w.Sound)
    (phase : w.phase = .selecting guards) : w.actor.Sound :=
  sound.actor (by rw [phase]; nofun)

theorem Sound.arrived_moves {guards : Actor.Guards} {result : Except Error (Option Inbound)}
    (sound : w.Sound) (phase : w.phase = .selecting guards)
    (arrived : w.arrived result = (w', out)) : w.Moves (.inbound result) w' out := by
  cases result with
  | error error =>
      cases arrived
      exact .unrouted (.error error) phase (fun _ no => nomatch no)
  | ok arrival =>
      cases arrival with
      | none =>
          cases arrived
          exact .unrouted (.ok ()) phase (fun _ no => nomatch no)
      | some inbound =>
          cases inbound with
          | keepAlive =>
              cases arrived
              exact .unrouted (.ok ()) phase (fun _ no => nomatch no)
          | message message =>
              rw [World.arrived] at arrived
              cases chained : chainedCommand message with
              | some next =>
                  dsimp only [Actor.route] at arrived
                  rw [chained] at arrived
                  cases arrived
                  refine .unrouted (.error (.chainedResponse next)) phase fun _ same => ?_
                  cases same
                  exact ⟨next, chained, rfl⟩
              | none =>
                  obtain ⟨table, routed, effects, silentFor, waitingSince, accepts, result⟩ :=
                    w.actor.route_message (sound.selecting phase).accounts message chained w.clock
                  rw [result] at arrived
                  cases arrived
                  exact .routed routed phase chained accepts

theorem progressed_moves {guards : Actor.Guards} {writing : Writing} {result : Except IoError ℕ}
    (phase : w.phase = .selecting guards) (inProgress : w.actor.writing = some writing)
    (progressed : w.progressed writing result = some (w', out)) :
    w.Moves (.written result) w' out := by
  cases result with
  | error error =>
      cases progressed
      exact .writeFailed (.io error) phase (fun _ no => nomatch no)
  | ok written =>
      rw [World.progressed] at progressed
      split at progressed
      case isFalse => cases progressed
      rcases Actor.wrote_cases inProgress written w.clock with
        ⟨zero, failed⟩ | ⟨silentFor, waitingSince, some, took⟩
      · rw [failed] at progressed
        cases progressed
        refine .writeFailed (.io .writeZero) phase fun _ same => ?_
        cases same
        exact zero
      · rw [took] at progressed
        cases progressed
        exact .wrote phase inProgress some

/-- **A step is one of the cases**, in a sound state. -/
theorem Sound.moves (sound : w.Sound) (stepped : w.step e = some (w', out)) :
    w.Moves e w' out := by
  cases e with
  | request request =>
      rw [step] at stepped
      split at stepped
      · next open_ =>
          cases stepped
          exact .request request open_.1 open_.2.2
      · cases stepped
  | close request =>
      rw [step] at stepped
      split at stepped
      · next open_ =>
          cases stepped
          exact .close request open_.1
      · cases stepped
  | dropRequests =>
      cases stepped
      exact .dropRequests
  | dropCloses =>
      cases stepped
      exact .dropCloses
  | advance span =>
      cases stepped
      exact .advance span
  | evaluate =>
      rw [step] at stepped
      split at stepped
      · next phase =>
          dsimp only at stepped
          split at stepped
          · next done =>
              cases stepped
              exact .finished phase done
          · next more =>
              cases stepped
              exact .waits phase (Bool.not_eq_true _ ▸ more)
      · cases stepped
  | takeClose callerGone =>
      rw [step] at stepped
      split at stepped
      · next guards phase =>
          split at stepped
          · next opened => exact takeFrom_moves true phase opened stepped
          · cases stepped
      · cases stepped
  | takeRequest callerGone =>
      rw [step] at stepped
      split at stepped
      · next guards phase =>
          split at stepped
          · next opened => exact takeFrom_moves false phase opened stepped
          · cases stepped
      · cases stepped
  | inbound result =>
      rw [step] at stepped
      split at stepped
      · next guards phase => exact sound.arrived_moves phase (Option.some.inj stepped)
      · cases stepped
  | written result =>
      rw [step] at stepped
      split at stepped
      · next guards writing phase inProgress => exact progressed_moves phase inProgress stepped
      · cases stepped
  | timer =>
      rw [step] at stepped
      split at stepped
      case h_2 => cases stepped
      next guards phase =>
        split at stepped
        case isFalse => cases stepped
        next due =>
          rcases w.actor.tick_cases (sound.selecting phase).accounts w.clock with
            ⟨-, silent⟩ |
              ⟨table, verdict, effects, silentFor, waitingSince, -, expires, accounts, ticked⟩
          · rw [silent] at stepped
            cases stepped
            exact .silent phase
          · rw [ticked] at stepped
            cases stepped
            exact .ticked phase expires accounts
  | teardown =>
      rw [step] at stepped
      split at stepped
      · next verdict phase =>
          cases stepped
          exact .teardown phase
      · cases stepped

/-! ## Every run is sound -/

theorem sound_new (limit : ℕ) (timeouts : Timeouts) : (new limit timeouts).Sound where
  actor := fun _ => Actor.sound_new limit timeouts
  admits := fun _ _ no => nomatch no
  alive := fun _ no => nomatch no

@[simp] theorem actor_conclude {a : Actor} {verdict : Except Error Unit} :
    (w.conclude a verdict).actor = a := by
  cases verdict <;> rfl

@[simp] theorem tickets_conclude {a : Actor} {verdict : Except Error Unit} :
    (w.conclude a verdict).tickets = w.tickets := by
  cases verdict <;> rfl

theorem conclude_not_selecting {a : Actor} {verdict : Except Error Unit} {guards : Actor.Guards} :
    (w.conclude a verdict).phase ≠ .selecting guards := by
  cases verdict <;> exact nofun

theorem conclude_not_panicked {a : Actor} {verdict : Except Error Unit} {panic : Panic} :
    (w.conclude a verdict).phase ≠ .panicked panic := by
  cases verdict <;> exact nofun

/-- The task goes on, or stops, with an actor that is sound. -/
theorem sound_conclude {a : Actor} (sound : a.Sound) (verdict : Except Error Unit) :
    (w.conclude a verdict).Sound where
  actor := fun _ => by rwa [actor_conclude]
  admits := fun _ _ selecting => absurd selecting conclude_not_selecting
  alive := fun _ => conclude_not_panicked

theorem admits_of_guard {a : Actor} {isClose : Bool} (opened : guard a.guards isClose = true) :
    a.writing = none ∧ a.table.charging < a.table.limit := by
  have admits : a.canAdmit = true := by
    cases isClose
    · have open_ : a.guards.takeRequest = true := opened
      simp only [Actor.guards, Bool.and_eq_true] at open_
      exact open_.1.1
    · have open_ : a.guards.takeClose = true := opened
      simp only [Actor.guards, Bool.and_eq_true] at open_
      exact open_.1.1
  simpa [Actor.canAdmit] using admits

@[simp] theorem writing_taking {a : Actor} {isClose : Bool} {rest : List Dispatch} :
    (taking a isClose rest).writing = a.writing := by
  cases isClose <;> rfl

@[simp] theorem table_taking {a : Actor} {isClose : Bool} {rest : List Dispatch} :
    (taking a isClose rest).table = a.table := by
  cases isClose <;> rfl

theorem Moves.sound (moves : w.Moves e w' out) (sound : w.Sound) : w'.Sound := by
  cases moves with
  | request => exact ⟨fun live => (sound.actor live).of_eq rfl rfl, sound.admits, sound.alive⟩
  | close => exact ⟨fun live => (sound.actor live).of_eq rfl rfl, sound.admits, sound.alive⟩
  | dropRequests =>
      exact ⟨fun live => (sound.actor live).of_eq rfl rfl, sound.admits, sound.alive⟩
  | dropCloses => exact ⟨fun live => (sound.actor live).of_eq rfl rfl, sound.admits, sound.alive⟩
  | advance => exact ⟨sound.actor, sound.admits, sound.alive⟩
  | finished phase =>
      obtain ⟨closes, frame⟩ := w.actor.resetRun_frame
      refine ⟨fun _ => ?_, fun _ _ no => (nomatch no), fun _ no => (nomatch no)⟩
      have before := sound.actor (by rw [phase]; nofun)
      dsimp only
      rw [frame]
      exact before.of_eq rfl rfl
  | waits phase =>
      obtain ⟨closes, frame⟩ := w.actor.resetRun_frame
      refine ⟨fun _ => ?_, fun guards isClose same opened => ?_, fun _ no => (nomatch no)⟩
      · have before := sound.actor (by rw [phase]; nofun)
        dsimp only
        rw [frame]
        exact before.of_eq rfl rfl
      · cases same
        exact admits_of_guard opened
  | @took _ isClose _ _ rest _ _ _ phase opened waiting begins =>
      have admits := sound.admits _ _ phase opened
      have before : (taking w.actor isClose rest).Sound :=
        (sound.selecting phase).of_eq table_taking writing_taking
      refine sound_conclude (before.begins ?_ ?_ begins) _
      · rw [writing_taking]
        exact admits.1
      · rw [table_taking]
        exact admits.2
  | @channelEnded _ isClose _ phase =>
      have before := sound.selecting phase
      refine ⟨fun _ => ?_, fun _ _ no => (nomatch no), fun _ no => (nomatch no)⟩
      cases isClose
      · exact before.of_eq rfl rfl
      · exact before.of_eq rfl rfl
  | unrouted verdict phase => exact sound_conclude (sound.selecting phase) verdict
  | routed routed phase _ accepts =>
      have before := sound.selecting phase
      have accounts := accepts.accounts before.accounts
      refine sound_conclude ?_ _
      exact before.narrow rfl accounts (fun _ => accepts.mem_of_mem) accepts.charging_le
        accepts.limit_eq
  | writeFailed _ phase => exact sound_conclude (sound.selecting phase) _
  | wrote phase inProgress =>
      exact sound_conclude ((sound.selecting phase).wrote inProgress _ rfl rfl) _
  | silent phase => exact sound_conclude (sound.selecting phase) _
  | ticked phase expires accounts =>
      refine sound_conclude ?_ _
      exact (sound.selecting phase).narrow rfl accounts (fun _ => expires.mem_of_mem)
        expires.charging_le expires.limit_eq
  | teardown =>
      exact ⟨fun live => absurd rfl live, fun _ _ no => (nomatch no), fun _ no => (nomatch no)⟩

/-- No step of a connection goes wrong: from a sound state every step is one of the
cases and leaves a sound state. -/
theorem Sound.step (sound : w.Sound) (stepped : w.step e = some (w', out)) : w'.Sound :=
  (sound.moves stepped).sound sound

end World

end Smb1Client
