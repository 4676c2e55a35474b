import Smb1Client.Connection.ActorRuns

/-!
The outbound side of the connection task: what a run puts on the socket.

A run is read through the steps it visits. `World.stream` is the bytes the socket has
accepted, `World.frames` the frames of the requests begun so far in the order they were
begun, and `World.entries` the requests put in the table.
-/

namespace Smb1Client

/-- What becomes of a dispatch the actor takes from a channel. -/
inductive Fate where
  | begun (queued : Queued) (frame : Bytes)
  | unencodable (error : WireError)
  | forgone
  | exhausted

def Fate.frame : Fate → Option (Queued × Bytes)
  | .begun queued frame => some (queued, frame)
  | _ => none

theorem Fate.eq_begun {fate : Fate} {begun : Queued × Bytes} (framed : fate.frame = some begun) :
    fate = .begun begun.1 begun.2 := by
  cases fate with
  | begun =>
      cases framed
      rfl
  | unencodable => cases framed
  | forgone => cases framed
  | exhausted => cases framed

/-- The header a request goes out under. -/
def Request.header (r : Request) (mid : UInt16) : SmbHeader :=
  { SmbHeader.request r.command with mid, tid := r.tid, uid := r.uid }

/-- The fate of a dispatch, which its caller, the pool and its frame decide. -/
def RequestTable.fate (t : RequestTable) (d : Dispatch) (callerGone : Bool) : Fate :=
  if d.reply.isSome ∧ callerGone = true then .forgone
  else
    match t.allocate.1 with
    | none => .exhausted
    | some mid =>
        match frame (message (d.request.header mid) d.request.body) with
        | .error error => .unencodable error
        | .ok frame =>
            .begun { mid, command := d.request.command, reply := d.reply,
                     assembly := Actor.assemblyFor d.request, outcome := d.request.outcome } frame

namespace Actor

variable {a : Actor} {d : Dispatch} {callerGone : Bool}

/-- The write in progress a fate leaves. -/
def writingOf (a : Actor) : Fate → Option Writing
  | .begun queued frame => some { frame, cursor := 0, queued := some queued }
  | _ => a.writing

theorem writingOf_of_frame_none {fate : Fate} (none : fate.frame = none) :
    a.writingOf fate = a.writing := by
  cases fate with
  | begun => cases none
  | unencodable => rfl
  | forgone => rfl
  | exhausted => rfl

/-- `begin` follows the fate of what it takes. -/
theorem begin_fate (a : Actor) (d : Dispatch) (callerGone : Bool) :
    (a.begin d callerGone).1.writing = a.writingOf (a.table.fate d callerGone) ∧
      ((a.begin d callerGone).2.1 = .ok () ↔ a.table.fate d callerGone ≠ .exhausted) := by
  unfold begin RequestTable.fate
  by_cases gone : d.reply.isSome ∧ callerGone = true
  · rw [if_pos gone, if_pos gone]
    exact ⟨rfl, fun _ => Fate.noConfusion, fun _ => rfl⟩
  rw [if_neg gone, if_neg gone]
  cases allocation : a.table.allocate with
  | mk allocated table =>
      cases allocated with
      | none => exact ⟨rfl, fun no => (nomatch no), fun no => absurd rfl no⟩
      | some mid =>
          dsimp only
          unfold Request.header
          split
          · next error failed =>
              rw [failed]
              exact ⟨rfl, fun _ => Fate.noConfusion, fun _ => rfl⟩
          · next frame framed =>
              rw [framed]
              exact ⟨rfl, fun _ => Fate.noConfusion, fun _ => rfl⟩

end Actor

/-- A frame has its header. -/
theorem frame_pos {m bytes : Bytes} (framed : frame m = .ok bytes) : 0 < bytes.length := by
  unfold frame Netbios.encodeHeader at framed
  split at framed
  · cases framed
  · cases framed
    rw [List.length_append]
    exact Nat.lt_of_lt_of_le (by decide) (Nat.le_add_right 4 m.length)

theorem RequestTable.frame_pos_of_fate {t : RequestTable} {d : Dispatch} {callerGone : Bool}
    {queued : Queued} {bytes : Bytes} (fate : t.fate d callerGone = .begun queued bytes) :
    0 < bytes.length := by
  rw [RequestTable.fate] at fate
  split at fate
  · cases fate
  · split at fate
    · cases fate
    · split at fate
      · cases fate
      · next framed =>
          cases fate
          exact frame_pos framed

namespace World

variable {w w' : World} {e : Event} {out log : List Effect} {vs : List (World × Event)}

/-- What a step puts in a channel. -/
def enqueued (w : World) : Event → Option Dispatch
  | .request request => some (w.stamp request true)
  | .close request => some (w.stamp request false)
  | _ => none

/-- What a step takes from a channel, and what becomes of it. -/
def taken (w : World) : Event → Option (Dispatch × Fate)
  | .takeClose gone => w.actor.closes.queue.head?.map fun d => (d, w.actor.table.fate d gone)
  | .takeRequest gone => w.actor.requests.queue.head?.map fun d => (d, w.actor.table.fate d gone)
  | _ => none

/-- The bytes the socket accepts in a step. -/
def sent (w : World) : Event → Bytes
  | .written (.ok written) =>
      match w.actor.writing with
      | some writing => (writing.frame.drop writing.cursor).take written
      | none => []
  | _ => []

/-- The request a step puts in the table. -/
def entered (w : World) : Event → Option Queued
  | .written (.ok written) => if written = 0 then none else w.actor.queued
  | _ => none

/-- The bytes put on the socket, the frames begun and the requests entered. -/
def stream (vs : List (World × Event)) : Bytes := vs.flatMap fun v => v.1.sent v.2

def frames (vs : List (World × Event)) : List (Queued × Bytes) :=
  vs.filterMap fun v => (v.1.taken v.2).bind (·.2.frame)

def entries (vs : List (World × Event)) : List Queued := vs.filterMap fun v => v.1.entered v.2

/-- The stream is the whole frames of the requests begun, in order, and then a proper
prefix of at most one more; the requests entered are those a byte of which has gone. -/
def WholeFrames (vs : List (World × Event)) : Prop :=
  (stream vs = ((frames vs).map (·.2)).flatten ∧ entries vs = (frames vs).map (·.1)) ∨
    ∃ whole queued frame part, frames vs = whole ++ [(queued, frame)] ∧
      part <+: frame ∧ part.length < frame.length ∧
      stream vs = (whole.map (·.2)).flatten ++ part ∧
      entries vs = whole.map (·.1) ++ if part = [] then [] else [queued]

/-! ## A step's part in the stream -/

/-- A step that puts nothing on the socket, begins nothing and enters nothing. -/
structure Quiet (w : World) (e : Event) : Prop where
  sent : w.sent e = []
  begins : (w.taken e).bind (·.2.frame) = none
  enters : w.entered e = none

theorem stream_concat : stream (vs ++ [(w, e)]) = stream vs ++ w.sent e := by
  rw [stream, List.flatMap_append, List.flatMap_singleton]
  rfl

theorem frames_concat :
    frames (vs ++ [(w, e)]) = frames vs ++ ((w.taken e).bind (·.2.frame)).toList := by
  rw [frames, List.filterMap_append]
  cases begins : (w.taken e).bind (·.2.frame) <;> simp [frames, begins]

theorem entries_concat : entries (vs ++ [(w, e)]) = entries vs ++ (w.entered e).toList := by
  rw [entries, List.filterMap_append]
  cases enters : w.entered e <;> simp [entries, enters]

theorem Quiet.stream (quiet : w.Quiet e) : stream (vs ++ [(w, e)]) = stream vs := by
  rw [stream_concat, quiet.sent, List.append_nil]

theorem Quiet.frames (quiet : w.Quiet e) : frames (vs ++ [(w, e)]) = frames vs := by
  rw [frames_concat, quiet.begins, Option.toList_none, List.append_nil]

theorem Quiet.entries (quiet : w.Quiet e) : entries (vs ++ [(w, e)]) = entries vs := by
  rw [entries_concat, quiet.enters, Option.toList_none, List.append_nil]

theorem Quiet.whole (quiet : w.Quiet e) (whole : WholeFrames vs) :
    WholeFrames (vs ++ [(w, e)]) := by
  rw [WholeFrames, quiet.stream, quiet.frames, quiet.entries]
  exact whole

/-- How the steps so far stand with the write in progress. -/
def Standing (vs : List (World × Event)) : Option Writing → Prop
  | none => stream vs = ((frames vs).map (·.2)).flatten ∧ entries vs = (frames vs).map (·.1)
  | some writing => writing.cursor < writing.frame.length ∧
      ∃ whole queued, frames vs = whole ++ [(queued, writing.frame)] ∧
        stream vs = (whole.map (·.2)).flatten ++ writing.frame.take writing.cursor ∧
        entries vs = whole.map (·.1) ++ (if writing.cursor = 0 then [] else [queued]) ∧
        writing.queued = if writing.cursor = 0 then some queued else none

theorem Standing.quiet {writing : Option Writing} (standing : Standing vs writing)
    (quiet : w.Quiet e) : Standing (vs ++ [(w, e)]) writing := by
  cases writing with
  | none =>
      rw [Standing, quiet.stream, quiet.frames, quiet.entries]
      exact standing
  | some writing =>
      rw [Standing, quiet.stream, quiet.frames, quiet.entries]
      exact standing

theorem Standing.whole {writing : Option Writing} (standing : Standing vs writing) :
    WholeFrames vs := by
  cases writing with
  | none => exact Or.inl standing
  | some writing =>
      obtain ⟨short, whole, queued, begun, sent, entered, -⟩ := standing
      refine Or.inr ⟨whole, queued, writing.frame, _, begun, List.take_prefix _ _, ?_, sent, ?_⟩
      · rw [List.length_take]
        exact lt_of_le_of_lt (min_le_left _ _) short
      · rw [entered]
        congr 1
        by_cases first : writing.cursor = 0
        · rw [if_pos first, if_pos (by rw [first, List.take_zero])]
        · rw [if_neg first, if_neg]
          intro none
          rcases List.take_eq_nil_iff.mp none with zero | empty
          · exact first zero
          · rw [empty] at short
            exact absurd short (Nat.not_lt_zero _)

/-- A frame begun stands behind all the whole ones, none of it sent. -/
theorem Standing.begun {queued : Queued} {frame : Bytes} (standing : Standing vs none)
    (sent : w.sent e = []) (begins : (w.taken e).bind (·.2.frame) = some (queued, frame))
    (enters : w.entered e = none) (content : 0 < frame.length) :
    Standing (vs ++ [(w, e)]) (some { frame, cursor := 0, queued := some queued }) := by
  refine ⟨content, frames vs, queued, ?_, ?_, ?_, rfl⟩
  · rw [frames_concat, begins]
    rfl
  · rw [stream_concat, sent, standing.1, List.take_zero]
  · rw [entries_concat, enters, standing.2]
    rfl

/-- The socket takes some of the frame in progress. -/
theorem Standing.wrote {writing : Writing} {written : ℕ} (standing : Standing vs (some writing))
    (inProgress : w.actor.writing = some writing) (some : written ≠ 0) :
    Standing (vs ++ [(w, .written (.ok written))]) (Actor.writingAfter writing written) := by
  obtain ⟨short, whole, queued, begun, sent, entered, half⟩ := standing
  have more : stream (vs ++ [(w, .written (.ok written))]) =
      (whole.map (·.2)).flatten ++ writing.frame.take (writing.cursor + written) := by
    rw [stream_concat, World.sent, inProgress, sent, List.append_assoc, ← List.take_add]
  have same : frames (vs ++ [(w, .written (.ok written))]) =
      whole ++ [(queued, writing.frame)] := by
    rw [frames_concat, begun]
    exact List.append_nil _
  have once : entries (vs ++ [(w, .written (.ok written))]) = whole.map (·.1) ++ [queued] := by
    rw [entries_concat, entered, World.entered, if_neg some, Actor.queued, inProgress,
      Option.bind_some, half]
    by_cases first : writing.cursor = 0
    · simp only [if_pos first, List.append_nil, Option.toList_some]
    · simp only [if_neg first, Option.toList_none, List.append_nil]
  rw [Actor.writingAfter]
  split
  · next all =>
      rw [List.take_of_length_le all] at more
      constructor
      · rw [more, same, List.map_append, List.flatten_append, List.map_singleton,
          List.flatten_singleton]
      · rw [once, same, List.map_append, List.map_singleton]
  · next part =>
      refine ⟨not_le.mp part, whole, queued, same, more, ?_, ?_⟩
      · rw [once, if_neg (by dsimp only; omega)]
      · rw [if_neg (by dsimp only; omega)]

/-! ## Every step keeps the stream whole -/

/-- What the steps so far have put on the socket, in every state of a run. -/
structure Outbound (vs : List (World × Event)) (w : World) : Prop where
  sound : w.Sound
  standing : w.phase ≠ .gone → Standing vs w.actor.writing
  whole : WholeFrames vs

theorem Outbound.quiet (outbound : Outbound vs w) (quiet : w.Quiet e) (sound : w'.Sound)
    (stays : w'.phase ≠ .gone → w.phase ≠ .gone ∧ w'.actor.writing = w.actor.writing) :
    Outbound (vs ++ [(w, e)]) w' where
  sound := sound
  standing := by
    intro live
    rw [(stays live).2]
    exact (outbound.standing (stays live).1).quiet quiet
  whole := quiet.whole outbound.whole

theorem Outbound.of_standing (sound : w.Sound) (standing : Standing vs w.actor.writing) :
    Outbound vs w :=
  ⟨sound, fun _ => standing, standing.whole⟩

theorem ne_gone_of_selecting {guards : Actor.Guards} (phase : w.phase = .selecting guards) :
    w.phase ≠ .gone := by
  rw [phase]
  exact nofun

theorem taken_takeEvent {isClose callerGone : Bool} {d : Dispatch} {rest : List Dispatch}
    (waiting : (channel w.actor isClose).queue = d :: rest) :
    w.taken (takeEvent isClose callerGone) = some (d, w.actor.table.fate d callerGone) := by
  cases isClose with
  | true =>
      have queue : w.actor.closes.queue = d :: rest := waiting
      rw [takeEvent, if_pos rfl, taken, queue]
      rfl
  | false =>
      have queue : w.actor.requests.queue = d :: rest := waiting
      rw [takeEvent, if_neg Bool.false_ne_true, taken, queue]
      rfl

theorem step_takeEvent {guards : Actor.Guards} {isClose callerGone : Bool} {d : Dispatch}
    {rest : List Dispatch} (phase : w.phase = .selecting guards)
    (opened : guard guards isClose = true)
    (waiting : (channel w.actor isClose).queue = d :: rest) :
    w.step (takeEvent isClose callerGone) =
      some (w.conclude ((taking w.actor isClose rest).begin d callerGone).1
        ((taking w.actor isClose rest).begin d callerGone).2.1,
        ((taking w.actor isClose rest).begin d callerGone).2.2) := by
  cases isClose with
  | true =>
      have queue : w.actor.closes.queue = d :: rest := waiting
      have open_ : guards.takeClose = true := opened
      rw [takeEvent, if_pos rfl, step, phase]
      dsimp only
      rw [if_pos open_, takeFrom, queue]
      rfl
  | false =>
      have queue : w.actor.requests.queue = d :: rest := waiting
      have open_ : guards.takeRequest = true := opened
      rw [takeEvent, if_neg Bool.false_ne_true, step, phase]
      dsimp only
      rw [if_pos open_, takeFrom, queue]
      rfl

theorem sent_takeEvent {isClose callerGone : Bool} :
    w.sent (takeEvent isClose callerGone) = [] ∧
      w.entered (takeEvent isClose callerGone) = none := by
  cases isClose <;> exact ⟨rfl, rfl⟩

theorem Outbound.took {guards : Actor.Guards} {isClose callerGone : Bool} {d : Dispatch}
    {rest : List Dispatch} (outbound : Outbound vs w) (phase : w.phase = .selecting guards)
    (opened : guard guards isClose = true)
    (waiting : (channel w.actor isClose).queue = d :: rest) (sound : w'.Sound)
    (stepped : w.step (takeEvent isClose callerGone) = some (w', out)) :
    Outbound (vs ++ [(w, takeEvent isClose callerGone)]) w' := by
  rw [step_takeEvent phase opened waiting] at stepped
  cases stepped
  have idle := (outbound.sound.admits _ _ phase opened).1
  have standing := outbound.standing (ne_gone_of_selecting phase)
  rw [idle] at standing
  refine .of_standing sound ?_
  rw [actor_conclude, (Actor.begin_fate _ d callerGone).1, table_taking]
  have taken : w.taken (takeEvent isClose callerGone) =
      some (d, w.actor.table.fate d callerGone) := taken_takeEvent waiting
  cases framed : (w.actor.table.fate d callerGone).frame with
  | none =>
      rw [Actor.writingOf_of_frame_none framed, writing_taking, idle]
      refine standing.quiet ⟨sent_takeEvent.1, ?_, sent_takeEvent.2⟩
      rw [taken, Option.bind_some, framed]
  | some begun =>
      rw [Fate.eq_begun framed]
      refine standing.begun sent_takeEvent.1 ?_ sent_takeEvent.2
        (RequestTable.frame_pos_of_fate (Fate.eq_begun framed))
      rw [taken, Option.bind_some, framed]

theorem quiet_channelEnded {isClose callerGone : Bool}
    (waiting : (channel w.actor isClose).queue = []) :
    w.Quiet (takeEvent isClose callerGone) := by
  refine ⟨sent_takeEvent.1, ?_, sent_takeEvent.2⟩
  cases isClose with
  | true =>
      have queue : w.actor.closes.queue = [] := waiting
      rw [takeEvent, if_pos rfl, taken, queue]
      rfl
  | false =>
      have queue : w.actor.requests.queue = [] := waiting
      rw [takeEvent, if_neg Bool.false_ne_true, taken, queue]
      rfl

theorem quiet_writeFailed {result : Except IoError ℕ}
    (none : ∀ written, result = .ok written → written = 0) : w.Quiet (.written result) := by
  cases result with
  | error error => exact ⟨rfl, rfl, rfl⟩
  | ok written =>
      obtain rfl := none written rfl
      refine ⟨?_, rfl, ?_⟩
      · rw [sent]
        split
        · exact List.take_zero
        · rfl
      · rw [entered, if_pos rfl]

/-- **Every step keeps the stream whole.** -/
theorem Outbound.step (outbound : Outbound vs w) (stepped : w.step e = some (w', out)) :
    Outbound (vs ++ [(w, e)]) w' := by
  have sound := outbound.sound.step stepped
  cases outbound.sound.moves stepped with
  | request => exact outbound.quiet ⟨rfl, rfl, rfl⟩ sound fun live => ⟨live, rfl⟩
  | close => exact outbound.quiet ⟨rfl, rfl, rfl⟩ sound fun live => ⟨live, rfl⟩
  | dropRequests => exact outbound.quiet ⟨rfl, rfl, rfl⟩ sound fun live => ⟨live, rfl⟩
  | dropCloses => exact outbound.quiet ⟨rfl, rfl, rfl⟩ sound fun live => ⟨live, rfl⟩
  | advance => exact outbound.quiet ⟨rfl, rfl, rfl⟩ sound fun live => ⟨live, rfl⟩
  | finished phase =>
      obtain ⟨closes, frame⟩ := w.actor.resetRun_frame
      refine outbound.quiet ⟨rfl, rfl, rfl⟩ sound fun _ => ⟨by rw [phase]; nofun, ?_⟩
      dsimp only
      rw [frame]
  | waits phase =>
      obtain ⟨closes, frame⟩ := w.actor.resetRun_frame
      refine outbound.quiet ⟨rfl, rfl, rfl⟩ sound fun _ => ⟨by rw [phase]; nofun, ?_⟩
      dsimp only
      rw [frame]
  | took phase opened waiting => exact outbound.took phase opened waiting sound stepped
  | @channelEnded _ isClose _ phase _ waiting =>
      refine outbound.quiet (quiet_channelEnded waiting) sound fun _ =>
        ⟨ne_gone_of_selecting phase, ?_⟩
      cases isClose <;> rfl
  | unrouted verdict phase =>
      exact outbound.quiet ⟨rfl, rfl, rfl⟩ sound fun _ =>
        ⟨ne_gone_of_selecting phase, by rw [actor_conclude]⟩
  | routed routed phase =>
      exact outbound.quiet ⟨rfl, rfl, rfl⟩ sound fun _ =>
        ⟨ne_gone_of_selecting phase, by rw [actor_conclude]⟩
  | writeFailed error phase none =>
      exact outbound.quiet (quiet_writeFailed none) sound fun _ =>
        ⟨ne_gone_of_selecting phase, by rw [actor_conclude]⟩
  | wrote phase inProgress some =>
      have standing := outbound.standing (ne_gone_of_selecting phase)
      rw [inProgress] at standing
      refine .of_standing sound ?_
      rw [actor_conclude]
      exact standing.wrote inProgress some
  | silent phase =>
      exact outbound.quiet ⟨rfl, rfl, rfl⟩ sound fun _ =>
        ⟨ne_gone_of_selecting phase, by rw [actor_conclude]⟩
  | ticked phase =>
      exact outbound.quiet ⟨rfl, rfl, rfl⟩ sound fun _ =>
        ⟨ne_gone_of_selecting phase, by rw [actor_conclude]⟩
  | teardown =>
      exact outbound.quiet ⟨rfl, rfl, rfl⟩ sound fun live => absurd rfl live

theorem outbound_new (limit : ℕ) (timeouts : Timeouts) : Outbound [] (new limit timeouts) :=
  .of_standing (sound_new limit timeouts) ⟨rfl, rfl⟩

theorem outbound_of_run {limit : ℕ} {timeouts : Timeouts} {es : List Event}
    (ran : connection.run (new limit timeouts) es = some (w, log)) :
    Outbound (connection.visits (new limit timeouts) es) w :=
  Trace.Machine.run_induction (P := fun vs w _ => Outbound vs w) (outbound_new limit timeouts)
    (fun _ _ _ _ _ _ outbound stepped => outbound.step stepped) ran

/-! ## The table and the frame in progress, over one step -/

/-- What a step does to the table's ids and to the frame in progress: an id enters only
with the first byte of its frame, and no other frame is begun before it is finished. -/
structure Passes (w : World) (e : Event) (w' : World) : Prop where
  enters : ∀ mid ∈ w'.actor.table.entries, mid ∈ w.actor.table.entries ∨
    ∃ q, w.entered e = some q ∧ q.mid = mid
  placed : ∀ q, w.entered e = some q → q.mid ∉ w.actor.table.entries ∧
    q.mid ∈ w'.actor.table.entries
  unbroken : ∀ writing, w.actor.writing = some writing → w.taken e = none ∧
    (w'.actor.writing = some writing ∨ w'.phase = .gone ∨
      ∃ written, e = .written (.ok written) ∧
        w'.actor.writing = Actor.writingAfter writing written)

theorem Passes.quiet (enters : w.entered e = none) (takes : w.taken e = none)
    (fewer : ∀ mid ∈ w'.actor.table.entries, mid ∈ w.actor.table.entries)
    (stays : w'.phase = .gone ∨ w'.actor.writing = w.actor.writing) : w.Passes e w' where
  enters := fun mid held => Or.inl (fewer mid held)
  placed := by
    intro q entered
    rw [enters] at entered
    cases entered
  unbroken := by
    intro writing inProgress
    refine ⟨takes, ?_⟩
    rcases stays with gone | same
    · exact Or.inr (Or.inl gone)
    · exact Or.inl (same.trans inProgress)

theorem Passes.wrote {writing : Writing} {written : ℕ} (sound : w.Sound)
    {guards : Actor.Guards} (phase : w.phase = .selecting guards)
    (inProgress : w.actor.writing = some writing) (some : written ≠ 0)
    (table : w'.actor.table = Actor.dispatchQueued w.actor.table writing.queued w.clock)
    (rest : w'.actor.writing = Actor.writingAfter writing written) :
    w.Passes (.written (.ok written)) w' := by
  have half : w.actor.queued = writing.queued := by
    rw [Actor.queued, inProgress, Option.bind_some]
  have entered : w.entered (.written (.ok written)) = writing.queued := by
    rw [World.entered, if_neg some, half]
  refine ⟨fun mid held => ?_, fun q enters => ?_, fun writing' same => ?_⟩
  · rw [table] at held
    cases queued : writing.queued with
    | none =>
        rw [queued] at held
        exact Or.inl held
    | some q =>
        rw [queued] at held
        rcases AList.mem_insert _ |>.mp held with rfl | held
        · exact Or.inr ⟨q, entered.trans queued, rfl⟩
        · exact Or.inl held
  · rw [entered] at enters
    refine ⟨(sound.selecting phase).free q (Option.mem_def.mpr (half.trans enters)), ?_⟩
    rw [table, enters, Actor.dispatchQueued]
    exact AList.mem_insert _ |>.mpr (Or.inl rfl)
  · obtain rfl := Option.some.inj (inProgress.symm.trans same)
    exact ⟨rfl, Or.inr (Or.inr ⟨written, rfl, rest⟩)⟩

theorem Sound.passes (sound : w.Sound) (stepped : w.step e = some (w', out)) :
    w.Passes e w' := by
  cases sound.moves stepped with
  | request => exact .quiet rfl rfl (fun _ held => held) (Or.inr rfl)
  | close => exact .quiet rfl rfl (fun _ held => held) (Or.inr rfl)
  | dropRequests => exact .quiet rfl rfl (fun _ held => held) (Or.inr rfl)
  | dropCloses => exact .quiet rfl rfl (fun _ held => held) (Or.inr rfl)
  | advance => exact .quiet rfl rfl (fun _ held => held) (Or.inr rfl)
  | finished =>
      obtain ⟨closes, frame⟩ := w.actor.resetRun_frame
      refine .quiet rfl rfl (fun _ held => ?_) (Or.inr ?_)
      · dsimp only at held
        rwa [frame] at held
      · dsimp only
        rw [frame]
  | waits =>
      obtain ⟨closes, frame⟩ := w.actor.resetRun_frame
      refine .quiet rfl rfl (fun _ held => ?_) (Or.inr ?_)
      · dsimp only at held
        rwa [frame] at held
      · dsimp only
        rw [frame]
  | took phase opened _ begins =>
      have idle := (sound.admits _ _ phase opened).1
      refine ⟨fun mid held => Or.inl ?_, fun q enters => ?_, fun writing inProgress => ?_⟩
      · rw [actor_conclude] at held
        have fewer := begins.entries_eq
        rw [table_taking] at fewer
        rwa [fewer] at held
      · rw [sent_takeEvent.2] at enters
        cases enters
      · rw [idle] at inProgress
        cases inProgress
  | @channelEnded _ isClose _ phase opened =>
      have idle := (sound.admits _ _ phase opened).1
      refine ⟨fun mid held => Or.inl ?_, fun q enters => ?_, fun writing inProgress => ?_⟩
      · cases isClose <;> exact held
      · rw [sent_takeEvent.2] at enters
        cases enters
      · rw [idle] at inProgress
        cases inProgress
  | unrouted =>
      refine .quiet rfl rfl (fun _ held => ?_) (Or.inr ?_)
      · rwa [actor_conclude] at held
      · rw [actor_conclude]
  | routed routed _ _ accepts =>
      refine .quiet rfl rfl (fun _ held => ?_) (Or.inr ?_)
      · rw [actor_conclude] at held
        exact accepts.mem_of_mem held
      · rw [actor_conclude]
  | writeFailed error _ none =>
      refine .quiet (quiet_writeFailed none).enters rfl (fun _ held => ?_) (Or.inr ?_)
      · rwa [actor_conclude] at held
      · rw [actor_conclude]
  | wrote phase inProgress some =>
      refine Passes.wrote sound phase inProgress some ?_ ?_
      · rw [actor_conclude]
      · rw [actor_conclude]
  | silent =>
      refine .quiet rfl rfl (fun _ held => ?_) (Or.inr ?_)
      · rwa [actor_conclude] at held
      · rw [actor_conclude]
  | ticked _ expires =>
      refine .quiet rfl rfl (fun _ held => ?_) (Or.inr ?_)
      · rw [actor_conclude] at held
        exact expires.mem_of_mem held
      · rw [actor_conclude]
  | teardown =>
      refine .quiet rfl rfl (fun mid held => ?_) (Or.inl rfl)
      exact absurd held (AList.notMem_empty mid)

/-! ## No dispatch is lost -/

/-- Where a dispatch waits. -/
def Waits (a : Actor) (d : Dispatch) : Prop := d ∈ a.requests.queue ∨ d ∈ a.closes.queue

/-- Every dispatch sent is still waiting or has been taken; a channel is done once its
senders have gone and it is empty; and the pool has not run out under a task that goes on. -/
structure Account (vs : List (World × Event)) (w : World) : Prop where
  sound : w.Sound
  waiting : w.phase ≠ .gone → ∀ v ∈ vs, ∀ d, v.1.enqueued v.2 = some d →
    Waits w.actor d ∨ ∃ u ∈ vs, ∃ fate, u.1.taken u.2 = some (d, fate)
  requestsDone : w.actor.requestsDone = true →
    w.actor.requests.senders = false ∧ w.actor.requests.queue = []
  closesDone : w.actor.closesDone = true →
    w.actor.closes.senders = false ∧ w.actor.closes.queue = []
  returned : w.phase = .stopped (.ok ()) → w.actor.requestsDone = true ∧
    w.actor.closesDone = true ∧ w.actor.writing = none
  supplied : ∀ u ∈ vs, ∀ d, u.1.taken u.2 = some (d, .exhausted) →
    w.phase = .gone ∨ ∃ error, w.phase = .stopped (.error error)

/-- A step that sends nothing and leaves what waits where it was. -/
theorem Account.still (account : Account vs w) (sends : w.enqueued e = none)
    (waits : ∀ d, Waits w.actor d → Waits w'.actor d)
    (stays : w'.phase ≠ .gone → w.phase ≠ .gone) (live : w'.phase ≠ .gone) :
    ∀ v ∈ vs ++ [(w, e)], ∀ d, v.1.enqueued v.2 = some d →
      Waits w'.actor d ∨ ∃ u ∈ vs ++ [(w, e)], ∃ fate, u.1.taken u.2 = some (d, fate) := by
  intro v member d sent
  rcases List.mem_append.mp member with before | here
  · rcases account.waiting (stays live) v before d sent with waiting | ⟨u, taken, fate, fated⟩
    · exact Or.inl (waits d waiting)
    · exact Or.inr ⟨u, List.mem_append_left _ taken, fate, fated⟩
  · obtain rfl := List.mem_singleton.mp here
    rw [sends] at sent
    cases sent

/-- A step that takes nothing keeps the pool's account. -/
theorem Account.supplied_still (account : Account vs w) (takes : w.taken e = none)
    (ends : (w.phase = .gone ∨ ∃ error, w.phase = .stopped (.error error)) →
      w'.phase = .gone ∨ ∃ error, w'.phase = .stopped (.error error)) :
    ∀ u ∈ vs ++ [(w, e)], ∀ d, u.1.taken u.2 = some (d, .exhausted) →
      w'.phase = .gone ∨ ∃ error, w'.phase = .stopped (.error error) := by
  intro u member d taken
  rcases List.mem_append.mp member with before | here
  · exact ends (account.supplied u before d taken)
  · obtain rfl := List.mem_singleton.mp here
    rw [takes] at taken
    cases taken

theorem senders_of_request {request : Request}
    (stepped : w.step (.request request) = some (w', out)) :
    w.actor.requests.senders = true := by
  rw [step] at stepped
  split at stepped
  · next open_ => exact open_.2.1
  · cases stepped

theorem senders_of_close {request : Request}
    (stepped : w.step (.close request) = some (w', out)) :
    w.actor.closes.senders = true := by
  rw [step] at stepped
  split at stepped
  · next open_ => exact open_.2
  · cases stepped

theorem no_senders_of_ended {guards : Actor.Guards} {isClose callerGone : Bool}
    (phase : w.phase = .selecting guards) (waiting : (channel w.actor isClose).queue = [])
    (stepped : w.step (takeEvent isClose callerGone) = some (w', out)) :
    (channel w.actor isClose).senders = false := by
  cases isClose with
  | true =>
      have queue : w.actor.closes.queue = [] := waiting
      rw [takeEvent, if_pos rfl, step, phase] at stepped
      dsimp only at stepped
      rw [takeFrom, queue] at stepped
      dsimp only at stepped
      split at stepped
      · split at stepped
        · cases stepped
        · next none => exact Bool.not_eq_true _ ▸ none
      · cases stepped
  | false =>
      have queue : w.actor.requests.queue = [] := waiting
      rw [takeEvent, if_neg Bool.false_ne_true, step, phase] at stepped
      dsimp only at stepped
      rw [takeFrom, queue] at stepped
      dsimp only at stepped
      split at stepped
      · split at stepped
        · cases stepped
        · next none => exact Bool.not_eq_true _ ▸ none
      · cases stepped

theorem conclude_not_returned {a : Actor} {verdict : Except Error Unit} :
    (w.conclude a verdict).phase ≠ .stopped (.ok ()) := by
  cases verdict <;> exact nofun

theorem not_ended_of_selecting {guards : Actor.Guards} (phase : w.phase = .selecting guards) :
    ¬ (w.phase = .gone ∨ ∃ error, w.phase = .stopped (.error error)) := by
  rw [phase]
  rintro (no | ⟨error, no⟩) <;> cases no

/-- The task goes on, or stops, with its channels as they were. -/
theorem Account.conclude {guards : Actor.Guards} {a : Actor} {verdict : Except Error Unit}
    (account : Account vs w) (phase : w.phase = .selecting guards) (sends : w.enqueued e = none)
    (takes : w.taken e = none) (sound : (w.conclude a verdict).Sound)
    (requests : a.requests = w.actor.requests ∧ a.requestsDone = w.actor.requestsDone)
    (closes : a.closes = w.actor.closes ∧ a.closesDone = w.actor.closesDone) :
    Account (vs ++ [(w, e)]) (w.conclude a verdict) where
  sound := sound
  waiting := by
    refine account.still sends (fun d waits => ?_) (fun _ => ne_gone_of_selecting phase)
    rwa [actor_conclude, Waits, requests.1, closes.1]
  requestsDone := by
    rw [actor_conclude, requests.1, requests.2]
    exact account.requestsDone
  closesDone := by
    rw [actor_conclude, closes.1, closes.2]
    exact account.closesDone
  returned := fun no => absurd no conclude_not_returned
  supplied := account.supplied_still takes fun ended => absurd ended (not_ended_of_selecting phase)

/-- What waits is still waiting or is the dispatch taken. -/
theorem waits_taking {a : Actor} {isClose : Bool} {d d' : Dispatch} {rest : List Dispatch}
    (waiting : (channel a isClose).queue = d :: rest) (waits : Waits a d') :
    Waits (taking a isClose rest) d' ∨ d' = d := by
  cases isClose with
  | true =>
      have queue : a.closes.queue = d :: rest := waiting
      rcases waits with request | close
      · exact Or.inl (Or.inl request)
      · rw [queue] at close
        rcases List.mem_cons.mp close with same | later
        · exact Or.inr same
        · exact Or.inl (Or.inr later)
  | false =>
      have queue : a.requests.queue = d :: rest := waiting
      rcases waits with request | close
      · rw [queue] at request
        rcases List.mem_cons.mp request with same | later
        · exact Or.inr same
        · exact Or.inl (Or.inl later)
      · exact Or.inl (Or.inr close)

/-- The task goes on with one dispatch fewer waiting. -/
theorem Account.took {guards : Actor.Guards} {isClose callerGone : Bool} {d : Dispatch}
    {rest : List Dispatch} (account : Account vs w) (phase : w.phase = .selecting guards)
    (opened : guard guards isClose = true)
    (waiting : (channel w.actor isClose).queue = d :: rest) (sound : w'.Sound)
    (stepped : w.step (takeEvent isClose callerGone) = some (w', out)) :
    Account (vs ++ [(w, takeEvent isClose callerGone)]) w' := by
  rw [step_takeEvent phase opened waiting] at stepped
  cases stepped
  have taken : w.taken (takeEvent isClose callerGone) =
      some (d, w.actor.table.fate d callerGone) := taken_takeEvent waiting
  have begins := (taking w.actor isClose rest).begins d callerGone
  have fated := (Actor.begin_fate (taking w.actor isClose rest) d callerGone).2
  rw [table_taking] at fated
  obtain ⟨requests, closes⟩ := begins.channels
  obtain ⟨requestsDone, closesDone⟩ := begins.flags
  refine ⟨sound, fun _ v member d' sent => ?_, fun done => ?_, fun done => ?_,
    fun no => absurd no conclude_not_returned, fun u member d' exhausted => ?_⟩
  · rw [actor_conclude, Waits, requests, closes]
    have before : Waits w.actor d' ∨ ∃ u ∈ vs, ∃ fate, u.1.taken u.2 = some (d', fate) := by
      rcases List.mem_append.mp member with before | here
      · exact account.waiting (ne_gone_of_selecting phase) v before d' sent
      · obtain rfl := List.mem_singleton.mp here
        cases isClose <;> cases sent
    rcases before with waits | ⟨u, before, fate, fated⟩
    · rcases waits_taking waiting waits with still | rfl
      · exact Or.inl still
      · exact Or.inr ⟨_, List.mem_append_right _ (List.mem_singleton_self _), _, taken⟩
    · exact Or.inr ⟨u, List.mem_append_left _ before, fate, fated⟩
  · rw [actor_conclude, requestsDone] at done
    rw [actor_conclude, requests]
    cases isClose with
    | true => exact account.requestsDone done
    | false =>
        have queue : w.actor.requests.queue = d :: rest := waiting
        have empty := (account.requestsDone done).2
        rw [queue] at empty
        cases empty
  · rw [actor_conclude, closesDone] at done
    rw [actor_conclude, closes]
    cases isClose with
    | true =>
        have queue : w.actor.closes.queue = d :: rest := waiting
        have empty := (account.closesDone done).2
        rw [queue] at empty
        cases empty
    | false => exact account.closesDone done
  · rcases List.mem_append.mp member with before | here
    · exact absurd (account.supplied u before d' exhausted) (not_ended_of_selecting phase)
    · obtain rfl := List.mem_singleton.mp here
      dsimp only at exhausted
      rw [taken] at exhausted
      have ran_out : w.actor.table.fate d callerGone = .exhausted :=
        congrArg Prod.snd (Option.some.inj exhausted)
      cases verdict : ((taking w.actor isClose rest).begin d callerGone).2.1 with
      | ok => exact absurd ran_out (fated.mp verdict)
      | error error => exact Or.inr ⟨error, rfl⟩

/-- One more dispatch waits. -/
theorem Account.sent {d : Dispatch} (account : Account vs w) (sound : w'.Sound)
    (sends : w.enqueued e = some d) (takes : w.taken e = none) (now : Waits w'.actor d)
    (waits : ∀ d, Waits w.actor d → Waits w'.actor d) (phase : w'.phase = w.phase)
    (requestsDone : w'.actor.requestsDone = true →
      w'.actor.requests.senders = false ∧ w'.actor.requests.queue = [])
    (closesDone : w'.actor.closesDone = true →
      w'.actor.closes.senders = false ∧ w'.actor.closes.queue = [])
    (returned : w.phase ≠ .stopped (.ok ())) : Account (vs ++ [(w, e)]) w' where
  sound := sound
  waiting := by
    intro live v member d' sent
    rw [phase] at live
    rcases List.mem_append.mp member with before | here
    · rcases account.waiting live v before d' sent with waiting | ⟨u, taken, fate, fated⟩
      · exact Or.inl (waits d' waiting)
      · exact Or.inr ⟨u, List.mem_append_left _ taken, fate, fated⟩
    · obtain rfl := List.mem_singleton.mp here
      obtain rfl := Option.some.inj (sends.symm.trans sent)
      exact Or.inl now
  requestsDone := requestsDone
  closesDone := closesDone
  returned := fun stopped => absurd (phase ▸ stopped) returned
  supplied := account.supplied_still takes (by rw [phase]; exact id)

/-- A channel that gets a dispatch has a sender left, so the actor has not returned. -/
theorem Account.not_returned (account : Account vs w)
    (senders : w.actor.requests.senders = true ∨ w.actor.closes.senders = true) :
    w.phase ≠ .stopped (.ok ()) := by
  intro stopped
  obtain ⟨requestsDone, closesDone, -⟩ := account.returned stopped
  rcases senders with some | some
  · rw [(account.requestsDone requestsDone).1] at some
    cases some
  · rw [(account.closesDone closesDone).1] at some
    cases some

theorem Account.request {request : Request} (account : Account vs w) (sound : w'.Sound)
    (stepped : w.step (.request request) = some (w', out))
    (after : w' = { w with
      actor := { w.actor with
        requests := { w.actor.requests with
          queue := w.actor.requests.queue ++ [w.stamp request true] } }
      tickets := w.tickets + 1 }) : Account (vs ++ [(w, .request request)]) w' := by
  have senders := senders_of_request stepped
  subst after
  refine account.sent sound rfl rfl ?_ (fun d waits => ?_) rfl (fun done => ?_) account.closesDone
    (account.not_returned (Or.inl senders))
  · exact Or.inl (List.mem_append_right _ (List.mem_singleton_self _))
  · exact waits.imp_left (List.mem_append_left _)
  · have none := (account.requestsDone done).1
    rw [senders] at none
    cases none

theorem Account.close {request : Request} (account : Account vs w) (sound : w'.Sound)
    (stepped : w.step (.close request) = some (w', out))
    (after : w' = { w with
      actor := { w.actor with
        closes := { w.actor.closes with
          queue := w.actor.closes.queue ++ [w.stamp request false] } }
      tickets := w.tickets + 1 }) : Account (vs ++ [(w, .close request)]) w' := by
  have senders := senders_of_close stepped
  subst after
  refine account.sent sound rfl rfl ?_ (fun d waits => ?_) rfl account.requestsDone (fun done => ?_)
    (account.not_returned (Or.inr senders))
  · exact Or.inr (List.mem_append_right _ (List.mem_singleton_self _))
  · exact waits.imp_right (List.mem_append_left _)
  · have none := (account.closesDone done).1
    rw [senders] at none
    cases none

/-- A channel with no senders left and nothing in it is done. -/
theorem Account.channelEnded {guards : Actor.Guards} {isClose callerGone : Bool}
    (account : Account vs w) (phase : w.phase = .selecting guards)
    (waiting : (channel w.actor isClose).queue = [])
    (sound : World.Sound { w with actor := ended w.actor isClose, phase := .head })
    (senders : (channel w.actor isClose).senders = false) :
    Account (vs ++ [(w, takeEvent isClose callerGone)])
      { w with actor := ended w.actor isClose, phase := .head } := by
  have takes : w.taken (takeEvent isClose callerGone) = none := by
    cases isClose with
    | true =>
        have queue : w.actor.closes.queue = [] := waiting
        rw [takeEvent, if_pos rfl, taken, queue]
        rfl
    | false =>
        have queue : w.actor.requests.queue = [] := waiting
        rw [takeEvent, if_neg Bool.false_ne_true, taken, queue]
        rfl
  refine ⟨sound, account.still (by cases isClose <;> rfl) (fun d waits => ?_)
    (fun _ => ne_gone_of_selecting phase), fun done => ?_, fun done => ?_, fun no => (nomatch no),
    account.supplied_still takes fun ended => absurd ended (not_ended_of_selecting phase)⟩
  · cases isClose <;> exact waits
  · cases isClose with
    | true => exact account.requestsDone done
    | false => exact ⟨senders, waiting⟩
  · cases isClose with
    | true => exact ⟨senders, waiting⟩
    | false => exact account.closesDone done

/-- **Every step keeps the account of what was sent.** -/
theorem Account.step (account : Account vs w) (stepped : w.step e = some (w', out)) :
    Account (vs ++ [(w, e)]) w' := by
  have sound := account.sound.step stepped
  cases account.sound.moves stepped with
  | request => exact account.request sound stepped rfl
  | close => exact account.close sound stepped rfl
  | dropRequests =>
      refine ⟨sound, account.still rfl (fun _ => id) id, fun done => ?_, account.closesDone,
        account.returned, account.supplied_still rfl id⟩
      exact ⟨rfl, (account.requestsDone done).2⟩
  | dropCloses =>
      refine ⟨sound, account.still rfl (fun _ => id) id, account.requestsDone, fun done => ?_,
        account.returned, account.supplied_still rfl id⟩
      exact ⟨rfl, (account.closesDone done).2⟩
  | advance =>
      exact ⟨sound, account.still rfl (fun _ => id) id, account.requestsDone, account.closesDone,
        account.returned, account.supplied_still rfl id⟩
  | finished phase done =>
      obtain ⟨closes, frame⟩ := w.actor.resetRun_frame
      rw [frame] at done ⊢
      simp only [Actor.finished, Bool.and_eq_true, Option.isNone_iff_eq_none] at done
      refine ⟨frame ▸ sound, account.still rfl (fun _ => id) (fun _ => by rw [phase]; nofun),
        account.requestsDone, account.closesDone, fun _ => ⟨done.1.1.1, done.1.1.2, done.1.2⟩,
        account.supplied_still rfl fun ended => ?_⟩
      rw [phase] at ended
      rcases ended with no | ⟨error, no⟩ <;> cases no
  | waits phase =>
      obtain ⟨closes, frame⟩ := w.actor.resetRun_frame
      rw [frame] at sound ⊢
      refine ⟨sound, account.still rfl (fun _ => id) (fun _ => by rw [phase]; nofun),
        account.requestsDone, account.closesDone, fun no => (nomatch no),
        account.supplied_still rfl fun ended => ?_⟩
      rw [phase] at ended
      rcases ended with no | ⟨error, no⟩ <;> cases no
  | took phase opened waiting => exact account.took phase opened waiting sound stepped
  | channelEnded phase _ waiting =>
      exact account.channelEnded phase waiting sound (no_senders_of_ended phase waiting stepped)
  | unrouted _ phase => exact account.conclude phase rfl rfl sound ⟨rfl, rfl⟩ ⟨rfl, rfl⟩
  | routed _ phase => exact account.conclude phase rfl rfl sound ⟨rfl, rfl⟩ ⟨rfl, rfl⟩
  | writeFailed _ phase => exact account.conclude phase rfl rfl sound ⟨rfl, rfl⟩ ⟨rfl, rfl⟩
  | wrote phase => exact account.conclude phase rfl rfl sound ⟨rfl, rfl⟩ ⟨rfl, rfl⟩
  | silent phase => exact account.conclude phase rfl rfl sound ⟨rfl, rfl⟩ ⟨rfl, rfl⟩
  | ticked phase => exact account.conclude phase rfl rfl sound ⟨rfl, rfl⟩ ⟨rfl, rfl⟩
  | teardown =>
      refine ⟨sound, fun live => absurd rfl live, fun done => ?_, fun done => ?_,
        fun no => (nomatch no), account.supplied_still rfl fun _ => Or.inl rfl⟩
      · exact ⟨(account.requestsDone done).1, rfl⟩
      · exact ⟨(account.closesDone done).1, rfl⟩

theorem account_new (limit : ℕ) (timeouts : Timeouts) : Account [] (new limit timeouts) where
  sound := sound_new limit timeouts
  waiting := fun _ _ none => absurd none List.not_mem_nil
  requestsDone := fun no => nomatch no
  closesDone := fun no => nomatch no
  returned := fun no => nomatch no
  supplied := fun _ none => absurd none List.not_mem_nil

theorem account_of_run {limit : ℕ} {timeouts : Timeouts} {es : List Event}
    (ran : connection.run (new limit timeouts) es = some (w, log)) :
    Account (connection.visits (new limit timeouts) es) w :=
  Trace.Machine.run_induction (P := fun vs w _ => Account vs w) (account_new limit timeouts)
    (fun _ _ _ _ _ _ account stepped => account.step stepped) ran

/-- What became of a dispatch once the actor has returned: its caller had gone, it could
not be framed, or its frame is on the wire in full. -/
def Disposed (vs : List (World × Event)) (d : Dispatch) : Prop :=
  ∃ u ∈ vs, ∃ fate, u.1.taken u.2 = some (d, fate) ∧
    ((fate = .forgone ∧ d.reply.isSome = true) ∨ (∃ error, fate = .unencodable error) ∨
      ∃ queued frame, fate = .begun queued frame ∧ (queued, frame) ∈ frames vs ∧
        stream vs = ((frames vs).map (·.2)).flatten)

theorem awaited_of_forgone {t : RequestTable} {d : Dispatch} {callerGone : Bool}
    (forgone : t.fate d callerGone = .forgone) : d.reply.isSome = true := by
  rw [RequestTable.fate] at forgone
  split at forgone
  · next gone => exact gone.1
  · split at forgone
    · cases forgone
    · split at forgone <;> cases forgone

/-- What is taken has the fate its caller, the pool and its frame decide. -/
theorem fate_of_taken {d : Dispatch} {fate : Fate} (taken : w.taken e = some (d, fate)) :
    ∃ callerGone, fate = w.actor.table.fate d callerGone := by
  cases e with
  | takeClose gone =>
      obtain ⟨_, -, same⟩ := Option.map_eq_some_iff.mp taken
      cases same
      exact ⟨gone, rfl⟩
  | takeRequest gone =>
      obtain ⟨_, -, same⟩ := Option.map_eq_some_iff.mp taken
      cases same
      exact ⟨gone, rfl⟩
  | _ => cases taken

theorem mem_frames {u : World × Event} {d : Dispatch} {queued : Queued} {frame : Bytes}
    (visited : u ∈ vs) (taken : u.1.taken u.2 = some (d, .begun queued frame)) :
    (queued, frame) ∈ frames vs := by
  refine List.mem_filterMap.mpr ⟨u, visited, ?_⟩
  rw [taken]
  rfl

/-- **The outbound stream is whole frames, and no close is lost.** In every run the bytes
on the socket are the frames begun, in order, and a proper prefix of at most one more;
each begun request enters the table once, at its first byte; no step enters an id another
way or starts a frame inside one; and where the actor has returned without an error,
everything ever sent to it has been disposed of. -/
theorem outbound_whole {limit : ℕ} {timeouts : Timeouts} {es : List Event}
    (ran : connection.run (new limit timeouts) es = some (w, log)) :
    WholeFrames (connection.visits (new limit timeouts) es) ∧
      (∀ v ∈ connection.visits (new limit timeouts) es, ∀ w' out,
        v.1.step v.2 = some (w', out) → v.1.Passes v.2 w') ∧
      (w.phase = .stopped (.ok ()) → ∀ v ∈ connection.visits (new limit timeouts) es, ∀ d,
        v.1.enqueued v.2 = some d → Disposed (connection.visits (new limit timeouts) es) d) := by
  have outbound := outbound_of_run ran
  have account := account_of_run ran
  refine ⟨outbound.whole, fun v visited w' out stepped => ?_, fun stopped v visited d sent => ?_⟩
  · have sound : v.1.Sound :=
      Trace.Machine.visits_invariant (m := connection) (sound_new limit timeouts)
        (fun _ _ _ _ sound stepped => sound.step stepped) visited
    exact sound.passes stepped
  obtain ⟨requestsDone, closesDone, idle⟩ := account.returned stopped
  have live : w.phase ≠ .gone := by
    rw [stopped]
    exact nofun
  have standing := outbound.standing live
  rw [idle] at standing
  rcases account.waiting live v visited d sent with (waits | waits) | ⟨u, before, fate, taken⟩
  · rw [(account.requestsDone requestsDone).2] at waits
    cases waits
  · rw [(account.closesDone closesDone).2] at waits
    cases waits
  refine ⟨u, before, fate, taken, ?_⟩
  obtain ⟨callerGone, decided⟩ := fate_of_taken taken
  cases fate with
  | begun queued frame =>
      exact Or.inr (Or.inr ⟨queued, frame, rfl, mem_frames before taken, standing.1⟩)
  | unencodable error => exact Or.inr (Or.inl ⟨error, rfl⟩)
  | forgone => exact Or.inl ⟨rfl, awaited_of_forgone decided.symm⟩
  | exhausted =>
      rcases account.supplied u before d taken with gone | ⟨error, failed⟩
      · exact absurd gone live
      · exact absurd (stopped.symm.trans failed) (by nofun)

/-- A handle's close goes out in two writes and lapses, and the actor returns. -/
def closeRun : List Event :=
  [.close ⟨Command.CLOSE, 0, 0, [], 0, 0, none⟩, .evaluate, .takeClose false, .evaluate,
    .written (.ok 20), .evaluate, .written (.ok 16), .advance 1, .evaluate, .timer,
    .dropRequests, .dropCloses, .evaluate, .takeRequest false, .evaluate, .takeClose false,
    .evaluate]

theorem outbound_whole_close :
    WholeFrames (connection.visits (new 1 ⟨1, 2⟩) closeRun) ∧
      Disposed (connection.visits (new 1 ⟨1, 2⟩) closeRun)
        ⟨0, ⟨Command.CLOSE, 0, 0, [], 0, 0, none⟩, none⟩ := by
  obtain ⟨whole, -, disposed⟩ :=
    @outbound_whole _ _ 1 ⟨1, 2⟩ closeRun rfl
  exact ⟨whole, disposed rfl _ (.head _) _ rfl⟩

end World

end Smb1Client
