import Smb1Client.Resource.Writer

/-!
What a `FileWriter` does with the bytes it accepts.

Spans follow each other from where the writes start, and carry what was accepted in its order;
a span in flight has its own account, and adds what was acknowledged of it to that of the spans
before when it is taken up.
-/

namespace Smb1Client

open Tiling Trace

namespace FileWriter

/-! ## What a log says -/

/-- The bytes that were passed to `write_span`. -/
def passed (log : List WriterOut) : Bytes :=
  log.flatMap fun
    | .passes _ data => data
    | _ => []

/-- The bytes that were accepted of the caller. -/
def accepted (log : List WriterOut) : Bytes :=
  log.flatMap fun
    | .wrote _ bytes => bytes
    | _ => []

/-- What the spans did on the wire. -/
def wires (log : List WriterOut) : List WriteOut :=
  log.filterMap fun
    | .wire out => some out
    | _ => none

/-- What was acknowledged, and of which request. -/
def acks (log : List WriterOut) : List (WriteAndxRequest × ℕ) := WriteSpan.acks (wires log)

/-- The far end of the spans that were written. -/
def grown (len : ℕ) (log : List WriterOut) : ℕ :=
  log.foldl (fun len out =>
    match out with
    | .ended offset data (.ok ()) => max len (offset.toNat + data.length)
    | _ => len) len

/-- Every call so far returned `Ok`. -/
def NoFailure (log : List WriterOut) : Prop := ∀ error, .failed error ∉ log

variable {log log' : List WriterOut} {out : WriterOut}

@[simp] theorem passed_append : passed (log ++ log') = passed log ++ passed log' :=
  List.flatMap_append

@[simp] theorem accepted_append : accepted (log ++ log') = accepted log ++ accepted log' :=
  List.flatMap_append

@[simp] theorem acks_append : acks (log ++ log') = acks log ++ acks log' := by
  rw [acks, wires, List.filterMap_append, WriteSpan.acks_append]
  rfl

@[simp] theorem grown_append (len : ℕ) : grown len (log ++ log') = grown (grown len log) log' :=
  List.foldl_append

theorem NoFailure.before (sound : NoFailure (log ++ log')) : NoFailure log :=
  fun error member => sound error (List.mem_append_left _ member)

/-- Entries that say nothing about the bytes. -/
def Silent (out : WriterOut) : Prop := out = .pending ∨ ∃ error, out = .failed error

theorem silent_eq {out : List WriterOut} (silent : ∀ entry ∈ out, Silent entry) :
    passed out = [] ∧ accepted out = [] ∧ acks out = [] ∧ ∀ len, grown len out = len := by
  induction out with
  | nil => exact ⟨rfl, rfl, rfl, fun _ => rfl⟩
  | cons entry out ih =>
      obtain ⟨passes, accepts, acknowledges, grows⟩ :=
        ih fun x member => silent x (List.mem_cons_of_mem _ member)
      have here : passed [entry] = [] ∧ accepted [entry] = [] ∧ acks [entry] = [] ∧
          ∀ len, grown len [entry] = len := by
        rcases silent entry List.mem_cons_self with rfl | ⟨error, rfl⟩ <;>
          exact ⟨rfl, rfl, rfl, fun _ => rfl⟩
      rw [← List.singleton_append, passed_append, accepted_append, acks_append, here.1, here.2.1,
        here.2.2.1, passes, accepts, acknowledges]
      refine ⟨rfl, rfl, rfl, fun len => ?_⟩
      rw [grown_append, here.2.2.2, grows]

/-- A request that carries a part of some bytes, each at its own offset from the base on. -/
def Carried (base : ℕ) (bytes : Bytes) (request : WriteAndxRequest) (length : ℕ) : Prop :=
  ∃ start, request.offset.toNat = base + start ∧ start + length ≤ bytes.length ∧
    request.data = (bytes.drop start).take length

theorem Carried.more {base length : ℕ} {bytes : Bytes} {request : WriteAndxRequest}
    (carried : Carried base bytes request length) (more : Bytes) :
    Carried base (bytes ++ more) request length := by
  obtain ⟨start, offset, inside, data⟩ := carried
  refine ⟨start, offset, ?_, ?_⟩
  · rw [List.length_append]
    omega
  · rw [data, List.drop_append_of_le_length (by omega), List.take_append_of_le_length]
    rw [List.length_drop]
    omega

/-! ## The account of a writer -/

variable {n : Negotiated} {fid : UInt16} {depth capacity : ℕ} {base len : UInt64}
  {w w' : FileWriter} {call : WriteCall} {s s' : WriteSpan}

/-- A span in flight: it is the last of what was passed, it has its own account, and what came
before it was acknowledged unless a call has failed. -/
structure InFlight (depth : ℕ) (base : UInt64) (w : FileWriter) (log : List WriterOut)
    (call : WriteCall) (s : WriteSpan) : Prop where
  buffer : w.buffer = []
  depth : call.depth = depth
  low : call.offset.toNat + call.data.length < 2 ^ 64
  cursor : w.closing ≠ .writing →
    w.cursor.toNat = call.offset.toNat + call.data.length ∧ w.pendingLength = some w.cursor
  inner : w.closing = .writing → w.cursor = call.offset
  finished : s.Finished call
  account : ∃ front done spanLog, passed log = front ++ call.data ∧
    call.offset.toNat = base.toNat + front.length ∧
    acks log = done ++ WriteSpan.acks spanLog ∧ s.Accounted call spanLog ∧
    (NoFailure log → ∀ q, WriteSpan.landed q done = holds q base.toNat front.length)

/-- What a log tells: spans follow each other, no data is accepted to no avail, and what is
reported as written has been acknowledged. -/
structure Told (base : UInt64) (log : List WriterOut) : Prop where
  spans : ∀ before offset data after, log = before ++ .passes offset data :: after →
    offset.toNat = base.toNat + (passed before).length
  wrote : ∀ offered, .wrote offered [] ∈ log → offered = 0
  reports : ∀ before out after, log = before ++ out :: after → out = .flushed ∨ out = .closed →
    NoFailure before → ∀ q, WriteSpan.landed q (acks before) =
      holds q base.toNat (accepted before).length

theorem told_nil : Told base [] := by
  have nothing : ∀ (before : List WriterOut) (x : WriterOut) (after : List WriterOut),
      [] ≠ before ++ x :: after := fun before x after same =>
    absurd same.symm (List.append_ne_nil_of_right_ne_nil _ (List.cons_ne_nil _ _))
  exact ⟨fun before offset data after split => absurd split (nothing _ _ _),
    fun offered none => absurd none List.not_mem_nil,
    fun before out after split => absurd split (nothing _ _ _)⟩

theorem Told.snoc (told : Told base log)
    (passes : ∀ offset data, out = .passes offset data →
      offset.toNat = base.toNat + (passed log).length)
    (wrote : ∀ offered, out = .wrote offered [] → offered = 0)
    (reports : out = .flushed ∨ out = .closed → NoFailure log →
      ∀ q, WriteSpan.landed q (acks log) = holds q base.toNat (accepted log).length) :
    Told base (log ++ [out]) := by
  refine ⟨fun before offset data after split => ?_, fun offered member => ?_,
    fun before entry after split reported => ?_⟩
  · rcases split_concat split with ⟨rest, earlier, -⟩ | ⟨rfl, same, -⟩
    · exact told.spans before offset data rest earlier
    · exact passes offset data same
  · rcases List.mem_append.mp member with old | new
    · exact told.wrote offered old
    · exact wrote offered (List.mem_singleton.mp new).symm
  · rcases split_concat split with ⟨rest, earlier, -⟩ | ⟨rfl, rfl, -⟩
    · exact told.reports before entry rest earlier reported
    · exact reports reported

/-- Entries that tell nothing. -/
def Plain (out : WriterOut) : Prop :=
  match out with
  | .wire _ | .ended _ _ _ | .pending | .failed _ => True
  | _ => False

theorem Told.plain {out : List WriterOut} (told : Told base log)
    (plain : ∀ entry ∈ out, Plain entry) : Told base (log ++ out) := by
  induction out generalizing log with
  | nil =>
      rw [List.append_nil]
      exact told
  | cons entry out ih =>
      rw [← List.singleton_append, ← List.append_assoc]
      apply ih ?_ fun x member => plain x (List.mem_cons_of_mem _ member)
      have here := plain entry List.mem_cons_self
      apply told.snoc
      · rintro offset data rfl
        exact here.elim
      · rintro offered rfl
        exact here.elim
      · rintro (rfl | rfl) <;> exact here.elim

/-- The account of a writer. -/
structure Streams (depth : ℕ) (base len : UInt64) (w : FileWriter) (log : List WriterOut) :
    Prop where
  bytes : passed log ++ w.buffer = accepted log
  told : Told base log
  flight : ∀ f ∈ w.flight, InFlight depth base w log f.1 f.2
  idle : w.flight = none → w.cursor.toNat = base.toNat + (passed log).length ∧
    (NoFailure log → ∀ q, WriteSpan.landed q (acks log) = holds q base.toNat (passed log).length)
  carried : ∀ ack ∈ acks log,
    ∃ length, Carried base.toNat (passed log) ack.1 length ∧ ack.2 ≤ length
  asked : ∀ request, .wire (.asks request) ∈ log →
    ∃ length, Carried base.toNat (passed log) request length
  grows : w.len.toNat = grown len.toNat log

theorem streams_new {downgraded : Bool} {progress : WriteProgress} :
    Streams depth base len (new base len downgraded progress) [] := by
  refine ⟨rfl, told_nil, fun f none => (by cases none), fun _ => ⟨rfl, fun _ q => ?_⟩,
    fun ack none => absurd none List.not_mem_nil,
    fun request none => absurd none List.not_mem_nil, rfl⟩
  exact holds_zero.symm

/-- How far `into_inner` has come is of no account but for the span it writes itself. -/
theorem Streams.closes (streams : Streams depth base len w log) {closing : Closing}
    (before : w.closing ≠ .writing) (after : closing ≠ .writing) :
    Streams depth base len { w with closing } log := by
  refine ⟨streams.bytes, streams.told, fun f member => ?_, streams.idle, streams.carried,
    streams.asked, streams.grows⟩
  obtain ⟨buffer, deep, low, cursor, inner, finished, account⟩ := streams.flight f member
  exact ⟨buffer, deep, low, fun _ => cursor before, fun writing => absurd writing after, finished,
    account⟩

/-- Entries that say nothing about the bytes. -/
theorem Streams.quiet {out : List WriterOut} (streams : Streams depth base len w log)
    (silent : ∀ entry ∈ out, Silent entry) : Streams depth base len w (log ++ out) := by
  obtain ⟨passes, accepts, acknowledges, grows⟩ := silent_eq silent
  have passed' : passed (log ++ out) = passed log := by rw [passed_append, passes, List.append_nil]
  have acks' : acks (log ++ out) = acks log := by rw [acks_append, acknowledges, List.append_nil]
  refine ⟨?_, ?_, fun f member => ?_, fun none => ?_, ?_, fun request member => ?_, ?_⟩
  · rw [passed', accepted_append, accepts, List.append_nil]
    exact streams.bytes
  · apply streams.told.plain
    intro entry member
    rcases silent entry member with rfl | ⟨error, rfl⟩ <;> trivial
  · obtain ⟨buffer, deep, low, cursor, inner, finished, front, done, spanLog, passes, offset,
      acked, accounted, tiles⟩ := streams.flight f member
    refine ⟨buffer, deep, low, cursor, inner, finished, front, done, spanLog, ?_, offset, ?_,
      accounted, fun sound => tiles sound.before⟩
    · rw [passed']
      exact passes
    · rw [acks']
      exact acked
  · rw [passed', acks']
    exact ⟨(streams.idle none).1, fun sound => (streams.idle none).2 sound.before⟩
  · rw [passed', acks']
    exact streams.carried
  · rw [passed']
    rcases List.mem_append.mp member with old | new
    · exact streams.asked request old
    · rcases silent _ new with same | ⟨error, same⟩ <;> cases same
  · rw [grown_append, grows]
    exact streams.grows

/-- A completed flush or close is reported where nothing is in flight or buffered. -/
theorem Streams.reported (streams : Streams depth base len w log) (idle : w.flight = none)
    (empty : w.buffer = []) (report : out = .flushed ∨ out = .closed) :
    Streams depth base len w (log ++ [out]) := by
  have nothing : passed [out] = [] ∧ accepted [out] = [] ∧ acks [out] = [] ∧
      ∀ len, grown len [out] = len := by
    rcases report with rfl | rfl <;> exact ⟨rfl, rfl, rfl, fun _ => rfl⟩
  obtain ⟨passes, accepts, acknowledges, grows⟩ := nothing
  have bytes := streams.bytes
  rw [empty, List.append_nil] at bytes
  refine ⟨?_, ?_, fun f member => ?_, fun none => ?_, ?_, fun request member => ?_, ?_⟩
  · rw [passed_append, accepted_append, passes, accepts, empty, List.append_nil, List.append_nil,
      List.append_nil]
    exact bytes
  · apply streams.told.snoc
    · rintro offset data rfl
      rcases report with same | same <;> cases same
    · rintro offered rfl
      rcases report with same | same <;> cases same
    · intro _ sound
      rw [← bytes]
      exact (streams.idle idle).2 sound
  · rw [idle] at member
    cases member
  · rw [passed_append, acks_append, passes, acknowledges, List.append_nil, List.append_nil]
    exact ⟨(streams.idle idle).1, fun sound => (streams.idle idle).2 sound.before⟩
  · rw [passed_append, acks_append, passes, acknowledges, List.append_nil, List.append_nil]
    exact streams.carried
  · rw [passed_append, passes, List.append_nil]
    rcases List.mem_append.mp member with old | new
    · exact streams.asked request old
    · rcases report with rfl | rfl <;> cases List.mem_singleton.mp new
  · rw [grown_append, grows]
    exact streams.grows

/-- Bytes are accepted into the buffer while nothing is in flight. -/
theorem Streams.accepts (streams : Streams depth base len w log) (idle : w.flight = none)
    {offered : ℕ} {bytes : Bytes} (some : bytes = [] → offered = 0) :
    Streams depth base len { w with buffer := w.buffer ++ bytes }
      (log ++ [.wrote offered bytes]) := by
  have passes : passed (log ++ [.wrote offered bytes]) = passed log := by
    rw [passed_append]
    exact List.append_nil _
  have acknowledges : acks (log ++ [.wrote offered bytes]) = acks log := by
    rw [acks_append]
    exact List.append_nil _
  refine ⟨?_, ?_, fun f member => ?_, fun none => ?_, ?_, fun request member => ?_, ?_⟩
  · rw [passes, accepted_append, ← List.append_assoc, streams.bytes]
    exact congrArg _ (List.append_nil _).symm
  · apply streams.told.snoc
    · exact fun offset data same => by cases same
    · intro offered' same
      obtain ⟨rfl, none⟩ := WriterOut.wrote.inj same
      exact some none
    · exact fun same => by rcases same with same | same <;> cases same
  · rw [idle] at member
    cases member
  · rw [passes, acknowledges]
    exact ⟨(streams.idle idle).1, fun sound => (streams.idle idle).2 sound.before⟩
  · rw [passes, acknowledges]
    exact streams.carried
  · rw [passes]
    rcases List.mem_append.mp member with old | new
    · exact streams.asked request old
    · cases List.mem_singleton.mp new
  · rw [grown_append]
    exact streams.grows

/-- What is buffered is passed to `write_span`, and is in flight from then on. -/
theorem Streams.passes (streams : Streams depth base len w log) (idle : w.flight = none)
    (low : w.cursor.toNat + w.buffer.length < 2 ^ 64) (closing : Closing) (cursor : UInt64)
    (pendingLength : Option UInt64)
    (on : closing ≠ .writing → cursor.toNat = w.cursor.toNat + w.buffer.length ∧
      pendingLength = some cursor)
    (inner : closing = .writing → cursor = w.cursor) :
    Streams depth base len { (w.pass n fid depth).1 with cursor, pendingLength, closing }
      (log ++ (w.pass n fid depth).2) := by
  have passes : passed (log ++ (w.pass n fid depth).2) = passed log ++ w.buffer := by
    rw [passed_append]
    exact congrArg _ (List.append_nil _)
  have acknowledges : acks (log ++ (w.pass n fid depth).2) = acks log := by
    rw [acks_append]
    exact List.append_nil _
  obtain ⟨offset, tiles⟩ := streams.idle idle
  refine ⟨?_, ?_, fun f member => ?_, fun none => (by cases none), fun ack member => ?_,
    fun request member => ?_, ?_⟩
  · rw [passes, accepted_append]
    change _ ++ [] = _ ++ []
    rw [List.append_nil, List.append_nil]
    exact streams.bytes
  · apply streams.told.snoc
    · intro offset' data same
      obtain ⟨rfl, -⟩ := WriterOut.passes.inj same
      exact offset
    · exact fun offered same => by cases same
    · exact fun same => by rcases same with same | same <;> cases same
  · cases member
    refine ⟨rfl, rfl, low, on, inner, WriteSpan.finished_start, passed log, acks log, [], passes,
      offset, ?_, WriteSpan.accounted_start, fun sound => tiles sound.before⟩
    rw [acknowledges]
    exact (List.append_nil _).symm
  · rw [acknowledges] at member
    obtain ⟨length, carried, within⟩ := streams.carried ack member
    rw [passes]
    exact ⟨length, carried.more _, within⟩
  · rw [passes]
    rcases List.mem_append.mp member with old | new
    · obtain ⟨length, carried⟩ := streams.asked request old
      exact ⟨length, carried.more _⟩
    · cases List.mem_singleton.mp new
  · rw [grown_append]
    exact streams.grows

theorem max_toNat (a b : UInt64) : (max a b).toNat = max a.toNat b.toNat := by
  change (if a ≤ b then b else a).toNat = _
  rw [max_def]
  simp only [UInt64.le_iff_toNat_le]
  split <;> rfl

theorem Streams.inFlight (streams : Streams depth base len w log)
    (flight : w.flight = some (call, s)) : InFlight depth base w log call s :=
  streams.flight (call, s) flight

/-- A span that was written is taken up: what was acknowledged of it goes on from what was
acknowledged before, and the length grows to its end. -/
theorem Streams.takesUp (streams : Streams depth base len w log) (running : w.closing ≠ .writing)
    (flight : w.flight = some (call, s)) (came : s.result = some (.ok ())) :
    Streams depth base len (w.takeUp s (.ok ()))
      (log ++ [.ended call.offset call.data (.ok ())]) := by
  obtain ⟨buffer, deep, low, cursor, inner, finished, front, done, spanLog, passes, offset,
    acked, accounted, tiles⟩ := streams.inFlight flight
  obtain ⟨stop, pending⟩ := cursor running
  have passed' : passed (log ++ [.ended call.offset call.data (.ok ())]) = passed log := by
    rw [passed_append]
    exact List.append_nil _
  have acks' : acks (log ++ [.ended call.offset call.data (.ok ())]) = acks log := by
    rw [acks_append]
    exact List.append_nil _
  have length : (passed log).length = front.length + call.data.length := by
    rw [passes, List.length_append]
  refine ⟨?_, ?_, fun f none => (by cases none), fun _ => ⟨?_, fun sound q => ?_⟩, ?_,
    fun request member => ?_, ?_⟩
  · rw [passed', accepted_append]
    have bytes := streams.bytes
    rw [buffer] at bytes
    exact bytes.trans (List.append_nil _).symm
  · apply streams.told.plain
    intro entry member
    rw [List.mem_singleton.mp member]
    trivial
  · rw [passed', length]
    change w.cursor.toNat = _
    omega
  · have wrote := WriteSpan.tiles_of_ok accounted finished came q
    rw [passed', acks', length, acked, WriteSpan.landed_append, tiles sound.before q, wrote,
      holds_add, offset]
  · rw [passed', acks']
    exact streams.carried
  · rw [passed']
    rcases List.mem_append.mp member with old | new
    · exact streams.asked request old
    · cases List.mem_singleton.mp new
  · rw [grown_append, ← streams.grows]
    unfold FileWriter.takeUp
    rw [pending]
    change (max w.len _).toNat = max w.len.toNat (call.offset.toNat + call.data.length)
    rw [max_toNat, stop]

/-- A span that failed is taken up, and its failure is given to the caller. -/
theorem Streams.givesUp {error : ClientError} (streams : Streams depth base len w log)
    (running : w.closing ≠ .writing) (flight : w.flight = some (call, s)) :
    Streams depth base len (w.takeUp s (.error error))
      (log ++ [.ended call.offset call.data (.error error), .failed error]) := by
  obtain ⟨buffer, deep, low, cursor, inner, finished, front, done, spanLog, passes, offset,
    acked, accounted, tiles⟩ := streams.inFlight flight
  obtain ⟨stop, pending⟩ := cursor running
  let out : List WriterOut := [.ended call.offset call.data (.error error), .failed error]
  have passed' : passed (log ++ out) = passed log := by
    rw [passed_append]
    exact List.append_nil _
  have acks' : acks (log ++ out) = acks log := by
    rw [acks_append]
    exact List.append_nil _
  refine ⟨?_, ?_, fun f none => (by cases none), fun _ => ⟨?_, fun sound => ?_⟩, ?_,
    fun request member => ?_, ?_⟩
  · rw [passed', accepted_append]
    have bytes := streams.bytes
    rw [buffer] at bytes
    exact bytes.trans (List.append_nil _).symm
  · apply streams.told.plain
    intro entry member
    rcases List.mem_cons.mp member with rfl | rest
    · trivial
    · rw [List.mem_singleton.mp rest]
      trivial
  · rw [passed', passes, List.length_append]
    change w.cursor.toNat = _
    omega
  · exact absurd (List.mem_append_right _ (by simp)) (sound error)
  · rw [passed', acks']
    exact streams.carried
  · rw [passed']
    rcases List.mem_append.mp member with old | new
    · exact streams.asked request old
    · simp at new
  · rw [grown_append]
    have same : (w.takeUp s (.error error)).len = w.len := rfl
    rw [same]
    exact streams.grows

theorem wires_eq (out : List WriteOut) : passed (out.map .wire) = [] ∧
    accepted (out.map .wire) = [] ∧ acks (out.map .wire) = WriteSpan.acks out ∧
      ∀ len, grown len (out.map .wire) = len := by
  induction out with
  | nil => exact ⟨rfl, rfl, rfl, fun _ => rfl⟩
  | cons entry out ih =>
      obtain ⟨passes, accepts, acknowledges, grows⟩ := ih
      refine ⟨passes, accepts, ?_, grows⟩
      have wires' : wires ((entry :: out).map .wire) = entry :: wires (out.map .wire) := rfl
      rw [acks, wires', ← List.singleton_append, WriteSpan.acks_append, ← acks, acknowledges,
        ← WriteSpan.acks_append]
      rfl

/-- A request for a part of a span is one for a part of all that was passed. -/
theorem carried_of_asked {front : Bytes} {request : WriteAndxRequest} {length : ℕ}
    (offset : call.offset.toNat = base.toNat + front.length)
    (asked : WriteSpan.Asked call request length) :
    Carried base.toNat (front ++ call.data) request length := by
  obtain ⟨start, inside, position, data⟩ := WriteSpan.carried_of_asked asked
  refine ⟨front.length + start, by omega, ?_, ?_⟩
  · rw [List.length_append]
    omega
  · rw [data, ← List.drop_drop, List.drop_left]

/-- What goes on in a span in flight. -/
theorem Streams.spanStep {e : WriteEvent} {out : List WriteOut}
    (streams : Streams depth base len w log) (deep : 1 ≤ depth)
    (flight : w.flight = some (call, s)) (stepped : s.step call e = some (s', out)) :
    Streams depth base len { w with flight := some (call, s') } (log ++ out.map .wire) := by
  obtain ⟨buffer, same, below, cursor, inner, finished, front, done, spanLog, passes, offset,
    acked, accounted, tiles⟩ := streams.inFlight flight
  have stepped := WriteSpan.step_cases stepped
  have low := accounted.low (le_of_lt below) e
  have accounted' := accounted.stepped low stepped
  obtain ⟨passesNone, acceptsNone, acknowledges, grows⟩ := wires_eq out
  have passed' : passed (log ++ out.map .wire) = passed log := by
    rw [passed_append, passesNone, List.append_nil]
  have acks' : acks (log ++ out.map .wire) = acks log ++ WriteSpan.acks out := by
    rw [acks_append, acknowledges]
  refine ⟨?_, ?_, fun f member => ?_, fun none => (by cases none), fun ack member => ?_,
    fun request member => ?_, ?_⟩
  · rw [passed', accepted_append, acceptsNone, List.append_nil]
    exact streams.bytes
  · apply streams.told.plain
    intro entry member
    obtain ⟨wire, -, rfl⟩ := List.mem_map.mp member
    trivial
  · cases member
    refine ⟨buffer, same, below, cursor, inner,
      finished.stepped accounted (by rw [same]; exact deep) stepped, front, done, spanLog ++ out,
      ?_, offset, ?_, accounted', fun sound => tiles sound.before⟩
    · rw [passed']
      exact passes
    · rw [acks', acked, WriteSpan.acks_append, List.append_assoc]
  · rw [passed']
    rw [acks'] at member
    rcases List.mem_append.mp member with old | new
    · exact streams.carried ack old
    · have spanAck : ack ∈ WriteSpan.acks (spanLog ++ out) := by
        rw [WriteSpan.acks_append]
        exact List.mem_append_right _ new
      obtain ⟨length, asked, within⟩ := accounted'.acks ack spanAck
      rw [passes]
      exact ⟨length, carried_of_asked offset asked, within⟩
  · rw [passed']
    rcases List.mem_append.mp member with old | new
    · exact streams.asked request old
    · obtain ⟨wire, asks, wired⟩ := List.mem_map.mp new
      obtain rfl := WriterOut.wire.inj wired
      obtain ⟨length, asked⟩ := accounted.asks low stepped asks
      rw [passes]
      exact ⟨length, carried_of_asked offset asked⟩
  · rw [grown_append, grows]
    exact streams.grows

/-! ## Steps -/

/-- The far end of what is buffered, with what a write adds to it. -/
def reach (capacity : ℕ) (w : FileWriter) : WriterEvent → ℕ
  | .write data => w.cursor.toNat + min capacity (w.buffer.length + data.length)
  | _ => w.cursor.toNat + w.buffer.length

/-- No position of what is buffered is past the last there is. -/
def Low (capacity : ℕ) (w : FileWriter) (e : WriterEvent) : Prop := w.reach capacity e < 2 ^ 64

instance (e : WriterEvent) : Decidable (w.Low capacity e) := by
  unfold Low
  infer_instance

/-- A poll of a flush gives no time to a span that goes on, and takes up one that is over. -/
theorem Streams.pollFlushing (streams : Streams depth base len w log)
    (running : w.closing ≠ .writing) :
    (w.pollFlushing = (w, none, []) ∧ w.flight.isSome = true) ∨
      (∃ w₁ out, w.pollFlushing = (w₁, some (.ok ()), out) ∧ w₁.flight = none ∧
        w₁.closing = w.closing ∧ w₁.cursor = w.cursor ∧
        (w₁ = w ∨ w₁.buffer = []) ∧ Streams depth base len w₁ (log ++ out)) ∨
      ∃ w₁ error out, w.pollFlushing = (w₁, some (.error error), out) ∧
        w₁.closing = w.closing ∧ w₁.buffer = [] ∧
        Streams depth base len w₁ (log ++ (out ++ [.failed error])) := by
  rw [FileWriter.pollFlushing]
  cases flight : w.flight with
  | none =>
      refine Or.inr (Or.inl ⟨w, [], rfl, flight, rfl, rfl, Or.inl rfl, ?_⟩)
      rw [List.append_nil]
      exact streams
  | some f =>
      obtain ⟨call, s⟩ := f
      dsimp only
      cases came : s.result with
      | none => exact Or.inl ⟨rfl, rfl⟩
      | some outcome =>
          cases outcome with
          | ok done =>
              refine Or.inr (Or.inl ⟨_, _, rfl, rfl, rfl, rfl, Or.inr rfl, ?_⟩)
              exact streams.takesUp running flight came
          | error error =>
              refine Or.inr (Or.inr ⟨_, error, _, rfl, rfl, rfl, ?_⟩)
              exact streams.givesUp running flight

/-- A flush that is started. -/
theorem Streams.startFlush (streams : Streams depth base len w log) (idle : w.flight = none)
    (running : w.closing ≠ .writing) (some : w.buffer ≠ [])
    (low : w.cursor.toNat + w.buffer.length < 2 ^ 64) :
    Streams depth base len (w.startFlush n fid depth).1 (log ++ (w.startFlush n fid depth).2) ∧
      (w.startFlush n fid depth).1.buffer = [] := by
  have stop : (w.cursor + UInt64.ofNat w.buffer.length).toNat =
      w.cursor.toNat + w.buffer.length := by
    rw [UInt64.toNat_add, UInt64.toNat_ofNat', Nat.add_mod_mod, Nat.mod_eq_of_lt low]
  rw [FileWriter.startFlush, if_neg (by rw [idle]; simp [some])]
  refine ⟨?_, rfl⟩
  exact streams.passes idle low w.closing _ _ (fun _ => ⟨stop, rfl⟩) fun writing =>
    absurd writing running

/-- A writer's account, with room left in its buffer. -/
structure Roomy (depth capacity : ℕ) (base len : UInt64) (w : FileWriter) (log : List WriterOut) :
    Prop where
  streams : Streams depth base len w log
  room : w.buffer.length < capacity

theorem Streams.waits (streams : Streams depth base len w log) :
    Streams depth base len w (log ++ [.pending]) :=
  streams.quiet fun _ member => Or.inl (List.mem_singleton.mp member)

theorem Roomy.write {data : Bytes} (roomy : Roomy depth capacity base len w log)
    (running : w.closing = .writer) (low : w.Low capacity (.write data)) :
    Roomy depth capacity base len (w.pollWrite n fid depth capacity data).1
      (log ++ (w.pollWrite n fid depth capacity data).2) := by
  obtain ⟨streams, room⟩ := roomy
  have unclosed : w.closing ≠ .writing := by rw [running]; decide
  have positive : 0 < capacity := Nat.zero_lt_of_lt room
  rw [pollWrite]
  rcases streams.pollFlushing unclosed with ⟨goes, -⟩ |
    ⟨w₁, out, goes, idle, closing, cursor, buffer, streams₁⟩
    | ⟨w₁, error, out, goes, closing, empty, streams₁⟩
  · rw [goes]
    exact ⟨streams.waits, room⟩
  · rw [goes]
    have room₁ : w₁.buffer.length < capacity ∧ w₁.buffer.length ≤ w.buffer.length := by
      rcases buffer with rfl | empty
      · exact ⟨room, le_rfl⟩
      · rw [empty]
        exact ⟨positive, Nat.zero_le _⟩
    dsimp only
    split
    · next nothing =>
        have accepts := @Streams.accepts _ depth base len w₁ streams₁ idle 0 [] fun _ => rfl
        rw [List.append_nil, List.append_assoc] at accepts
        exact ⟨accepts, room₁.1⟩
    · next nonempty =>
        have some : 0 < data.length := List.length_pos_iff.mpr nonempty
        let taking := min (capacity - w₁.buffer.length) data.length
        let w₂ : FileWriter := { w₁ with buffer := w₁.buffer ++ data.take taking }
        have length : w₂.buffer.length = w₁.buffer.length + taking := by
          change (w₁.buffer ++ data.take taking).length = _
          rw [List.length_append, List.length_take]
          omega
        have accepts : Streams depth base len w₂
            (log ++ (out ++ [.wrote data.length (data.take taking)])) := by
          rw [← List.append_assoc]
          apply streams₁.accepts idle
          intro none
          have short := congrArg List.length none
          rw [List.length_take, List.length_nil] at short
          omega
        split
        · next full =>
            change capacity ≤ w₂.buffer.length at full
            have filled : w₂.buffer ≠ [] := by
              intro none
              rw [none] at full
              exact absurd full (not_le.mpr positive)
            have below : w₂.cursor.toNat + w₂.buffer.length < 2 ^ 64 := by
              rw [Low, reach] at low
              change w₁.cursor.toNat + _ < _
              rw [length, cursor]
              omega
            have starts := @Streams.startFlush _ n fid depth base len w₂ accepts idle
              (by change w₁.closing ≠ _; rw [closing]; exact unclosed) filled below
            rw [List.append_assoc] at starts
            refine ⟨starts.1, ?_⟩
            change (w₂.startFlush n fid depth).1.buffer.length < _
            rw [starts.2]
            exact positive
        · next open_ => exact ⟨accepts, not_le.mp open_⟩
  · rw [goes]
    refine ⟨streams₁, ?_⟩
    dsimp only
    rw [empty]
    exact positive

theorem Roomy.flush (roomy : Roomy depth capacity base len w log)
    (running : w.closing = .writer) (low : w.Low capacity .flush) :
    Roomy depth capacity base len (w.pollFlush n fid depth).1
      (log ++ (w.pollFlush n fid depth).2) := by
  obtain ⟨streams, room⟩ := roomy
  have unclosed : w.closing ≠ .writing := by rw [running]; decide
  have positive : 0 < capacity := Nat.zero_lt_of_lt room
  rw [pollFlush]
  rcases streams.pollFlushing unclosed with ⟨goes, -⟩ |
    ⟨w₁, out, goes, idle, closing, cursor, buffer, streams₁⟩
    | ⟨w₁, error, out, goes, closing, empty, streams₁⟩
  · rw [goes]
    exact ⟨streams.waits, room⟩
  · rw [goes]
    dsimp only
    split
    · next empty =>
        have reported := streams₁.reported idle empty (Or.inl rfl)
        rw [List.append_assoc] at reported
        refine ⟨reported, ?_⟩
        rw [empty]
        exact positive
    · next filled =>
        have same : w₁ = w := buffer.resolve_right filled
        have starts := @Streams.startFlush _ n fid depth base len w₁ streams₁ idle
          (by rw [closing]; exact unclosed) filled (by rw [same]; exact low)
        have pending := starts.1.waits
        rw [List.append_assoc, List.append_assoc, ← List.append_assoc out] at pending
        refine ⟨pending, ?_⟩
        dsimp only
        rw [starts.2]
        exact positive
  · rw [goes]
    refine ⟨streams₁, ?_⟩
    dsimp only
    rw [empty]
    exact positive

/-- The rest of a buffer is written, or there is none and the file is given back. -/
theorem Streams.flushRest (streams : Streams depth base len w log) (idle : w.flight = none)
    (running : w.closing ≠ .writing) (low : w.cursor.toNat + w.buffer.length < 2 ^ 64) :
    Streams depth base len (w.flushRest n fid depth).1 (log ++ (w.flushRest n fid depth).2) ∧
      (w.flushRest n fid depth).1.buffer = [] := by
  rw [FileWriter.flushRest]
  split
  · next empty =>
      exact ⟨(streams.reported idle empty (Or.inr rfl)).closes running (by decide), empty⟩
  · have passes := @Streams.passes _ n fid depth base len w streams idle low .writing w.cursor
      w.pendingLength (fun other => absurd rfl other) fun _ => rfl
    refine ⟨?_, rfl⟩
    rw [← List.append_assoc]
    exact passes.waits

/-- The span that `into_inner` writes is over: the cursor goes on past it. -/
theorem Streams.inner (streams : Streams depth base len w log) (writing : w.closing = .writing)
    (flight : w.flight = some (call, s)) :
    Streams depth base len
      { w with
        cursor := w.cursor + UInt64.ofNat call.data.length
        pendingLength := some (w.cursor + UInt64.ofNat call.data.length)
        closing := .writer } log := by
  obtain ⟨buffer, same, below, -, inner, finished, account⟩ := streams.inFlight flight
  have stop : (w.cursor + UInt64.ofNat call.data.length).toNat =
      call.offset.toNat + call.data.length := by
    rw [inner writing, UInt64.toNat_add, UInt64.toNat_ofNat', Nat.add_mod_mod,
      Nat.mod_eq_of_lt below]
  refine ⟨streams.bytes, streams.told, fun f member => ?_, fun none => ?_, streams.carried,
    streams.asked, streams.grows⟩
  · cases flight.symm.trans member
    exact ⟨buffer, same, below, fun _ => ⟨stop, rfl⟩, fun none => (by cases none), finished,
      account⟩
  · rw [flight] at none
    cases none

theorem Roomy.intoInner {out : List WriterOut} (roomy : Roomy depth capacity base len w log)
    (low : w.Low capacity .intoInner)
    (stepped : w.pollIntoInner n fid depth = some (w', out)) :
    Roomy depth capacity base len w' (log ++ out) := by
  obtain ⟨streams, room⟩ := roomy
  have positive : 0 < capacity := Nat.zero_lt_of_lt room
  rw [pollIntoInner] at stepped
  split at stepped
  · cases stepped
  · next writing =>
      split at stepped
      · cases stepped
      · next call s flight =>
          split at stepped
          · cases stepped
            exact ⟨streams.waits, room⟩
          · next outcome came =>
              cases stepped
              have inner := streams.inner writing flight
              refine ⟨?_, positive⟩
              cases outcome with
              | ok done =>
                  have taken := inner.takesUp (by simp) flight came
                  have reported := (taken.reported rfl rfl (Or.inr rfl)).closes
                    (fun none => (by cases none)) (show Closing.over ≠ .writing by decide)
                  rw [List.append_assoc] at reported
                  exact reported
              | error error =>
                  have given :=
                    @Streams.givesUp _ depth base len _ call s error inner (by simp) flight
                  exact given.closes (fun none => (by cases none))
                    (show Closing.over ≠ .writing by decide)
  · next unwritten unclosed =>
      have running : w.closing ≠ .writing := unclosed
      rcases streams.pollFlushing running with ⟨goes, -⟩ |
        ⟨w₁, first, goes, idle, closing, cursor, buffer, streams₁⟩ |
        ⟨w₁, error, first, goes, closing, empty, streams₁⟩
      · rw [goes] at stepped
        cases stepped
        exact ⟨(streams.waits).closes running (by decide), room⟩
      · rw [goes] at stepped
        change some ((w₁.flushRest n fid depth).1, first ++ (w₁.flushRest n fid depth).2) =
          some (w', out) at stepped
        obtain ⟨rfl, rfl⟩ := Prod.ext_iff.mp (Option.some.inj stepped)
        have below : w₁.cursor.toNat + w₁.buffer.length < 2 ^ 64 := by
          rcases buffer with rfl | empty
          · exact low
          · rw [empty]
            exact w₁.cursor.toNat_lt
        have rest := @Streams.flushRest _ n fid depth base len w₁ streams₁ idle
          (by rw [closing]; exact running) below
        rw [List.append_assoc] at rest
        refine ⟨rest.1, ?_⟩
        dsimp only
        rw [rest.2]
        exact positive
      · rw [goes] at stepped
        cases stepped
        refine ⟨streams₁.closes (by rw [closing]; exact running) (by decide), ?_⟩
        dsimp only
        rw [empty]
        exact positive

/-- **Steps keep the account of a writer.** -/
theorem Roomy.step {e : WriterEvent} {out : List WriterOut}
    (roomy : Roomy depth capacity base len w log) (deep : 1 ≤ depth) (low : w.Low capacity e)
    (stepped : w.step n fid depth capacity e = some (w', out)) :
    Roomy depth capacity base len w' (log ++ out) := by
  obtain ⟨streams, room⟩ := roomy
  cases e with
  | downgrade =>
      rw [FileWriter.step] at stepped
      split at stepped <;> cases stepped
      rw [List.append_nil]
      refine ⟨⟨streams.bytes, streams.told, fun f member => ?_, streams.idle, streams.carried,
        streams.asked, streams.grows⟩, room⟩
      obtain ⟨buffer, deep, low, cursor, inner, finished, account⟩ := streams.flight f member
      exact ⟨buffer, deep, low, cursor, inner, finished, account⟩
  | write data =>
      rw [FileWriter.step] at stepped
      split at stepped
      · next running =>
          obtain ⟨rfl, rfl⟩ := Prod.ext_iff.mp (Option.some.inj stepped)
          exact Roomy.write ⟨streams, room⟩ running low
      · cases stepped
  | flush =>
      rw [FileWriter.step] at stepped
      split at stepped
      · next running =>
          obtain ⟨rfl, rfl⟩ := Prod.ext_iff.mp (Option.some.inj stepped)
          exact Roomy.flush ⟨streams, room⟩ running low
      · cases stepped
  | shutdown =>
      rw [FileWriter.step] at stepped
      split at stepped
      · next running =>
          obtain ⟨rfl, rfl⟩ := Prod.ext_iff.mp (Option.some.inj stepped)
          exact Roomy.flush ⟨streams, room⟩ running low
      · cases stepped
  | intoInner => exact Roomy.intoInner ⟨streams, room⟩ low stepped
  | span e =>
      rw [FileWriter.step] at stepped
      split at stepped
      · cases stepped
      · next call s flight =>
          obtain ⟨⟨s', out⟩, goes, same⟩ := Option.map_eq_some_iff.mp stepped
          cases same
          exact ⟨streams.spanStep deep flight goes, room⟩

theorem roomy_run {downgraded : Bool} {progress : WriteProgress} {es : List WriterEvent}
    (deep : 1 ≤ depth) (room : 1 ≤ capacity)
    (low : ∀ v ∈ (machine n fid depth capacity).visits (.new base len downgraded progress) es,
      v.1.Low capacity v.2)
    (ran : (machine n fid depth capacity).run (.new base len downgraded progress) es =
      some (w, log)) : Roomy depth capacity base len w log := by
  have kept : (∀ v ∈ (machine n fid depth capacity).visits (.new base len downgraded progress) es,
      v.1.Low capacity v.2) → Roomy depth capacity base len w log := by
    apply Machine.run_induction (P := fun done w log => (∀ v ∈ done, v.1.Low capacity v.2) →
      Roomy depth capacity base len w log) (fun _ => ⟨streams_new, room⟩) ?_ ran
    intro done w log e w' out before stepped within
    have roomy := before fun v member => within v (List.mem_append_left _ member)
    exact roomy.step deep (within (w, e) (by simp)) stepped
  exact kept low

end FileWriter

/-- **A writer loses, repeats and reorders nothing**, while what is buffered ends below 2^64. A
flush in flight leaves the buffer empty; spans follow each other from where the writes start,
and carry what was accepted, in its order; no data is accepted to no avail; where no call has
failed, what a completed flush or close reports has been acknowledged, each byte once and at its
own offset; and the length grows to the ends of the spans that were written. -/
theorem writer_loses_nothing {n : Negotiated} {fid : UInt16} {depth capacity : ℕ}
    {base len : UInt64} {downgraded : Bool} {progress : WriteProgress} {es : List WriterEvent}
    {w : FileWriter} {log : List WriterOut} (deep : 1 ≤ depth) (room : 1 ≤ capacity)
    (low : ∀ v ∈ (FileWriter.machine n fid depth capacity).visits
      (.new base len downgraded progress) es, v.1.Low capacity v.2)
    (ran : (FileWriter.machine n fid depth capacity).run (.new base len downgraded progress) es =
      some (w, log)) :
    (w.flight.isSome = true → w.buffer = []) ∧
      FileWriter.passed log ++ w.buffer = FileWriter.accepted log ∧
      (∀ before offset data after, log = before ++ .passes offset data :: after →
        offset.toNat = base.toNat + (FileWriter.passed before).length) ∧
      (∀ offered, .wrote offered [] ∈ log → offered = 0) ∧
      (∀ before out after, log = before ++ out :: after → out = .flushed ∨ out = .closed →
        FileWriter.NoFailure before →
          ∀ q, WriteSpan.landed q (FileWriter.acks before) =
            holds q base.toNat (FileWriter.accepted before).length) ∧
      (∀ ack ∈ FileWriter.acks log, ∃ start length, ack.1.offset.toNat = base.toNat + start ∧
        ack.2 ≤ length ∧ start + length ≤ (FileWriter.accepted log).length ∧
        ack.1.data = ((FileWriter.accepted log).drop start).take length) ∧
      w.len.toNat = FileWriter.grown len.toNat log := by
  obtain ⟨streams, -⟩ := FileWriter.roomy_run deep room low ran
  refine ⟨fun flies => ?_, streams.bytes, streams.told.spans, streams.told.wrote,
    streams.told.reports, fun ack member => ?_, streams.grows⟩
  · obtain ⟨f, flight⟩ := Option.isSome_iff_exists.mp flies
    exact (streams.flight f flight).buffer
  · obtain ⟨length, carried, within⟩ := streams.carried ack member
    obtain ⟨start, offset, inside, data⟩ := carried.more w.buffer
    rw [streams.bytes] at inside data
    exact ⟨start, length, offset, within, inside, data⟩

/-- Three bytes from the sixth on, through a buffer of two. -/
def threeBytesBuffered : List WriterEvent :=
  [.write [1, 2, 3], .span (.issue false), .span (.reply 0 (.ok (writeReply 2))), .span (.answer 0),
    .span .finish, .write [3], .flush, .span (.issue false), .span (.reply 0 (.ok (writeReply 1))),
    .span (.answer 0), .span .finish, .flush]

theorem writer_loses_nothing_three : ∃ w log,
    (FileWriter.machine ⟨50, 16644, 0⟩ 1 1 2).run (.new 5 0 false .new) threeBytesBuffered =
        some (w, log) ∧
      FileWriter.accepted log = [1, 2, 3] ∧ log.getLast? = some .flushed ∧
      FileWriter.passed log ++ w.buffer = FileWriter.accepted log := by
  have happened : ((FileWriter.machine ⟨50, 16644, 0⟩ 1 1 2).run (.new 5 0 false .new)
      threeBytesBuffered).map (fun end_ => (FileWriter.accepted end_.2, end_.2.getLast?)) =
        some ([1, 2, 3], some .flushed) := by
    decide +kernel
  obtain ⟨⟨w, log⟩, ran, same⟩ := Option.map_eq_some_iff.mp happened
  obtain ⟨all, last⟩ := Prod.mk.inj same
  have writes := @writer_loses_nothing ⟨50, 16644, 0⟩ 1 1 2 5 0 false .new threeBytesBuffered w log
    (by decide) (by decide) (by decide +kernel) ran
  exact ⟨w, log, ran, all, last, writes.2.1⟩

/-- Two bytes at the last offset there is, of which the server takes one at a time. -/
def twoBytesAtTheEnd : List WriterEvent :=
  [.write [1, 2], .flush, .span (.issue false), .span (.reply 0 (.ok (writeReply 1))),
    .span (.answer 0), .span (.issue false), .span (.reply 0 (.ok (writeReply 1))),
    .span (.answer 0), .span .finish, .flush]

/-- The flush reports both of `twoBytesAtTheEnd` written, and the second is at the head of the
file. -/
theorem writer_wraps_to_the_head : ¬ ∀ (n : Negotiated) (fid : UInt16) (depth capacity : ℕ)
    (base len : UInt64) (downgraded : Bool) (progress : WriteProgress) (es : List WriterEvent)
    (w : FileWriter) (log : List WriterOut), 1 ≤ depth → 1 ≤ capacity →
      (FileWriter.machine n fid depth capacity).run (.new base len downgraded progress) es =
        some (w, log) →
      ∀ before out after, log = before ++ out :: after → out = .flushed ∨ out = .closed →
        FileWriter.NoFailure before →
          ∀ q, WriteSpan.landed q (FileWriter.acks before) =
            holds q base.toNat (FileWriter.accepted before).length := by
  intro claimed
  have happened : ((FileWriter.machine ⟨50, 16644, 0⟩ 1 1 3332).run
      (.new 18446744073709551615 18446744073709551615 false .new) twoBytesAtTheEnd).map
        (fun ended => (ended.2.getLast?,
          ended.2.dropLast.all fun entry => match entry with | .failed _ => false | _ => true,
          WriteSpan.landed 0 (FileWriter.acks ended.2.dropLast),
          (FileWriter.accepted ended.2.dropLast).length)) = some (some .flushed, true, 1, 2) := by
    decide +kernel
  obtain ⟨⟨w, log⟩, ran, same⟩ := Option.map_eq_some_iff.mp happened
  obtain ⟨last, same⟩ := Prod.mk.inj same
  obtain ⟨clean, same⟩ := Prod.mk.inj same
  obtain ⟨landed, taken⟩ := Prod.mk.inj same
  have split : log = log.dropLast ++ .flushed :: [] :=
    (List.dropLast_append_getLast? _ last).symm
  have fails : FileWriter.NoFailure log.dropLast := by
    intro error member
    exact absurd (List.all_eq_true.mp clean _ member) (by simp)
  have once := claimed ⟨50, 16644, 0⟩ 1 1 3332 18446744073709551615 18446744073709551615 false
    .new twoBytesAtTheEnd w log (by decide) (by decide) ran log.dropLast .flushed [] split
    (.inl rfl) fails 0
  simp only at landed taken
  rw [landed, taken] at once
  exact absurd once (by decide)

end Smb1Client
