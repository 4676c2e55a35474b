import Smb1Client.Lib.Trace
import Smb1Client.Resource.Spans
import Smb1Client.TreeRequest

/-!
`Handle::read_span`: the loop underneath every read.

A run is of one call. Between two looks of it at the connection's small-buffer flag another
operation may have set it, which is what `between` says of a chunk and what `downgrade` is.
Which chunk is answered next, and with what, is the server's and the connection's.
-/

namespace Smb1Client

open Tiling Trace

/-- A call of `read_span`: the connection and the file, and what is asked for. -/
structure ReadCall where
  n : Negotiated
  fid : UInt16
  offset : UInt64
  depth : ℕ

/-- A chunk on the wire, and where in the caller's span it belongs. `large` says that it was
issued before the connection was recorded small-buffer. -/
structure ReadChunk where
  start : ℕ
  length : ℕ
  large : Bool
  request : ReadAndxRequest
  deriving DecidableEq

def ReadChunk.span (c : ReadChunk) : ℕ × ℕ := (c.start, c.length)

/-- How a fill ended. -/
structure Fill where
  covered : Coverage
  atEnd : Bool
  deriving DecidableEq

/-- The state of the loop, with the connection's small-buffer flag. -/
structure ReadSpan where
  downgraded : Bool
  buffer : Bytes
  covered : Coverage
  atEnd : Bool
  issued : List ReadChunk
  spans : Spans
  result : Option (Except ClientError Fill)
  deriving DecidableEq

inductive ReadEvent where
  | downgrade
  | issue (between : Bool)
  | answer (index : ℕ) (outcome : Except Error Reply)
  | finish

/-- The bytes a reply to a read brings, where it is one that brings any. -/
def Reply.readData (reply : Reply) : Option Bytes :=
  if reply.status = .SUCCESS then (ReadAndxResponse.decode reply.message).toOption.map (·.data)
  else none

/-- The reply to a read that brings these bytes. -/
def readReply (data : Bytes) : Reply where
  message :=
    { header := SmbHeader.request Command.READ_ANDX
      bytes := .replicate 33 0 ++ (AndX.NONE.write ++ (.replicate 6 0 ++
        (LittleEndian.u16le (UInt16.ofNat data.length) ++ (LittleEndian.u16le 59 ++
          (.replicate 12 0 ++ data)))))
      wordCount := READ_WORDS
      byteCount := 0
      fits := by simp [READ_WORDS, HEADER_LEN]; omega }
  transaction := none

theorem refusesTheSize_unread {reply : Reply} (refused : refusesTheSize reply.status = true) :
    reply.status ≠ .END_OF_FILE ∧ reply.readData = none := by
  have unread : reply.status ≠ .SUCCESS ∧ reply.status ≠ .END_OF_FILE := by
    constructor <;> intro same <;> rw [same] at refused <;> exact absurd refused (by decide)
  exact ⟨unread.2, if_neg unread.1⟩

theorem readData_of_endOfFile {reply : Reply} (ended : reply.status = .END_OF_FILE) :
    reply.readData = none := if_neg (by rw [ended]; decide)

/-- `buffer[start..start + data.len()].copy_from_slice(data)`. -/
def copyAt (buffer : Bytes) (start : ℕ) (data : Bytes) : Bytes :=
  buffer.take start ++ data ++ buffer.drop (start + data.length)

/-- The request of a chunk. The offset is added up modulo 2^64. -/
def ReadCall.request (call : ReadCall) (start length : ℕ) : ReadAndxRequest where
  fid := call.fid
  offset := call.offset + UInt64.ofNat start
  maxCount := UInt32.ofNat length
  minCount := 0
  remaining := 0

/-- A chunk's length fits the field that asks for it. -/
theorem Negotiated.readChunk_lt (n : Negotiated) (downgraded : Bool) :
    max (n.readChunkSize downgraded) 1 < 2 ^ 32 := by
  apply max_lt _ (by decide)
  rw [readChunkSize, chunkSize]
  split
  · exact UInt32.toNat_lt _
  · split
    · decide
    · exact lt_of_le_of_lt (min_le_right _ _) (by decide)

namespace ReadSpan

/-- An empty buffer is filled as it is. -/
def start (downgraded : Bool) (buffer : Bytes) : ReadSpan where
  downgraded
  buffer
  covered := .empty
  atEnd := false
  issued := []
  spans := .start
  result := if buffer = [] then some (.ok ⟨.empty, false⟩) else none

/-- The next span to issue, of the chunk size there is now. -/
def nextSpan (call : ReadCall) (s : ReadSpan) : Option ((ℕ × ℕ) × Spans) :=
  if s.issued.length < call.depth then
    s.spans.take (max (call.n.readChunkSize s.downgraded) 1) s.buffer.length (!s.atEnd)
  else none

/-- The data of a chunk's answer is taken into the buffer. -/
def takeData (s : ReadSpan) (c : ReadChunk) (data : Bytes) : ReadSpan :=
  if data = [] then { s with atEnd := true }
  else
    let (covered, fresh) := s.covered.cover c.start data.length
    let s := { s with buffer := copyAt s.buffer c.start data }
    if fresh = false then
      { s with result := some (.error (.protocol (.read (.overlapping c.start data.length)))) }
    else
      { s with
        covered
        spans :=
          if data.length < c.length then
            s.spans.push (c.start + data.length) (c.length - data.length)
          else s.spans }

/-- What a chunk's reply does. -/
def settle (s : ReadSpan) (c : ReadChunk) (reply : Reply) : ReadSpan :=
  let refused := refusesTheSize reply.status
  let s := { s with downgraded := s.downgraded || refused }
  if refused && c.large then { s with spans := s.spans.push c.start c.length }
  else if reply.status = .END_OF_FILE then { s with atEnd := true }
  else if reply.status ≠ .SUCCESS then { s with result := some (.error (.refused reply.status)) }
  else
    match ReadAndxResponse.decode reply.message with
    | .error error => { s with result := some (.error (.ofWire error)) }
    | .ok response => s.takeData c (response.data.take c.length)

/-- A chunk has been answered, or has failed. -/
def answered (s : ReadSpan) (c : ReadChunk) : Except Error Reply → ReadSpan
  | .error error => { s with result := some (.error (.ofConnection error)) }
  | .ok reply => s.settle c reply

def step (call : ReadCall) (s : ReadSpan) : ReadEvent → Option (ReadSpan × List ReadAndxRequest)
  | .downgrade => if s.downgraded then none else some ({ s with downgraded := true }, [])
  | .issue between =>
      if s.result.isSome then none
      else
        (s.nextSpan call).map fun (span, spans) =>
          let downgraded := s.downgraded || between
          let request := call.request span.1 span.2
          ({ s with downgraded, spans
                    issued := s.issued ++ [⟨span.1, span.2, !downgraded, request⟩] }, [request])
  | .answer index outcome =>
      if s.result.isSome ∨ (s.nextSpan call).isSome then none
      else
        (s.issued[index]?).map fun c =>
          ({ s with issued := s.issued.eraseIdx index }.answered c outcome, [])
  | .finish =>
      if s.result.isSome ∨ (s.nextSpan call).isSome ∨ s.issued ≠ [] then none
      else some ({ s with result := some (.ok ⟨s.covered, s.atEnd⟩) }, [])

/-- A call of `read_span`. Its outputs are the requests it puts. -/
def machine (call : ReadCall) : Machine ReadSpan ReadEvent ReadAndxRequest where
  step := step call

/-! ## What is still to come of a span -/

/-- The spans that are on the wire. -/
def inFlight (s : ReadSpan) : List (ℕ × ℕ) := s.issued.map ReadChunk.span

/-- How many spans still to be asked for or on the wire hold a position. -/
def toCome (s : ReadSpan) (p : ℕ) : ℕ :=
  held p (s.spans.unasked s.buffer.length) + held p s.inFlight

/-- A position is covered, or is in one span still to be asked for or on the wire at most;
and what is on the wire asks for its own span. -/
structure Accounted (call : ReadCall) (size : ℕ) (s : ReadSpan) : Prop where
  sized : s.buffer.length = size
  spans : s.spans.Within size
  issued : ∀ c ∈ s.issued, 1 ≤ c.length ∧ c.start + c.length ≤ s.spans.next ∧
    c.length < 2 ^ 32 ∧ c.request = call.request c.start c.length
  covered : ∀ p ∈ s.covered.cells, p < s.spans.next ∧ s.toCome p = 0
  once : ∀ p, s.toCome p ≤ 1

/-- A chunk that has been taken off the wire, to be settled. -/
structure Loose (call : ReadCall) (size : ℕ) (s : ReadSpan) (c : ReadChunk) : Prop where
  accounted : Accounted call size s
  some : 1 ≤ c.length
  inside : c.start + c.length ≤ s.spans.next
  fresh : ∀ p ∈ s.covered.cells, holds p c.start c.length = 0
  once : ∀ p, holds p c.start c.length + s.toCome p ≤ 1

variable {call : ReadCall} {size : ℕ} {s s' : ReadSpan} {c : ReadChunk} {reply : Reply} {p : ℕ}

theorem accounted_start {downgraded : Bool} {buffer : Bytes} :
    Accounted call buffer.length (start downgraded buffer) := by
  refine ⟨rfl, Spans.within_start, fun c none => absurd none List.not_mem_nil, ?_, fun p => ?_⟩
  · intro p none
    rw [start, Coverage.cells_empty] at none
    exact absurd none (Set.notMem_empty p)
  · have one := @holds_le_one p 0 buffer.length
    simpa [toCome, inFlight, start, Spans.start, Spans.unasked] using one

/-- A chunk that is taken off the wire was to come. -/
theorem toCome_eraseIdx {index : ℕ} (found : s.issued[index]? = some c) :
    s.toCome p = holds p c.start c.length +
      toCome { s with issued := s.issued.eraseIdx index } p := by
  have span : s.inFlight[index]? = some c.span := by rw [inFlight, List.getElem?_map, found]; rfl
  have rest : inFlight { s with issued := s.issued.eraseIdx index } =
      s.inFlight.eraseIdx index := by
    rw [inFlight, inFlight, List.eraseIdx_map]
  rw [toCome, toCome, rest, held_eraseIdx span]
  simp only [ReadChunk.span]
  omega

theorem Accounted.loose {index : ℕ} (accounted : Accounted call size s)
    (found : s.issued[index]? = some c) :
    Loose call size { s with issued := s.issued.eraseIdx index } c := by
  have member : c ∈ s.issued := List.mem_of_getElem? found
  obtain ⟨some, inside, -, -⟩ := accounted.issued c member
  have apart := fun p => @toCome_eraseIdx s c p index found
  have covered : ∀ p ∈ s.covered.cells, holds p c.start c.length = 0 ∧
      toCome { s with issued := s.issued.eraseIdx index } p = 0 := by
    intro p cell
    have none := (accounted.covered p cell).2
    rw [apart p] at none
    exact Nat.add_eq_zero_iff.mp none
  refine ⟨⟨accounted.sized, accounted.spans, fun c' rest => ?_, fun p cell => ?_, fun p => ?_⟩,
    some, inside, fun p cell => (covered p cell).1, fun p => ?_⟩
  · exact accounted.issued c' (List.mem_of_mem_eraseIdx rest)
  · exact ⟨(accounted.covered p cell).1, (covered p cell).2⟩
  · have one := accounted.once p
    rw [apart p] at one
    omega
  · rw [← apart p]
    exact accounted.once p

/-- A chunk that is issued was still to be asked for. -/
theorem toCome_issue {between : Bool} {span : ℕ × ℕ} {spans : Spans}
    (taken : s.spans.Taken (max (call.n.readChunkSize s.downgraded) 1) s.buffer.length span spans) :
    toCome { s with
      downgraded := s.downgraded || between
      spans
      issued := s.issued ++ [⟨span.1, span.2, !(s.downgraded || between),
        call.request span.1 span.2⟩] } p = s.toCome p := by
  have apart := taken.held p
  simp only [toCome, inFlight, List.map_append, held_append, List.map_cons, List.map_nil, held_cons,
    held_nil, ReadChunk.span]
  omega

theorem Accounted.issue {between : Bool} {span : ℕ × ℕ} {spans : Spans}
    (accounted : Accounted call size s)
    (taken : s.spans.Taken (max (call.n.readChunkSize s.downgraded) 1) s.buffer.length span spans) :
    Accounted call size { s with
      downgraded := s.downgraded || between
      spans
      issued := s.issued ++ [⟨span.1, span.2, !(s.downgraded || between),
        call.request span.1 span.2⟩] } := by
  have forth := taken.next
  refine ⟨accounted.sized, ?_, fun c member => ?_, fun p cell => ?_, fun p => ?_⟩
  · rw [← accounted.sized]
    exact taken.within
  · rcases List.mem_append.mp member with before | new
    · obtain ⟨some, inside, field⟩ := accounted.issued c before
      exact ⟨some, le_trans inside forth, field⟩
    · obtain rfl := List.mem_singleton.mp new
      exact ⟨taken.some, taken.inside, lt_of_le_of_lt taken.chunk (call.n.readChunk_lt _), rfl⟩
  · obtain ⟨below, none⟩ := accounted.covered p cell
    exact ⟨lt_of_lt_of_le below forth, (toCome_issue taken).trans none⟩
  · exact le_of_eq_of_le (toCome_issue taken) (accounted.once p)

/-! ## What an answer does -/

/-- What an answer makes of the loop: a size refused for the first time is put back, an
answer without bytes is the end, one with bytes is covered and its remainder put back, and
any other fails the call. -/
inductive Settled (s : ReadSpan) (c : ReadChunk) : Except Error Reply → ReadSpan → Prop
  | refused {reply : Reply} (refuses : refusesTheSize reply.status = true)
      (large : c.large = true) :
      Settled s c (.ok reply)
        { s with downgraded := true, spans := s.spans.push c.start c.length }
  | ended {reply : Reply} (empty : reply.status = .END_OF_FILE ∨ reply.readData = some []) :
      Settled s c (.ok reply) { s with atEnd := true }
  | data {reply : Reply} {whole got : Bytes} {covered : Coverage}
      (brought : reply.readData = some whole) (cut : got = whole.take c.length)
      (some : got ≠ [])
      (covers : covered.cells = s.covered.cells ∪ Set.Ico c.start (c.start + got.length)) :
      Settled s c (.ok reply)
        { s with
          buffer := copyAt s.buffer c.start got
          covered
          spans :=
            if got.length < c.length then
              s.spans.push (c.start + got.length) (c.length - got.length)
            else s.spans }
  | failed {outcome : Except Error Reply} (downgraded : Bool) (error : ClientError)
      (keeps : s.downgraded = true → downgraded = true)
      (unread : ∀ reply, outcome = .ok reply → reply.status ≠ .END_OF_FILE ∧
        reply.readData = none ∧ (refusesTheSize reply.status = true → c.large = false)) :
      Settled s c outcome { s with downgraded, result := some (.error error) }

theorem takeData_settled {whole : Bytes} (loose : Loose call size s c)
    (brought : reply.readData = some whole) :
    Settled s c (.ok reply) (s.takeData c (whole.take c.length)) := by
  rw [takeData]
  split
  · next empty =>
      apply Settled.ended
      right
      rw [brought]
      rcases List.take_eq_nil_iff.mp empty with zero | none
      · exact absurd loose.some (by omega)
      · rw [none]
  · next some =>
      have within : (whole.take c.length).length ≤ c.length := List.length_take_le _ _
      have fresh : Disjoint s.covered.cells
          (Set.Ico c.start (c.start + (whole.take c.length).length)) := by
        rw [Set.disjoint_left]
        intro p cell inside
        have held := @holds_of_mem p c.start c.length inside.1
          (lt_of_lt_of_le inside.2 (Nat.add_le_add_left within _))
        rw [loose.fresh p cell] at held
        cases held
      obtain ⟨covered, took, cells⟩ := Coverage.cover_of_disjoint fresh
      rw [took]
      exact Settled.data brought rfl some cells

theorem answered_settled (loose : Loose call size s c) (outcome : Except Error Reply) :
    Settled s c outcome (s.answered c outcome) := by
  cases outcome with
  | error error =>
      exact Settled.failed s.downgraded _ id fun reply came => by cases came
  | ok reply =>
      rw [answered, settle]
      dsimp only
      by_cases refuses : refusesTheSize reply.status = true
      · have unread : reply.status ≠ .SUCCESS ∧ reply.status ≠ .END_OF_FILE := by
          constructor <;> intro same <;> rw [same] at refuses <;> exact absurd refuses (by decide)
        rw [refuses, Bool.or_true, Bool.true_and]
        split
        · next large => exact Settled.refused refuses large
        · next small =>
            rw [if_neg unread.2, if_pos unread.1]
            refine Settled.failed true _ (fun _ => rfl) fun reply' came => ?_
            cases came
            refine ⟨unread.2, ?_, fun _ => Bool.eq_false_iff.mpr small⟩
            rw [Reply.readData, if_neg unread.1]
      · rw [Bool.eq_false_iff.mpr refuses, Bool.or_false, Bool.false_and, if_neg Bool.false_ne_true]
        split
        · next ended => exact Settled.ended (Or.inl ended)
        · next unended =>
            split
            · next unread =>
                refine Settled.failed s.downgraded _ id fun reply' came => ?_
                cases came
                refine ⟨unended, ?_, fun refused => absurd refused refuses⟩
                rw [Reply.readData, if_neg unread]
            · next success =>
                have success := not_not.mp success
                cases decoded : ReadAndxResponse.decode reply.message with
                | error error =>
                    refine Settled.failed s.downgraded _ id fun reply' came => ?_
                    cases came
                    refine ⟨unended, ?_, fun refused => absurd refused refuses⟩
                    rw [Reply.readData, if_pos success, decoded]
                    rfl
                | ok response =>
                    apply takeData_settled loose
                    rw [Reply.readData, if_pos success, decoded]
                    rfl

/-- Data goes into the buffer where it belongs, and nowhere else. -/
theorem length_copyAt {buffer data : Bytes} {start : ℕ}
    (room : start + data.length ≤ buffer.length) :
    (copyAt buffer start data).length = buffer.length := by
  simp only [copyAt, List.length_append, List.length_take, List.length_drop]
  omega

theorem getElem?_copyAt {buffer data : Bytes} {start : ℕ}
    (room : start + data.length ≤ buffer.length) (p : ℕ) :
    (copyAt buffer start data)[p]? =
      if start ≤ p ∧ p < start + data.length then data[p - start]? else buffer[p]? := by
  have front : (buffer.take start ++ data).length = start + data.length := by
    rw [List.length_append, List.length_take]
    omega
  have before : (buffer.take start).length = start := by
    rw [List.length_take]
    omega
  rw [copyAt]
  rcases Nat.lt_or_ge p (start + data.length) with below | above
  · rw [List.getElem?_append_left (by omega)]
    rcases Nat.lt_or_ge p start with outside | inside
    · rw [List.getElem?_append_left (by omega), List.getElem?_take_of_lt outside, if_neg (by omega)]
    · rw [List.getElem?_append_right (by omega), before, if_pos ⟨inside, below⟩]
  · rw [List.getElem?_append_right (by omega), front, List.getElem?_drop, if_neg (by omega)]
    congr 1
    omega

theorem toCome_push {start length : ℕ} {downgraded : Bool} :
    toCome { s with downgraded, spans := s.spans.push start length } p =
      holds p start length + s.toCome p := by
  simp only [toCome, inFlight, Spans.unasked, Spans.push, held_cons]
  omega

/-- What is left of a chunk is to come again. -/
theorem toCome_data {start length : ℕ} {got : Bytes} {covered : Coverage}
    (short : got.length ≤ length) (same : (copyAt s.buffer start got).length = s.buffer.length) :
    toCome { s with
      buffer := copyAt s.buffer start got
      covered
      spans :=
        if got.length < length then s.spans.push (start + got.length) (length - got.length)
        else s.spans } p =
      holds p (start + got.length) (length - got.length) + s.toCome p := by
  rw [← @toCome_push s p _ _ s.downgraded, toCome, toCome]
  dsimp only
  rw [same]
  split
  · rfl
  · next all =>
      have none : length - got.length = 0 := by omega
      simp only [Spans.unasked, Spans.push, held_cons, none, holds_zero, inFlight]
      omega

theorem Loose.settled {outcome : Except Error Reply} (loose : Loose call size s c)
    (settled : Settled s c outcome s') : Accounted call size s' := by
  obtain ⟨accounted, some, inside, fresh, once⟩ := loose
  have room : c.start + c.length ≤ s.buffer.length := by
    rw [accounted.sized]
    exact le_trans inside accounted.spans.next
  cases settled with
  | refused refuses large =>
      refine ⟨accounted.sized, accounted.spans.push some inside, accounted.issued, ?_, fun p => ?_⟩
      · intro p cell
        refine ⟨(accounted.covered p cell).1, ?_⟩
        rw [toCome_push, fresh p cell, (accounted.covered p cell).2]
      · rw [toCome_push]
        exact once p
  | ended empty =>
      exact ⟨accounted.sized, accounted.spans, accounted.issued, accounted.covered, accounted.once⟩
  | failed downgraded error keeps unread =>
      exact ⟨accounted.sized, accounted.spans, accounted.issued, accounted.covered, accounted.once⟩
  | @data reply whole got covered brought cut nonempty covers =>
      have short : got.length ≤ c.length := by
        rw [cut]
        exact List.length_take_le _ _
      have length : (copyAt s.buffer c.start got).length = s.buffer.length :=
        length_copyAt (by omega)
      -- what is left of the chunk is what was not covered of it
      have apart : ∀ p, holds p c.start c.length = holds p c.start got.length +
          holds p (c.start + got.length) (c.length - got.length) := by
        intro p
        rw [← holds_add]
        congr 1
        omega
      have toCome' := fun p => @toCome_data s p c.start c.length got covered short length
      refine ⟨length.trans accounted.sized, ?_, fun c' rest => ?_, fun p cell => ?_, fun p => ?_⟩
      · dsimp only
        split
        · exact accounted.spans.push (by omega) (by omega)
        · exact accounted.spans
      · dsimp only
        split <;> exact accounted.issued c' rest
      · rw [toCome']
        have next : (if got.length < c.length then
            s.spans.push (c.start + got.length) (c.length - got.length) else s.spans).next =
              s.spans.next := by split <;> rfl
        dsimp only
        rw [next]
        rw [covers] at cell
        have all := apart p
        rcases cell with old | new
        · refine ⟨(accounted.covered p old).1, ?_⟩
          have none := fresh p old
          have rest := (accounted.covered p old).2
          omega
        · refine ⟨lt_of_lt_of_le new.2 (by omega), ?_⟩
          have one := holds_of_mem new.1 new.2
          have most := once p
          omega
      · rw [toCome']
        have all := apart p
        have most := once p
        omega

/-! ## Runs -/

/-- What a step does. -/
inductive Stepped (call : ReadCall) (s : ReadSpan) :
    ReadEvent → ReadSpan → List ReadAndxRequest → Prop
  | downgrade (large : s.downgraded = false) :
      Stepped call s .downgrade { s with downgraded := true } []
  | issue {between : Bool} {span : ℕ × ℕ} {spans : Spans} (running : s.result = none)
      (room : s.issued.length < call.depth)
      (took : s.spans.take (max (call.n.readChunkSize s.downgraded) 1) s.buffer.length (!s.atEnd) =
        some (span, spans)) :
      Stepped call s (.issue between)
        { s with
          downgraded := s.downgraded || between
          spans
          issued := s.issued ++ [⟨span.1, span.2, !(s.downgraded || between),
            call.request span.1 span.2⟩] }
        [call.request span.1 span.2]
  | answer {index : ℕ} {outcome : Except Error Reply} {c : ReadChunk} (running : s.result = none)
      (full : s.nextSpan call = none) (found : s.issued[index]? = some c) :
      Stepped call s (.answer index outcome)
        ({ s with issued := s.issued.eraseIdx index }.answered c outcome) []
  | finish (running : s.result = none) (full : s.nextSpan call = none) (none : s.issued = []) :
      Stepped call s .finish { s with result := some (.ok ⟨s.covered, s.atEnd⟩) } []

theorem step_cases {e : ReadEvent} {out : List ReadAndxRequest}
    (stepped : step call s e = some (s', out)) : Stepped call s e s' out := by
  cases e with
  | downgrade =>
      rw [step] at stepped
      split at stepped
      · cases stepped
      · next large =>
          cases stepped
          exact Stepped.downgrade (Bool.eq_false_iff.mpr large)
  | issue between =>
      rw [step] at stepped
      split at stepped
      · cases stepped
      · next running =>
          obtain ⟨⟨span, spans⟩, next, same⟩ := Option.map_eq_some_iff.mp stepped
          cases same
          rw [nextSpan] at next
          split at next
          · next room => exact Stepped.issue (Option.not_isSome_iff_eq_none.mp running) room next
          · cases next
  | answer index outcome =>
      rw [step] at stepped
      split at stepped
      · cases stepped
      · next waits =>
          obtain ⟨running, full⟩ := not_or.mp waits
          obtain ⟨c, found, same⟩ := Option.map_eq_some_iff.mp stepped
          cases same
          exact Stepped.answer (Option.not_isSome_iff_eq_none.mp running)
            (Option.not_isSome_iff_eq_none.mp full) found
  | finish =>
      rw [step] at stepped
      split at stepped
      · cases stepped
      · next done =>
          obtain ⟨running, rest⟩ := not_or.mp done
          obtain ⟨full, empty⟩ := not_or.mp rest
          cases stepped
          exact Stepped.finish (Option.not_isSome_iff_eq_none.mp running)
            (Option.not_isSome_iff_eq_none.mp full) (not_not.mp empty)

theorem Accounted.taken {more : Bool} {span : ℕ × ℕ} {spans : Spans}
    (accounted : Accounted call size s)
    (took : s.spans.take (max (call.n.readChunkSize s.downgraded) 1) s.buffer.length more =
      some (span, spans)) :
    s.spans.Taken (max (call.n.readChunkSize s.downgraded) 1) s.buffer.length span spans := by
  apply Spans.take_spec (le_max_right _ _) ?_ took
  rw [accounted.sized]
  exact accounted.spans

/-- **Steps keep the account**, whatever the server answers. -/
theorem Accounted.stepped {e : ReadEvent} {out : List ReadAndxRequest}
    (accounted : Accounted call size s) (stepped : Stepped call s e s' out) :
    Accounted call size s' := by
  cases stepped with
  | downgrade large =>
      exact ⟨accounted.sized, accounted.spans, accounted.issued, accounted.covered, accounted.once⟩
  | issue running room took => exact accounted.issue (accounted.taken took)
  | answer running full found =>
      have loose := accounted.loose found
      exact loose.settled (answered_settled loose _)
  | finish running full none =>
      exact ⟨accounted.sized, accounted.spans, accounted.issued, accounted.covered, accounted.once⟩

/-- A call that is over has nothing left on the wire or put back, and has asked for the whole
span unless the end was reached. -/
def Finished (size : ℕ) (s : ReadSpan) : Prop :=
  ∀ fill, s.result = some (.ok fill) → fill = ⟨s.covered, s.atEnd⟩ ∧ s.issued = [] ∧
    s.spans.queue = [] ∧ (s.atEnd = true ∨ size ≤ s.spans.next)

theorem finished_start {downgraded : Bool} {buffer : Bytes} :
    Finished buffer.length (start downgraded buffer) := by
  intro fill came
  rw [start] at came
  dsimp only at came
  split at came
  · next empty =>
      cases came
      exact ⟨rfl, rfl, rfl, Or.inr (by rw [empty]; exact Nat.zero_le _)⟩
  · cases came

theorem finished_of_running (running : ∀ fill, s.result ≠ some (.ok fill)) : Finished size s :=
  fun fill came => absurd came (running fill)

/-- An answer does not end a call well. -/
theorem running_settled {outcome : Except Error Reply} (running : s.result = none)
    (settled : Settled s c outcome s') : ∀ fill, s'.result ≠ some (.ok fill) := by
  have unfinished : ∀ fill, s.result ≠ some (.ok fill) := by
    rw [running]
    exact fun fill came => by cases came
  cases settled with
  | refused refuses large => exact unfinished
  | ended empty => exact unfinished
  | data brought cut nonempty covers => exact unfinished
  | failed downgraded error keeps unread => exact fun fill came => by cases came

theorem Finished.stepped {e : ReadEvent} {out : List ReadAndxRequest} (finished : Finished size s)
    (accounted : Accounted call size s) (deep : 1 ≤ call.depth)
    (stepped : Stepped call s e s' out) : Finished size s' := by
  cases stepped with
  | downgrade large => exact finished
  | issue running room took =>
      apply finished_of_running
      intro fill came
      rw [running] at came
      cases came
  | answer running full found =>
      apply finished_of_running
      apply running_settled ?_ (answered_settled (accounted.loose found) _)
      exact running
  | finish running full none =>
      intro fill came
      cases came
      rw [nextSpan, none, List.length_nil, if_pos (Nat.lt_of_lt_of_le one_pos deep),
        Spans.take_eq_none_iff, accounted.sized] at full
      refine ⟨rfl, none, full.1, ?_⟩
      cases ended : s.atEnd with
      | true => exact Or.inl rfl
      | false => exact Or.inr (full.2 (by rw [ended]; rfl))

/-! ## Termination -/

/-- How many bytes are still to come. -/
def work (s : ReadSpan) : ℕ := total (s.spans.unasked s.buffer.length) + total s.inFlight

/-- A chunk weighs more where it can be put back for its size. -/
def weights : List ReadChunk → ℕ
  | [] => 0
  | c :: issued => c.length * (if c.large then 3 else 1) + weights issued

/-- What is still to be done for the bytes still to come, if no answer brings any: a byte may
be asked for at the large size, put back, and asked for again at the small one. -/
def effort (s : ReadSpan) : ℕ :=
  (if s.downgraded then 2 else 4) * total (s.spans.unasked s.buffer.length) + weights s.issued

/-- How many steps are left at most. -/
def stepsLeft (size : ℕ) (s : ReadSpan) : ℕ :=
  (if s.downgraded then 0 else 1) +
    if s.result = none then s.work * (4 * size + 1) + s.effort + 1 else 0

theorem stepsLeft_of_running (running : s.result = none) : s.stepsLeft size =
    (if s.downgraded then 0 else 1) + (s.work * (4 * size + 1) + s.effort + 1) := by
  rw [stepsLeft, if_pos running]

theorem weights_append {issued : List ReadChunk} :
    weights (issued ++ [c]) = weights issued + c.length * (if c.large then 3 else 1) := by
  induction issued with
  | nil => exact Nat.add_comm _ _
  | cons c' issued ih => rw [List.cons_append, weights, weights, ih, Nat.add_assoc]

theorem weights_eraseIdx {issued : List ReadChunk} {index : ℕ} (found : issued[index]? = some c) :
    weights issued = c.length * (if c.large then 3 else 1) + weights (issued.eraseIdx index) := by
  induction issued generalizing index with
  | nil => cases found
  | cons c' issued ih =>
      cases index with
      | zero =>
          cases found
          rfl
      | succ index =>
          rw [List.eraseIdx_cons_succ, weights, weights, ih found]
          omega

theorem weights_le (issued : List ReadChunk) :
    weights issued ≤ 4 * total (issued.map ReadChunk.span) := by
  induction issued with
  | nil => exact Nat.zero_le _
  | cons c issued ih =>
      rw [weights, List.map_cons, total_cons, ReadChunk.span]
      have most : c.length * (if c.large then 3 else 1) ≤ c.length * 4 :=
        Nat.mul_le_mul_left _ (by split <;> decide)
      dsimp only
      omega

theorem effort_le (s : ReadSpan) : s.effort ≤ 4 * s.work := by
  have issued := weights_le s.issued
  have unasked : (if s.downgraded then 2 else 4) * total (s.spans.unasked s.buffer.length) ≤
      4 * total (s.spans.unasked s.buffer.length) :=
    Nat.mul_le_mul_right _ (by split <;> decide)
  rw [effort, work, inFlight]
  omega

theorem work_start {downgraded : Bool} {buffer : Bytes} :
    (start downgraded buffer).work = buffer.length := by
  simp [work, start, inFlight, Spans.start, Spans.unasked]

theorem work_eraseIdx {index : ℕ} (found : s.issued[index]? = some c) :
    s.work = c.length + work { s with issued := s.issued.eraseIdx index } := by
  have span : s.inFlight[index]? = some c.span := by rw [inFlight, List.getElem?_map, found]; rfl
  have rest : inFlight { s with issued := s.issued.eraseIdx index } =
      s.inFlight.eraseIdx index := by
    rw [inFlight, inFlight, List.eraseIdx_map]
  rw [work, work, rest, total_eraseIdx span]
  simp only [ReadChunk.span]
  omega

/-- Settling a chunk leaves fewer steps than there were with it on the wire. -/
theorem stepsLeft_settled {outcome : Except Error Reply} (loose : Loose call size s c)
    (running : s.result = none) (most : c.length + s.work ≤ size)
    (settled : Settled s c outcome s') :
    s'.work ≤ size ∧ s'.stepsLeft size < (if s.downgraded then 0 else 1) +
      ((c.length + s.work) * (4 * size + 1) +
        (c.length * (if c.large then 3 else 1) + s.effort) + 1) := by
  have some := loose.some
  have grows : (c.length + s.work) * (4 * size + 1) =
      c.length * (4 * size + 1) + s.work * (4 * size + 1) := Nat.add_mul _ _ _
  cases settled with
  | refused refuses large =>
      have work' : work { s with downgraded := true, spans := s.spans.push c.start c.length } =
          c.length + s.work := by
        simp only [work, inFlight, Spans.unasked, Spans.push, total_cons]
        omega
      have effort' : effort { s with downgraded := true, spans := s.spans.push c.start c.length } +
          c.length ≤ c.length * 3 + s.effort := by
        have unasked : 2 * total (s.spans.unasked s.buffer.length) ≤
            (if s.downgraded then 2 else 4) * total (s.spans.unasked s.buffer.length) :=
          Nat.mul_le_mul_right _ (by split <;> decide)
        simp only [effort, Spans.unasked, Spans.push, total_cons, if_true] at unasked ⊢
        omega
      refine ⟨le_of_eq_of_le work' most, ?_⟩
      rw [stepsLeft_of_running, work', large]
      · simp only [if_true]
        omega
      · exact running
  | ended empty =>
      refine ⟨?_, ?_⟩
      · exact le_trans (Nat.le_add_left _ _) most
      · have less : 1 ≤ c.length * (4 * size + 1) := Nat.mul_pos some (Nat.succ_pos _)
        have same : work { s with atEnd := true } = s.work ∧
            effort { s with atEnd := true } = s.effort := ⟨rfl, rfl⟩
        rw [stepsLeft_of_running, same.1, same.2]
        · dsimp only
          omega
        · exact running
  | failed downgraded error keeps unread =>
      refine ⟨le_trans (Nat.le_add_left _ _) most, ?_⟩
      have quieter : (if downgraded then 0 else 1) ≤ (if s.downgraded then 0 else 1) := by
        cases before : s.downgraded with
        | false => split <;> decide
        | true => rw [keeps before]
      simp only [stepsLeft, reduceCtorEq, if_false]
      omega
  | @data reply whole got covered brought cut nonempty covers =>
      have short : got.length ≤ c.length := by
        rw [cut]
        exact List.length_take_le _ _
      have positive : 1 ≤ got.length := List.length_pos_iff.mpr nonempty
      have length : (copyAt s.buffer c.start got).length = s.buffer.length := by
        apply length_copyAt
        have inside := le_trans loose.inside loose.accounted.spans.next
        rw [loose.accounted.sized]
        omega
      have work' : work { s with
          buffer := copyAt s.buffer c.start got
          covered
          spans :=
            if got.length < c.length then
              s.spans.push (c.start + got.length) (c.length - got.length)
            else s.spans } = c.length - got.length + s.work := by
        simp only [work, inFlight, Spans.unasked, length, total_cons]
        split
        · simp only [Spans.push, total_cons]
          omega
        · omega
      refine ⟨by omega, ?_⟩
      have effort' := effort_le { s with
          buffer := copyAt s.buffer c.start got
          covered
          spans :=
            if got.length < c.length then
              s.spans.push (c.start + got.length) (c.length - got.length)
            else s.spans }
      have apart : (c.length + s.work) * (4 * size + 1) =
          (c.length - got.length + s.work) * (4 * size + 1) + got.length * (4 * size + 1) := by
        rw [← Nat.add_mul]
        congr 1
        omega
      have less : 4 * size + 1 ≤ got.length * (4 * size + 1) := Nat.le_mul_of_pos_left _ positive
      rw [stepsLeft_of_running, work']
      · dsimp only
        omega
      · exact running

theorem stepsLeft_stepped {e : ReadEvent} {out : List ReadAndxRequest}
    (accounted : Accounted call size s) (most : s.work ≤ size) (stepped : Stepped call s e s' out) :
    s'.work ≤ size ∧ s'.stepsLeft size < s.stepsLeft size := by
  cases stepped with
  | downgrade large =>
      refine ⟨most, ?_⟩
      have quieter : effort { s with downgraded := true } ≤ s.effort := by
        have unasked : 2 * total (s.spans.unasked s.buffer.length) ≤
            (if s.downgraded then 2 else 4) * total (s.spans.unasked s.buffer.length) :=
          Nat.mul_le_mul_right _ (by split <;> decide)
        simp only [effort, if_true] at unasked ⊢
        omega
      rw [stepsLeft, stepsLeft, large]
      have same : work { s with downgraded := true } = s.work := rfl
      dsimp only
      rw [same]
      simp only [if_true, Bool.false_eq_true, if_false]
      split <;> omega
  | @issue between span spans running room took =>
      have taken := accounted.taken took
      have apart := taken.total
      have some := taken.some
      let s₁ : ReadSpan := { s with
        downgraded := s.downgraded || between
        spans
        issued := s.issued ++ [⟨span.1, span.2, !(s.downgraded || between),
          call.request span.1 span.2⟩] }
      have work' : s₁.work = s.work := by
        simp only [s₁, work, inFlight, List.map_append, total_append, List.map_cons, List.map_nil,
          total_cons, total_nil, ReadChunk.span]
        omega
      have lighter : ∀ (d b : Bool) (before after issued : ℕ), before = span.2 + after →
          (if d || b then 2 else 4) * after + (issued + span.2 * if !(d || b) then 3 else 1) <
            (if d then 2 else 4) * before + issued := by
        intro d b before after issued same
        cases d <;> cases b <;> simp <;> omega
      have effort' : s₁.effort < s.effort := by
        simp only [s₁, effort, weights_append]
        exact lighter _ _ _ _ _ apart
      have quieter : (if s₁.downgraded then 0 else 1) ≤ (if s.downgraded then 0 else 1) := by
        change (if s.downgraded || between then 0 else 1) ≤ _
        cases s.downgraded <;> cases between <;> decide
      refine ⟨le_of_eq_of_le work' most, ?_⟩
      change s₁.stepsLeft size < _
      rw [stepsLeft_of_running running, @stepsLeft_of_running size s₁ running, work']
      omega
  | @answer index outcome c running full found =>
      have loose := accounted.loose found
      have before := work_eraseIdx found
      have settled := stepsLeft_settled loose running (by omega) (answered_settled loose outcome)
      have heavy := weights_eraseIdx found
      refine ⟨settled.1, lt_of_lt_of_le settled.2 ?_⟩
      rw [stepsLeft_of_running running, ← before]
      simp only [effort]
      omega
  | finish running full none =>
      refine ⟨most, ?_⟩
      rw [stepsLeft_of_running running, stepsLeft]
      simp only [reduceCtorEq, if_false]
      omega

/-- The most steps a call that fills `size` bytes takes. -/
def bound (size : ℕ) : ℕ := size * (4 * size + 1) + 4 * size + 2

/-- **A read ends**: no run of the loop is longer than its bound, whatever is answered. -/
theorem length_le_bound {downgraded : Bool} {buffer : Bytes} {es : List ReadEvent}
    {log : List ReadAndxRequest}
    (ran : (machine call).run (start downgraded buffer) es = some (s, log)) :
    es.length ≤ bound buffer.length := by
  have shorter : es.length ≤ (start downgraded buffer).stepsLeft buffer.length := by
    apply Machine.length_le_of_measure (P := fun s =>
      Accounted call buffer.length s ∧ s.work ≤ buffer.length) _ ?_ ?_ ran
    · exact ⟨accounted_start, le_of_eq work_start⟩
    · intro s e s' out ⟨accounted, most⟩ stepped
      have less := stepsLeft_stepped accounted most (step_cases stepped)
      exact ⟨⟨accounted.stepped (step_cases stepped), less.1⟩, less.2⟩
  have effort := (start downgraded buffer).effort_le
  rw [work_start] at effort
  apply le_trans shorter
  rw [stepsLeft, work_start, bound]
  split <;> split <;> omega

/-- **A read never hangs by itself**: a call that is not over takes a step of its own, or
waits for a chunk and goes on with any answer to any chunk. -/
theorem goes_on (running : s.result = none) :
    (∃ e, (e = .issue false ∨ e = .finish) ∧ (step call s e).isSome = true) ∨
      s.issued ≠ [] ∧ ∀ index < s.issued.length, ∀ outcome,
        (step call s (.answer index outcome)).isSome = true := by
  cases next : s.nextSpan call with
  | some span =>
      left
      refine ⟨.issue false, Or.inl rfl, ?_⟩
      rw [step, running, next]
      rfl
  | none =>
      by_cases empty : s.issued = []
      · left
        refine ⟨.finish, Or.inr rfl, ?_⟩
        rw [step, running, next, if_neg (by simp [empty])]
        rfl
      · right
        refine ⟨empty, fun index below outcome => ?_⟩
        rw [step, running, next, if_neg (by simp), List.getElem?_eq_getElem below]
        rfl

end ReadSpan

end Smb1Client
