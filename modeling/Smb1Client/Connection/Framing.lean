import Smb1Client.Connection.Actor
import Smb1Client.Handshake
import Smb1Client.Lib.Framing

/-!
`FrameReader` of `connection/actor.rs`, one poll at a time, and the reading half of
`session.rs`'s `send`.

What a stream holds is the frames `nextFrame` takes off it one after another, its keep-alives
dropped. The reader holds the part of the frame it is in that has come so far (`Within`), so
that however the stream is cut it yields the messages of that stream and stops on its error.
The handshake takes its message off the same stream and leaves the rest at a frame's boundary.
-/

namespace Smb1Client

open LittleEndian Framing

theorem Netbios.length_le_of_decodeHeader {b₀ b₁ b₂ b₃ : UInt8} {kind : MessageType} {length : ℕ}
    (declares : decodeHeader b₀ b₁ b₂ b₃ = .ok (kind, length)) : length ≤ MAX_MESSAGE_LEN := by
  have high : (b₁ &&& 0x01).toNat ≤ 1 := by
    rw [UInt8.toNat_and]
    exact Nat.and_le_right
  have middle := b₂.toNat_lt
  have low := b₃.toNat_lt
  have bound : (b₁ &&& 0x01).toNat * 2 ^ 16 + b₂.toNat * 2 ^ 8 + b₃.toNat ≤ MAX_MESSAGE_LEN := by
    rw [MAX_MESSAGE_LEN]
    omega
  simp only [decodeHeader, Bind.bind, Except.bind] at declares
  split at declares
  · split at declares <;> cases declares
    exact bound
  · split at declares
    · split at declares <;> cases declares
      exact bound
    · cases declares

/-! ## The frames of a stream -/

/-- A frame off a stream: what its header declares and its body, or that the header is bad. -/
abbrev Framed := Except WireError (Netbios.MessageType × Bytes)

/-- The front frame of a stream, once all of it is there. -/
def nextFrame : Bytes → Option (Framed × Bytes)
  | b₀ :: b₁ :: b₂ :: b₃ :: rest =>
      match Netbios.decodeHeader b₀ b₁ b₂ b₃ with
      | .error error => some (.error error, rest)
      | .ok (kind, length) =>
          if length ≤ rest.length then some (.ok (kind, rest.take length), rest.drop length)
          else none
  | _ => none

/-- The bytes of a frame: its header, and as many as it declares. -/
inductive IsFrame : Bytes → Framed → Prop
  | garbled {b₀ b₁ b₂ b₃ : UInt8} {error : WireError}
      (declares : Netbios.decodeHeader b₀ b₁ b₂ b₃ = .error error) :
      IsFrame [b₀, b₁, b₂, b₃] (.error error)
  | whole {b₀ b₁ b₂ b₃ : UInt8} {kind : Netbios.MessageType} {body : Bytes}
      (declares : Netbios.decodeHeader b₀ b₁ b₂ b₃ = .ok (kind, body.length)) :
      IsFrame (b₀ :: b₁ :: b₂ :: b₃ :: body) (.ok (kind, body))

variable {stream front rest : Bytes} {frame : Framed}

theorem IsFrame.nextFrame_append (isFrame : IsFrame front frame) (rest : Bytes) :
    nextFrame (front ++ rest) = some (frame, rest) := by
  cases isFrame with
  | garbled declares => simp only [List.cons_append, List.nil_append, nextFrame, declares]
  | whole declares =>
      simp only [List.cons_append, nextFrame, declares]
      rw [if_pos (by rw [List.length_append]; omega), List.take_left, List.drop_left]

theorem isFrame_of_nextFrame (next : nextFrame stream = some (frame, rest)) :
    ∃ front, stream = front ++ rest ∧ IsFrame front frame := by
  match stream with
  | b₀ :: b₁ :: b₂ :: b₃ :: after =>
      rw [nextFrame] at next
      cases declares : Netbios.decodeHeader b₀ b₁ b₂ b₃ with
      | error error =>
          rw [declares] at next
          cases next
          exact ⟨[b₀, b₁, b₂, b₃], rfl, .garbled declares⟩
      | ok declared =>
          obtain ⟨kind, length⟩ := declared
          rw [declares] at next
          dsimp only at next
          split at next
          · next enough =>
              cases next
              refine ⟨b₀ :: b₁ :: b₂ :: b₃ :: after.take length, ?_, .whole ?_⟩
              · simp only [List.cons_append, List.take_append_drop]
              · rw [List.length_take_of_le enough]
                exact declares
          · cases next
  | [] | [_] | [_, _] | [_, _, _] => cases next

theorem IsFrame.pos (isFrame : IsFrame front frame) : 0 < front.length := by
  cases isFrame with
  | garbled => exact Nat.succ_pos _
  | whole => exact Nat.succ_pos _

/-- The frames of the session service, one after another. -/
def netbios : Splitter UInt8 Framed Empty where
  split stream := .ok (nextFrame stream)
  shorter := by
    intro stream frame rest split
    obtain ⟨front, rfl, isFrame⟩ := isFrame_of_nextFrame (Except.ok.inj split)
    have := isFrame.pos
    rw [List.length_append]
    omega
  front := by
    intro stream frame rest split
    obtain ⟨front, rfl, isFrame⟩ := isFrame_of_nextFrame (Except.ok.inj split)
    have alone := isFrame.nextFrame_append []
    rw [List.append_nil] at alone
    exact ⟨front, rfl, congrArg _ alone⟩
  whole := by
    intro stream frame rest more split
    obtain ⟨front, rfl, isFrame⟩ := isFrame_of_nextFrame (Except.ok.inj split)
    rw [List.append_assoc, isFrame.nextFrame_append]
  garbled := fun _ split => nomatch split

/-- What a stream has been parsed to. -/
structure Parsed where
  messages : List Message
  error : Option WireError

def Parsed.nothing : Parsed := ⟨[], none⟩

/-- The message a step yields, if it yields one. -/
def carried : Option Inbound → List Message
  | some (.message message) => [message]
  | _ => []

/-- Messages parsed behind the others. -/
def Parsed.add (p : Parsed) (messages : List Message) : Parsed :=
  { p with messages := p.messages ++ messages }

/-- An error that ends the stream. -/
def Parsed.fail (p : Parsed) (error : WireError) : Parsed := { p with error := some error }

/-- Takes a frame for what it carries: a keep-alive carries nothing. -/
def Parsed.take (p : Parsed) : Framed → Parsed
  | .error error => p.fail error
  | .ok (.keepAlive, _) => p
  | .ok (.sessionMessage, body) =>
      match Message.parse body with
      | .error error => p.fail error
      | .ok message => p.add [message]

/-- Parses frame after frame until one is in error. -/
def parsing : Consumer Parsed Framed Empty where
  accept p frame := .ok (p.take frame)
  done p := p.error.isSome

/-- What parsing a stream comes to, and what is left of it. -/
abbrev Parses (p : Parsed) (stream : Bytes) (parsed : Parsed) (left : Bytes) : Prop :=
  Reads netbios parsing p stream (.ok (parsed, left))

/-! ## The reader -/

/-- Which part of a frame is being read. -/
inductive Reading where
  | header
  | body
  | keepAlive
  deriving DecidableEq, Repr

/-- What is read behind a header. -/
def Reading.behind : Netbios.MessageType → Reading
  | .sessionMessage => .body
  | .keepAlive => .keepAlive

theorem Reading.behind_ne_header (kind : Netbios.MessageType) : behind kind ≠ .header := by
  cases kind <;> exact Reading.noConfusion

/-- An incremental frame reader: how long its buffer is, and the bytes that fill the front of it. -/
structure FrameReader where
  state : Reading
  size : ℕ
  filled : Bytes
  fits : filled.length ≤ size
  sized : state = .header → size = Netbios.HEADER_LEN

namespace FrameReader

/-- `expect_header`, which is also a reader's first state. -/
def expectHeader : FrameReader where
  state := .header
  size := Netbios.HEADER_LEN
  filled := []
  fits := Nat.zero_le _
  sized _ := rfl

/-- An empty buffer for what a header announces. -/
def expect (kind : Netbios.MessageType) (length : ℕ) : FrameReader where
  state := .behind kind
  size := length
  filled := []
  fits := Nat.zero_le _
  sized state := absurd state (Reading.behind_ne_header kind)

/-- The space a read is given. -/
def space (r : FrameReader) : ℕ := r.size - r.filled.length

def fill (r : FrameReader) (read : Bytes) (fits : read.length ≤ r.space) : FrameReader where
  state := r.state
  size := r.size
  filled := r.filled ++ read
  fits := by
    have := r.fits
    rw [space] at fits
    rw [List.length_append]
    omega
  sized := r.sized

/-- Advances over a buffer that has just filled. -/
def take (r : FrameReader) (full : ¬ r.filled.length < r.size) :
    Except WireError (FrameReader × Option Inbound) :=
  match state : r.state with
  | .header =>
      have length : r.filled.length = 4 := by
        have sized : r.size = 4 := r.sized state
        have := r.fits
        omega
      (declared ⟨r.filled.toArray, length⟩).map fun (kind, length) => (expect kind length, none)
  | .body =>
      (Message.parse r.filled).map fun message => (expectHeader, some (.message message))
  | .keepAlive => .ok (expectHeader, some .keepAlive)

/-- A header is all that is read without anything coming of it. -/
def steps (r : FrameReader) : ℕ := if r.state = .header then 1 else 0

theorem take_header {r : FrameReader} (full : ¬ r.filled.length < r.size)
    (state : r.state = .header) :
    ∃ b₀ b₁ b₂ b₃, r.filled = [b₀, b₁, b₂, b₃] ∧ r.take full =
      (Netbios.decodeHeader b₀ b₁ b₂ b₃).map fun (kind, length) => (expect kind length, none) := by
  obtain ⟨_, size, filled, fits, sized⟩ := r
  subst state
  have size_eq : size = 4 := sized rfl
  have length : filled.length = 4 := by
    have full : ¬ filled.length < size := full
    omega
  match filled with
  | [b₀, b₁, b₂, b₃] => exact ⟨b₀, b₁, b₂, b₃, rfl, rfl⟩

theorem take_behind {r : FrameReader} (full : ¬ r.filled.length < r.size)
    {kind : Netbios.MessageType} (state : r.state = .behind kind) :
    r.take full = if kind = .sessionMessage then
        (Message.parse r.filled).map fun message => (expectHeader, some (.message message))
      else .ok (expectHeader, some .keepAlive) := by
  obtain ⟨_, size, filled, fits, sized⟩ := r
  cases kind with
  | sessionMessage =>
      subst state
      rfl
  | keepAlive =>
      subst state
      rfl

theorem steps_of_take {r r' : FrameReader} {full : ¬ r.filled.length < r.size}
    (taken : r.take full = .ok (r', none)) : r'.steps < r.steps := by
  cases state : r.state with
  | header =>
      obtain ⟨b₀, b₁, b₂, b₃, -, take⟩ := take_header full state
      rw [take] at taken
      cases declares : Netbios.decodeHeader b₀ b₁ b₂ b₃ with
      | error error =>
          rw [declares] at taken
          cases taken
      | ok declared =>
          rw [declares] at taken
          cases taken
          have behind : (expect declared.1 declared.2).state ≠ .header :=
            Reading.behind_ne_header declared.1
          rw [steps, steps, if_neg behind, if_pos state]
          exact Nat.one_pos
  | body =>
      have behind : r.state = .behind .sessionMessage := state
      rw [take_behind full behind, if_pos rfl] at taken
      cases parsed : Message.parse r.filled <;> rw [parsed] at taken <;> cases taken
  | keepAlive =>
      have behind : r.state = .behind .keepAlive := state
      rw [take_behind full behind, if_neg Netbios.MessageType.noConfusion] at taken
      cases taken

/-- Advances for as long as the buffer is full and nothing has come of it. -/
def settle (r : FrameReader) : Except WireError (FrameReader × Option Inbound) :=
  if short : r.filled.length < r.size then .ok (r, none)
  else
    match _taken : r.take short with
    | .error error => .error error
    | .ok (r', some inbound) => .ok (r', some inbound)
    | .ok (r', none) => r'.settle
termination_by r.steps
decreasing_by exact steps_of_take _taken

theorem settle_of_short {r : FrameReader} (short : r.filled.length < r.size) :
    r.settle = .ok (r, none) := by
  rw [settle, dif_pos short]

theorem settle_of_full {r : FrameReader} (full : ¬ r.filled.length < r.size) :
    r.settle = match r.take full with
      | .error error => .error error
      | .ok (r', some inbound) => .ok (r', some inbound)
      | .ok (r', none) => r'.settle := by
  rw [settle, dif_neg full]
  split <;> next took => rw [took]

/-- One poll's worth of reading, where a read of the socket gives at most `most` bytes: what comes
of it, and what is left of the stream. -/
def step (r : FrameReader) (stream : Bytes) (most : ℕ) :
    Except Error (FrameReader × Option Inbound) × Bytes :=
  if r.filled.length < r.size then
    let count := min most r.space
    let read := stream.take count
    if read = [] then (.error (.io .unexpectedEof), stream)
    else
      ((r.fill read (by rw [List.length_take]; omega)).settle.mapError .wire, stream.drop count)
  else (r.settle.mapError .wire, stream)

/-! ## The part of a frame that has come -/

/-- A reader that has been given the bytes of `part` since the last boundary. -/
inductive Within (r : FrameReader) (part : Bytes) : Prop
  | header (state : r.state = .header) (held : part = r.filled)
  | behind {b₀ b₁ b₂ b₃ : UInt8} {kind : Netbios.MessageType} (state : r.state = .behind kind)
      (declares : Netbios.decodeHeader b₀ b₁ b₂ b₃ = .ok (kind, r.size))
      (held : part = b₀ :: b₁ :: b₂ :: b₃ :: r.filled)

theorem within_expectHeader : expectHeader.Within [] := .header rfl rfl

theorem Within.fill {r : FrameReader} {part read : Bytes} (within : r.Within part)
    (fits : read.length ≤ r.space) : (r.fill read fits).Within (part ++ read) := by
  cases within with
  | header state held => exact .header state (held ▸ rfl)
  | behind state declares held => exact .behind state declares (held ▸ rfl)

theorem Within.starved {r : FrameReader} {part : Bytes} (within : r.Within part)
    (short : r.filled.length < r.size) : nextFrame part = none := by
  cases within with
  | header state held =>
      have length : r.filled.length < 4 := by
        have sized : r.size = 4 := r.sized state
        omega
      rw [held]
      match r.filled, length with
      | [], _ | [_], _ | [_, _], _ | [_, _, _], _ => rfl
  | behind state declares held =>
      simp only [held, nextFrame, declares]
      rw [if_neg (by omega)]

/-- No read is given more space than the frame in hand is short of. -/
theorem Within.bounded {r : FrameReader} {part more rest : Bytes} {frame : Framed}
    (within : r.Within part) (next : nextFrame (part ++ more) = some (frame, rest)) :
    r.space + rest.length ≤ more.length := by
  rw [space]
  cases within with
  | header state held =>
      have size : r.size = 4 := r.sized state
      have := r.fits
      obtain ⟨front, whole, isFrame⟩ := isFrame_of_nextFrame next
      have lengths := congrArg List.length whole
      have long : 4 ≤ front.length := by
        cases isFrame with
        | garbled => exact le_rfl
        | whole => simp only [List.length_cons]; omega
      rw [held, List.length_append, List.length_append] at lengths
      omega
  | behind state declares held =>
      simp only [held, List.cons_append, nextFrame, declares] at next
      split at next
      · next enough =>
          cases next
          have := r.fits
          rw [List.length_append] at enough
          rw [List.length_drop, List.length_append]
          omega
      · cases next

theorem Within.size_le {r : FrameReader} {part : Bytes} (within : r.Within part) :
    r.size ≤ Netbios.MAX_MESSAGE_LEN := by
  cases within with
  | header state _ =>
      rw [r.sized state]
      decide
  | behind _ declares _ => exact Netbios.length_le_of_decodeHeader declares

/-- What a step comes to, for a reader that has been given the bytes of `part`. -/
inductive Comes (part : Bytes) : Except WireError (FrameReader × Option Inbound) → Prop
  | waits {r : FrameReader} (within : r.Within part) (short : r.filled.length < r.size) :
      Comes part (.ok (r, none))
  | yields {frame : Framed} {inbound : Inbound} (isFrame : IsFrame part frame)
      (carries : ∀ p : Parsed, p.take frame = p.add (carried (some inbound))) :
      Comes part (.ok (expectHeader, some inbound))
  | garbled {frame : Framed} {error : WireError} (isFrame : IsFrame part frame)
      (carries : ∀ p : Parsed, p.take frame = p.fail error) :
      Comes part (.error error)

theorem comes_of_behind {r : FrameReader} {part : Bytes} (within : r.Within part)
    (behind : r.state ≠ .header) : Comes part r.settle := by
  cases within with
  | header state _ => exact absurd state behind
  | @behind b₀ b₁ b₂ b₃ kind state declares held =>
      by_cases short : r.filled.length < r.size
      · rw [settle_of_short short]
        exact .waits (.behind state declares held) short
      · have size : r.size = r.filled.length := by
          have := r.fits
          omega
        rw [size] at declares
        have isFrame : IsFrame part (.ok (kind, r.filled)) := held ▸ .whole declares
        rw [settle_of_full short, take_behind short state]
        cases kind with
        | keepAlive =>
            refine .yields isFrame fun p => ?_
            change p = { p with messages := p.messages ++ [] }
            rw [List.append_nil]
        | sessionMessage =>
            rw [if_pos rfl]
            cases parsed : Message.parse r.filled with
            | error error =>
                refine .garbled isFrame fun p => ?_
                simp only [Parsed.take, parsed]
            | ok message =>
                refine .yields isFrame fun p => ?_
                simp only [Parsed.take, parsed, carried]

theorem comes_of_settle {r : FrameReader} {part : Bytes} (within : r.Within part) :
    Comes part r.settle := by
  cases within with
  | behind state declares held =>
      exact comes_of_behind (.behind state declares held)
        (state ▸ Reading.behind_ne_header _)
  | header state held =>
      by_cases short : r.filled.length < r.size
      · rw [settle_of_short short]
        exact .waits (.header state held) short
      · obtain ⟨b₀, b₁, b₂, b₃, filled, took⟩ := take_header short state
        rw [settle_of_full short, took]
        rw [filled] at held
        subst held
        cases declares : Netbios.decodeHeader b₀ b₁ b₂ b₃ with
        | error error => exact .garbled (.garbled declares) fun p => rfl
        | ok declared =>
            exact comes_of_behind (.behind rfl declares rfl)
              (Reading.behind_ne_header declared.1)

end FrameReader

/-! ## Reading a stream -/

/-- What becomes of one `step`: the `select` takes another branch, and the step has read nothing;
the socket fails; or a read gives at most `most` bytes of what the server sent, and at least one
while there are any. -/
inductive Poll where
  | abandoned
  | failed (error : IoError)
  | read (most : ℕ+)

/-- A reader on its stream: what of it nothing has read, the messages that were yielded, and what
the reader stopped on. -/
structure Feed where
  reader : FrameReader
  stream : Bytes
  messages : List Message
  stopped : Option Error

namespace Feed

def start (stream : Bytes) : Feed := ⟨.expectHeader, stream, [], none⟩

/-- What is made of a step: a message is yielded, a keep-alive is dropped, an error stops it. -/
def take (f : Feed) : Except Error (FrameReader × Option Inbound) × Bytes → Feed
  | (.error error, stream) => { f with stream, stopped := some error }
  | (.ok (reader, inbound), stream) =>
      { f with stream, reader, messages := f.messages ++ carried inbound }

def step (f : Feed) (poll : Poll) : Feed :=
  if f.stopped.isSome then f
  else
    match poll with
    | .abandoned => f
    | .failed error => { f with stopped := some (.io error) }
    | .read most => f.take (f.reader.step f.stream most)

def run (f : Feed) (polls : List Poll) : Feed := polls.foldl step f

/-- What a reader may stop on: the end of the stream or a failure of the socket, while the stream
is good, and otherwise its error. -/
inductive Stops (polls : List Poll) (f : Feed) (parsed : Parsed) : Error → Prop
  | ended (good : parsed.error = none) (empty : f.stream = []) :
      Stops polls f parsed (.io .unexpectedEof)
  | failed {error : IoError} (good : parsed.error = none) (failed : .failed error ∈ polls) :
      Stops polls f parsed (.io error)
  | garbled {error : WireError} (garbled : parsed.error = some error) :
      Stops polls f parsed (.wire error)

/-- Where a reader stands that has taken `taken` off its stream: it has yielded the messages of
that, and has been given the bytes of its unfinished frame. -/
structure Stands (polls : List Poll) (stream : Bytes) (f : Feed) (taken part : Bytes)
    (parsed : Parsed) : Prop where
  split : stream = taken ++ f.stream
  parses : Parses .nothing taken parsed part
  messages : f.messages = parsed.messages
  size : f.reader.size ≤ Netbios.MAX_MESSAGE_LEN
  good : f.stopped = none → parsed.error = none
  within : f.stopped = none → f.reader.Within part
  short : f.stopped = none → f.reader.filled.length < f.reader.size
  stops : ∀ error, f.stopped = some error → f.Stops polls parsed error

variable {polls : List Poll} {f : Feed} {taken part : Bytes} {parsed : Parsed}

theorem stands_start (polls : List Poll) (stream : Bytes) :
    (start stream).Stands polls stream [] [] .nothing where
  split := rfl
  parses := .starved rfl rfl
  messages := rfl
  size := FrameReader.within_expectHeader.size_le
  good _ := rfl
  within _ := FrameReader.within_expectHeader
  short _ := (by decide : ([] : Bytes).length < Netbios.HEADER_LEN)
  stops _ stopped := nomatch stopped

theorem Stands.read (stands : f.Stands polls stream taken part parsed) (running : f.stopped = none)
    (most : ℕ+) :
    ∃ taken' part' parsed',
      (f.take (f.reader.step f.stream most)).Stands polls stream taken' part' parsed' := by
  have short := stands.short running
  have good : parsing.done parsed = false := by
    change parsed.error.isSome = false
    rw [stands.good running]
    rfl
  rw [FrameReader.step, if_pos short]
  dsimp only
  split
  · next nothing =>
      refine ⟨taken, part, parsed, ⟨stands.split, stands.parses, stands.messages, stands.size,
        nofun, nofun, nofun, ?_⟩⟩
      rintro error ⟨⟩
      refine .ended (stands.good running) ?_
      rcases List.take_eq_nil_iff.mp nothing with none | empty
      · have := most.pos
        rw [FrameReader.space] at none
        omega
      · exact empty
  · next more =>
      have fits : (f.stream.take (min (most : ℕ) f.reader.space)).length ≤ f.reader.space := by
        rw [List.length_take]
        omega
      have comes := FrameReader.comes_of_settle ((stands.within running).fill fits)
      have split := stands.split
      rw [← List.take_append_drop (min (most : ℕ) f.reader.space) f.stream, ← List.append_assoc]
        at split
      generalize (f.reader.fill _ fits).settle = settled at comes ⊢
      refine ⟨taken ++ f.stream.take (min (most : ℕ) f.reader.space), ?_⟩
      cases comes with
      | waits within short =>
          refine ⟨_, parsed, ⟨split, ?_, ?_, within.size_le, fun _ => stands.good running,
            fun _ => within, fun _ => short, fun error stopped => ?_⟩⟩
          · exact stands.parses.append (.starved good (congrArg _ (within.starved short)))
          · exact (List.append_nil _).trans stands.messages
          · cases running.symm.trans stopped
      | @yields frame inbound isFrame carries =>
          have next := isFrame.nextFrame_append []
          rw [List.append_nil] at next
          have took : parsing.accept parsed frame = .ok (parsed.add (carried (some inbound))) :=
            congrArg _ (carries parsed)
          refine ⟨[], parsed.add (carried (some inbound)), ⟨split,
            stands.parses.append (.took good (congrArg _ next) took ?_), ?_,
            FrameReader.within_expectHeader.size_le, fun _ => stands.good running,
            fun _ => FrameReader.within_expectHeader, fun _ => ?_, fun error stopped => ?_⟩⟩
          · exact .starved good rfl
          · exact congrArg (· ++ carried (some inbound)) stands.messages
          · exact (by decide : ([] : Bytes).length < Netbios.HEADER_LEN)
          · cases running.symm.trans stopped
      | @garbled frame error isFrame carries =>
          have next := isFrame.nextFrame_append []
          rw [List.append_nil] at next
          have took : parsing.accept parsed frame = .ok (parsed.fail error) :=
            congrArg _ (carries parsed)
          refine ⟨[], parsed.fail error, ⟨split,
            stands.parses.append (.took good (congrArg _ next) took ?_), stands.messages,
            stands.size, nofun, nofun, nofun, ?_⟩⟩
          · exact .done rfl
          · rintro error ⟨⟩
            exact .garbled rfl

theorem Stands.step (stands : f.Stands polls stream taken part parsed) {poll : Poll}
    (member : poll ∈ polls) :
    ∃ taken' part' parsed', (f.step poll).Stands polls stream taken' part' parsed' := by
  unfold Feed.step
  split
  · exact ⟨taken, part, parsed, stands⟩
  · next running =>
      have running : f.stopped = none := Option.not_isSome_iff_eq_none.mp running
      cases poll with
      | abandoned => exact ⟨taken, part, parsed, stands⟩
      | failed error =>
          refine ⟨taken, part, parsed, ⟨stands.split, stands.parses, stands.messages, stands.size,
            nofun, nofun, nofun, ?_⟩⟩
          rintro error ⟨⟩
          exact .failed (stands.good running) member
      | read most => exact stands.read running most

theorem Stands.run (stands : f.Stands polls stream taken part parsed) {later : List Poll}
    (among : later ⊆ polls) :
    ∃ taken' part' parsed', (f.run later).Stands polls stream taken' part' parsed' := by
  induction later generalizing f taken part parsed with
  | nil => exact ⟨taken, part, parsed, stands⟩
  | cons poll later ih =>
      obtain ⟨_, _, _, stands⟩ := stands.step (among List.mem_cons_self)
      exact ih stands fun _ member => among (List.mem_cons_of_mem _ member)

/-- What a reader on `stream` may do, whose messages and error are `parsed`. -/
structure Follows (polls : List Poll) (stream : Bytes) (parsed : Parsed) (f : Feed) : Prop where
  yields : f.messages <+: parsed.messages
  ended : f.stopped = none → f.stream = [] → f.messages = parsed.messages ∧ parsed.error = none
  stops : ∀ error, f.stopped = some error →
    f.messages = parsed.messages ∧ f.Stops polls parsed error ∨
      ∃ failure, error = .io failure ∧ .failed failure ∈ polls
  boundary : ∃ taken part so_far, stream = taken ++ f.stream ∧
    Parses .nothing taken so_far part ∧ f.messages = so_far.messages ∧
      (f.stopped = none → ∀ more frame rest, nextFrame (part ++ more) = some (frame, rest) →
        f.reader.space + rest.length ≤ more.length)
  buffer : f.reader.size ≤ Netbios.MAX_MESSAGE_LEN
  advances : f.stopped = none → f.stream ≠ [] → ∀ most : ℕ+,
    (f.step (.read most)).stream.length < f.stream.length

theorem messages_of_reads {p p' : Parsed} {left : Bytes} (parses : Parses p stream p' left) :
    p.messages <+: p'.messages := by
  refine parses.invariant (P := fun p' => p.messages <+: p'.messages) (List.prefix_refl _) ?_
  intro s frame s' so_far _ accepted
  cases accepted
  refine so_far.trans ?_
  unfold Parsed.take
  split
  · exact List.prefix_refl _
  · exact List.prefix_refl _
  · split
    · exact List.prefix_refl _
    · exact List.prefix_append _ _

theorem Stands.advances (stands : f.Stands polls stream taken part parsed)
    (running : f.stopped = none) (more : f.stream ≠ []) (most : ℕ+) :
    (f.step (.read most)).stream.length < f.stream.length := by
  have short := stands.short running
  have some : f.stream.take (min (most : ℕ) f.reader.space) ≠ [] := by
    rw [Ne, List.take_eq_nil_iff, not_or]
    have := most.pos
    rw [FrameReader.space]
    exact ⟨by omega, more⟩
  have left : (f.step (.read most)).stream = f.stream.drop (min (most : ℕ) f.reader.space) := by
    rw [Feed.step, if_neg (by rw [running]; exact Bool.false_ne_true), FrameReader.step,
      if_pos short]
    dsimp only
    rw [if_neg some]
    generalize (f.reader.fill _ _).settle = settled
    rcases settled with _ | ⟨_, _⟩ <;> rfl
  have := List.length_pos_iff.mpr more
  have := most.pos
  rw [left, List.length_drop, FrameReader.space]
  omega

/-- A parse that stopped for want of bytes, or on an error, is all there is to it. -/
theorem Stands.parsed_eq {final : Parsed} {left : Bytes}
    (stands : f.Stands polls stream taken part parsed) (parses : Parses .nothing stream final left)
    (spent : parsed.error = none → f.stream = []) : final = parsed := by
  have whole := parses
  rw [stands.split] at whole
  cases bad : parsed.error with
  | none =>
      rw [spent bad, List.append_nil] at whole
      exact congrArg Prod.fst (Except.ok.inj (whole.functional stands.parses))
  | some error =>
      have done : parsing.done parsed = true := by
        change parsed.error.isSome = true
        rw [bad]
        rfl
      have same := whole.functional (stands.parses.append (.done done))
      exact congrArg Prod.fst (Except.ok.inj same)

/-- However a stream is cut, the reader does what parsing the stream does. -/
theorem follows (polls : List Poll) {final : Parsed} {left : Bytes}
    (parses : Parses .nothing stream final left) :
    Follows polls stream final ((start stream).run polls) := by
  obtain ⟨taken, part, parsed, stands⟩ := (stands_start polls stream).run (List.Subset.refl polls)
  generalize (start stream).run polls = f at stands
  refine ⟨?_, ?_, ?_, ?_, stands.size, stands.advances⟩
  · obtain ⟨⟨final', left'⟩, later⟩ := Reads.total netbios parsing parsed (part ++ f.stream)
    have whole := stands.parses.append later
    rw [← stands.split] at whole
    cases Except.ok.inj (parses.functional whole)
    rw [stands.messages]
    exact messages_of_reads later
  · intro running ended
    rw [stands.parsed_eq parses fun _ => ended]
    exact ⟨stands.messages, stands.good running⟩
  · intro error stopped
    cases stands.stops error stopped with
    | ended good empty =>
        rw [stands.parsed_eq parses fun _ => empty]
        exact Or.inl ⟨stands.messages, .ended good empty⟩
    | @failed failure good member => exact Or.inr ⟨failure, rfl, member⟩
    | garbled bad =>
        rw [stands.parsed_eq parses fun good => nomatch good.symm.trans bad]
        exact Or.inl ⟨stands.messages, .garbled bad⟩
  · refine ⟨taken, part, parsed, stands.split, stands.parses, stands.messages, ?_⟩
    intro running more frame rest next
    exact (stands.within running).bounded next

end Feed

/-! ## The handshake's reader -/

theorem length_of_vector {count : ℕ} {v : Vector UInt8 count}
    (read : Reader.vector count stream = some (v, rest)) : rest.length + count = stream.length := by
  rw [Reader.vector] at read
  split at read
  · next enough =>
      cases read
      rw [List.length_drop]
      omega
  · cases read

theorem length_of_take {count : ℕ} {bytes : Bytes}
    (read : Reader.take count stream = some (bytes, rest)) :
    rest.length + count = stream.length := by
  rw [Reader.take] at read
  split at read
  · next enough =>
      cases read
      rw [List.length_drop]
      omega
  · cases read

/-- The reading half of `send`: a header and its body at a time, keep-alives read past. What is
left of the stream is for whoever reads next. -/
def receiveFrom (command : UInt8) (stream : Bytes) : Except ClientError (Message × Bytes) :=
  match _header : Reader.vector Netbios.HEADER_LEN stream with
  | none => .error (.io .unexpectedEof)
  | some (header, rest) =>
      match declared header with
      | .error error => .error (.ofWire error)
      | .ok (kind, length) =>
          match _body : Reader.take length rest with
          | none => .error (.io .unexpectedEof)
          | some (body, rest) =>
              match kind with
              | .keepAlive => receiveFrom command rest
              | .sessionMessage =>
                  match Message.parse body with
                  | .error error => .error (.ofWire error)
                  | .ok message =>
                      if message.header.command ≠ command then
                        .error (.unsupportedServer (.answers command message.header.command))
                      else .ok (message, rest)
termination_by stream.length
decreasing_by
  have header := length_of_vector _header
  have body := length_of_take _body
  rw [Netbios.HEADER_LEN] at header
  omega

/-- It takes the frames of its stream in turn. -/
theorem receiveFrom_eq (command : UInt8) (stream : Bytes) :
    receiveFrom command stream = match nextFrame stream with
      | none => .error (.io .unexpectedEof)
      | some (.error error, _) => .error (.ofWire error)
      | some (.ok (.keepAlive, _), rest) => receiveFrom command rest
      | some (.ok (.sessionMessage, body), rest) =>
          match Message.parse body with
          | .error error => .error (.ofWire error)
          | .ok message =>
              if message.header.command ≠ command then
                .error (.unsupportedServer (.answers command message.header.command))
              else .ok (message, rest) := by
  rw [receiveFrom]
  match stream with
  | [] | [_] | [_, _] | [_, _, _] => rfl
  | b₀ :: b₁ :: b₂ :: b₃ :: rest =>
      have header : Reader.vector Netbios.HEADER_LEN (b₀ :: b₁ :: b₂ :: b₃ :: rest) =
          some (#v[b₀, b₁, b₂, b₃], rest) :=
        Reader.vector_append #v[b₀, b₁, b₂, b₃] rest
      split
      · next none => cases header.symm.trans none
      · next read =>
          cases header.symm.trans read
          rw [nextFrame]
          change (match Netbios.decodeHeader b₀ b₁ b₂ b₃ with
            | .error error => _
            | .ok (kind, length) => _) = _
          cases Netbios.decodeHeader b₀ b₁ b₂ b₃ with
          | error error => rfl
          | ok declared =>
              obtain ⟨kind, length⟩ := declared
              dsimp only
              by_cases enough : length ≤ rest.length
              · rw [if_pos enough]
                split
                · next none => cases none.symm.trans (if_pos enough)
                · next body left read =>
                    cases read.symm.trans (if_pos enough)
                    cases kind <;> rfl
              · rw [if_neg enough]
                split
                · rfl
                · next read => cases read.symm.trans (if_neg enough)

/-- What `send` takes off a stream, set against parsing it: its message is the first of the
stream's, and parsing goes on from what it leaves; or the stream ends, or is in error, before
there is one. -/
inductive Hands (command : UInt8) (stream : Bytes) :
    Except ClientError (Message × Bytes) → Prop
  | message {m : Message} {rest : Bytes} (answers : m.header.command = command)
      (goes_on : ∀ before result, before.error = none →
        (Reads netbios parsing before stream result ↔
          Reads netbios parsing (before.add [m]) rest result)) :
      Hands command stream (.ok (m, rest))
  | other {m : Message} {rest : Bytes} (other : m.header.command ≠ command)
      (goes_on : ∀ before result, before.error = none →
        (Reads netbios parsing before stream result ↔
          Reads netbios parsing (before.add [m]) rest result)) :
      Hands command stream (.error (.unsupportedServer (.answers command m.header.command)))
  | ended {left : Bytes} (nothing : Parses .nothing stream .nothing left) :
      Hands command stream (.error (.io .unexpectedEof))
  | garbled {error : WireError} {left : Bytes}
      (garbled : Parses .nothing stream (Parsed.nothing.fail error) left) :
      Hands command stream (.error (.ofWire error))

/-- Parsing a stream is taking its front frame and parsing the rest. -/
theorem reads_next {before : Parsed} {result : Except Empty (Parsed × Bytes)}
    (next : nextFrame stream = some (frame, rest)) (good : before.error = none) :
    Reads netbios parsing before stream result ↔
      Reads netbios parsing (before.take frame) rest result := by
  have took {result} (later : Reads netbios parsing (before.take frame) rest result) :
      Reads netbios parsing before stream result := by
    refine .took ?_ (congrArg _ next) rfl later
    change before.error.isSome = false
    rw [good]
    rfl
  refine ⟨fun reads => ?_, took⟩
  obtain ⟨result', later⟩ := Reads.total netbios parsing (before.take frame) rest
  rwa [reads.functional (took later)]

/-- A keep-alive in front of a stream is read past. -/
theorem Hands.keepAlive {command : UInt8} {body : Bytes}
    {handed : Except ClientError (Message × Bytes)}
    (next : nextFrame stream = some (.ok (.keepAlive, body), rest))
    (hands : Hands command rest handed) : Hands command stream handed := by
  cases hands with
  | message answers goes_on =>
      exact .message answers fun before result good =>
        (reads_next next good).trans (goes_on before result good)
  | other differs goes_on =>
      exact .other differs fun before result good =>
        (reads_next next good).trans (goes_on before result good)
  | ended nothing => exact .ended ((reads_next next rfl).mpr nothing)
  | garbled garbled => exact .garbled ((reads_next next rfl).mpr garbled)

theorem hands_receiveFrom (command : UInt8) (stream : Bytes) :
    Hands command stream (receiveFrom command stream) := by
  induction stream using (measure List.length).wf.induction with
  | h stream ih =>
      rw [receiveFrom_eq]
      cases next : nextFrame stream with
      | none => exact .ended (.starved rfl (congrArg _ next))
      | some front =>
          obtain ⟨frame, rest⟩ := front
          match frame with
          | .error error => exact .garbled ((reads_next next rfl).mpr (.done rfl))
          | .ok (.keepAlive, body) =>
              exact .keepAlive next (ih rest (netbios.shorter (congrArg Except.ok next)))
          | .ok (.sessionMessage, body) =>
              dsimp only
              cases parsed : Message.parse body with
              | error error =>
                  have ends : Parses (Parsed.nothing.take (.ok (.sessionMessage, body))) rest
                      (Parsed.nothing.fail error) rest := by
                    simp only [Parsed.take, parsed]
                    exact .done rfl
                  exact .garbled ((reads_next next rfl).mpr ends)
              | ok m =>
                  have taken (before : Parsed) :
                      before.take (.ok (.sessionMessage, body)) = before.add [m] := by
                    simp only [Parsed.take, parsed]
                  have goes_on (before : Parsed) (result : Except Empty (Parsed × Bytes))
                      (good : before.error = none) : Reads netbios parsing before stream result ↔
                        Reads netbios parsing (before.add [m]) rest result :=
                    taken before ▸ reads_next next good
                  dsimp only
                  split
                  · next other => exact .other other goes_on
                  · next same => exact .message (not_ne_iff.mp same) goes_on

/-- **Framing is independent of read boundaries**, and both readers split a stream at the same
ones. -/
theorem framing_independent (stream : Bytes) :
    ∃ parsed left, Parses .nothing stream parsed left ∧
      (∀ polls, Feed.Follows polls stream parsed ((Feed.start stream).run polls)) ∧
        ∀ command, Hands command stream (receiveFrom command stream) := by
  obtain ⟨error | ⟨parsed, left⟩, parses⟩ := Reads.total netbios parsing .nothing stream
  · exact nomatch error
  exact ⟨parsed, left, parses, fun polls => Feed.follows polls parses,
    fun command => hands_receiveFrom command stream⟩

end Smb1Client
