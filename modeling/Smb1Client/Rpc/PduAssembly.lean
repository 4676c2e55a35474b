import Smb1Client.Lib.Framing
import Smb1Client.Rpc.Pdu

/-!
What a reply assembles to, however its bytes are cut.

The PDUs of a stream are the same for every cut. What a cut decides is how much behind the PDU
that closes the reply comes with it: that is split into PDUs as well, and never looked at where
it comes later.
-/

namespace Smb1Client

namespace Pdu

open Framing

variable {pending fragment rest more : Bytes} {error : PduError}

/-! ## PDUs of a stream -/

/-- The length a PDU declares is read off its header, which is there. -/
theorem next_eq (whole : HEADER_LEN ≤ pending.length) : next pending =
    let length := LittleEndian.decode ((pending.drop 8).take 2)
    if length < HEADER_LEN then .error (.fragmentLengthTooSmall (UInt16.ofNat length))
    else if pending.length < length then .ok none
    else .ok (some (pending.take length, pending.drop length)) :=
  if_neg (Nat.not_lt.mpr whole)

theorem declared_append (whole : HEADER_LEN ≤ pending.length) (more : Bytes) :
    ((pending ++ more).drop 8).take 2 = (pending.drop 8).take 2 := by
  have header : 16 ≤ pending.length := whole
  rw [List.drop_append_of_le_length (by omega), List.take_append_of_le_length]
  rw [List.length_drop]
  omega

/-- A PDU that is there is as long as it declares, and at least a header. -/
theorem of_next (split : next pending = .ok (some (fragment, rest))) :
    pending = fragment ++ rest ∧ HEADER_LEN ≤ fragment.length ∧
      fragment.length = LittleEndian.decode ((fragment.drop 8).take 2) := by
  by_cases short : pending.length < HEADER_LEN
  · rw [next, if_pos short] at split
    cases split
  rw [next_eq (Nat.not_lt.mp short)] at split
  dsimp only at split
  split at split
  · cases split
  next header =>
  split at split
  · cases split
  next within =>
  cases split
  have header := Nat.not_lt.mp header
  have within := Nat.not_lt.mp within
  have length : (pending.take (LittleEndian.decode ((pending.drop 8).take 2))).length =
      LittleEndian.decode ((pending.drop 8).take 2) := by
    rw [List.length_take]
    exact min_eq_left within
  have long : HEADER_LEN ≤
      (pending.take (LittleEndian.decode ((pending.drop 8).take 2))).length := by
    rw [length]
    exact header
  refine ⟨(List.take_append_drop _ _).symm, long, length.trans ?_⟩
  have same := declared_append long (pending.drop (LittleEndian.decode ((pending.drop 8).take 2)))
  rw [List.take_append_drop] at same
  exact congrArg LittleEndian.decode same

theorem next_of_length (header : HEADER_LEN ≤ fragment.length)
    (length : fragment.length = LittleEndian.decode ((fragment.drop 8).take 2)) (rest : Bytes) :
    next (fragment ++ rest) = .ok (some (fragment, rest)) := by
  have whole : HEADER_LEN ≤ (fragment ++ rest).length := by
    rw [List.length_append]
    omega
  rw [next_eq whole, declared_append header, ← length]
  dsimp only
  rw [if_neg (Nat.not_lt.mpr header), if_neg, List.take_left, List.drop_left]
  rw [List.length_append]
  omega

theorem shorter_of_next (split : next stream = .ok (some (fragment, rest))) :
    rest.length < stream.length := by
  obtain ⟨rfl, header, -⟩ := of_next split
  have positive : 0 < HEADER_LEN := by decide
  rw [List.length_append]
  omega

theorem front_of_next (split : next stream = .ok (some (fragment, rest))) :
    ∃ front, stream = front ++ rest ∧ next front = .ok (some (fragment, [])) := by
  obtain ⟨rfl, header, length⟩ := of_next split
  refine ⟨_, rfl, ?_⟩
  have alone := next_of_length header length []
  rwa [List.append_nil] at alone

theorem next_append (more : Bytes) (split : next stream = .ok (some (fragment, rest))) :
    next (stream ++ more) = .ok (some (fragment, rest ++ more)) := by
  obtain ⟨rfl, header, length⟩ := of_next split
  rw [List.append_assoc]
  exact next_of_length header length _

theorem next_append_of_error {error : PduError} (more : Bytes)
    (split : next stream = .error error) : next (stream ++ more) = .error error := by
  by_cases short : stream.length < HEADER_LEN
  · rw [next, if_pos short] at split
    cases split
  have whole := Nat.not_lt.mp short
  rw [next_eq whole] at split
  dsimp only at split
  split at split
  next small =>
    have longer : HEADER_LEN ≤ (stream ++ more).length := by
      rw [List.length_append]
      omega
    rw [next_eq longer, declared_append whole]
    dsimp only
    rw [if_pos small, split]
  next => split at split <;> cases split

/-- The PDUs of the pipe's byte stream. -/
def pduStream : Splitter UInt8 Bytes PduError where
  split := next
  shorter := shorter_of_next
  front := front_of_next
  whole := next_append
  garbled := next_append_of_error

/-- What is behind a reply, split and left alone. -/
def passing : Consumer Unit Bytes PduError where
  accept _ _ := .ok ()
  done _ := false

namespace Collector

variable {c c' : Collector} {chunk : Bytes} {chunks : List Bytes}

/-- A collector takes the PDUs of one reply. -/
def collecting : Consumer Collector Bytes PduError where
  accept := accept
  done := complete

/-- What is pending is nothing to the PDU that is taken. -/
theorem accept_withPending (c : Collector) (pending fragment : Bytes) :
    ({ c with pending } : Collector).accept fragment =
      (c.accept fragment).map ({ · with pending }) := by
  unfold accept
  dsimp only
  split
  · rfl
  cases Header.parse fragment with
  | error error => rfl
  | ok header =>
      simp only [Bind.bind, Except.bind]
      split
      · rfl
      split
      · rfl
      have same : opened { c with pending } header = opened c header := rfl
      rw [same]
      cases opened c header with
      | error error => rfl
      | ok ptype =>
          dsimp only
          split
          · rfl
          split
          · rfl
          split <;> rfl

/-- A PDU that is taken is counted, within the cap, and its payload kept, within the cap. -/
theorem bounds_of_accept (running : c.complete = false) (accepted : c.accept fragment = .ok c') :
    c'.pdus = c.pdus + 1 ∧ c'.pdus ≤ PDU_CAP ∧ c'.payload.length ≤ STUB_CAP := by
  rw [accept, running, if_neg Bool.false_ne_true] at accepted
  cases parsed : Header.parse fragment with
  | error error =>
      rw [parsed] at accepted
      cases accepted
  | ok header =>
      rw [parsed] at accepted
      simp only [Bind.bind, Except.bind] at accepted
      split at accepted
      · cases accepted
      split at accepted
      · cases accepted
      cases typed : c.opened header with
      | error error =>
          rw [typed] at accepted
          cases accepted
      | ok ptype =>
          rw [typed] at accepted
          dsimp only at accepted
          split at accepted
          · cases accepted
          next few =>
          split at accepted
          · cases accepted
          split at accepted
          · cases accepted
          next fits =>
          cases accepted
          exact ⟨rfl, Nat.not_lt.mp few, Nat.not_lt.mp fits⟩

theorem payload_of_accept (fits : c.payload.length ≤ STUB_CAP)
    (accepted : c.accept fragment = .ok c') : c'.payload.length ≤ STUB_CAP := by
  cases whole : c.complete with
  | true =>
      rw [accept, whole, if_pos rfl] at accepted
      cases accepted
      exact fits
  | false => exact (bounds_of_accept whole accepted).2.2

/-- Parses out all the whole PDUs of what is pending. -/
def settle (c : Collector) : Except PduError Collector := drain c.pending.length c

theorem drain_eq_settle {turns : ℕ} (enough : c.pending.length ≤ turns) :
    drain turns c = c.settle := by
  induction turns, enough using Nat.le_induction with
  | base => rfl
  | succ turns enough ih => exact (drain_succ enough).trans ih

theorem settle_of_none (split : next c.pending = .ok none) : c.settle = .ok c := by
  rw [settle, ← drain_succ le_rfl, drain, split]
  rfl

theorem settle_of_error (split : next c.pending = .error error) : c.settle = .error error := by
  rw [settle, ← drain_succ le_rfl, drain, split]
  rfl

theorem settle_of_some (split : next c.pending = .ok (some (fragment, rest))) :
    c.settle = (c.accept fragment).bind fun c' =>
      ({ c' with pending := rest } : Collector).settle := by
  rw [settle, ← drain_succ le_rfl, drain, split]
  change (({ c with pending := rest } : Collector).accept fragment).bind _ = _
  rw [accept_withPending]
  cases c.accept fragment with
  | error error => rfl
  | ok c' =>
      have shorter : rest.length < c.pending.length := pduStream.shorter split
      exact drain_eq_settle (c := { c' with pending := rest }) shorter.le

theorem feed_eq_settle (c : Collector) (bytes : Bytes) :
    c.feed bytes = ({ c with pending := c.pending ++ bytes } : Collector).settle := rfl

theorem feed_new (callId : UInt32) (bytes : Bytes) :
    (new callId).feed bytes = ({ new callId with pending := bytes } : Collector).settle := rfl

/-- At every turn of the parse the payload is within its cap, and what is pending only shrinks. -/
theorem held_of_drain {turns : ℕ} (fits : c.payload.length ≤ STUB_CAP)
    (drained : drain turns c = .ok c') :
    c'.payload.length ≤ STUB_CAP ∧ c'.pending.length ≤ c.pending.length := by
  induction turns generalizing c with
  | zero =>
      cases drained
      exact ⟨fits, le_rfl⟩
  | succ turns ih =>
      rw [drain] at drained
      cases split : next c.pending with
      | error error =>
          rw [split] at drained
          cases drained
      | ok front =>
          rw [split] at drained
          cases front with
          | none =>
              cases drained
              exact ⟨fits, le_rfl⟩
          | some front =>
              obtain ⟨fragment, rest⟩ := front
              have shorter : rest.length < c.pending.length := pduStream.shorter split
              simp only [Bind.bind, Except.bind] at drained
              cases accepted : ({ c with pending := rest } : Collector).accept fragment with
              | error error =>
                  rw [accepted] at drained
                  cases drained
              | ok next =>
                  rw [accepted] at drained
                  have kept := payload_of_accept (c := { c with pending := rest }) fits accepted
                  obtain ⟨within, shrinks⟩ := ih kept drained
                  rw [pending_accept accepted] at shrinks
                  exact ⟨within, shrinks.trans shorter.le⟩

/-- A parse that succeeds leaves no whole PDU. -/
theorem starved_of_settle (settled : c.settle = .ok c') : next c'.pending = .ok none := by
  induction c using (measure fun c : Collector => c.pending.length).wf.induction with
  | h c ih =>
      cases split : next c.pending with
      | error error => cases (settle_of_error split).symm.trans settled
      | ok front =>
          cases front with
          | none =>
              cases (settle_of_none split).symm.trans settled
              exact split
          | some front =>
              obtain ⟨fragment, rest⟩ := front
              have shorter : rest.length < c.pending.length := pduStream.shorter split
              rw [settle_of_some split] at settled
              cases accepted : c.accept fragment with
              | error error =>
                  rw [accepted] at settled
                  cases settled
              | ok next =>
                  rw [accepted] at settled
                  exact ih { next with pending := rest } shorter settled

/-- What the parse comes to is what comes of the stream, and behind that what comes of what is
left. -/
theorem settle_of_reads {result : Except PduError (Collector × Bytes)}
    (reads : Reads pduStream collecting c pending result) :
    ({ c with pending } : Collector).settle =
      result.bind fun left => ({ left.1 with pending := left.2 } : Collector).settle := by
  induction reads with
  | done => rfl
  | starved => rfl
  | @garbled c pending _ _ split => exact settle_of_error (c := { c with pending }) split
  | @refused c pending _ _ _ _ split refused =>
      rw [settle_of_some (c := { c with pending }) split, accept_withPending]
      rw [show c.accept _ = _ from refused]
      rfl
  | @took c _ pending _ _ _ _ split accepted _ ih =>
      rw [settle_of_some (c := { c with pending }) split, accept_withPending]
      rw [show c.accept _ = _ from accepted]
      exact ih

/-- Behind a whole reply the parse splits, and takes nothing. -/
theorem settle_of_passing {result : Except PduError (Unit × Bytes)}
    (whole : c.complete = true) (reads : Reads pduStream passing () pending result) :
    ({ c with pending } : Collector).settle =
      result.map fun left => { c with pending := left.2 } := by
  generalize () = nothing at reads
  induction reads with
  | done done => cases done
  | @starved _ pending _ split => exact settle_of_none (c := { c with pending }) split
  | @garbled _ pending _ _ split => exact settle_of_error (c := { c with pending }) split
  | refused _ _ refused => cases refused
  | @took _ _ pending _ _ _ _ split _ _ ih =>
      rw [settle_of_some (c := { c with pending }) split, accept_withPending, accept,
        if_pos whole]
      exact ih

/-! ## Replies, cut into chunks -/

/-- Chunks are fed one after another until the reply is complete or fails, as `Pipe::fill` feeds
what its reads bring. -/
def assemble : Collector → List Bytes → Except PduError Answer
  | c, [] => c.finish
  | c, chunk :: chunks =>
      if c.complete then c.finish else do (← c.feed chunk).assemble chunks

theorem assemble_of_complete (whole : c.complete = true) (chunks : List Bytes) :
    c.assemble chunks = c.finish := by
  cases chunks with
  | nil => rfl
  | cons chunk chunks => exact if_pos whole

/-- What comes of a stream as the answer it is. -/
def answer (result : Except PduError (Collector × Bytes)) : Except PduError Answer :=
  result.bind fun left => left.1.finish

/-- **Chunks assemble to what comes of their stream**, unless what is behind the reply is garbled
and some of it came with the reply. -/
theorem assemble_of_reads (pending : Bytes) {result : Except PduError (Collector × Bytes)}
    (running : c.complete = false) (starved : next pending = .ok none)
    (reads : Reads pduStream collecting c (pending ++ chunks.flatten) result) :
    ({ c with pending } : Collector).assemble chunks = answer result ∨
      ∃ c' rest front error, result = .ok (c', rest) ∧ c'.complete = true ∧ front <+: rest ∧
        Reads pduStream passing () front (.error error) := by
  induction chunks generalizing c pending result with
  | nil =>
      rw [List.flatten_nil, List.append_nil] at reads
      left
      rw [reads.functional (.starved running starved)]
      rfl
  | cons chunk chunks ih =>
      rw [List.flatten_cons, ← List.append_assoc] at reads
      have feeds : ({ c with pending } : Collector).assemble (chunk :: chunks) =
          (({ c with pending := pending ++ chunk } : Collector).settle).bind (·.assemble chunks) :=
        if_neg (by rw [running]; exact Bool.false_ne_true)
      rw [feeds]
      obtain ⟨first, here⟩ := Reads.total pduStream collecting c (pending ++ chunk)
      rw [settle_of_reads here]
      cases first with
      | error error =>
          left
          rw [reads.functional (here.append_error _)]
          rfl
      | ok left =>
          obtain ⟨c', rest⟩ := left
          cases complete : c'.complete with
          | false =>
              have starved' := here.starves complete
              obtain ⟨later, reads'⟩ := Reads.total pduStream collecting c' (rest ++ chunks.flatten)
              rw [reads.functional (here.append reads')]
              change (({ c' with pending := rest } : Collector).settle).bind _ = _ ∨ _
              rw [settle_of_none (c := { c' with pending := rest }) starved']
              exact ih rest complete starved' reads'
          | true =>
              have same := reads.functional (here.append (.done complete))
              obtain ⟨passed, behind⟩ := Reads.total pduStream passing () rest
              change (({ c' with pending := rest } : Collector).settle).bind _ = _ ∨ _
              rw [settle_of_passing complete behind]
              cases passed with
              | error error =>
                  exact Or.inr ⟨c', _, rest, error, same, complete, List.prefix_append _ _, behind⟩
              | ok left =>
                  left
                  rw [same]
                  exact assemble_of_complete (c := { c' with pending := left.2 }) complete chunks

/-- A whole reply: the PDU that closes it is its last. -/
def Whole (callId : UInt32) (reply : Bytes) : Prop :=
  ∃ c, Reads pduStream collecting (new callId) reply (.ok (c, [])) ∧ c.complete = true

/-- Nothing in a stream declares a PDU shorter than its header. -/
def Splits (stream : Bytes) : Prop := ∀ error, ¬ Reads pduStream passing () stream (.error error)

/-- What is behind the reply of a stream splits into PDUs as the reply does. -/
def Ungarbled (callId : UInt32) (stream : Bytes) : Prop :=
  ∀ reply rest, stream = reply ++ rest → Whole callId reply → Splits rest

/-- **Assembly does not depend on the chunks** exactly where what is behind the reply, if anything
is, is not garbled. -/
theorem assembly_independent_iff (callId : UInt32) (stream : Bytes) :
    (∀ chunks chunks' : List Bytes, chunks.flatten = stream → chunks'.flatten = stream →
      (new callId).assemble chunks = (new callId).assemble chunks') ↔ Ungarbled callId stream := by
  have starved : next [] = .ok none := rfl
  constructor
  · rintro same reply rest rfl ⟨c, reads, whole⟩ error garbled
    have together : (new callId).assemble [reply ++ rest] = .error error := by
      change (((new callId).feed (reply ++ rest)).bind (·.assemble [])) = _
      have all : Reads pduStream collecting (new callId) (reply ++ rest) (.ok (c, rest)) :=
        reads.append (.done whole)
      rw [feed_new, settle_of_reads all]
      change ((({ c with pending := rest } : Collector).settle).bind _) = _
      rw [settle_of_passing whole garbled]
      rfl
    have apart : (new callId).assemble [reply, rest] = c.finish := by
      change (((new callId).feed reply).bind (·.assemble [rest])) = _
      rw [feed_new, settle_of_reads reads]
      change ((({ c with pending := [] } : Collector).settle).bind _) = _
      rw [settle_of_none (c := { c with pending := [] }) starved]
      exact assemble_of_complete (c := { c with pending := [] }) whole _
    have agree := same [reply ++ rest] [reply, rest] (by simp) (by simp)
    rw [together, apart, finish, whole] at agree
    have typed : c.ptype.isSome = true := by
      have kept := reads.invariant (P := fun c => c.complete = true → c.ptype.isSome = true)
        (fun none => by cases none) fun c fragment c' before running accepted complete => ?_
      · exact kept whole
      · rcases of_accept accepted with rfl | ⟨_, _, _, _, rfl⟩
        · exact before complete
        · rfl
    cases opened : c.ptype with
    | none =>
        rw [opened] at typed
        cases typed
    | some ptype =>
        rw [opened] at agree
        cases agree
  · rintro ungarbled chunks chunks' rfl same
    obtain ⟨result, reads⟩ := Reads.total pduStream collecting (new callId) chunks.flatten
    have comes : ∀ cut : List Bytes, cut.flatten = chunks.flatten →
        (new callId).assemble cut = answer result := by
      intro cut flat
      rcases assemble_of_reads (c := new callId) [] rfl starved
        (by rw [List.nil_append, flat]; exact reads) with
        same | ⟨c', rest, front, error, came, whole, begins, garbled⟩
      · exact same
      · exfalso
        rw [came] at reads
        obtain ⟨reply, split, alone⟩ := reads.front whole
        obtain ⟨back, rfl⟩ := begins
        exact ungarbled reply _ split ⟨c', alone, whole⟩ error (garbled.append_error back)
    exact (comes chunks rfl).trans (comes chunks' same).symm

/-- A reply of one PDU that has no payload. -/
def closedAck : Bytes := [5, 0, 0x0C, 3, 0x10, 0, 0, 0, 16, 0, 0, 0, 0, 0, 0, 0]

/-- With a header of zeros behind it in one chunk the reply fails, and in two it is whole. -/
theorem garbled_tail_is_seen : ¬ ∀ (callId : UInt32) (chunks chunks' : List Bytes),
    chunks.flatten = chunks'.flatten →
      (new callId).assemble chunks = (new callId).assemble chunks' := by
  intro claimed
  have same := claimed 0 [closedAck ++ .replicate 16 0] [closedAck, .replicate 16 0] (by decide)
  exact absurd same (by decide +kernel)

end Collector

end Pdu

end Smb1Client
