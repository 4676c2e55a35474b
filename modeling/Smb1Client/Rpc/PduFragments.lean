import Smb1Client.Rpc.PduAssembly

/-!
Replies that fit, and the fragments they come in.

The cap on stub bytes decides what fits, and the cap on PDUs is derived from it and from the
fragment size that was asked for. A server that splits a reply more finely than that is refused
for the number of its PDUs, whatever the reply is long.
-/

namespace Smb1Client

namespace Pdu

open Framing LittleEndian

/-- A response PDU that carries a piece of a stub, with what stands ahead of the piece. -/
structure Fragment where
  flags : UInt8
  authLength : UInt16
  prologue : Bytes
  piece : Bytes

namespace Fragment

def length (f : Fragment) : ℕ := HEADER_LEN + RESPONSE_PROLOGUE + f.piece.length

def header (callId : UInt32) (f : Fragment) : Bytes :=
  u8le VERSION.1 ++ (u8le VERSION.2 ++ (u8le RESPONSE ++ (u8le f.flags ++ (DATA_REPRESENTATION ++
    (u16le (UInt16.ofNat f.length) ++ (u16le f.authLength ++ u32le callId))))))

def encode (callId : UInt32) (f : Fragment) : Bytes := f.header callId ++ (f.prologue ++ f.piece)

def first (f : Fragment) : Bool := f.flags &&& PFC_FIRST_FRAG ≠ 0

def last (f : Fragment) : Bool := f.flags &&& PFC_LAST_FRAG ≠ 0

/-- A fragment carries at least a byte of the stub, and its length fits its field. -/
structure Valid (f : Fragment) : Prop where
  prologue : f.prologue.length = RESPONSE_PROLOGUE
  carries : 1 ≤ f.piece.length
  fits : f.length < 2 ^ 16

end Fragment

/-- The stub that fragments carry. -/
def stubOf (fragments : List Fragment) : Bytes := (fragments.map (·.piece)).flatten

def encodeAll (callId : UInt32) (fragments : List Fragment) : Bytes :=
  (fragments.map (Fragment.encode callId)).flatten

/-- A division of a stub into fragments: the first opens the reply, and the last and no other
closes it. -/
structure Divides (fragments : List Fragment) (stub : Bytes) : Prop where
  pieces : stubOf fragments = stub
  valid : ∀ f ∈ fragments, f.Valid
  opens : ∃ f ∈ fragments.head?, f.first = true
  closes : ∃ f ∈ fragments.getLast?, f.last = true
  within : ∀ f ∈ fragments.dropLast, f.last = false

variable {f : Fragment} {fragments : List Fragment} {callId : UInt32} {c c' : Collector}
  {stub rest : Bytes}

/-! ## One fragment -/

theorem Fragment.length_header (callId : UInt32) (f : Fragment) :
    (f.header callId).length = HEADER_LEN := by
  simp only [header, List.length_append, length_u8le, length_u16le, length_u32le]
  rfl

theorem Fragment.Valid.length_encode (valid : f.Valid) (callId : UInt32) :
    (f.encode callId).length = f.length := by
  rw [encode, List.length_append, f.length_header, List.length_append, valid.prologue,
    Fragment.length]
  omega

theorem Fragment.Valid.toNat_length (valid : f.Valid) :
    (UInt16.ofNat f.length).toNat = f.length := by
  rw [UInt16.toNat_ofNat']
  exact Nat.mod_eq_of_lt valid.fits

theorem Fragment.Valid.declared (valid : f.Valid) (callId : UInt32) :
    decode (((f.encode callId).drop 8).take 2) = f.length := by
  have front : f.encode callId = (u8le VERSION.1 ++ u8le VERSION.2 ++ u8le RESPONSE ++
      u8le f.flags ++ DATA_REPRESENTATION) ++ (u16le (UInt16.ofNat f.length) ++
        (u16le f.authLength ++ u32le callId ++ (f.prologue ++ f.piece))) := by
    simp only [encode, header, List.append_assoc]
  have eight : (u8le VERSION.1 ++ u8le VERSION.2 ++ u8le RESPONSE ++ u8le f.flags ++
      DATA_REPRESENTATION).length = 8 := by
    simp only [List.length_append, length_u8le]
    rfl
  have two := length_u16le (UInt16.ofNat f.length)
  rw [front, ← eight, List.drop_left, ← two, List.take_left, decode_u16le, valid.toNat_length]

theorem Fragment.Valid.next (valid : f.Valid) (callId : UInt32) (rest : Bytes) :
    Pdu.next (f.encode callId ++ rest) = .ok (Option.some (f.encode callId, rest)) := by
  have length := valid.length_encode callId
  apply next_of_length
  · rw [length, Fragment.length]
    omega
  · rw [length, valid.declared]

theorem Fragment.parse (callId : UInt32) (f : Fragment) :
    Header.parse (f.encode callId) = .ok ⟨RESPONSE, f.flags, callId⟩ := by
  have front : (f.encode callId).take HEADER_LEN = f.header callId ++ [] := by
    rw [encode, ← f.length_header callId, List.take_left, List.append_nil]
  have four : DATA_REPRESENTATION.length = 4 := rfl
  have read : Header.read (f.header callId ++ []) =
      some ((VERSION.1 :: VERSION.2 :: DATA_REPRESENTATION, ⟨RESPONSE, f.flags, callId⟩), []) := by
    simp only [Header.read, header, List.append_assoc]
    rw [Reader.u8_bind, Reader.u8_bind, Reader.u8_bind, Reader.u8_bind, ← four, Reader.take_bind,
      Reader.u16_bind, Reader.u16_bind, Reader.u32_bind]
    rfl
  rw [Header.parse, front, read]
  rfl

namespace Collector

/-- What a collector is once it has taken a fragment. -/
def withFragment (c : Collector) (f : Fragment) : Collector :=
  { c with
    ptype := some RESPONSE
    pdus := c.pdus + 1
    payload := c.payload ++ f.piece
    complete := f.last }

/-- A collector that a fragment of a response may come to. -/
structure Expects (c : Collector) (callId : UInt32) (f : Fragment) : Prop where
  running : c.complete = false
  call : c.callId = callId
  opened : c.ptype = some RESPONSE ∨ c.ptype = none ∧ f.first = true

theorem Expects.accept (expects : c.Expects callId f) (valid : f.Valid)
    (fits : c.payload.length + f.piece.length ≤ STUB_CAP) :
    c.accept (f.encode callId) =
      if c.pdus + 1 ≤ PDU_CAP then .ok (c.withFragment f) else .error .tooManyFragments := by
  have typed : c.opened ⟨RESPONSE, f.flags, callId⟩ = .ok RESPONSE := by
    unfold Collector.opened
    rcases expects.opened with opened | ⟨fresh, first⟩
    · rw [opened]
      rfl
    · rw [fresh]
      exact if_neg (of_decide_eq_true first)
  have start : HEADER_LEN + (⟨RESPONSE, f.flags, callId⟩ : Header).prologue =
      (f.header callId ++ f.prologue).length := by
    rw [List.length_append, f.length_header, valid.prologue]
    rfl
  have apart : f.encode callId = (f.header callId ++ f.prologue) ++ f.piece :=
    (List.append_assoc _ _ _).symm
  rw [Collector.accept, expects.running, if_neg Bool.false_ne_true, f.parse]
  change (if callId ≠ c.callId then _ else _) = _
  rw [if_neg (not_not.mpr expects.call.symm)]
  change (if RESPONSE = FAULT then _ else _) = _
  rw [if_neg (by decide), typed]
  change (if c.pdus + 1 > PDU_CAP then _ else _) = _
  split
  · next many => rw [if_neg (Nat.not_le.mpr many)]
  next few =>
  rw [if_pos (Nat.not_lt.mp few), start, apart, if_neg, List.drop_left]
  · dsimp only
    rw [if_neg, withFragment]
    · rfl
    · rw [List.length_append]
      omega
  · rw [List.length_append]
    omega

/-- Fragments follow one another to the one that closes the reply, or to the one that is one too
many. -/
theorem reads_fragments (fragments : List Fragment) (valid : ∀ f ∈ fragments, f.Valid)
    (closes : ∃ f ∈ fragments.getLast?, f.last = true)
    (within : ∀ f ∈ fragments.dropLast, f.last = false)
    (expects : ∀ f ∈ fragments.head?, c.Expects callId f)
    (fits : c.payload.length + (stubOf fragments).length ≤ STUB_CAP) :
    Reads pduStream collecting c (encodeAll callId fragments)
      (if c.pdus + fragments.length ≤ PDU_CAP then
        .ok ({ c with
          ptype := some RESPONSE
          pdus := c.pdus + fragments.length
          payload := c.payload ++ stubOf fragments
          complete := true }, [])
      else .error .tooManyFragments) := by
  induction fragments generalizing c with
  | nil =>
      obtain ⟨f, none, -⟩ := closes
      cases none
  | cons f fragments ih =>
      have takes : c.Expects callId f := expects f rfl
      have here := valid f List.mem_cons_self
      have room : c.payload.length + f.piece.length ≤ STUB_CAP := by
        rw [stubOf, List.map_cons, List.flatten_cons, List.length_append] at fits
        omega
      have split := here.next callId (encodeAll callId fragments)
      have accepted := takes.accept here room
      have stream : encodeAll callId (f :: fragments) =
          f.encode callId ++ encodeAll callId fragments := rfl
      rw [stream]
      by_cases few : c.pdus + 1 ≤ PDU_CAP
      · rw [if_pos few] at accepted
        cases fragments with
        | nil =>
            obtain ⟨f', same, last⟩ := closes
            cases same
            rw [List.length_singleton, if_pos few]
            refine .took takes.running split accepted ?_
            have whole : c.withFragment f = { c with
                ptype := some RESPONSE
                pdus := c.pdus + 1
                payload := c.payload ++ stubOf [f]
                complete := true } := by
              rw [withFragment, show f.last = true from last]
              simp [stubOf]
            rw [whole]
            exact .done rfl
        | cons g fragments =>
            have open' : f.last = false := within f List.mem_cons_self
            have later : Reads pduStream collecting (c.withFragment f) _ _ :=
              ih (c := c.withFragment f)
                (fun f member => valid f (List.mem_cons_of_mem _ member)) closes
                (fun f member => within f (List.mem_cons_of_mem _ member))
                (fun f _ => ⟨open', takes.call, Or.inl rfl⟩) (by
                  rw [withFragment, List.length_append, Nat.add_assoc, ← List.length_append]
                  exact fits)
            have counts : (c.withFragment f).pdus + (g :: fragments).length =
                c.pdus + (f :: g :: fragments).length := by
              change c.pdus + 1 + (fragments.length + 1) = c.pdus + (fragments.length + 1 + 1)
              omega
            have joins : (c.withFragment f).payload ++ stubOf (g :: fragments) =
                c.payload ++ stubOf (f :: g :: fragments) := List.append_assoc _ _ _
            rw [counts, joins] at later
            exact .took takes.running split accepted later
      · rw [if_neg few] at accepted
        have many : ¬ c.pdus + (f :: fragments).length ≤ PDU_CAP := by
          rw [List.length_cons]
          omega
        rw [if_neg many]
        exact .refused takes.running split accepted

/-- Fragments of a stub that fits assemble to it, or are one too many, however they are cut. -/
theorem assemble_fragments {chunks : List Bytes} (divides : Divides fragments stub)
    (fits : stub.length ≤ STUB_CAP) (cut : chunks.flatten = encodeAll callId fragments) :
    (new callId).assemble chunks =
      if fragments.length ≤ PDU_CAP then .ok ⟨RESPONSE, stub⟩ else .error .tooManyFragments := by
  obtain ⟨pieces, valid, ⟨f, opening, first⟩, closes, within⟩ := divides
  have expects : ∀ f ∈ fragments.head?, (new callId).Expects callId f := by
    intro f' same
    cases Option.mem_unique opening same
    exact ⟨rfl, rfl, Or.inr ⟨rfl, first⟩⟩
  have room : (new callId).payload.length + (stubOf fragments).length ≤ STUB_CAP := by
    rw [pieces, new, List.length_nil, Nat.zero_add]
    exact fits
  have reads := reads_fragments fragments valid closes within expects room
  rw [show (new callId).pdus + fragments.length = fragments.length from Nat.zero_add _,
    show (new callId).payload ++ stubOf fragments = stub from pieces] at reads
  rcases assemble_of_reads (c := new callId) [] rfl rfl
    (by rw [List.nil_append, cut]; exact reads) with
    same | ⟨c, rest, front, error, came, -, begins, garbled⟩
  · refine Eq.trans same ?_
    split <;> rfl
  · exfalso
    split at came
    · cases came
      rw [List.prefix_nil.mp begins] at garbled
      cases garbled.functional (.starved rfl rfl)
    · cases came

/-- A PDU is no longer than its length field can say. -/
theorem length_of_next {pending fragment : Bytes}
    (split : next pending = .ok (some (fragment, rest))) : fragment.length < 2 ^ 16 := by
  obtain ⟨-, -, length⟩ := of_next split
  rw [length]
  have two : ((fragment.drop 8).take 2).length ≤ 2 := List.length_take_le _ _
  exact (decode_lt _).trans_le (Nat.pow_le_pow_right (by decide) two)

/-- What has been read of a stream is in the PDUs that were counted, or is left. -/
theorem spent_of_reads {stream : Bytes} (few : c.pdus ≤ PDU_CAP)
    (reads : Reads pduStream collecting c stream (.ok (c', rest))) :
    65535 * c.pdus + stream.length ≤ 65535 * c'.pdus + rest.length ∧ c'.pdus ≤ PDU_CAP := by
  generalize same : (.ok (c', rest) : Except PduError (Collector × Bytes)) = result at reads
  induction reads with
  | done =>
      cases same
      exact ⟨le_rfl, few⟩
  | starved =>
      cases same
      exact ⟨le_rfl, few⟩
  | garbled => cases same
  | refused => cases same
  | took running split accepted _ ih =>
      obtain ⟨counted, few', -⟩ := bounds_of_accept running accepted
      obtain ⟨later, kept⟩ := ih few' same
      obtain ⟨rfl, -⟩ := of_next split
      have short := length_of_next split
      rw [counted] at later
      rw [List.length_append]
      exact ⟨by omega, kept⟩

/-- What a collector holds between chunks: a payload within the cap, and of the stream behind it no
whole PDU. -/
structure Holds (c : Collector) : Prop where
  payload : c.payload.length ≤ STUB_CAP
  unfinished : next c.pending = .ok none

theorem holds_new (callId : UInt32) : (new callId).Holds := ⟨Nat.zero_le _, rfl⟩

theorem Holds.feed {chunk : Bytes} (holds : c.Holds) (fed : c.feed chunk = .ok c') : c'.Holds :=
  ⟨(held_of_drain (c := { c with pending := c.pending ++ chunk }) holds.payload fed).1,
    starved_of_settle (c := { c with pending := c.pending ++ chunk }) fed⟩

/-- An unfinished PDU is shorter than the longest that can be declared. -/
theorem Holds.pending_lt (holds : c.Holds) : c.pending.length < 2 ^ 16 := by
  by_cases short : c.pending.length < HEADER_LEN
  · exact short.trans (by decide)
  have unfinished := holds.unfinished
  rw [next_eq (Nat.not_lt.mp short)] at unfinished
  dsimp only at unfinished
  split at unfinished
  · cases unfinished
  split at unfinished
  · next within =>
      have two : ((c.pending.drop 8).take 2).length ≤ 2 := List.length_take_le _ _
      exact within.trans ((decode_lt _).trans_le (Nat.pow_le_pow_right (by decide) two))
  · cases unfinished

/-- **A reply that fits assembles** exactly where it comes in no more PDUs than the cap, however the
stream of them is cut; and of any stream no more is held than a payload within the cap, one
unfinished PDU and the chunk that has just come. -/
theorem assembles_iff {chunks : List Bytes} (divides : Divides fragments stub)
    (fits : stub.length ≤ STUB_CAP) (cut : chunks.flatten = encodeAll callId fragments) :
    ((new callId).assemble chunks = .ok ⟨RESPONSE, stub⟩ ↔ fragments.length ≤ PDU_CAP) ∧
      ∀ (callId : UInt32) (fed : List Bytes) (c : Collector),
        fed.foldlM feed (new callId) = .ok c →
          c.payload.length ≤ STUB_CAP ∧ next c.pending = .ok none ∧ c.pending.length < 2 ^ 16 ∧
            ∀ (chunk : Bytes) (turns : ℕ) (c' : Collector),
              drain turns { c with pending := c.pending ++ chunk } = .ok c' →
                c'.payload.length ≤ STUB_CAP ∧
                  c'.pending.length ≤ c.pending.length + chunk.length := by
  refine ⟨?_, fun callId fed c came => ?_⟩
  · rw [assemble_fragments divides fits cut]
    split
    · next few => exact iff_of_true rfl few
    · next many => exact iff_of_false (fun same => by cases same) many
  have kept : ∀ (fed : List Bytes) (start : Collector), start.Holds →
      fed.foldlM feed start = .ok c → c.Holds := by
    intro fed
    induction fed with
    | nil =>
        intro start holds came
        cases came
        exact holds
    | cons chunk fed ih =>
        intro start holds came
        rw [List.foldlM_cons] at came
        cases now : start.feed chunk with
        | error error =>
            rw [now] at came
            cases came
        | ok next =>
            rw [now] at came
            exact ih next (holds.feed now) came
  have holds := kept fed _ (holds_new callId) came
  refine ⟨holds.payload, holds.unfinished, holds.pending_lt, fun chunk turns c' drained => ?_⟩
  have held := held_of_drain (c := { c with pending := c.pending ++ chunk }) holds.payload drained
  rw [← List.length_append]
  exact held

/-- A stub in two PDUs. -/
def inTwo : List Fragment := [⟨1, 0, .replicate 8 0, [7]⟩, ⟨2, 0, .replicate 8 0, [8, 9]⟩]

theorem assembles_iff_inTwo : (new 1).assemble [encodeAll 1 inTwo] = .ok ⟨RESPONSE, [7, 8, 9]⟩ := by
  have divides : Divides inTwo [7, 8, 9] := by
    refine ⟨rfl, fun f member => ?_, ⟨_, rfl, rfl⟩, ⟨_, rfl, rfl⟩, fun f member => ?_⟩
    · rcases List.mem_cons.mp member with rfl | member
      · exact ⟨rfl, by decide, by decide⟩
      · cases List.mem_singleton.mp member
        exact ⟨rfl, by decide, by decide⟩
    · cases List.mem_singleton.mp member
      rfl
  exact (assembles_iff divides (by decide) (List.flatten_singleton ..)).1.mpr (by decide)

/-- One byte a PDU, and one PDU more than the cap. -/
def tooFine : List Fragment :=
  ⟨1, 0, .replicate 8 0, [0]⟩ :: .replicate (PDU_CAP - 1) ⟨0, 0, .replicate 8 0, [0]⟩ ++
    [⟨2, 0, .replicate 8 0, [0]⟩]

/-- A stub of less than two kilobytes is refused for its PDUs. -/
theorem fine_split_is_refused : ¬ ∀ (callId : UInt32) (fragments : List Fragment) (stub : Bytes)
    (chunks : List Bytes), Divides fragments stub → stub.length ≤ STUB_CAP →
      chunks.flatten = encodeAll callId fragments →
        (new callId).assemble chunks = .ok ⟨RESPONSE, stub⟩ := by
  intro claimed
  have members : ∀ f ∈ tooFine, f.prologue = .replicate 8 0 ∧ f.piece = [0] := by
    intro f member
    simp only [tooFine, List.mem_append, List.mem_cons, List.mem_replicate] at member
    rcases member with (rfl | ⟨-, rfl⟩) | rfl | none
    · exact ⟨rfl, rfl⟩
    · exact ⟨rfl, rfl⟩
    · exact ⟨rfl, rfl⟩
    · cases none
  have divides : Divides tooFine (stubOf tooFine) := by
    refine ⟨rfl, fun f member => ?_, ⟨_, rfl, rfl⟩, ⟨_, List.getLast?_concat, rfl⟩,
      fun f member => ?_⟩
    · obtain ⟨prologue, piece⟩ := members f member
      refine ⟨by rw [prologue]; rfl, by rw [piece]; decide, ?_⟩
      rw [Fragment.length, piece]
      decide
    · rw [tooFine, List.dropLast_concat] at member
      rcases List.mem_cons.mp member with rfl | member
      · rfl
      · rw [(List.mem_replicate.mp member).2]
        rfl
  have long : tooFine.length = PDU_CAP + 1 := by
    simp only [tooFine, List.length_append, List.length_cons, List.length_replicate,
      List.length_nil]
    decide
  have fits : (stubOf tooFine).length ≤ STUB_CAP := by
    have one : ∀ fragments : List Fragment, (∀ f ∈ fragments, f.piece = [0]) →
        (stubOf fragments).length = fragments.length := by
      intro fragments pieces
      rw [stubOf, List.length_flatten, List.map_map, List.map_congr_left (g := fun _ => 1),
        List.map_const', List.sum_replicate, smul_eq_mul, mul_one]
      intro f member
      rw [Function.comp_apply, pieces f member]
      rfl
    rw [one tooFine fun f member => (members f member).2, long]
    decide
  have cut : [encodeAll 1 tooFine].flatten = encodeAll 1 tooFine := List.flatten_singleton ..
  have refused := assemble_fragments divides fits cut
  rw [if_neg (by rw [long]; exact Nat.not_succ_le_self _)] at refused
  cases (claimed 1 tooFine _ _ divides fits cut).symm.trans refused

end Collector

end Pdu

end Smb1Client
