import Smb1Client.Auth.Spnego

/-!
BER spellings of a value, and that reading one gives the value back.

A length is spelled short, long with any zeros before it, or left open to an end-of-contents
pair; the reader takes every spelling within its levels of nesting, and nothing else.
-/

namespace Smb1Client

namespace Spnego

/-! ## Spellings -/

/-- A header of a definite length. -/
def DefiniteHeader (tag : UInt8) (length : ℕ) (header : Bytes) : Prop :=
  (length < 0x80 ∧ header = [tag, UInt8.ofNat length]) ∨
    ∃ raw : Bytes, 0 < raw.length ∧ raw.length ≤ USIZE_BYTES ∧ bigEndian raw = length ∧
      header = tag :: (0x80 ||| UInt8.ofNat raw.length) :: raw

/-- A value behind a header of its length. -/
def Definite (tag : UInt8) (value encoding : Bytes) : Prop :=
  ∃ header, DefiniteHeader tag value.length header ∧ encoding = header ++ value

/-- A value up to an end-of-contents pair. -/
def Indefinite (tag : UInt8) (value encoding : Bytes) : Prop :=
  encoding = tag :: 0x80 :: (value ++ [0, 0])

/-- The spellings of a value, what is in one of indefinite length spelled with a level less. -/
def Spells : ℕ → UInt8 → Bytes → Bytes → Prop
  | 0, _, _, _ => False
  | levels + 1, tag, value, encoding =>
      Definite tag value encoding ∨
        Indefinite tag value encoding ∧ ∃ parts : List Bytes, value = parts.flatten ∧
          ∀ part ∈ parts, part.take 2 ≠ [0, 0] ∧
            ∃ tag' value', Spells levels tag' value' part

/-! ## Headers -/

theorem definiteLength_of_header {tag : UInt8} {length : ℕ} {header : Bytes}
    (spelled : DefiniteHeader tag length header) (s : Bytes) :
    ∃ first rest, header = tag :: first :: rest ∧ first ≠ 0x80 ∧
      definiteLength (header ++ s) first = .ok (length, header.length) := by
  rcases spelled with ⟨short, rfl⟩ | ⟨raw, some, few, value, rfl⟩
  · have low : ∀ n < 0x80, UInt8.ofNat n &&& 0x80 = 0 ∧ UInt8.ofNat n ≠ 0x80 := by decide
    obtain ⟨clear, other⟩ := low length short
    have number : (UInt8.ofNat length).toNat = length := UInt8.toNat_ofNat_of_lt' (by
      show length < 2 ^ 8
      omega)
    refine ⟨_, [], rfl, other, ?_⟩
    rw [definiteLength, if_pos clear, number]
    rfl
  · have high : ∀ k < 9, 0 < k → (0x80 ||| UInt8.ofNat k) &&& 0x80 ≠ 0 ∧
        (0x80 ||| UInt8.ofNat k) ≠ 0x80 ∧ ((0x80 ||| UInt8.ofNat k) &&& 0x7F).toNat = k := by
      decide
    obtain ⟨set, other, count⟩ := high raw.length (Nat.lt_succ_of_le few) some
    refine ⟨_, raw, rfl, other, ?_⟩
    have digits : ((tag :: (0x80 ||| UInt8.ofNat raw.length) :: raw ++ s).drop 2).take raw.length =
        raw := List.take_left
    rw [definiteLength, if_neg set]
    dsimp only
    rw [count, if_neg (by rw [not_or]; omega), digits, value, if_neg]
    · rw [List.length_cons, List.length_cons, Nat.add_comm 2]
    · rw [List.length_append, List.length_cons, List.length_cons]
      omega

theorem header_of_definiteLength {tag first : UInt8} {body : Bytes} {length header : ℕ}
    (declared : definiteLength (tag :: first :: body) first = .ok (length, header)) :
    header ≤ (tag :: first :: body).length ∧
      DefiniteHeader tag length ((tag :: first :: body).take header) := by
  rw [definiteLength] at declared
  have bound := first.toNat_lt
  split at declared
  · next clear =>
      cases declared
      have low : ∀ n < 256, n &&& 0x80 = 0 → n < 0x80 := by decide +kernel
      refine ⟨by simp, Or.inl ⟨low _ bound ?_, ?_⟩⟩
      · exact (UInt8.toNat_and first 0x80).symm.trans (congrArg UInt8.toNat clear)
      · rw [UInt8.ofNat_toNat]
        rfl
  · next set =>
      dsimp only at declared
      split at declared
      · cases declared
      next fits =>
      split at declared
      · cases declared
      next whole =>
      rw [not_or, not_lt] at fits
      cases declared
      have restored : ∀ n < 256, n &&& 0x80 ≠ 0 → 0x80 ||| (n &&& 0x7F) = n := by
        decide +kernel
      have raw : (body.take (first &&& 0x7F).toNat).length = (first &&& 0x7F).toNat := by
        rw [List.length_cons, List.length_cons] at whole
        exact List.length_take_of_le (by omega)
      refine ⟨not_lt.mp whole, Or.inr ⟨body.take (first &&& 0x7F).toNat, ?_, ?_, rfl, ?_⟩⟩
      · rw [raw]
        exact Nat.pos_of_ne_zero fits.1
      · rw [raw]
        exact fits.2
      · rw [raw, UInt8.ofNat_toNat, Nat.add_comm 2, List.take_succ_cons, List.take_succ_cons]
        congr 2
        rw [← UInt8.toNat_inj, UInt8.toNat_or, UInt8.toNat_and]
        refine (restored _ bound fun clear => set ?_).symm
        rw [← UInt8.toNat_inj, UInt8.toNat_and]
        exact clear

theorem two_le_length_header {tag : UInt8} {length : ℕ} {header : Bytes}
    (spelled : DefiniteHeader tag length header) : 2 ≤ header.length := by
  rcases spelled with ⟨-, rfl⟩ | ⟨raw, -, -, -, rfl⟩
  · exact le_rfl
  · rw [List.length_cons, List.length_cons]
    omega

theorem two_le_length_of_spells {levels : ℕ} {tag : UInt8} {value encoding : Bytes}
    (spelled : Spells levels tag value encoding) : 2 ≤ encoding.length := by
  cases levels with
  | zero => cases spelled
  | succ levels =>
      rcases spelled with ⟨header, header', rfl⟩ | ⟨rfl, -⟩
      · have long := two_le_length_header header'
        rw [List.length_append]
        omega
      · rw [List.length_cons, List.length_cons]
        omega

/-! ## Reading a spelling -/

variable {inner : Bytes → Except SpnegoError Tlv}

/-- The end of a body is past its parts, where each of them is read whole. -/
theorem endOfContents_of_parts (parts : List Bytes) (front back : Bytes) {turns : ℕ}
    (enough : parts.length < turns)
    (read : ∀ part ∈ parts, 2 ≤ part.length ∧ part.take 2 ≠ [0, 0] ∧
      ∀ s, ∃ tlv, inner (part ++ s) = .ok tlv ∧ tlv.consumed = part.length) :
    endOfContents inner (front ++ (parts.flatten ++ ([0, 0] ++ back))) turns front.length =
      .ok (front.length + parts.flatten.length) := by
  induction parts generalizing front turns with
  | nil =>
      obtain ⟨turns, rfl⟩ := Nat.exists_eq_succ_of_ne_zero (Nat.ne_zero_of_lt enough)
      rw [endOfContents, if_neg, List.drop_left, if_pos]
      · rfl
      · rfl
      · rw [List.length_append, List.length_append, List.length_append, List.length_cons,
          List.length_singleton]
        omega
  | cons part parts ih =>
      obtain ⟨turns, rfl⟩ := Nat.exists_eq_succ_of_ne_zero (Nat.ne_zero_of_lt enough)
      obtain ⟨long, notEnd, taken⟩ := read part List.mem_cons_self
      obtain ⟨tlv, inner, consumed⟩ := taken (parts.flatten ++ ([0, 0] ++ back))
      have body : front ++ ((part :: parts).flatten ++ ([0, 0] ++ back)) =
          (front ++ part) ++ (parts.flatten ++ ([0, 0] ++ back)) := by
        rw [List.flatten_cons, List.append_assoc, List.append_assoc]
      have here : (front ++ ((part :: parts).flatten ++ ([0, 0] ++ back))).drop front.length =
          part ++ (parts.flatten ++ ([0, 0] ++ back)) := by
        rw [List.drop_left, List.flatten_cons, List.append_assoc]
      have next := ih (front ++ part) (Nat.lt_of_succ_lt_succ enough)
        fun part' member => read part' (List.mem_cons_of_mem _ member)
      rw [endOfContents, here, List.take_append_of_le_length long, if_neg, if_neg notEnd, inner]
      · simp only [bind, Except.bind]
        rw [consumed, body, ← List.length_append, next, List.length_append, List.flatten_cons,
          List.length_append, Nat.add_assoc]
      · rw [body, List.length_append, List.length_append]
        omega

theorem length_le_length_flatten {parts : List Bytes} (long : ∀ part ∈ parts, 2 ≤ part.length) :
    parts.length ≤ parts.flatten.length := by
  induction parts with
  | nil => exact le_rfl
  | cons part parts ih =>
      have here := long part List.mem_cons_self
      have later := ih fun part' member => long part' (List.mem_cons_of_mem _ member)
      rw [List.flatten_cons, List.length_append, List.length_cons]
      omega

/-- Every spelling within the levels is read as its value. -/
theorem readTlvLevels_of_spells {levels : ℕ} {tag : UInt8} {value encoding : Bytes}
    (spelled : Spells levels tag value encoding) (s : Bytes) :
    readTlvLevels levels (encoding ++ s) = .ok ⟨tag, value, encoding.length⟩ := by
  induction levels generalizing tag value encoding s with
  | zero => cases spelled
  | succ levels ih =>
      rw [readTlvLevels.eq_def]
      rcases spelled with ⟨header, spelled, rfl⟩ | ⟨rfl, parts, rfl, each⟩
      · obtain ⟨first, rest, shape, other, declared⟩ :=
          definiteLength_of_header spelled (value ++ s)
        rw [List.append_assoc]
        have bytes : header ++ (value ++ s) = tag :: first :: (rest ++ (value ++ s)) := by
          rcases spelled with ⟨-, same⟩ | ⟨raw, -, -, -, same⟩
          · rw [same] at shape
            cases shape
            rw [same]
            rfl
          · rw [same] at shape
            cases shape
            rw [same]
            rfl
        have room : ¬ (header ++ (value ++ s)).length < header.length + value.length := by
          rw [List.length_append, List.length_append]
          omega
        have found : ((header ++ (value ++ s)).drop header.length).take value.length = value := by
          rw [List.drop_left, List.take_left]
        rw [bytes] at declared room found ⊢
        dsimp only
        rw [if_neg other]
        simp only [bind, Except.bind, declared]
        rw [if_neg room, found, List.length_append]
        rfl
      · have parts_read : ∀ part ∈ parts, 2 ≤ part.length ∧ part.take 2 ≠ [0, 0] ∧
            ∀ s, ∃ tlv, readTlvLevels levels (part ++ s) = .ok tlv ∧
              tlv.consumed = part.length := by
          intro part member
          obtain ⟨notEnd, tag', value', spelled⟩ := each part member
          exact ⟨two_le_length_of_spells spelled, notEnd, fun s => ⟨_, ih spelled s, rfl⟩⟩
        have counted := length_le_length_flatten fun part member => (parts_read part member).1
        have body : (parts.flatten ++ [0, 0]) ++ s = [] ++ (parts.flatten ++ ([0, 0] ++ s)) := by
          rw [List.nil_append, List.append_assoc]
        have enough : parts.length < ((parts.flatten ++ [0, 0]) ++ s).length + 1 := by
          rw [List.length_append, List.length_append]
          omega
        have found := endOfContents_of_parts parts [] s enough parts_read
        rw [← body, List.length_nil, Nat.zero_add] at found
        rw [List.cons_append, List.cons_append]
        dsimp only
        rw [if_pos rfl]
        simp only [bind, Except.bind, found]
        rw [List.append_assoc, List.take_left, List.length_cons, List.length_cons,
          List.length_append, Nat.add_comm 2]
        rfl

/-! ## What is read is a spelling -/

/-- A body is searched from part to part. -/
theorem parts_of_endOfContents {levels : ℕ} {body : Bytes} {turns start stop : ℕ}
    (spells : ∀ bytes tlv, readTlvLevels levels bytes = .ok tlv → ∃ encoding rest,
      bytes = encoding ++ rest ∧ tlv.consumed = encoding.length ∧
        Spells levels tlv.tag tlv.value encoding)
    (found : endOfContents (readTlvLevels levels) body turns start = .ok stop) :
    ∃ (parts : List Bytes) (rest : Bytes), body.drop start = parts.flatten ++ ([0, 0] ++ rest) ∧
      stop = start + parts.flatten.length ∧
      ∀ part ∈ parts, part.take 2 ≠ [0, 0] ∧ ∃ tag value, Spells levels tag value part := by
  induction turns generalizing start with
  | zero => cases found
  | succ turns ih =>
      rw [endOfContents] at found
      split at found
      · cases found
      split at found
      · next ended =>
          cases found
          refine ⟨[], (body.drop stop).drop 2, ?_, rfl, by rintro _ ⟨⟩⟩
          rw [← ended]
          exact (List.take_append_drop 2 _).symm
      next notEnd =>
      cases read : readTlvLevels levels (body.drop start) with
      | error error =>
          rw [read] at found
          cases found
      | ok tlv =>
      rw [read] at found
      simp only [bind, Except.bind] at found
      obtain ⟨encoding, rest, bytes, consumed, spelled⟩ := spells _ _ read
      obtain ⟨parts, rest', behind, rfl, each⟩ := ih found
      have next : body.drop (start + tlv.consumed) = rest := by
        rw [← List.drop_drop, bytes, consumed, List.drop_left]
      rw [next] at behind
      refine ⟨encoding :: parts, rest', ?_, ?_, ?_⟩
      · rw [bytes, behind, List.flatten_cons, List.append_assoc]
      · rw [consumed, List.flatten_cons, List.length_append, Nat.add_assoc]
      · rintro part (_ | ⟨_, member⟩)
        · refine ⟨fun ends => notEnd ?_, tlv.tag, tlv.value, spelled⟩
          rw [bytes, List.take_append_of_le_length (two_le_length_of_spells spelled), ends]
        · exact each part member

theorem spells_of_readTlvLevels {levels : ℕ} {bytes : Bytes} {tlv : Tlv}
    (read : readTlvLevels levels bytes = .ok tlv) :
    ∃ encoding rest, bytes = encoding ++ rest ∧ tlv.consumed = encoding.length ∧
      Spells levels tlv.tag tlv.value encoding := by
  induction levels generalizing bytes tlv with
  | zero => cases read
  | succ levels ih =>
      rw [readTlvLevels.eq_def] at read
      dsimp only at read
      split at read
      · cases read
      · cases read
      next tag first body =>
      split at read
      · next open' =>
          cases found : endOfContents (readTlvLevels levels) body (body.length + 1) 0 with
          | error error =>
              rw [found] at read
              cases read
          | ok stop =>
          rw [found] at read
          cases read
          obtain ⟨parts, rest, whole, rfl, each⟩ :=
            parts_of_endOfContents (fun _ _ read => ih read) found
          rw [List.drop_zero] at whole
          rw [Nat.zero_add]
          refine ⟨tag :: 0x80 :: (parts.flatten ++ [0, 0]), rest, ?_, ?_,
            Or.inr ⟨?_, parts, ?_, each⟩⟩
          · rw [open', whole, ← List.append_assoc]
            rfl
          · rw [List.length_cons, List.length_cons, List.length_append, Nat.add_comm 2]
            rfl
          · rw [whole, List.take_left]
            rfl
          · rw [whole, List.take_left]
      · cases declared : definiteLength (tag :: first :: body) first with
        | error error =>
            rw [declared] at read
            cases read
        | ok sizes =>
        obtain ⟨length, header⟩ := sizes
        rw [declared] at read
        simp only [bind, Except.bind] at read
        split at read
        · cases read
        next room =>
        cases read
        obtain ⟨inside, spelled⟩ := header_of_definiteLength declared
        have size : (((tag :: first :: body).drop header).take length).length = length := by
          rw [List.length_take, List.length_drop]
          omega
        have front : ((tag :: first :: body).take header).length = header :=
          List.length_take_of_le inside
        refine ⟨(tag :: first :: body).take header ++
          ((tag :: first :: body).drop header).take length,
          ((tag :: first :: body).drop header).drop length, ?_, ?_,
          Or.inl ⟨(tag :: first :: body).take header, ?_, rfl⟩⟩
        · rw [List.append_assoc, List.take_append_drop, List.take_append_drop]
        · rw [List.length_append, front, size]
        · rw [size]
          exact spelled

end Spnego

end Smb1Client
