import Smb1Client.Auth.NtlmAnswer

/-!
AV pair lists as bytes.

A list that is accepted spells its pairs up to the terminator, and every list of pairs that fit is
read back from its spelling. So the pairs an answer sends back are those of the server, with their
flags values changed or one pair of flags behind them.
-/

namespace Smb1Client

open LittleEndian Slices

namespace Ntlm

theorem u16At_append (front rest : Bytes) (x : UInt16) :
    u16At (front ++ (u16le x ++ rest)) front.length = x := by
  rw [u16At, List.drop_left, List.take_left' (length_u16le x), decode_u16le, UInt16.ofNat_toNat]

theorem u32At_append (front rest : Bytes) (x : UInt32) :
    u32At (front ++ (u32le x ++ rest)) front.length = x := by
  rw [u32At, List.drop_left, List.take_left' (length_u32le x), decode_u32le, UInt32.ofNat_toNat]

/-- Two bytes are the field that is read from them. -/
theorem take_two_drop {bytes : Bytes} {start : ℕ} (inside : start + 2 ≤ bytes.length) :
    (bytes.drop start).take 2 = u16le (u16At bytes start) := by
  have two : ((bytes.drop start).take 2).length = 2 := length_slice inside
  have small := decode_lt ((bytes.drop start).take 2)
  rw [two] at small
  have back := encode_decode ((bytes.drop start).take 2)
  rw [two] at back
  rw [u16At, u16le, UInt16.toNat_ofNat_of_lt' small, back]

namespace AvPairs

/-- A pair that a list can hold. -/
def Listable (pair : AvPair) : Prop := pair.1 ≠ AV_EOL ∧ pair.2.length < 2 ^ 16

/-- Pairs and a terminator, with the length the terminator gives. -/
def spell (pairs : List AvPair) (n : UInt16) : Bytes :=
  pairs.flatMap put ++ (u16le AV_EOL ++ u16le n)

variable {pair : AvPair} {pairs : List AvPair} {bytes front rest : Bytes} {p : AvPairs}
  {turns start stop : ℕ} {n : UInt16}

@[simp] theorem length_put : (put pair).length = 4 + pair.2.length := by
  rw [put, List.length_append, List.length_append, length_u16le, length_u16le]
  omega

@[simp] theorem length_spell : (spell pairs n).length = (pairs.flatMap put).length + 4 := by
  rw [spell, List.length_append, List.length_append, length_u16le, length_u16le]

theorem length_le_length_flatMap_put : pairs.length ≤ (pairs.flatMap put).length := by
  induction pairs with
  | nil => exact le_rfl
  | cons pair pairs ih =>
      rw [List.flatMap_cons, List.length_append, length_put, List.length_cons]
      omega

/-! ## Reading a pair -/

theorem u16At_put : u16At (front ++ (put pair ++ rest)) front.length = pair.1 := by
  rw [put, List.append_assoc, u16At_append]

theorem u16At_put_length (short : pair.2.length < 2 ^ 16) :
    (u16At (front ++ (put pair ++ rest)) (front.length + 2)).toNat = pair.2.length := by
  have behind : (front ++ u16le pair.1).length = front.length + 2 := by
    rw [List.length_append, length_u16le]
  rw [put, List.append_assoc, List.append_assoc, ← List.append_assoc, ← behind, u16At_append,
    UInt16.toNat_ofNat_of_lt' short]

theorem slice_put :
    slice (front ++ (put pair ++ rest)) (front.length + 4) pair.2.length = pair.2 := by
  have header : put pair ++ rest =
      (u16le pair.1 ++ u16le (UInt16.ofNat pair.2.length)) ++ (pair.2 ++ rest) := by
    rw [put, List.append_assoc, List.append_assoc, List.append_assoc]
  have four : (u16le pair.1 ++ u16le (UInt16.ofNat pair.2.length)).length = 4 := by
    rw [List.length_append, length_u16le, length_u16le]
  rw [slice_append_right, header, ← Nat.add_zero 4, ← four, slice_append_right, slice,
    List.drop_zero, List.take_left]

/-- What stands at a place is the pair that is read there. -/
theorem drop_eq_put
    (inside : start + 4 + (u16At bytes (start + 2)).toNat ≤ bytes.length) :
    bytes.drop start =
      put (u16At bytes start, slice bytes (start + 4) (u16At bytes (start + 2)).toNat) ++
        bytes.drop (start + 4 + (u16At bytes (start + 2)).toNat) := by
  have id := @take_two_drop bytes start (by omega)
  have length := @take_two_drop bytes (start + 2) (by omega)
  have long : (slice bytes (start + 4) (u16At bytes (start + 2)).toNat).length =
      (u16At bytes (start + 2)).toNat := length_slice (by omega)
  have parts : ∀ place count, (bytes.drop place).take count ++ bytes.drop (place + count) =
      bytes.drop place := by
    intro place count
    rw [← List.drop_drop, List.take_append_drop]
  dsimp only [put]
  rw [long, UInt16.ofNat_toNat, ← id, ← length, slice, List.append_assoc, List.append_assoc,
    parts (start + 4), parts (start + 2) 2, parts start 2]

/-! ## Reading a list -/

theorem iterFrom_put (front : Bytes) (enough : pairs.length < turns)
    (short : ∀ pair ∈ pairs, pair.2.length < 2 ^ 16) :
    iterFrom (front ++ pairs.flatMap put) turns front.length = pairs := by
  obtain ⟨turns, rfl⟩ := Nat.exists_eq_succ_of_ne_zero (Nat.ne_zero_of_lt enough)
  induction pairs generalizing front turns with
  | nil => rw [List.flatMap_nil, List.append_nil, iterFrom, if_pos (by omega)]
  | cons pair pairs ih =>
      obtain ⟨turns, rfl⟩ := Nat.exists_eq_succ_of_ne_zero
        (Nat.ne_zero_of_lt (Nat.lt_of_succ_lt_succ enough))
      have here := short pair List.mem_cons_self
      have whole : (front ++ (put pair ++ pairs.flatMap put)).length =
          front.length + (4 + pair.2.length + (pairs.flatMap put).length) := by
        rw [List.length_append, List.length_append, length_put]
      have next : front.length + 4 + pair.2.length = (front ++ put pair).length := by
        rw [List.length_append, length_put, Nat.add_assoc]
      rw [List.flatMap_cons, iterFrom, if_neg (by omega)]
      dsimp only
      rw [u16At_put_length here, if_neg (by omega), u16At_put, slice_put, next,
        ← List.append_assoc, ih (front ++ put pair)
          (fun pair member => short pair (List.mem_cons_of_mem _ member)) turns
          (Nat.lt_of_succ_lt_succ enough)]

theorem terminator_pairs (front : Bytes) (enough : pairs.length < turns)
    (listable : ∀ pair ∈ pairs, Listable pair) :
    terminator (front ++ spell pairs 0) turns front.length =
      .ok (front.length + (pairs.flatMap put).length) := by
  obtain ⟨turns, rfl⟩ := Nat.exists_eq_succ_of_ne_zero (Nat.ne_zero_of_lt enough)
  induction pairs generalizing front turns with
  | nil =>
      have last : spell [] 0 = put (AV_EOL, []) ++ [] := rfl
      rw [last, terminator, if_neg, u16At_put_length (by decide), u16At_put]
      · dsimp only
        rw [if_neg, if_pos rfl]
        · rfl
        · rw [List.length_append, List.length_append, length_put]
          simp
      · rw [List.length_append, List.length_append, length_put]
        simp
  | cons pair pairs ih =>
      obtain ⟨turns, rfl⟩ := Nat.exists_eq_succ_of_ne_zero
        (Nat.ne_zero_of_lt (Nat.lt_of_succ_lt_succ enough))
      obtain ⟨goesOn, here⟩ := listable pair List.mem_cons_self
      have first : spell (pair :: pairs) 0 = put pair ++ spell pairs 0 := by
        rw [spell, List.flatMap_cons, List.append_assoc, spell]
      have whole : (front ++ (put pair ++ spell pairs 0)).length =
          front.length + (4 + pair.2.length + (spell pairs 0).length) := by
        rw [List.length_append, List.length_append, length_put]
      have next : front.length + 4 + pair.2.length = (front ++ put pair).length := by
        rw [List.length_append, length_put, Nat.add_assoc]
      rw [first, terminator, if_neg (by omega)]
      dsimp only
      rw [u16At_put_length here, if_neg (by omega), u16At_put, if_neg goesOn, next,
        ← List.append_assoc, ih (front ++ put pair)
          (fun pair member => listable pair (List.mem_cons_of_mem _ member)) turns
          (Nat.lt_of_succ_lt_succ enough),
        List.flatMap_cons, List.length_append, List.length_append, Nat.add_assoc]

/-- A list whose terminator is found spells pairs up to there. -/
theorem pairs_of_terminator (ends : terminator bytes turns start = .ok stop) :
    stop + 4 ≤ bytes.length ∧ u16At bytes stop = AV_EOL ∧
      ∃ pairs : List AvPair, bytes.drop start = pairs.flatMap put ++ bytes.drop stop ∧
        stop = start + (pairs.flatMap put).length ∧ ∀ pair ∈ pairs, Listable pair := by
  induction turns generalizing start with
  | zero => cases ends
  | succ turns ih =>
      rw [terminator] at ends
      split at ends
      · cases ends
      dsimp only at ends
      split at ends
      · cases ends
      next room inside =>
      split at ends
      · next terminates =>
        cases ends
        exact ⟨by omega, terminates, [], rfl, rfl, fun _ none => absurd none List.not_mem_nil⟩
      · next goesOn =>
        obtain ⟨last, terminates, pairs, spelt, rfl, listable⟩ := ih ends
        have here := drop_eq_put (not_lt.mp inside)
        have long : (slice bytes (start + 4) (u16At bytes (start + 2)).toNat).length =
            (u16At bytes (start + 2)).toNat := length_slice (by omega)
        refine ⟨last, terminates,
          (u16At bytes start, slice bytes (start + 4) (u16At bytes (start + 2)).toNat) :: pairs,
          ?_, ?_, ?_⟩
        · rw [here, spelt, List.flatMap_cons, List.append_assoc]
        · rw [List.flatMap_cons, List.length_append, length_put, long]
          omega
        · rintro pair (_ | ⟨_, member⟩)
          · refine ⟨goesOn, ?_⟩
            rw [long]
            exact (u16At bytes (start + 2)).toNat_lt
          · exact listable pair member

theorem iter_spell (short : ∀ pair ∈ pairs, pair.2.length < 2 ^ 16) :
    iter ⟨spell pairs n ++ rest, (pairs.flatMap put).length⟩ = pairs := by
  have ahead : (spell pairs n ++ rest).take (pairs.flatMap put).length = pairs.flatMap put := by
    rw [spell, List.append_assoc, List.take_left]
  rw [iter, ahead]
  exact iterFrom_put [] (Nat.lt_succ_of_le length_le_length_flatMap_put) short

/-- Every list of pairs that fit is accepted. -/
theorem parse_spell (listable : ∀ pair ∈ pairs, Listable pair) :
    parse (spell pairs 0) = .ok ⟨spell pairs 0, (pairs.flatMap put).length⟩ := by
  have few : pairs.length < (spell pairs 0).length + 1 := by
    have := @length_le_length_flatMap_put pairs
    rw [length_spell]
    omega
  have ends := terminator_pairs [] few listable
  rw [List.nil_append, List.length_nil, Nat.zero_add] at ends
  rw [parse, ends]
  rfl

/-- A list that is accepted spells its pairs, and a terminator behind them. -/
theorem spell_of_parse (parsed : parse bytes = .ok p) :
    (∀ pair ∈ p.iter, Listable pair) ∧ p.asSent = spell p.iter (u16At bytes (p.stop + 2)) ∧
      p.bytes = p.asSent ++ bytes.drop (p.stop + 4) := by
  cases ends : terminator bytes (bytes.length + 1) 0 with
  | error error =>
      rw [parse, ends] at parsed
      cases parsed
  | ok stop =>
      rw [parse, ends] at parsed
      cases parsed
      obtain ⟨last, terminates, pairs, spelt, rfl, listable⟩ := pairs_of_terminator ends
      rw [List.drop_zero] at spelt
      rw [Nat.zero_add] at *
      have id := @take_two_drop bytes (pairs.flatMap put).length (by omega)
      have length := @take_two_drop bytes ((pairs.flatMap put).length + 2) (by omega)
      have four : (bytes.drop (pairs.flatMap put).length).take 4 =
          u16le AV_EOL ++ u16le (u16At bytes ((pairs.flatMap put).length + 2)) := by
        rw [← terminates, ← id, ← length, ← List.drop_drop, ← List.take_add]
      have sent : bytes.take ((pairs.flatMap put).length + 4) =
          spell pairs (u16At bytes ((pairs.flatMap put).length + 2)) := by
        rw [spell, ← four]
        conv_lhs => rw [spelt, List.take_length_add_append]
      have read : iter ⟨bytes, (pairs.flatMap put).length⟩ = pairs := by
        have all := @iter_spell pairs (bytes.drop ((pairs.flatMap put).length + 4))
          (u16At bytes ((pairs.flatMap put).length + 2)) fun pair member => (listable pair member).2
        rwa [← sent, List.take_append_drop] at all
      refine ⟨?_, ?_, ?_⟩
      · rw [read]
        exact listable
      · rw [read]
        exact sent
      · exact (List.take_append_drop _ _).symm

/-! ## Flags -/

/-- A flags value that says a MIC follows. -/
def SaysMic (value : Bytes) : Prop := value.length = 4 ∧ u32At value 0 &&& AV_FLAG_MIC_PROVIDED ≠ 0

instance (value : Bytes) : Decidable (SaysMic value) := instDecidableAnd

/-- The flags a list is read by say that a MIC follows. -/
def ClaimsMic (p : AvPairs) : Prop := ∃ value, p.get AV_FLAGS = some value ∧ SaysMic value

/-- The same pairs in the same order: the values of flags may differ, or there is one pair of
flags more behind them. -/
def Amends (before after : List AvPair) : Prop :=
  ∃ kept added, after = kept ++ added ∧
    List.Forall₂ (fun pair pair' => pair' = pair ∨ pair.1 = AV_FLAGS ∧ pair'.1 = AV_FLAGS)
      before kept ∧
    (added = [] ∨ kept = before ∧ ∃ value, added = [(AV_FLAGS, value)])

/-- The pairs of an answer with a MIC. -/
def marked (pairs : List AvPair) : List AvPair :=
  pairs.map flagged ++
    if pairs.any isFlags then [] else [(AV_FLAGS, u32le AV_FLAG_MIC_PROVIDED)]

@[simp] theorem flagged_fst : (flagged pair).1 = pair.1 := by
  rw [flagged]
  split <;> rfl

theorem flagged_of_not_isFlags (other : isFlags pair = false) : flagged pair = pair := by
  rw [flagged, if_neg (Bool.eq_false_iff.mp other)]

theorem length_of_isFlags (flags : isFlags pair = true) : pair.2.length = 4 := by
  rw [isFlags, Bool.and_eq_true] at flags
  exact of_decide_eq_true flags.2

theorem length_flagged : (flagged pair).2.length = pair.2.length := by
  rw [flagged]
  split
  · next flags => rw [length_u32le, length_of_isFlags flags]
  · rfl

theorem saysMic_or (flags : UInt32) : SaysMic (u32le (flags ||| AV_FLAG_MIC_PROVIDED)) := by
  refine ⟨length_u32le _, ?_⟩
  have read := u32At_append [] [] (flags ||| AV_FLAG_MIC_PROVIDED)
  rw [List.nil_append, List.append_nil, List.length_nil] at read
  rw [read]
  intro clear
  have bits := congrArg UInt32.toNat clear
  rw [UInt32.toNat_and, UInt32.toNat_or, Nat.and_or_distrib_right, Nat.and_self,
    UInt32.toNat_zero, Nat.or_eq_zero_iff] at bits
  have bit : AV_FLAG_MIC_PROVIDED.toNat = 2 := rfl
  omega

/-- A pair of flags says that a MIC follows once it is flagged, if it holds flags at all. -/
theorem saysMic_flagged_iff (flags : pair.1 = AV_FLAGS) :
    SaysMic (flagged pair).2 ↔ pair.2.length = 4 := by
  constructor
  · intro claims
    rw [← length_flagged]
    exact claims.1
  · intro four
    have isFlags : isFlags pair = true := by
      rw [isFlags, decide_eq_true flags, decide_eq_true four]
      rfl
    rw [flagged, if_pos isFlags]
    exact saysMic_or _

theorem withMicFlag_eq : p.withMicFlag = spell (marked p.iter) 0 := by
  rw [withMicFlag, spell, marked, List.flatMap_append, List.flatMap_map, List.append_assoc]
  split
  · rfl
  · rw [List.flatMap_cons, List.flatMap_nil, List.append_nil]

theorem listable_marked (listable : ∀ pair ∈ pairs, Listable pair) :
    ∀ pair ∈ marked pairs, Listable pair := by
  intro pair member
  rcases List.mem_append.mp member with old | new
  · obtain ⟨before, known, rfl⟩ := List.mem_map.mp old
    obtain ⟨goesOn, short⟩ := listable before known
    refine ⟨?_, ?_⟩
    · rw [flagged_fst]
      exact goesOn
    · rw [length_flagged]
      exact short
  · split at new
    · cases new
    · cases List.mem_singleton.mp new
      exact ⟨by decide, by rw [length_u32le]; decide⟩

theorem amends_marked (pairs : List AvPair) : Amends pairs (marked pairs) := by
  refine ⟨_, _, rfl, ?_, ?_⟩
  · rw [List.forall₂_map_right_iff]
    refine List.forall₂_same.mpr fun pair _ => ?_
    cases flags : isFlags pair with
    | false => exact Or.inl (flagged_of_not_isFlags flags)
    | true =>
        rw [isFlags, Bool.and_eq_true] at flags
        have id := of_decide_eq_true flags.1
        exact Or.inr ⟨id, flagged_fst.trans id⟩
  · cases any : pairs.any isFlags with
    | true => exact Or.inl (if_pos rfl)
    | false =>
        refine Or.inr ⟨?_, _, if_neg Bool.false_ne_true⟩
        rw [List.any_eq_false] at any
        refine (List.map_congr_left fun pair member => ?_).trans (List.map_id pairs)
        exact flagged_of_not_isFlags (Bool.eq_false_iff.mpr (any pair member))

/-- The first pair of flags of an answer, where the server sent flags and where it did not. -/
theorem find_marked (pairs : List AvPair) :
    (marked pairs).find? (·.1 = AV_FLAGS) =
      some (((pairs.find? (·.1 = AV_FLAGS)).map flagged).getD
        (AV_FLAGS, u32le AV_FLAG_MIC_PROVIDED)) := by
  have through : ((fun pair : AvPair => decide (pair.1 = AV_FLAGS)) ∘ flagged) =
      fun pair => decide (pair.1 = AV_FLAGS) := by
    funext pair
    rw [Function.comp_apply, flagged_fst]
  rw [marked, List.find?_append, List.find?_map, through]
  cases found : pairs.find? (·.1 = AV_FLAGS) with
  | some pair => rfl
  | none =>
      have clear : pairs.any isFlags = false := by
        rw [List.any_eq_false]
        intro pair member flags
        rw [isFlags, Bool.and_eq_true] at flags
        exact List.find?_eq_none.mp found pair member flags.1
      rw [clear]
      rfl

/-- **When an answer with a MIC says so.** -/
theorem claimsMic_marked_iff {q : AvPairs} (reads : q.iter = marked p.iter) :
    ClaimsMic q ↔ ∀ value, p.get AV_FLAGS = some value → value.length = 4 := by
  rw [ClaimsMic, get, reads, find_marked, get]
  cases found : p.iter.find? (·.1 = AV_FLAGS) with
  | none =>
      constructor
      · rintro - value found
        cases found
      · rintro -
        refine ⟨_, rfl, ?_⟩
        decide
  | some pair =>
      have flags : pair.1 = AV_FLAGS := by simpa using List.find?_some found
      have exactly := saysMic_flagged_iff flags
      constructor
      · rintro ⟨value, sent, claims⟩ value' rfl'
        cases sent
        cases rfl'
        exact exactly.mp claims
      · intro four
        exact ⟨_, rfl, exactly.mpr (four _ rfl)⟩

/-- The list of an answer with a MIC is read back as what was sent. -/
theorem parse_withMicFlag (listable : ∀ pair ∈ p.iter, Listable pair) :
    ∃ q, parse p.withMicFlag = .ok q ∧ q.iter = marked p.iter := by
  have fits := listable_marked listable
  rw [withMicFlag_eq]
  refine ⟨_, parse_spell fits, ?_⟩
  have read := @iter_spell (marked p.iter) [] 0 fun pair member => (fits pair member).2
  rwa [List.append_nil] at read

/-- A list that is sent back as it came says what it said. -/
theorem claimsMic_asSent_iff (parsed : parse bytes = .ok p) :
    ClaimsMic ⟨p.asSent, p.asSent.length - 4⟩ ↔
      ∃ value, p.get AV_FLAGS = some value ∧ SaysMic value := by
  obtain ⟨listable, sent, -⟩ := spell_of_parse parsed
  have read : iter ⟨p.asSent, p.asSent.length - 4⟩ = p.iter := by
    have all := @iter_spell p.iter [] (u16At bytes (p.stop + 2)) fun pair member =>
      (listable pair member).2
    rw [sent, length_spell, Nat.add_sub_cancel]
    rwa [List.append_nil] at all
  rw [ClaimsMic, get, read]
  rfl

end AvPairs

end Ntlm

end Smb1Client
