import Smb1Client.Lib.LittleEndian

/-!
# UTF-16

Text as UTF-16 code units and as little-endian bytes. Decoding refuses a lone
surrogate rather than replacing it, so it inverts encoding exactly
(`Utf16.decode_encode`), and a zero unit is in the encoding only where the null
character is in the text (`Utf16.zero_mem_encode`).
-/

namespace Utf16

open LittleEndian

/-- The one or two code units of a character. -/
def units (c : Char) : List UInt16 :=
  if c.toNat < 0x10000 then [UInt16.ofNat c.toNat]
  else [UInt16.ofNat (0xD800 + (c.toNat - 0x10000) / 0x400),
    UInt16.ofNat (0xDC00 + (c.toNat - 0x10000) % 0x400)]

def encode (text : List Char) : List UInt16 := text.flatMap units

/-- Reads code units as text, or fails at a lone surrogate. -/
def decode : List UInt16 → Option (List Char)
  | [] => some []
  | u :: us =>
      if u.toNat < 0xD800 ∨ 0xE000 ≤ u.toNat then (decode us).map (Char.ofNat u.toNat :: ·)
      else if u.toNat < 0xDC00 then
        match us with
        | v :: vs =>
            if 0xDC00 ≤ v.toNat ∧ v.toNat < 0xE000 then
              (decode vs).map
                (Char.ofNat (0x10000 + (u.toNat - 0xD800) * 0x400 + (v.toNat - 0xDC00)) :: ·)
            else none
        | [] => none
      else none

theorem toNat_range (c : Char) : c.toNat < 0xD800 ∨ 0xE000 ≤ c.toNat ∧ c.toNat < 0x110000 := by
  rcases c.valid with low | ⟨low, high⟩
  · exact Or.inl low
  · exact Or.inr ⟨Nat.succ_le_of_lt low, high⟩

theorem decode_basic {u : UInt16} (basic : u.toNat < 0xD800 ∨ 0xE000 ≤ u.toNat)
    (us : List UInt16) : decode (u :: us) = (decode us).map (Char.ofNat u.toNat :: ·) := by
  rw [decode.eq_def]
  exact if_pos basic

theorem decode_pair {u v : UInt16} (high : 0xD800 ≤ u.toNat ∧ u.toNat < 0xDC00)
    (low : 0xDC00 ≤ v.toNat ∧ v.toNat < 0xE000) (us : List UInt16) :
    decode (u :: v :: us) = (decode us).map
      (Char.ofNat (0x10000 + (u.toNat - 0xD800) * 0x400 + (v.toNat - 0xDC00)) :: ·) := by
  rw [decode.eq_def]
  dsimp only
  rw [if_neg (by omega), if_pos high.2, if_pos low]

theorem decode_units_append (c : Char) (us : List UInt16) :
    decode (units c ++ us) = (decode us).map (c :: ·) := by
  have range := toNat_range c
  by_cases basic : c.toNat < 0x10000
  · have unit : (UInt16.ofNat c.toNat).toNat = c.toNat := by
      rw [UInt16.toNat_ofNat']
      exact Nat.mod_eq_of_lt basic
    rw [units, if_pos basic, List.singleton_append, decode_basic (by omega), unit,
      Char.ofNat_toNat]
  · have high : (UInt16.ofNat (0xD800 + (c.toNat - 0x10000) / 0x400)).toNat =
        0xD800 + (c.toNat - 0x10000) / 0x400 := by
      rw [UInt16.toNat_ofNat']
      exact Nat.mod_eq_of_lt (by omega)
    have low : (UInt16.ofNat (0xDC00 + (c.toNat - 0x10000) % 0x400)).toNat =
        0xDC00 + (c.toNat - 0x10000) % 0x400 := by
      rw [UInt16.toNat_ofNat']
      exact Nat.mod_eq_of_lt (by omega)
    have joined : 0x10000 + (0xD800 + (c.toNat - 0x10000) / 0x400 - 0xD800) * 0x400 +
        (0xDC00 + (c.toNat - 0x10000) % 0x400 - 0xDC00) = c.toNat := by omega
    rw [units, if_neg basic, List.cons_append, List.singleton_append,
      decode_pair (by omega) (by omega), high, low, joined, Char.ofNat_toNat]

theorem decode_encode (text : List Char) : decode (encode text) = some text := by
  induction text with
  | nil => rfl
  | cons c text ih =>
      rw [encode, List.flatMap_cons, ← encode, decode_units_append, ih, Option.map_some]

theorem zero_mem_units {c : Char} : 0 ∈ units c ↔ c = '\x00' := by
  have range := toNat_range c
  have zero : ∀ n, n < 2 ^ 16 → ((0 : UInt16) = UInt16.ofNat n ↔ n = 0) := by
    intro n small
    rw [← UInt16.toNat_inj, UInt16.toNat_ofNat', Nat.mod_eq_of_lt small]
    exact eq_comm
  unfold units
  split
  · next basic =>
      rw [List.mem_singleton, zero _ basic]
      constructor
      · intro null
        rw [← Char.ofNat_toNat c, null]
      · rintro rfl
        rfl
  · next astral =>
      rw [List.mem_cons, List.mem_singleton, zero _ (by omega), zero _ (by omega)]
      constructor
      · omega
      · rintro rfl
        exact absurd (by decide) astral

theorem zero_mem_encode {text : List Char} : 0 ∈ encode text ↔ '\x00' ∈ text := by
  rw [encode, List.mem_flatMap]
  constructor
  · rintro ⟨c, member, null⟩
    exact zero_mem_units.mp null ▸ member
  · intro member
    exact ⟨'\x00', member, zero_mem_units.mpr rfl⟩

/-! ## Little-endian bytes -/

def toBytes (us : List UInt16) : List UInt8 := us.flatMap u16le

/-- The byte pairs of a list as code units; a last odd byte is left out. -/
def ofBytes : List UInt8 → List UInt16
  | a :: b :: rest => UInt16.ofNat (LittleEndian.decode [a, b]) :: ofBytes rest
  | _ => []

theorem u16le_eq (x : UInt16) :
    u16le x = [UInt8.ofNat x.toNat, UInt8.ofNat (x.toNat / 256)] := rfl

theorem ofBytes_u16le_append (x : UInt16) (bs : List UInt8) :
    ofBytes (u16le x ++ bs) = x :: ofBytes bs := by
  have back := decode_u16le x
  rw [u16le_eq] at back ⊢
  rw [List.cons_append, List.singleton_append, ofBytes, back, UInt16.ofNat_toNat]

theorem ofBytes_toBytes_append (us : List UInt16) (bs : List UInt8) :
    ofBytes (toBytes us ++ bs) = us ++ ofBytes bs := by
  induction us with
  | nil => rfl
  | cons u us ih =>
      rw [toBytes, List.flatMap_cons, ← toBytes, List.append_assoc, ofBytes_u16le_append, ih,
        List.cons_append]

theorem ofBytes_toBytes (us : List UInt16) : ofBytes (toBytes us) = us := by
  have back := ofBytes_toBytes_append us []
  rwa [List.append_nil, show ofBytes [] = [] from rfl, List.append_nil] at back

@[simp] theorem length_toBytes (us : List UInt16) : (toBytes us).length = 2 * us.length := by
  induction us with
  | nil => rfl
  | cons u us ih =>
      rw [toBytes, List.flatMap_cons, ← toBytes, List.length_append, length_u16le, ih,
        List.length_cons]
      omega

theorem toBytes_append (us vs : List UInt16) : toBytes (us ++ vs) = toBytes us ++ toBytes vs :=
  List.flatMap_append

end Utf16
