import Mathlib

/-!
# Little-endian fields

Fixed-width little-endian integers as byte lists, and a reader that takes them
off the front of a list one after another. Reading back what was written gives
the value modulo the width (`LittleEndian.decode_encode`), which for a value of
the field's own type is the value.
-/

namespace LittleEndian

/-- The `width` low bytes of `n`, least significant first. -/
def encode : ℕ → ℕ → List UInt8
  | 0, _ => []
  | width + 1, n => UInt8.ofNat n :: encode width (n / 256)

/-- The number a byte list spells, least significant first. -/
def decode : List UInt8 → ℕ
  | [] => 0
  | b :: bs => b.toNat + 256 * decode bs

@[simp] theorem length_encode (width n : ℕ) : (encode width n).length = width := by
  induction width generalizing n with
  | zero => rfl
  | succ width ih => rw [encode, List.length_cons, ih]

theorem decode_encode (width n : ℕ) : decode (encode width n) = n % 256 ^ width := by
  induction width generalizing n with
  | zero => rw [encode, decode, Nat.pow_zero, Nat.mod_one]
  | succ width ih =>
      have head : (UInt8.ofNat n).toNat = n % 256 := UInt8.toNat_ofNat'
      rw [encode, decode, ih, head, Nat.pow_succ', Nat.mod_mul]

theorem encode_decode (bs : List UInt8) : encode bs.length (decode bs) = bs := by
  induction bs with
  | nil => rfl
  | cons b bs ih =>
      have low : (b.toNat + 256 * decode bs) % 256 = b.toNat := by
        have small : b.toNat < 256 := b.toNat_lt
        omega
      have head : UInt8.ofNat (b.toNat + 256 * decode bs) = b := by
        rw [← UInt8.toNat_inj, UInt8.toNat_ofNat', low]
      have tail : (b.toNat + 256 * decode bs) / 256 = decode bs := by
        have small : b.toNat < 256 := b.toNat_lt
        omega
      rw [List.length_cons, decode, encode, head, tail, ih]

theorem decode_append (front back : List UInt8) :
    decode (front ++ back) = decode front + 256 ^ front.length * decode back := by
  induction front with
  | nil => rw [List.nil_append, decode, List.length_nil, Nat.pow_zero, Nat.one_mul, Nat.zero_add]
  | cons b front ih =>
      rw [List.cons_append, decode, ih, decode, List.length_cons, Nat.pow_succ', Nat.mul_add,
        Nat.mul_assoc, Nat.add_assoc]

theorem decode_lt (bs : List UInt8) : decode bs < 256 ^ bs.length := by
  induction bs with
  | nil => exact Nat.one_pos
  | cons b bs ih =>
      have head : b.toNat < 256 := b.toNat_lt
      rw [decode, List.length_cons, Nat.pow_succ']
      omega

/-- Takes a value off the front of a byte list, or fails where the bytes run out. -/
abbrev Reader : Type → Type := StateT (List UInt8) Option

namespace Reader

variable {α β : Type}

theorem bind_apply (x : Reader α) (f : α → Reader β) (s : List UInt8) :
    (x >>= f) s = (x s).bind fun p => f p.1 p.2 := rfl

theorem pure_apply (a : α) (s : List UInt8) : (pure a : Reader α) s = some (a, s) := rfl

theorem map_apply (f : α → β) (x : Reader α) (s : List UInt8) :
    (f <$> x) s = (x s).map fun p => (f p.1, p.2) := by
  change (x s).bind (fun p => some (f p.1, p.2)) = _
  cases x s <;> rfl

/-- The next `count` bytes. -/
def take (count : ℕ) : Reader (List UInt8) := fun s =>
  if count ≤ s.length then some (s.take count, s.drop count) else none

/-- The next `count` bytes as an array. -/
def vector (count : ℕ) : Reader (Vector UInt8 count) := fun s =>
  if enough : count ≤ s.length then
    some (⟨(s.take count).toArray, by rw [List.size_toArray, List.length_take_of_le enough]⟩,
      s.drop count)
  else none

/-- The next `width` bytes as a number. -/
def nat (width : ℕ) : Reader ℕ := decode <$> take width

def u8 : Reader UInt8 := UInt8.ofNat <$> nat 1
def u16 : Reader UInt16 := UInt16.ofNat <$> nat 2
def u32 : Reader UInt32 := UInt32.ofNat <$> nat 4
def u64 : Reader UInt64 := UInt64.ofNat <$> nat 8

theorem take_append (bs s : List UInt8) : take bs.length (bs ++ s) = some (bs, s) := by
  rw [take, if_pos (by rw [List.length_append]; omega), List.take_left, List.drop_left]

theorem vector_append {count : ℕ} (v : Vector UInt8 count) (s : List UInt8) :
    vector count (v.toList ++ s) = some (v, s) := by
  obtain ⟨bytes, rfl⟩ := v
  have enough : bytes.size ≤ (bytes.toList ++ s).length := by simp
  rw [vector]
  simp only [Vector.toList_mk, dif_pos enough]
  congr 2
  · apply Vector.toArray_inj.mp
    simp
  · simp

/-- A value that fits its field is read back from it. -/
theorem field_append (ofNat : ℕ → α) {width n : ℕ} (fits : n < 256 ^ width) (s : List UInt8) :
    (ofNat <$> nat width) (encode width n ++ s) = some (ofNat n, s) := by
  have front := take_append (encode width n) s
  rw [length_encode] at front
  rw [nat, map_apply, map_apply, front, Option.map_some, Option.map_some, decode_encode,
    Nat.mod_eq_of_lt fits]

end Reader

/-! ## Fields of the machine widths -/

def u8le (x : UInt8) : List UInt8 := encode 1 x.toNat
def u16le (x : UInt16) : List UInt8 := encode 2 x.toNat
def u32le (x : UInt32) : List UInt8 := encode 4 x.toNat
def u64le (x : UInt64) : List UInt8 := encode 8 x.toNat

@[simp] theorem length_u8le (x : UInt8) : (u8le x).length = 1 := length_encode 1 _
@[simp] theorem length_u16le (x : UInt16) : (u16le x).length = 2 := length_encode 2 _
@[simp] theorem length_u32le (x : UInt32) : (u32le x).length = 4 := length_encode 4 _
@[simp] theorem length_u64le (x : UInt64) : (u64le x).length = 8 := length_encode 8 _

theorem decode_u16le (x : UInt16) : decode (u16le x) = x.toNat := by
  rw [u16le, decode_encode]
  exact Nat.mod_eq_of_lt x.toNat_lt

theorem decode_u32le (x : UInt32) : decode (u32le x) = x.toNat := by
  rw [u32le, decode_encode]
  exact Nat.mod_eq_of_lt x.toNat_lt

namespace Reader

@[simp] theorem u8_append (x : UInt8) (s : List UInt8) : u8 (u8le x ++ s) = some (x, s) := by
  rw [u8, u8le, field_append _ x.toNat_lt, UInt8.ofNat_toNat]

@[simp] theorem u16_append (x : UInt16) (s : List UInt8) : u16 (u16le x ++ s) = some (x, s) := by
  rw [u16, u16le, field_append _ x.toNat_lt, UInt16.ofNat_toNat]

@[simp] theorem u32_append (x : UInt32) (s : List UInt8) : u32 (u32le x ++ s) = some (x, s) := by
  rw [u32, u32le, field_append _ x.toNat_lt, UInt32.ofNat_toNat]

@[simp] theorem u64_append (x : UInt64) (s : List UInt8) : u64 (u64le x ++ s) = some (x, s) := by
  rw [u64, u64le, field_append _ x.toNat_lt, UInt64.ofNat_toNat]

/-- A reader that gives `a` back from `bs` hands `a` and the rest to what follows it. -/
theorem bind_of_append {x : Reader α} {bs : List UInt8} {a : α}
    (front : ∀ s, x (bs ++ s) = some (a, s)) (f : α → Reader β) (s : List UInt8) :
    (x >>= f) (bs ++ s) = f a s := by
  rw [bind_apply, front, Option.bind_some]

variable (f : List UInt8 → Reader β) (s : List UInt8)

theorem u8_bind (f : UInt8 → Reader β) (x : UInt8) : (u8 >>= f) (u8le x ++ s) = f x s :=
  bind_of_append (u8_append x) f s

theorem u16_bind (f : UInt16 → Reader β) (x : UInt16) : (u16 >>= f) (u16le x ++ s) = f x s :=
  bind_of_append (u16_append x) f s

theorem u32_bind (f : UInt32 → Reader β) (x : UInt32) : (u32 >>= f) (u32le x ++ s) = f x s :=
  bind_of_append (u32_append x) f s

theorem u64_bind (f : UInt64 → Reader β) (x : UInt64) : (u64 >>= f) (u64le x ++ s) = f x s :=
  bind_of_append (u64_append x) f s

theorem vector_bind {count : ℕ} (f : Vector UInt8 count → Reader β) (v : Vector UInt8 count) :
    (vector count >>= f) (v.toList ++ s) = f v s :=
  bind_of_append (vector_append v) f s

theorem take_bind (bs : List UInt8) : (take bs.length >>= f) (bs ++ s) = f bs s :=
  bind_of_append (take_append bs) f s

end Reader

end LittleEndian
