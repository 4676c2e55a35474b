import Smb1Client.Lib.Utf16
import Smb1Client.Wire.Message

/-!
Text on the wire: null-terminated UTF-16LE and null-terminated ASCII.

A string without a null character is read back from where it was written
whatever follows it (`utf16Field_append`, `findUtf16Terminator_append`). The
encoders put no bound on a string's length; that is the callers' affair.
-/

namespace Smb1Client

open LittleEndian

/-- A `str`: any sequence of Unicode scalar values. -/
abbrev Text := List Char

/-- The bytes of a string's UTF-16 code units, without a terminator. -/
def utf16Bytes (text : Text) : Bytes := Utf16.toBytes (Utf16.encode text)

/-- Null-terminated UTF-16LE. -/
def utf16z (text : Text) : Bytes := utf16Bytes text ++ [0, 0]

/-- Decodes UTF-16LE, refusing what is not valid. -/
def fromUtf16 (field : String) (position : ℕ) (bytes : Bytes) : Except WireError Text :=
  if bytes.length % 2 ≠ 0 then .error (.invalidUtf16 field position bytes)
  else
    match Utf16.decode (Utf16.ofBytes bytes) with
    | some text => .ok text
    | none => .error (.invalidUtf16 field position bytes)

/-- The byte length before the first zero pair of a list of byte pairs. -/
def terminatorAt (bytes : Bytes) : Option ℕ :=
  ((Utf16.ofBytes bytes).findIdx? (· = 0)).map (· * 2)

/-- A null-terminated UTF-16LE string at `start`, with its length in bytes
without the terminator. -/
def utf16Field (field : String) (area : Bytes) (start : ℕ) : Except WireError (Text × ℕ) :=
  if start ≤ area.length then
    let rest := area.drop start
    match terminatorAt rest with
    | none => .error (.truncated field rest.length rest.length)
    | some stop => (fromUtf16 field 0 (rest.take stop)).map (·, stop)
  else .error (.truncated field start area.length)

def findUtf16Terminator (bytes : Bytes) : Except WireError ℕ :=
  match terminatorAt bytes with
  | none => .error (.truncated "UTF-16 string terminator" bytes.length bytes.length)
  | some stop => .ok stop

/-! ## ASCII -/

/-- `str::as_bytes`. -/
def asBytes (text : Text) : Bytes := text.flatMap String.utf8EncodeChar

def REPLACEMENT : Char := '\uFFFD'

/-- A byte that continues a UTF-8 sequence. -/
def isContinuation (b : UInt8) : Bool := 0x80 ≤ b && b ≤ 0xBF

/-- The bytes that may follow the lead of a three-byte or four-byte sequence:
the leads next to a gap in the code space narrow them. -/
def secondRange (lead : UInt8) : UInt8 × UInt8 :=
  if lead = 0xE0 then (0xA0, 0xBF)
  else if lead = 0xED then (0x80, 0x9F)
  else if lead = 0xF0 then (0x90, 0xBF)
  else if lead = 0xF4 then (0x80, 0x8F)
  else (0x80, 0xBF)

def isSecond (lead b : UInt8) : Bool := (secondRange lead).1 ≤ b && b ≤ (secondRange lead).2

/-- `String::from_utf8_lossy`: each maximal prefix of a sequence that goes no
further is replaced by one `U+FFFD`. -/
def fromUtf8Lossy : Bytes → Text
  | [] => []
  | a :: rest =>
      if a < 0x80 then Char.ofNat a.toNat :: fromUtf8Lossy rest
      else if 0xC2 ≤ a ∧ a ≤ 0xDF then
        match rest with
        | b :: rest' =>
            if isContinuation b then
              Char.ofNat ((a.toNat - 0xC0) * 0x40 + (b.toNat - 0x80)) :: fromUtf8Lossy rest'
            else REPLACEMENT :: fromUtf8Lossy (b :: rest')
        | [] => [REPLACEMENT]
      else if 0xE0 ≤ a ∧ a ≤ 0xEF then
        match rest with
        | b :: c :: rest' =>
            if isSecond a b then
              if isContinuation c then
                Char.ofNat ((a.toNat - 0xE0) * 0x1000 + (b.toNat - 0x80) * 0x40 +
                  (c.toNat - 0x80)) :: fromUtf8Lossy rest'
              else REPLACEMENT :: fromUtf8Lossy (c :: rest')
            else REPLACEMENT :: fromUtf8Lossy (b :: c :: rest')
        | [b] => if isSecond a b then [REPLACEMENT] else REPLACEMENT :: fromUtf8Lossy [b]
        | [] => [REPLACEMENT]
      else if 0xF0 ≤ a ∧ a ≤ 0xF4 then
        match rest with
        | b :: c :: d :: rest' =>
            if isSecond a b then
              if isContinuation c then
                if isContinuation d then
                  Char.ofNat ((a.toNat - 0xF0) * 0x40000 + (b.toNat - 0x80) * 0x1000 +
                    (c.toNat - 0x80) * 0x40 + (d.toNat - 0x80)) :: fromUtf8Lossy rest'
                else REPLACEMENT :: fromUtf8Lossy (d :: rest')
              else REPLACEMENT :: fromUtf8Lossy (c :: d :: rest')
            else REPLACEMENT :: fromUtf8Lossy (b :: c :: d :: rest')
        | [b, c] =>
            if isSecond a b then
              if isContinuation c then [REPLACEMENT] else REPLACEMENT :: fromUtf8Lossy [c]
            else REPLACEMENT :: fromUtf8Lossy [b, c]
        | [b] => if isSecond a b then [REPLACEMENT] else REPLACEMENT :: fromUtf8Lossy [b]
        | [] => [REPLACEMENT]
      else REPLACEMENT :: fromUtf8Lossy rest

/-- Reads a null-terminated ASCII string. -/
def asciiZ (field : String) (bytes : Bytes) : Except WireError Text :=
  match bytes.findIdx? (· = 0) with
  | none => .error (.truncated field bytes.length bytes.length)
  | some stop => .ok (fromUtf8Lossy (bytes.take stop))

/-! ## Reading back what was written -/

@[simp] theorem length_utf16Bytes (text : Text) :
    (utf16Bytes text).length = 2 * (Utf16.encode text).length :=
  Utf16.length_toBytes _

@[simp] theorem length_utf16z (text : Text) :
    (utf16z text).length = 2 * (Utf16.encode text).length + 2 := by
  rw [utf16z, List.length_append, length_utf16Bytes]
  rfl

theorem fromUtf16_utf16Bytes (field : String) (position : ℕ) (text : Text) :
    fromUtf16 field position (utf16Bytes text) = .ok text := by
  rw [fromUtf16, if_neg (by rw [length_utf16Bytes]; omega), utf16Bytes, Utf16.ofBytes_toBytes,
    Utf16.decode_encode]

theorem terminatorAt_append {text : Text} (noNull : '\x00' ∉ text) (rest : Bytes) :
    terminatorAt (utf16z text ++ rest) = some (utf16Bytes text).length := by
  have nonzero : ∀ u ∈ Utf16.encode text, (decide (u = 0)) = false := by
    intro u member
    rw [decide_eq_false_iff_not]
    rintro rfl
    exact noNull (Utf16.zero_mem_encode.mp member)
  have units : Utf16.ofBytes (utf16z text ++ rest) =
      Utf16.encode text ++ 0 :: Utf16.ofBytes rest := by
    rw [utf16z, utf16Bytes, List.append_assoc, Utf16.ofBytes_toBytes_append]
    rfl
  have none : (Utf16.encode text).findIdx? (· = 0) = none :=
    List.findIdx?_eq_none_iff.mpr nonzero
  rw [terminatorAt, units, List.findIdx?_append, none, Option.none_or, List.findIdx?_cons,
    length_utf16Bytes]
  simp [Nat.mul_comm]

theorem utf16Field_append (field : String) {text : Text} (noNull : '\x00' ∉ text)
    (front rest : Bytes) :
    utf16Field field (front ++ (utf16z text ++ rest)) front.length =
      .ok (text, (utf16Bytes text).length) := by
  have text_first : (utf16z text ++ rest).take (utf16Bytes text).length = utf16Bytes text := by
    rw [utf16z, List.append_assoc, List.take_left]
  rw [utf16Field, if_pos (by rw [List.length_append]; omega), List.drop_left]
  dsimp only
  rw [terminatorAt_append noNull]
  dsimp only
  rw [text_first, fromUtf16_utf16Bytes]
  rfl

theorem findUtf16Terminator_append {text : Text} (noNull : '\x00' ∉ text) (rest : Bytes) :
    findUtf16Terminator (utf16z text ++ rest) = .ok (utf16Bytes text).length := by
  rw [findUtf16Terminator, terminatorAt_append noNull]

end Smb1Client
