import Smb1Client.Wire.Message

/-!
`SMB_COM_READ_ANDX` and `SMB_COM_WRITE_ANDX`.

The lengths of the payloads come from two 16-bit fields and not from `ByteCount`; an
offset travels in two 32-bit fields. What a server reads of an encoded request is stated
in `decode_encoded`: the offset, the count and the data that were asked with.
-/

namespace Smb1Client

open LittleEndian

def READ_WORDS : UInt8 := 12
def WRITE_REQUEST_WORDS : UInt8 := 14
def WRITE_RESPONSE_WORDS : UInt8 := 6

/-! ## Fields in two halves -/

theorem or_shiftLeft {low high width : ℕ} (small : low < 2 ^ width) :
    low ||| (high <<< width) = high * 2 ^ width + low := by
  rw [Nat.lor_comm, ← Nat.shiftLeft_add_eq_or_of_lt small, Nat.shiftLeft_eq]

/-- An offset is the two halves it travels in. -/
theorem halves_of_offset (x : UInt64) :
    x.toUInt32.toUInt64 ||| ((x >>> 32).toUInt32.toUInt64 <<< 32) = x := by
  apply UInt64.toNat_inj.mp
  have bound := x.toNat_lt
  have high : x.toNat / 2 ^ 32 < 2 ^ 32 := by omega
  have wide : (x.toNat / 2 ^ 32) <<< 32 < 2 ^ 64 := by
    rw [Nat.shiftLeft_eq]
    omega
  have width : (32 : UInt64).toNat % 64 = 32 := rfl
  rw [UInt64.toNat_or, UInt64.toNat_shiftLeft, UInt32.toNat_toUInt64, UInt32.toNat_toUInt64,
    UInt64.toNat_toUInt32, UInt64.toNat_toUInt32, UInt64.toNat_shiftRight, width,
    Nat.shiftRight_eq_div_pow, Nat.mod_eq_of_lt high, Nat.mod_eq_of_lt wide,
    or_shiftLeft (Nat.mod_lt _ (by decide))]
  omega

/-- A byte count is the two halves it travels in, the upper one in 32 bits. -/
theorem halves_of_count (x : UInt32) : x.toUInt16.toUInt32 ||| ((x >>> 16) <<< 16) = x := by
  apply UInt32.toNat_inj.mp
  have bound := x.toNat_lt
  have wide : (x.toNat / 2 ^ 16) <<< 16 < 2 ^ 32 := by
    rw [Nat.shiftLeft_eq]
    omega
  have width : (16 : UInt32).toNat % 32 = 16 := rfl
  rw [UInt32.toNat_or, UInt32.toNat_shiftLeft, UInt16.toNat_toUInt32, UInt32.toNat_toUInt16,
    UInt32.toNat_shiftRight, width, Nat.shiftRight_eq_div_pow, Nat.mod_eq_of_lt wide,
    or_shiftLeft (Nat.mod_lt _ (by decide))]
  omega

/-- A payload length, from the fields that carry it at full width. -/
def payloadLength (dataLength dataLengthHigh : UInt16) : ℕ :=
  dataLength.toNat ||| (dataLengthHigh.toNat <<< 16)

theorem payloadLength_halves {length : ℕ} (fits : length < 2 ^ 32) :
    payloadLength (UInt16.ofNat length) (UInt16.ofNat (length >>> 16)) = length := by
  have low : (UInt16.ofNat length).toNat = length % 2 ^ 16 := UInt16.toNat_ofNat'
  have high : (UInt16.ofNat (length >>> 16)).toNat = length / 2 ^ 16 := by
    rw [UInt16.toNat_ofNat', Nat.shiftRight_eq_div_pow]
    omega
  rw [payloadLength, low, high, or_shiftLeft (Nat.mod_lt _ (by decide))]
  omega

/-! ## READ_ANDX -/

structure ReadRequestWords where
  andx : AndX
  fid : UInt16
  offset : UInt32
  maxCount : UInt16
  minCount : UInt16
  maxCountHigh : UInt32
  remaining : UInt16
  offsetHigh : UInt32
  deriving DecidableEq, Repr

namespace ReadRequestWords

def write (w : ReadRequestWords) : Bytes :=
  w.andx.write ++ (u16le w.fid ++ (u32le w.offset ++ (u16le w.maxCount ++ (u16le w.minCount ++
    (u32le w.maxCountHigh ++ (u16le w.remaining ++ u32le w.offsetHigh))))))

def read : Reader ReadRequestWords := do
  let andx ← AndX.read
  let fid ← Reader.u16
  let offset ← Reader.u32
  let maxCount ← Reader.u16
  let minCount ← Reader.u16
  let maxCountHigh ← Reader.u32
  let remaining ← Reader.u16
  let offsetHigh ← Reader.u32
  return { andx, fid, offset, maxCount, minCount, maxCountHigh, remaining, offsetHigh }

@[simp] theorem length_write (w : ReadRequestWords) : w.write.length = 12 * 2 := by simp [write]

theorem readWords_write (w : ReadRequestWords) : readWords read w.write = .ok w := by
  have all : read (w.write ++ []) = some (w, []) := by
    rw [read, write]
    simp only [List.append_assoc]
    rw [AndX.read_bind, Reader.u16_bind, Reader.u32_bind, Reader.u16_bind, Reader.u16_bind,
      Reader.u32_bind, Reader.u16_bind, Reader.u32_bind, Reader.pure_apply]
  rw [List.append_nil] at all
  rw [readWords, all]

end ReadRequestWords

structure ReadResponseWords where
  andx : AndX
  available : UInt16
  dataCompactionMode : UInt16
  reserved : UInt16
  dataLength : UInt16
  dataOffset : UInt16
  dataLengthHigh : UInt16
  reserved2 : Vector UInt8 8
  deriving DecidableEq, Repr

def ReadResponseWords.read : Reader ReadResponseWords := do
  let andx ← AndX.read
  let available ← Reader.u16
  let dataCompactionMode ← Reader.u16
  let reserved ← Reader.u16
  let dataLength ← Reader.u16
  let dataOffset ← Reader.u16
  let dataLengthHigh ← Reader.u16
  let reserved2 ← Reader.vector 8
  return { andx, available, dataCompactionMode, reserved, dataLength, dataOffset, dataLengthHigh,
           reserved2 }

/-- A `READ_ANDX` request. -/
structure ReadAndxRequest where
  fid : UInt16
  offset : UInt64
  maxCount : UInt32
  minCount : UInt16
  remaining : UInt16
  deriving DecidableEq, Repr

namespace ReadAndxRequest

def words (r : ReadAndxRequest) : ReadRequestWords where
  andx := .NONE
  fid := r.fid
  offset := r.offset.toUInt32
  maxCount := r.maxCount.toUInt16
  minCount := r.minCount
  maxCountHigh := r.maxCount >>> 16
  remaining := r.remaining
  offsetHigh := (r.offset >>> 32).toUInt32

def encodeBody (r : ReadAndxRequest) : Except WireError Bytes := .ok (body r.words.write [])

def decode (m : Message) : Except WireError ReadAndxRequest := do
  m.expectWords Command.READ_ANDX [READ_WORDS] "12"
  let words ← readWords ReadRequestWords.read m.words
  return { fid := words.fid
           offset := words.offset.toUInt64 ||| (words.offsetHigh.toUInt64 <<< 32)
           maxCount := words.maxCount.toUInt32 ||| (words.maxCountHigh <<< 16)
           minCount := words.minCount
           remaining := words.remaining }

/-- The server reads the request that was encoded. -/
theorem decode_encoded {r : ReadAndxRequest} {h : SmbHeader} {m : Message}
    (command : h.command = Command.READ_ANDX) (holds : m.Holds h r.words.write []) :
    decode m = .ok r := by
  have count : m.wordCount = READ_WORDS := by
    rw [holds.wordCount, ReadRequestWords.length_write]
    rfl
  have expected : m.expectWords Command.READ_ANDX [READ_WORDS] "12" = .ok () := by
    rw [Message.expectWords, holds.header, if_neg (by rw [command]; exact fun ne => ne rfl), count,
      if_pos (List.mem_singleton_self _)]
  rw [decode, expected, holds.words, ReadRequestWords.readWords_write]
  simp only [bind, Except.bind, pure, Except.pure, words, halves_of_offset, halves_of_count]

end ReadAndxRequest

/-- A `READ_ANDX` response. -/
structure ReadAndxResponse where
  andx : AndX
  available : UInt16
  dataCompactionMode : UInt16
  dataOffset : UInt16
  data : Bytes
  deriving DecidableEq, Repr

/-- The payload is `DataLength | DataLengthHigh << 16` bytes; `ByteCount` is not consulted. -/
def ReadAndxResponse.decode (m : Message) : Except WireError ReadAndxResponse := do
  m.expectWords Command.READ_ANDX [READ_WORDS] "12"
  let words ← readWords ReadResponseWords.read m.words
  words.andx.refuseChaining
  let data ← m.block "DataOffset" words.dataOffset.toNat
    (payloadLength words.dataLength words.dataLengthHigh)
  return { andx := words.andx
           available := words.available
           dataCompactionMode := words.dataCompactionMode
           dataOffset := words.dataOffset
           data }

/-! ## WRITE_ANDX -/

structure WriteRequestWords where
  andx : AndX
  fid : UInt16
  offset : UInt32
  timeout : UInt32
  writeMode : UInt16
  remaining : UInt16
  dataLengthHigh : UInt16
  dataLength : UInt16
  dataOffset : UInt16
  offsetHigh : UInt32
  deriving DecidableEq, Repr

namespace WriteRequestWords

def write (w : WriteRequestWords) : Bytes :=
  w.andx.write ++ (u16le w.fid ++ (u32le w.offset ++ (u32le w.timeout ++ (u16le w.writeMode ++
    (u16le w.remaining ++ (u16le w.dataLengthHigh ++ (u16le w.dataLength ++ (u16le w.dataOffset ++
      u32le w.offsetHigh))))))))

def read : Reader WriteRequestWords := do
  let andx ← AndX.read
  let fid ← Reader.u16
  let offset ← Reader.u32
  let timeout ← Reader.u32
  let writeMode ← Reader.u16
  let remaining ← Reader.u16
  let dataLengthHigh ← Reader.u16
  let dataLength ← Reader.u16
  let dataOffset ← Reader.u16
  let offsetHigh ← Reader.u32
  return { andx, fid, offset, timeout, writeMode, remaining, dataLengthHigh, dataLength, dataOffset,
           offsetHigh }

@[simp] theorem length_write (w : WriteRequestWords) : w.write.length = 14 * 2 := by simp [write]

theorem readWords_write (w : WriteRequestWords) : readWords read w.write = .ok w := by
  have all : read (w.write ++ []) = some (w, []) := by
    rw [read, write]
    simp only [List.append_assoc]
    rw [AndX.read_bind, Reader.u16_bind, Reader.u32_bind, Reader.u32_bind, Reader.u16_bind,
      Reader.u16_bind, Reader.u16_bind, Reader.u16_bind, Reader.u16_bind, Reader.u32_bind,
      Reader.pure_apply]
  rw [List.append_nil] at all
  rw [readWords, all]

end WriteRequestWords

structure WriteResponseWords where
  andx : AndX
  count : UInt16
  remaining : UInt16
  countHigh : UInt16
  reserved : UInt16
  deriving DecidableEq, Repr

def WriteResponseWords.read : Reader WriteResponseWords := do
  let andx ← AndX.read
  let count ← Reader.u16
  let remaining ← Reader.u16
  let countHigh ← Reader.u16
  let reserved ← Reader.u16
  return { andx, count, remaining, countHigh, reserved }

/-- A `WRITE_ANDX` request. -/
structure WriteAndxRequest where
  fid : UInt16
  offset : UInt64
  writeMode : UInt16
  remaining : UInt16
  data : Bytes
  deriving DecidableEq, Repr

namespace WriteAndxRequest

/-- The payload starts at the byte area, with no padding. -/
def words (r : WriteAndxRequest) : WriteRequestWords where
  andx := .NONE
  fid := r.fid
  offset := r.offset.toUInt32
  timeout := 0
  writeMode := r.writeMode
  remaining := r.remaining
  dataLengthHigh := UInt16.ofNat (r.data.length >>> 16)
  dataLength := UInt16.ofNat r.data.length
  dataOffset := UInt16.ofNat (ByteArea.forWordCount WRITE_REQUEST_WORDS.toNat).offset
  offsetHigh := (r.offset >>> 32).toUInt32

def encodeBody (r : WriteAndxRequest) : Except WireError Bytes :=
  .ok (body r.words.write ((ByteArea.forWordCount WRITE_REQUEST_WORDS.toNat).put r.data).finish)

def decode (m : Message) : Except WireError WriteAndxRequest := do
  m.expectWords Command.WRITE_ANDX [WRITE_REQUEST_WORDS] "14"
  let words ← readWords WriteRequestWords.read m.words
  let data ← m.block "DataOffset" words.dataOffset.toNat
    (payloadLength words.dataLength words.dataLengthHigh)
  return { fid := words.fid
           offset := words.offset.toUInt64 ||| (words.offsetHigh.toUInt64 <<< 32)
           writeMode := words.writeMode
           remaining := words.remaining
           data }

theorem encodeBody_eq (r : WriteAndxRequest) : r.encodeBody = .ok (body r.words.write r.data) := rfl

/-- A write's message is its payload and 63 bytes. -/
theorem length_message (h : SmbHeader) (r : WriteAndxRequest) :
    (message h (body r.words.write r.data)).length = r.data.length + 63 := by
  rw [message, body, List.length_append, SmbHeader.length_write, List.length_cons,
    List.length_append, WriteRequestWords.length_write, List.length_append, length_u16le,
    HEADER_LEN]
  omega

/-- A message that holds its words and area is as long as they are. -/
theorem length_of_holds {h : SmbHeader} {m : Message} {block area : Bytes}
    (holds : m.Holds h block area) : m.bytes.length = m.byteAreaOffset + area.length := by
  have fits := m.fits
  have after : (m.bytes.drop m.byteAreaOffset).length = area.length :=
    congrArg List.length holds.byteAreaToEnd
  rw [List.length_drop] at after
  unfold Message.byteAreaOffset at after ⊢
  omega

/-- The server reads the request that was encoded, its whole payload included. -/
theorem decode_encoded {r : WriteAndxRequest} {h : SmbHeader} {m : Message}
    (command : h.command = Command.WRITE_ANDX) (holds : m.Holds h r.words.write r.data)
    (fits : r.data.length < 2 ^ 32) : decode m = .ok r := by
  have count : m.wordCount = WRITE_REQUEST_WORDS := by
    rw [holds.wordCount, WriteRequestWords.length_write]
    rfl
  have expected : m.expectWords Command.WRITE_ANDX [WRITE_REQUEST_WORDS] "14" = .ok () := by
    rw [Message.expectWords, holds.header, if_neg (by rw [command]; exact fun ne => ne rfl), count,
      if_pos (List.mem_singleton_self _)]
  have start : m.byteAreaOffset = 63 := by
    rw [holds.byteAreaOffset, WriteRequestWords.length_write]
    rfl
  have data : m.block "DataOffset" r.words.dataOffset.toNat
      (payloadLength r.words.dataLength r.words.dataLengthHigh) = .ok r.data := by
    have placed : r.words.dataOffset.toNat = m.byteAreaOffset := start.symm ▸ rfl
    have whole : payloadLength r.words.dataLength r.words.dataLengthHigh = r.data.length :=
      payloadLength_halves fits
    have area : m.bytes.drop m.byteAreaOffset = r.data := holds.byteAreaToEnd
    rw [placed, whole, Message.block, blockAt, if_pos (length_of_holds holds).ge, area,
      List.take_length]
  rw [decode, expected, holds.words, WriteRequestWords.readWords_write]
  simp only [bind, Except.bind, data]
  simp only [pure, Except.pure, words, halves_of_offset]

end WriteAndxRequest

/-- A `WRITE_ANDX` response. -/
structure WriteAndxResponse where
  andx : AndX
  count : UInt32
  remaining : UInt16
  deriving DecidableEq, Repr

def WriteAndxResponse.decode (m : Message) : Except WireError WriteAndxResponse := do
  m.expectWords Command.WRITE_ANDX [WRITE_RESPONSE_WORDS] "6"
  let words ← readWords WriteResponseWords.read m.words
  words.andx.refuseChaining
  return { andx := words.andx
           count := words.count.toUInt32 ||| (words.countHigh.toUInt32 <<< 16)
           remaining := words.remaining }

end Smb1Client
