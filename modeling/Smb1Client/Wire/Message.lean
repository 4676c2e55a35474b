import Smb1Client.Lib.LittleEndian

/-!
The message layer of `wire/`: the header, one parsed message, the NetBIOS frame
and the byte area under construction.

`ByteCount` is written modulo 2^16 (`body`) and read back by the decoders that
go through `Message.byteArea`. What a parse of an assembled message gives back
is stated once, in `Message.parse_message_body`; each command's round trip
starts from it.
-/

namespace Smb1Client

open LittleEndian

abbrev Bytes := List UInt8

/-- An NTSTATUS code. -/
structure NtStatus where
  code : UInt32
  deriving DecidableEq, Repr

namespace NtStatus

def SUCCESS : NtStatus := ⟨0x00000000⟩
def PENDING : NtStatus := ⟨0x00000103⟩
def MORE_PROCESSING_REQUIRED : NtStatus := ⟨0xC0000016⟩
def BUFFER_OVERFLOW : NtStatus := ⟨0x80000005⟩
def NO_MORE_FILES : NtStatus := ⟨0x80000006⟩
def INVALID_PARAMETER : NtStatus := ⟨0xC000000D⟩
def NO_SUCH_FILE : NtStatus := ⟨0xC000000F⟩
def END_OF_FILE : NtStatus := ⟨0xC0000011⟩
def OBJECT_NAME_NOT_FOUND : NtStatus := ⟨0xC0000034⟩
def OBJECT_PATH_NOT_FOUND : NtStatus := ⟨0xC000003A⟩
def NETWORK_NAME_DELETED : NtStatus := ⟨0xC00000C9⟩
def DIRECTORY_NOT_EMPTY : NtStatus := ⟨0xC0000101⟩
def USER_SESSION_DELETED : NtStatus := ⟨0xC0000203⟩
def INSUFF_SERVER_RESOURCES : NtStatus := ⟨0xC0000205⟩
def NOT_FOUND : NtStatus := ⟨0xC0000225⟩
def INVALID_HANDLE : NtStatus := ⟨0xC0000008⟩
def OBJECT_NAME_COLLISION : NtStatus := ⟨0xC0000035⟩
def SHARING_VIOLATION : NtStatus := ⟨0xC0000043⟩
def FILE_IS_A_DIRECTORY : NtStatus := ⟨0xC00000BA⟩
def NOT_A_DIRECTORY : NtStatus := ⟨0xC0000103⟩
def INVALID_SMB : NtStatus := ⟨0x00010002⟩

end NtStatus

/-- What can go wrong turning bytes into messages, or messages into bytes. -/
inductive WireError where
  | unknownNetbiosType (byte : UInt8)
  | reservedNetbiosBits (byte : UInt8)
  | messageTooLong (length : ℕ)
  | malformed
  | truncated (part : String) (declared length : ℕ)
  | unexpectedCommand (expected actual : UInt8)
  | noResponseBody (command : UInt8) (status : NtStatus)
  | unexpectedWordCount (command actual : UInt8) (expected : String)
  | chainedCommand (command : UInt8)
  | blockOutOfRange (field : String) (offset length messageLength : ℕ)
  | misalignedName (field : String) (offset : ℕ)
  | entryOffsetTooSmall (offset next minimum : ℕ)
  | entryCountMismatch (walked : ℕ) (searchCount : UInt16)
  | invalidUtf16 (field : String) (position : ℕ) (bytes : Bytes)
  | fieldTooLong (field : String) (length limit : ℕ)
  | noCommonDialect
  | unsupportedDialectIndex (index : UInt16)
  deriving DecidableEq, Repr

/-! ## The header -/

/-- The length of the SMB1 header, from which absolute offsets are measured. -/
def HEADER_LEN : ℕ := 32

/-- The four bytes every SMB1 message opens with. -/
def MAGIC : Bytes := [0xFF, 0x53, 0x4D, 0x42]

/-- The header that opens every SMB1 message, after its magic. -/
structure SmbHeader where
  command : UInt8
  status : NtStatus
  flags : UInt8
  flags2 : UInt16
  pidHigh : UInt16
  securityFeatures : Vector UInt8 8
  reserved : UInt16
  tid : UInt16
  pidLow : UInt16
  uid : UInt16
  mid : UInt16
  deriving DecidableEq, Repr

def FLAGS_CLIENT : UInt8 := 0x18
def FLAGS2_CLIENT : UInt16 := 0xC801
def FLAGS2_NT_STATUS : UInt16 := 0x4000

/-- A request header carrying this crate's flag words. -/
def SmbHeader.request (command : UInt8) : SmbHeader where
  command := command
  status := .SUCCESS
  flags := FLAGS_CLIENT
  flags2 := FLAGS2_CLIENT
  pidHigh := 0
  securityFeatures := .replicate 8 0
  reserved := 0
  tid := 0
  pidLow := 1
  uid := 0
  mid := 0

def SmbHeader.write (h : SmbHeader) : Bytes :=
  MAGIC ++ (u8le h.command ++ (u32le h.status.code ++ (u8le h.flags ++ (u16le h.flags2 ++
    (u16le h.pidHigh ++ (h.securityFeatures.toList ++ (u16le h.reserved ++ (u16le h.tid ++
      (u16le h.pidLow ++ (u16le h.uid ++ u16le h.mid))))))))))

/-- The fields after the magic. -/
def SmbHeader.readFields : Reader SmbHeader := do
  let command ← Reader.u8
  let status ← Reader.u32
  let flags ← Reader.u8
  let flags2 ← Reader.u16
  let pidHigh ← Reader.u16
  let securityFeatures ← Reader.vector 8
  let reserved ← Reader.u16
  let tid ← Reader.u16
  let pidLow ← Reader.u16
  let uid ← Reader.u16
  let mid ← Reader.u16
  return { command, status := ⟨status⟩, flags, flags2, pidHigh, securityFeatures, reserved, tid,
           pidLow, uid, mid }

def SmbHeader.read : Reader SmbHeader := do
  let magic ← Reader.take 4
  if magic = MAGIC then SmbHeader.readFields else failure

@[simp] theorem SmbHeader.length_write (h : SmbHeader) : h.write.length = HEADER_LEN := by
  simp [write, MAGIC, HEADER_LEN]

theorem SmbHeader.read_write_append (h : SmbHeader) (rest : Bytes) :
    SmbHeader.read (h.write ++ rest) = some (h, rest) := by
  have magic : ∀ (f : Bytes → Reader SmbHeader) s, (Reader.take 4 >>= f) (MAGIC ++ s) = f MAGIC s :=
    fun f s => Reader.take_bind f s MAGIC
  rw [read, write]
  simp only [List.append_assoc]
  rw [magic, if_pos rfl, readFields, Reader.u8_bind, Reader.u32_bind, Reader.u8_bind,
    Reader.u16_bind, Reader.u16_bind, Reader.vector_bind, Reader.u16_bind, Reader.u16_bind,
    Reader.u16_bind, Reader.u16_bind, Reader.u16_bind, Reader.pure_apply]

/-! ## One parsed message -/

/-- Reads a block a server declared at an absolute offset. -/
def blockAt (message : Bytes) (field : String) (offset length : ℕ) : Except WireError Bytes :=
  if offset + length ≤ message.length then .ok ((message.drop offset).take length)
  else .error (.blockOutOfRange field offset length message.length)

/-- One complete SMB1 message: the header, the word block and the byte area. A
value of this type holds its whole word block and its `ByteCount`. -/
structure Message where
  header : SmbHeader
  bytes : Bytes
  wordCount : UInt8
  byteCount : UInt16
  fits : HEADER_LEN + 1 + wordCount.toNat * 2 + 2 ≤ bytes.length
  deriving DecidableEq

/-- A header and two counts of zero are a whole message. -/
theorem Message.fits_empty :
    HEADER_LEN + 1 + (0 : UInt8).toNat * 2 + 2 ≤ (List.replicate 35 (0 : UInt8)).length := by
  decide

namespace Message

def parse (bytes : Bytes) : Except WireError Message :=
  match SmbHeader.read bytes with
  | none => .error .malformed
  | some (header, _) =>
      match bytes[HEADER_LEN]? with
      | none => .error (.truncated "WordCount" (HEADER_LEN + 1) bytes.length)
      | some wordCount =>
          let byteCountAt := HEADER_LEN + 1 + wordCount.toNat * 2
          if fits : byteCountAt + 2 ≤ bytes.length then
            .ok { header, bytes, wordCount,
                  byteCount := UInt16.ofNat (decode ((bytes.drop byteCountAt).take 2)), fits }
          else .error (.truncated "words" (byteCountAt + 2) bytes.length)

def words (m : Message) : Bytes := (m.bytes.drop (HEADER_LEN + 1)).take (m.wordCount.toNat * 2)

/-- Where the byte area begins, measured from the start of the SMB message. -/
def byteAreaOffset (m : Message) : ℕ := HEADER_LEN + 1 + m.wordCount.toNat * 2 + 2

def block (m : Message) (field : String) (offset length : ℕ) : Except WireError Bytes :=
  blockAt m.bytes field offset length

/-- The byte area `ByteCount` declares, checked against what the frame holds. -/
def byteArea (m : Message) : Except WireError Bytes :=
  m.block "ByteCount" m.byteAreaOffset m.byteCount.toNat

/-- Everything from the byte area's start to the end of the message. -/
def byteAreaToEnd (m : Message) : Bytes := m.bytes.drop m.byteAreaOffset

def isBodyless (m : Message) : Bool := m.wordCount = 0

/-- Refuses a message that is not this command carrying an accepted `WordCount`. -/
def expectWords (m : Message) (command : UInt8) (accepted : List UInt8) (describe : String) :
    Except WireError Unit :=
  if m.header.command ≠ command then
    .error (.unexpectedCommand command m.header.command)
  else if m.wordCount ∈ accepted then .ok ()
  else if m.isBodyless then .error (.noResponseBody command m.header.status)
  else .error (.unexpectedWordCount command m.wordCount describe)

end Message

/-- Assembles a complete SMB message from a header and a command body. Writing
into a growing vector does not fail. -/
def message (header : SmbHeader) (body : Bytes) : Bytes := header.write ++ body

/-- A `WordCount`, a word block, a `ByteCount` and a byte area; `WordCount` and
`ByteCount` are cut to their fields' widths. -/
def body (words byteArea : Bytes) : Bytes :=
  UInt8.ofNat (words.length / 2) ::
    (words ++ (u16le (UInt16.ofNat byteArea.length) ++ byteArea))

/-- What the parse of an assembled message holds: the words and the byte area as
they were written, and for `ByteCount` the length of the byte area modulo 2^16. -/
structure Message.Holds (m : Message) (h : SmbHeader) (block area : Bytes) : Prop where
  header : m.header = h
  wordCount : m.wordCount = UInt8.ofNat (block.length / 2)
  words : m.words = block
  byteAreaOffset : m.byteAreaOffset = HEADER_LEN + 1 + block.length + 2
  byteCount : m.byteCount.toNat = area.length % 2 ^ 16
  byteAreaToEnd : m.byteAreaToEnd = area
  byteArea : m.byteArea = .ok (area.take (area.length % 2 ^ 16))

theorem Message.parse_message_body (header : SmbHeader) {words : Bytes} (area : Bytes)
    {count : ℕ} (paired : words.length = count * 2) (small : count < 256) :
    ∃ m, Message.parse (message header (Smb1Client.body words area)) = .ok m ∧
      m.Holds header words area := by
  have countByte : (UInt8.ofNat (words.length / 2)).toNat = count := by
    rw [UInt8.toNat_ofNat', paired, Nat.mul_div_cancel _ two_pos]
    exact Nat.mod_eq_of_lt small
  have areaCount : (UInt16.ofNat area.length).toNat = area.length % 2 ^ 16 :=
    UInt16.toNat_ofNat'
  have dropHeader : (message header (Smb1Client.body words area)).drop HEADER_LEN =
      Smb1Client.body words area := by
    rw [message, ← SmbHeader.length_write header, List.drop_left]
  have dropCount : (message header (Smb1Client.body words area)).drop (HEADER_LEN + 1) =
      words ++ (u16le (UInt16.ofNat area.length) ++ area) := by
    rw [← List.drop_drop, dropHeader, Smb1Client.body, List.drop_one, List.tail_cons]
  have dropWords : (message header (Smb1Client.body words area)).drop
      (HEADER_LEN + 1 + count * 2) = u16le (UInt16.ofNat area.length) ++ area := by
    rw [← List.drop_drop, dropCount, ← paired, List.drop_left]
  have dropArea : (message header (Smb1Client.body words area)).drop
      (HEADER_LEN + 1 + count * 2 + 2) = area := by
    rw [← List.drop_drop, dropWords]
    exact List.drop_left' (length_u16le _)
  have total : (message header (Smb1Client.body words area)).length =
      HEADER_LEN + 1 + count * 2 + 2 + area.length := by
    rw [message, List.length_append, SmbHeader.length_write, Smb1Client.body, List.length_cons,
      List.length_append, List.length_append, length_u16le, paired]
    omega
  have atCount : (message header (Smb1Client.body words area))[HEADER_LEN]? =
      some (UInt8.ofNat (words.length / 2)) := by
    rw [← Nat.add_zero HEADER_LEN, ← List.getElem?_drop, dropHeader, Smb1Client.body,
      List.getElem?_cons_zero]
  have count16 : ((message header (Smb1Client.body words area)).drop
      (HEADER_LEN + 1 + count * 2)).take 2 = u16le (UInt16.ofNat area.length) := by
    rw [dropWords]
    exact List.take_left' (length_u16le _)
  have read : SmbHeader.read (message header (Smb1Client.body words area)) =
      some (header, Smb1Client.body words area) := SmbHeader.read_write_append header _
  refine ⟨⟨header, message header (Smb1Client.body words area),
    UInt8.ofNat (words.length / 2), UInt16.ofNat area.length, by omega⟩, ?_, ?_⟩
  · rw [parse, read]
    dsimp only
    rw [atCount]
    dsimp only
    rw [dif_pos (by omega)]
    simp only [countByte, count16, decode_u16le, UInt16.ofNat_toNat]
  · have offset : HEADER_LEN + 1 + (UInt8.ofNat (words.length / 2)).toNat * 2 + 2 =
        HEADER_LEN + 1 + words.length + 2 := by rw [countByte, paired]
    refine ⟨rfl, rfl, ?_, offset, areaCount, ?_, ?_⟩
    · rw [Message.words]
      dsimp only
      rw [dropCount, countByte, ← paired, List.take_left]
    · rw [Message.byteAreaToEnd, Message.byteAreaOffset]
      dsimp only
      rw [countByte, dropArea]
    · have bound : area.length % 2 ^ 16 ≤ area.length := Nat.mod_le _ _
      have block : blockAt (message header (Smb1Client.body words area)) "ByteCount"
          (HEADER_LEN + 1 + count * 2 + 2) (area.length % 2 ^ 16) =
            .ok (area.take (area.length % 2 ^ 16)) := by
        rw [blockAt, dropArea, if_pos (by omega)]
      rw [← countByte, ← areaCount] at block
      rw [← areaCount]
      exact block

/-! ## Reading a word block -/

/-- Reads a structure out of a word block. -/
def readWords {α : Type} (reader : Reader α) (words : Bytes) : Except WireError α :=
  match reader words with
  | some (value, _) => .ok value
  | none => .error .malformed

/-! ## The NetBIOS frame -/

namespace Netbios

def HEADER_LEN : ℕ := 4
def MAX_MESSAGE_LEN : ℕ := 0x1FFFF
def TYPE_SESSION_MESSAGE : UInt8 := 0x00
def TYPE_SESSION_KEEP_ALIVE : UInt8 := 0x85

inductive MessageType where
  | sessionMessage
  | keepAlive
  deriving DecidableEq, Repr

/-- Reads the four header bytes. -/
def decodeHeader (b₀ b₁ b₂ b₃ : UInt8) : Except WireError (MessageType × ℕ) := do
  let kind ←
    if b₀ = TYPE_SESSION_MESSAGE then .ok .sessionMessage
    else if b₀ = TYPE_SESSION_KEEP_ALIVE then .ok .keepAlive
    else .error (.unknownNetbiosType b₀)
  if b₁ &&& 0xFE ≠ 0 then .error (.reservedNetbiosBits b₁)
  else .ok (kind, (b₁ &&& 0x01).toNat * 2 ^ 16 + b₂.toNat * 2 ^ 8 + b₃.toNat)

def encodeHeader (length : ℕ) : Except WireError Bytes :=
  if length > MAX_MESSAGE_LEN then .error (.messageTooLong length)
  else .ok [TYPE_SESSION_MESSAGE, UInt8.ofNat (length / 2 ^ 16 % 2),
    UInt8.ofNat (length / 2 ^ 8 % 256), UInt8.ofNat (length % 256)]

end Netbios

/-- Wraps an SMB message in its NetBIOS session-message header. -/
def frame (message : Bytes) : Except WireError Bytes :=
  (Netbios.encodeHeader message.length).map (· ++ message)

theorem frame_isOk {m : Bytes} : (frame m).isOk = true ↔ m.length ≤ Netbios.MAX_MESSAGE_LEN := by
  unfold frame Netbios.encodeHeader
  split
  · next long =>
      exact ⟨fun ok => (Bool.false_ne_true ok).elim, fun short => absurd short (not_le.mpr long)⟩
  · next short => exact ⟨fun _ => not_lt.mp short, fun _ => rfl⟩

/-! ## The byte area under construction -/

/-- A byte area, knowing the absolute offset it starts at. -/
structure ByteArea where
  start : ℕ
  bytes : Bytes
  deriving DecidableEq, Repr

namespace ByteArea

def forWordCount (wordCount : ℕ) : ByteArea :=
  ⟨Smb1Client.HEADER_LEN + 1 + wordCount * 2 + 2, []⟩

/-- Where the next byte lands, measured from the start of the SMB message. -/
def offset (a : ByteArea) : ℕ := a.start + a.bytes.length

/-- Appends zeros until the next byte lands on a multiple of `align`. -/
def alignTo (a : ByteArea) (align : ℕ) : ByteArea :=
  { a with bytes := a.bytes ++ .replicate ((align - a.offset % align) % align) 0 }

def put (a : ByteArea) (block : Bytes) : ByteArea := { a with bytes := a.bytes ++ block }

/-- Pads to `align`, then appends a block, with the offset it starts at. -/
def putAligned (a : ByteArea) (align : ℕ) (block : Bytes) : ℕ × ByteArea :=
  ((a.alignTo align).offset, (a.alignTo align).put block)

def finish (a : ByteArea) : Bytes := a.bytes

@[simp] theorem start_put (a : ByteArea) (block : Bytes) : (a.put block).start = a.start := rfl

@[simp] theorem bytes_put (a : ByteArea) (block : Bytes) :
    (a.put block).bytes = a.bytes ++ block := rfl

@[simp] theorem offset_put (a : ByteArea) (block : Bytes) :
    (a.put block).offset = a.offset + block.length := by
  rw [offset, offset, start_put, bytes_put, List.length_append, Nat.add_assoc]

theorem alignTo_of_even {a : ByteArea} (even : a.offset % 2 = 0) : a.alignTo 2 = a := by
  rw [alignTo, even]
  simp

theorem alignTo_of_odd {a : ByteArea} (odd : a.offset % 2 = 1) : a.alignTo 2 = a.put [0] := by
  rw [alignTo, odd]
  rfl

end ByteArea

def NAME_ALIGNMENT : ℕ := 2

def requireWordAligned (field : String) (offset : ℕ) : Except WireError Unit :=
  if offset % NAME_ALIGNMENT = 0 then .ok () else .error (.misalignedName field offset)

/-! ## Commands and the AndX prologue -/

namespace Command

def CLOSE : UInt8 := 0x04
def RENAME : UInt8 := 0x07
def TRANSACTION : UInt8 := 0x25
def ECHO : UInt8 := 0x2B
def READ_ANDX : UInt8 := 0x2E
def WRITE_ANDX : UInt8 := 0x2F
def TRANSACTION2 : UInt8 := 0x32
def NEGOTIATE : UInt8 := 0x72
def SESSION_SETUP_ANDX : UInt8 := 0x73
def LOGOFF_ANDX : UInt8 := 0x74
def TREE_CONNECT_ANDX : UInt8 := 0x75
def NT_CREATE_ANDX : UInt8 := 0xA2

end Command

/-- The `AndXCommand` that says nothing is chained. -/
def NO_FURTHER_COMMAND : UInt8 := 0xFF

/-- The prologue of an AndX word block. -/
structure AndX where
  command : UInt8
  reserved : UInt8
  offset : UInt16
  deriving DecidableEq, Repr

namespace AndX

def NONE : AndX := ⟨NO_FURTHER_COMMAND, 0, 0⟩

def refuseChaining (a : AndX) : Except WireError Unit :=
  if a.command = NO_FURTHER_COMMAND then .ok () else .error (.chainedCommand a.command)

def write (a : AndX) : Bytes := u8le a.command ++ (u8le a.reserved ++ u16le a.offset)

def read : Reader AndX := do
  let command ← Reader.u8
  let reserved ← Reader.u8
  let offset ← Reader.u16
  return { command, reserved, offset }

@[simp] theorem length_write (a : AndX) : a.write.length = 4 := by simp [write]

theorem read_bind {α : Type} (f : AndX → Reader α) (a : AndX) (s : Bytes) :
    (read >>= f) (a.write ++ s) = f a s := by
  refine Reader.bind_of_append (fun s => ?_) f s
  rw [write, read, List.append_assoc, List.append_assoc, Reader.u8_bind, Reader.u8_bind,
    Reader.u16_bind, Reader.pure_apply]

end AndX

end Smb1Client
