import Smb1Client.Wire.Text

/-!
`SMB_COM_NT_CREATE_ANDX`, `SMB_COM_CLOSE` and `SMB_COM_RENAME`.

For the two commands that carry names, what `decode` makes of an encoded request
is stated with the lengths the fields really hold: `NameLength` and `ByteCount`
are the true lengths modulo 2^16.
-/

namespace Smb1Client

open LittleEndian

def CREATE_REQUEST_WORDS : UInt8 := 24
def CREATE_RESPONSE_WORDS : UInt8 := 34
def RENAME_REQUEST_WORDS : UInt8 := 1

/-- The byte that introduces each name in a rename's byte area. -/
def BUFFER_FORMAT_ASCII : UInt8 := 0x04

/-! ## NT_CREATE_ANDX -/

structure CreateRequestWords where
  andx : AndX
  reserved : UInt8
  nameLength : UInt16
  flags : UInt32
  rootDirectoryFid : UInt32
  desiredAccess : UInt32
  allocationSize : UInt64
  extFileAttributes : UInt32
  shareAccess : UInt32
  createDisposition : UInt32
  createOptions : UInt32
  impersonationLevel : UInt32
  securityFlags : UInt8
  deriving DecidableEq, Repr

namespace CreateRequestWords

def write (w : CreateRequestWords) : Bytes :=
  w.andx.write ++ (u8le w.reserved ++ (u16le w.nameLength ++ (u32le w.flags ++
    (u32le w.rootDirectoryFid ++ (u32le w.desiredAccess ++ (u64le w.allocationSize ++
      (u32le w.extFileAttributes ++ (u32le w.shareAccess ++ (u32le w.createDisposition ++
        (u32le w.createOptions ++ (u32le w.impersonationLevel ++ u8le w.securityFlags)))))))))))

def read : Reader CreateRequestWords := do
  let andx ← AndX.read
  let reserved ← Reader.u8
  let nameLength ← Reader.u16
  let flags ← Reader.u32
  let rootDirectoryFid ← Reader.u32
  let desiredAccess ← Reader.u32
  let allocationSize ← Reader.u64
  let extFileAttributes ← Reader.u32
  let shareAccess ← Reader.u32
  let createDisposition ← Reader.u32
  let createOptions ← Reader.u32
  let impersonationLevel ← Reader.u32
  let securityFlags ← Reader.u8
  return { andx, reserved, nameLength, flags, rootDirectoryFid, desiredAccess, allocationSize,
           extFileAttributes, shareAccess, createDisposition, createOptions, impersonationLevel,
           securityFlags }

@[simp] theorem length_write (w : CreateRequestWords) : w.write.length = 24 * 2 := by simp [write]

theorem readWords_write (w : CreateRequestWords) : readWords read w.write = .ok w := by
  have all : read (w.write ++ []) = some (w, []) := by
    rw [read, write]
    simp only [List.append_assoc]
    rw [AndX.read_bind, Reader.u8_bind, Reader.u16_bind, Reader.u32_bind, Reader.u32_bind,
      Reader.u32_bind, Reader.u64_bind, Reader.u32_bind, Reader.u32_bind, Reader.u32_bind,
      Reader.u32_bind, Reader.u32_bind, Reader.u8_bind, Reader.pure_apply]
  rw [List.append_nil] at all
  rw [readWords, all]

end CreateRequestWords

/-- An `NT_CREATE_ANDX` request. -/
structure NtCreateAndxRequest where
  flags : UInt32
  rootDirectoryFid : UInt32
  desiredAccess : UInt32
  allocationSize : UInt64
  extFileAttributes : UInt32
  shareAccess : UInt32
  createDisposition : UInt32
  createOptions : UInt32
  impersonationLevel : UInt32
  securityFlags : UInt8
  name : Text
  deriving DecidableEq

namespace NtCreateAndxRequest

/-- The words a request encodes to; `NameLength` does not count the terminator. -/
def words (r : NtCreateAndxRequest) : CreateRequestWords where
  andx := .NONE
  reserved := 0
  nameLength := UInt16.ofNat ((utf16z r.name).length - 2)
  flags := r.flags
  rootDirectoryFid := r.rootDirectoryFid
  desiredAccess := r.desiredAccess
  allocationSize := r.allocationSize
  extFileAttributes := r.extFileAttributes
  shareAccess := r.shareAccess
  createDisposition := r.createDisposition
  createOptions := r.createOptions
  impersonationLevel := r.impersonationLevel
  securityFlags := r.securityFlags

/-- The byte area with its name placed, or the refusal of a name off a boundary. -/
def area (r : NtCreateAndxRequest) : Except WireError Bytes := do
  let area := (ByteArea.forWordCount CREATE_REQUEST_WORDS.toNat).alignTo 2
  requireWordAligned "Name" area.offset
  return (area.put (utf16z r.name)).finish

def encodeBody (r : NtCreateAndxRequest) : Except WireError Bytes :=
  return body r.words.write (← r.area)

def decode (m : Message) : Except WireError NtCreateAndxRequest := do
  m.expectWords Command.NT_CREATE_ANDX [CREATE_REQUEST_WORDS] "24"
  let words ← readWords CreateRequestWords.read m.words
  let area ← m.byteArea
  let name ←
    if 1 + words.nameLength.toNat ≤ area.length then
      .ok ((area.drop 1).take words.nameLength.toNat)
    else .error (.truncated "Name" (1 + words.nameLength.toNat) area.length)
  let name ← fromUtf16 "Name" 0 name
  return { flags := words.flags
           rootDirectoryFid := words.rootDirectoryFid
           desiredAccess := words.desiredAccess
           allocationSize := words.allocationSize
           extFileAttributes := words.extFileAttributes
           shareAccess := words.shareAccess
           createDisposition := words.createDisposition
           createOptions := words.createOptions
           impersonationLevel := words.impersonationLevel
           securityFlags := words.securityFlags
           name }

theorem area_eq (r : NtCreateAndxRequest) : r.area = .ok (0 :: utf16z r.name) := rfl

theorem encodeBody_eq (r : NtCreateAndxRequest) :
    r.encodeBody = .ok (body r.words.write (0 :: utf16z r.name)) := rfl

theorem length_area (r : NtCreateAndxRequest) :
    (0 :: utf16z r.name).length = 2 * (Utf16.encode r.name).length + 3 := by
  rw [List.length_cons, length_utf16z]

theorem nameLength_toNat (r : NtCreateAndxRequest) :
    r.words.nameLength.toNat = (utf16Bytes r.name).length % 2 ^ 16 := by
  rw [words, UInt16.toNat_ofNat', length_utf16z, length_utf16Bytes, Nat.add_sub_cancel]

/-- What `decode` makes of an encoded request: all its fields, and the name cut
to the length `NameLength` holds, where `ByteCount` leaves room for it. -/
theorem decode_encoded {r : NtCreateAndxRequest} {h : SmbHeader} {m : Message}
    (command : h.command = Command.NT_CREATE_ANDX)
    (holds : m.Holds h r.words.write (0 :: utf16z r.name))
    (name rest : Bytes) (length : name.length = (utf16Bytes r.name).length % 2 ^ 16)
    (room : (0 :: utf16z r.name).take ((0 :: utf16z r.name).length % 2 ^ 16) =
      0 :: (name ++ rest)) :
    decode m = (fromUtf16 "Name" 0 name).map fun name => { r with name } := by
  have count : m.wordCount = CREATE_REQUEST_WORDS := by
    rw [holds.wordCount, CreateRequestWords.length_write]
    rfl
  have expected : m.expectWords Command.NT_CREATE_ANDX [CREATE_REQUEST_WORDS] "24" = .ok () := by
    rw [Message.expectWords, holds.header, if_neg (by rw [command]; exact fun ne => ne rfl), count,
      if_pos (List.mem_singleton_self _)]
  have long : 1 + r.words.nameLength.toNat ≤ (0 :: (name ++ rest)).length := by
    rw [nameLength_toNat, List.length_cons, List.length_append, length]
    omega
  have cut : ((0 :: (name ++ rest)).drop 1).take r.words.nameLength.toNat = name := by
    rw [nameLength_toNat, List.drop_one, List.tail_cons, ← length, List.take_left]
  rw [decode, expected, holds.words, CreateRequestWords.readWords_write, holds.byteArea, room]
  simp only [bind, Except.bind, if_pos long, cut]
  cases fromUtf16 "Name" 0 name <;> rfl

end NtCreateAndxRequest

/-- An `NT_CREATE_ANDX` response. -/
structure NtCreateAndxResponse where
  andx : AndX
  oplockLevel : UInt8
  fid : UInt16
  createAction : UInt32
  creationTime : Int64
  lastAccessTime : Int64
  lastWriteTime : Int64
  changeTime : Int64
  extFileAttributes : UInt32
  allocationSize : UInt64
  endOfFile : UInt64
  resourceType : UInt16
  nmPipeStatus : UInt16
  directory : UInt8
  deriving DecidableEq, Repr

namespace NtCreateAndxResponse

def readWords : Reader NtCreateAndxResponse := do
  let andx ← AndX.read
  let oplockLevel ← Reader.u8
  let fid ← Reader.u16
  let createAction ← Reader.u32
  let creationTime := (← Reader.u64).toInt64
  let lastAccessTime := (← Reader.u64).toInt64
  let lastWriteTime := (← Reader.u64).toInt64
  let changeTime := (← Reader.u64).toInt64
  let extFileAttributes ← Reader.u32
  let allocationSize ← Reader.u64
  let endOfFile ← Reader.u64
  let resourceType ← Reader.u16
  let nmPipeStatus ← Reader.u16
  let directory ← Reader.u8
  return { andx, oplockLevel, fid, createAction, creationTime, lastAccessTime, lastWriteTime,
           changeTime, extFileAttributes, allocationSize, endOfFile, resourceType, nmPipeStatus,
           directory }

def decode (m : Message) : Except WireError NtCreateAndxResponse := do
  m.expectWords Command.NT_CREATE_ANDX [CREATE_RESPONSE_WORDS] "34"
  let words ← Smb1Client.readWords readWords m.words
  words.andx.refuseChaining
  return words

end NtCreateAndxResponse

/-! ## SMB_COM_RENAME -/

/-- An `SMB_COM_RENAME` request. -/
structure RenameRequest where
  searchAttributes : UInt16
  oldName : Text
  newName : Text
  deriving DecidableEq

namespace RenameRequest

/-- The byte area: `0x04`, the old name, `0x04`, a pad to a word boundary, the new
name. -/
def area (r : RenameRequest) : Except WireError Bytes := do
  let area := (ByteArea.forWordCount RENAME_REQUEST_WORDS.toNat).put [BUFFER_FORMAT_ASCII]
  requireWordAligned "OldFileName" area.offset
  let area := ((area.put (utf16z r.oldName)).put [BUFFER_FORMAT_ASCII]).alignTo 2
  requireWordAligned "NewFileName" area.offset
  return (area.put (utf16z r.newName)).finish

def encodeBody (r : RenameRequest) : Except WireError Bytes :=
  return body (u16le r.searchAttributes) (← r.area)

def decode (m : Message) : Except WireError RenameRequest := do
  m.expectWords Command.RENAME [RENAME_REQUEST_WORDS] "1"
  let searchAttributes ← readWords Reader.u16 m.words
  let area ← m.byteArea
  let old ← utf16Field "OldFileName" area 1
  let second := 1 + old.2 + 2
  if area[second]? ≠ some BUFFER_FORMAT_ASCII then
    .error (.truncated "NewFileName marker" (second + 1) area.length)
  else
    let second := second + 1
    let second := if (m.byteAreaOffset + second) % 2 = 0 then second else second + 1
    let new ← utf16Field "NewFileName" area second
    return { searchAttributes, oldName := old.1, newName := new.1 }

/-- The two names in the byte area, as they come to lie. -/
def placed (r : RenameRequest) : Bytes :=
  BUFFER_FORMAT_ASCII :: (utf16z r.oldName ++ (BUFFER_FORMAT_ASCII :: 0 :: utf16z r.newName))

theorem length_placed (r : RenameRequest) :
    r.placed.length =
      2 * (Utf16.encode r.oldName).length + 2 * (Utf16.encode r.newName).length + 7 := by
  rw [placed, List.length_cons, List.length_append, List.length_cons, List.length_cons,
    length_utf16z, length_utf16z]
  omega

theorem area_eq (r : RenameRequest) : r.area = .ok r.placed := by
  have first : ((ByteArea.forWordCount RENAME_REQUEST_WORDS.toNat).put
      [BUFFER_FORMAT_ASCII]).offset = 38 := rfl
  have odd : ((((ByteArea.forWordCount RENAME_REQUEST_WORDS.toNat).put
      [BUFFER_FORMAT_ASCII]).put (utf16z r.oldName)).put [BUFFER_FORMAT_ASCII]).offset % 2 = 1 := by
    rw [ByteArea.offset_put, ByteArea.offset_put, first, length_utf16z, List.length_singleton]
    omega
  have even : ((((ByteArea.forWordCount RENAME_REQUEST_WORDS.toNat).put
      [BUFFER_FORMAT_ASCII]).put (utf16z r.oldName)).put [BUFFER_FORMAT_ASCII]).offset + 1 =
      38 + (2 * (Utf16.encode r.oldName).length + 2) + 2 := by
    rw [ByteArea.offset_put, ByteArea.offset_put, first, length_utf16z, List.length_singleton]
  have aligned : requireWordAligned "NewFileName" (((((ByteArea.forWordCount
      RENAME_REQUEST_WORDS.toNat).put [BUFFER_FORMAT_ASCII]).put (utf16z r.oldName)).put
        [BUFFER_FORMAT_ASCII]).put [0]).offset = .ok () := by
    rw [ByteArea.offset_put, List.length_singleton, even, requireWordAligned, if_pos]
    rw [NAME_ALIGNMENT]
    omega
  rw [area]
  dsimp only
  rw [first, ByteArea.alignTo_of_odd odd, aligned]
  simp [requireWordAligned, NAME_ALIGNMENT, bind, Except.bind, pure, Except.pure, placed,
    ByteArea.finish, ByteArea.forWordCount]

theorem encodeBody_eq (r : RenameRequest) :
    r.encodeBody = .ok (body (u16le r.searchAttributes) r.placed) := by
  rw [encodeBody, area_eq]
  rfl

/-- A request whose byte area is parsed whole is decoded whole. -/
theorem decode_encoded {r : RenameRequest} {h : SmbHeader} {m : Message}
    (command : h.command = Command.RENAME)
    (holds : m.Holds h (u16le r.searchAttributes) r.placed)
    (whole : r.placed.length < 2 ^ 16)
    (oldNoNull : '\x00' ∉ r.oldName) (newNoNull : '\x00' ∉ r.newName) :
    decode m = .ok r := by
  have count : m.wordCount = RENAME_REQUEST_WORDS := by
    rw [holds.wordCount, length_u16le]
    rfl
  have expected : m.expectWords Command.RENAME [RENAME_REQUEST_WORDS] "1" = .ok () := by
    rw [Message.expectWords, holds.header, if_neg (by rw [command]; exact fun ne => ne rfl), count,
      if_pos (List.mem_singleton_self _)]
  have attributes : readWords Reader.u16 (u16le r.searchAttributes) = .ok r.searchAttributes := by
    have front := Reader.u16_append r.searchAttributes []
    rw [List.append_nil] at front
    rw [readWords, front]
  have area : m.byteArea = .ok r.placed := by
    rw [holds.byteArea, Nat.mod_eq_of_lt whole, List.take_length]
  have old : utf16Field "OldFileName" r.placed 1 = .ok (r.oldName, (utf16Bytes r.oldName).length) :=
    utf16Field_append _ oldNoNull [BUFFER_FORMAT_ASCII] _
  have placed : r.placed = (BUFFER_FORMAT_ASCII :: utf16z r.oldName) ++
      (BUFFER_FORMAT_ASCII :: 0 :: utf16z r.newName) := rfl
  have firstLength : (BUFFER_FORMAT_ASCII :: utf16z r.oldName).length =
      1 + (utf16Bytes r.oldName).length + 2 := by
    rw [List.length_cons, length_utf16z, length_utf16Bytes]
    omega
  have marker : r.placed[1 + (utf16Bytes r.oldName).length + 2]? = some BUFFER_FORMAT_ASCII := by
    rw [placed, List.getElem?_append_right (by omega), firstLength, Nat.sub_self,
      List.getElem?_cons_zero]
  have odd : ¬ (m.byteAreaOffset + (1 + (utf16Bytes r.oldName).length + 2 + 1)) % 2 = 0 := by
    rw [holds.byteAreaOffset, length_u16le, HEADER_LEN, length_utf16Bytes]
    omega
  have new : utf16Field "NewFileName" r.placed (1 + (utf16Bytes r.oldName).length + 2 + 1 + 1) =
      .ok (r.newName, (utf16Bytes r.newName).length) := by
    have at_new := utf16Field_append "NewFileName" newNoNull
      ((BUFFER_FORMAT_ASCII :: utf16z r.oldName) ++ [BUFFER_FORMAT_ASCII, 0]) []
    rw [List.append_nil, List.append_assoc, List.length_append, firstLength] at at_new
    exact at_new
  rw [decode, expected, holds.words, attributes, area]
  simp only [bind, Except.bind, old, marker, ne_eq, not_true_eq_false, if_false, if_neg odd, new]
  rfl

end RenameRequest

/-! ## SMB_COM_CLOSE -/

/-- An `SMB_COM_CLOSE` request. -/
structure CloseRequest where
  fid : UInt16
  lastTimeModified : UInt32
  deriving DecidableEq, Repr

namespace CloseRequest

def encodeBody (r : CloseRequest) : Except WireError Bytes :=
  .ok (body (u16le r.fid ++ u32le r.lastTimeModified) [])

end CloseRequest

end Smb1Client
