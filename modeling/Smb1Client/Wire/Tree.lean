import Smb1Client.Wire.Text

/-!
`SMB_COM_TREE_CONNECT_ANDX`.
-/

namespace Smb1Client

open LittleEndian

/-- The `WordCount` of a tree-connect request. -/
def TREE_CONNECT_REQUEST_WORDS : UInt8 := 4

def SERVICE_IPC : Text := ['I', 'P', 'C']
def SERVICE_ANY : Text := ['?', '?', '?', '?', '?']

structure TreeConnectRequestWords where
  andx : AndX
  flags : UInt16
  passwordLength : UInt16
  deriving DecidableEq, Repr

namespace TreeConnectRequestWords

def write (w : TreeConnectRequestWords) : Bytes :=
  w.andx.write ++ (u16le w.flags ++ u16le w.passwordLength)

def read : Reader TreeConnectRequestWords := do
  let andx ← AndX.read
  let flags ← Reader.u16
  let passwordLength ← Reader.u16
  return { andx, flags, passwordLength }

@[simp] theorem length_write (w : TreeConnectRequestWords) : w.write.length = 4 * 2 := by
  simp [write]

theorem readWords_write (w : TreeConnectRequestWords) : readWords read w.write = .ok w := by
  have all : read (w.write ++ []) = some (w, []) := by
    rw [read, write]
    simp only [List.append_assoc]
    rw [AndX.read_bind, Reader.u16_bind, Reader.u16_bind, Reader.pure_apply]
  rw [List.append_nil] at all
  rw [readWords, all]

end TreeConnectRequestWords

/-- A tree-connect request. `password` holds one null byte, declared by
`PasswordLength`, which is what puts the path on an even offset. -/
structure TreeConnectAndxRequest where
  flags : UInt16
  password : Bytes
  path : Text
  service : Text
  deriving DecidableEq

namespace TreeConnectAndxRequest

/-- A tree connect to `path`, declaring the one-byte password that aligns it. -/
def new (path service : Text) : TreeConnectAndxRequest where
  flags := 0
  password := [0]
  path := path
  service := service

def words (r : TreeConnectAndxRequest) : TreeConnectRequestWords where
  andx := .NONE
  flags := r.flags
  passwordLength := UInt16.ofNat r.password.length

def area (r : TreeConnectAndxRequest) : Except WireError Bytes := do
  let area := (ByteArea.forWordCount TREE_CONNECT_REQUEST_WORDS.toNat).put r.password
  requireWordAligned "Path" area.offset
  return (((area.put (utf16z r.path)).put (asBytes r.service)).put [0]).finish

def encodeBody (r : TreeConnectAndxRequest) : Except WireError Bytes :=
  return body r.words.write (← r.area)

def decode (m : Message) : Except WireError TreeConnectAndxRequest := do
  m.expectWords Command.TREE_CONNECT_ANDX [TREE_CONNECT_REQUEST_WORDS] "4"
  let words ← readWords TreeConnectRequestWords.read m.words
  let area ← m.byteArea
  let passwordLength := words.passwordLength.toNat
  if passwordLength ≤ area.length then
    let rest := area.drop passwordLength
    let pathEnd ← findUtf16Terminator rest
    let path ← fromUtf16 "Path" 0 (rest.take pathEnd)
    let service ← asciiZ "Service" (rest.drop (pathEnd + 2))
    return { flags := words.flags, password := area.take passwordLength, path, service }
  else .error (.truncated "Password" passwordLength area.length)

/-- The byte area of a request built by `new`. -/
def placed (path service : Text) : Bytes := 0 :: (utf16z path ++ (asBytes service ++ [0]))

theorem length_placed (path service : Text) :
    (placed path service).length =
      2 * (Utf16.encode path).length + (asBytes service).length + 4 := by
  rw [placed, List.length_cons, List.length_append, List.length_append, length_utf16z,
    List.length_singleton]
  omega

theorem area_eq (path service : Text) : (new path service).area = .ok (placed path service) := by
  simp [area, requireWordAligned, NAME_ALIGNMENT, ByteArea.offset, ByteArea.forWordCount, new,
    HEADER_LEN, TREE_CONNECT_REQUEST_WORDS, bind, Except.bind, pure, Except.pure, placed,
    ByteArea.finish]

theorem encodeBody_eq (path service : Text) :
    (new path service).encodeBody =
      .ok (body (new path service).words.write (placed path service)) := by
  rw [encodeBody, area_eq]
  rfl

/-- A request whose byte area is parsed whole is decoded whole, for a service
string that its own bytes spell. -/
theorem decode_encoded {path service : Text} {h : SmbHeader} {m : Message}
    (command : h.command = Command.TREE_CONNECT_ANDX)
    (holds : m.Holds h (new path service).words.write (placed path service))
    (whole : (placed path service).length < 2 ^ 16) (pathNoNull : '\x00' ∉ path)
    (spelled : asciiZ "Service" (asBytes service ++ [0]) = .ok service) :
    decode m = .ok (new path service) := by
  have count : m.wordCount = TREE_CONNECT_REQUEST_WORDS := by
    rw [holds.wordCount, TreeConnectRequestWords.length_write]
    rfl
  have expected : m.expectWords Command.TREE_CONNECT_ANDX [TREE_CONNECT_REQUEST_WORDS] "4" =
      .ok () := by
    rw [Message.expectWords, holds.header, if_neg (by rw [command]; exact fun ne => ne rfl), count,
      if_pos (List.mem_singleton_self _)]
  have area : m.byteArea = .ok (placed path service) := by
    rw [holds.byteArea, Nat.mod_eq_of_lt whole, List.take_length]
  have password : (new path service).words.passwordLength.toNat = 1 := rfl
  have rest : (placed path service).drop 1 = utf16z path ++ (asBytes service ++ [0]) := by
    rw [placed, List.drop_one, List.tail_cons]
  have enough : 1 ≤ (placed path service).length := by rw [length_placed]; omega
  have name : (utf16z path ++ (asBytes service ++ [0])).take (utf16Bytes path).length =
      utf16Bytes path := by
    rw [utf16z, List.append_assoc, List.take_left]
  have afterName : (utf16z path ++ (asBytes service ++ [0])).drop ((utf16Bytes path).length + 2) =
      asBytes service ++ [0] :=
    List.drop_left' (by rw [utf16z, List.length_append]; rfl)
  rw [decode, expected, holds.words, TreeConnectRequestWords.readWords_write, area]
  simp only [bind, Except.bind, password, if_pos enough, rest,
    findUtf16Terminator_append pathNoNull, name, fromUtf16_utf16Bytes, afterName, spelled]
  rfl

end TreeConnectAndxRequest

end Smb1Client
