import Smb1Client.TreeVerbs

/-!
Which names survive the wire.

The tree verbs encode a name of any length into 16-bit length fields. What a
server reads back is the request that was built exactly where the byte area fits
`ByteCount`; past that the message goes out with a wrapped length, until the
frame limit refuses it (`survives_iff`).
-/

namespace Smb1Client

open LittleEndian

/-! ## The requests that carry a name -/

/-- A request that carries a name. -/
inductive NamedRequest where
  | create (request : NtCreateAndxRequest)
  | rename (request : RenameRequest)
  | connect (request : TreeConnectAndxRequest)
  deriving DecidableEq

namespace NamedRequest

def command : NamedRequest → UInt8
  | create _ => Command.NT_CREATE_ANDX
  | rename _ => Command.RENAME
  | connect _ => Command.TREE_CONNECT_ANDX

def encodeBody : NamedRequest → Except WireError Bytes
  | create request => request.encodeBody
  | rename request => request.encodeBody
  | connect request => request.encodeBody

/-- The decoder of the same command. -/
def decode (m : Message) : NamedRequest → Except WireError NamedRequest
  | create _ => (NtCreateAndxRequest.decode m).map create
  | rename _ => (RenameRequest.decode m).map rename
  | connect _ => (TreeConnectAndxRequest.decode m).map connect

/-- `NameLength`, where the command has one, is the true length of the name. -/
def NameLengthTrue (m : Message) : NamedRequest → Prop
  | create request => ∃ words, readWords CreateRequestWords.read m.words = .ok words ∧
      words.nameLength.toNat = (utf16Bytes request.name).length
  | rename _ => True
  | connect _ => True

/-- The header the connection puts on a request. -/
def header (r : NamedRequest) (mid tid uid : UInt16) : SmbHeader :=
  { SmbHeader.request r.command with mid, tid, uid }

/-- The request fails locally, or what is framed declares its true lengths and is
read back as the request that was built. -/
def Survives (r : NamedRequest) (mid tid uid : UInt16) : Prop :=
  match r.encodeBody with
  | .error _ => True
  | .ok body =>
      (frame (message (r.header mid tid uid) body)).isOk = true →
        ∃ m, Message.parse (message (r.header mid tid uid) body) = .ok m ∧
          m.byteCount.toNat = m.byteAreaToEnd.length ∧ r.NameLengthTrue m ∧ r.decode m = .ok r

end NamedRequest

/-- The verbs that put a caller's name on the wire, with what they check. -/
inductive NamingVerb where
  | openWith (path : SharePath) (options : OpenOptions)
  | createDir (path : SharePath)
  | removeFile (path : SharePath)
  | removeDir (path : SharePath)
  | rename (old new : SharePath)
  | connect (target : ConnectTarget)

namespace NamingVerb

def request : NamingVerb → NamedRequest
  | openWith path options => .create (options.request path)
  | createDir path => .create (createDirRequest path)
  | removeFile path => .create (removeFileRequest path)
  | removeDir path => .create (removeDirRequest path)
  | rename old new => .rename (renameRequest old new)
  | connect target => .connect target.request

/-- The UTF-16 units of the names a verb sends. -/
def units : NamingVerb → ℕ
  | openWith path _ | createDir path | removeFile path | removeDir path =>
      (Utf16.encode path.text).length
  | rename old new => (Utf16.encode (withLeadingBackslash old.text)).length +
      (Utf16.encode (withLeadingBackslash new.text)).length
  | connect target => (Utf16.encode target.path).length

/-- What the byte area holds besides the units: pads, markers, terminators, and
the password and service of a tree connect. -/
def around : NamingVerb → ℕ
  | openWith .. | createDir _ | removeFile _ | removeDir _ => 3
  | rename .. => 7
  | connect target => (asBytes target.service).length + 4

/-- The bytes before the byte area. -/
def fixed : NamingVerb → ℕ
  | openWith .. | createDir _ | removeFile _ | removeDir _ => HEADER_LEN + 1 + 48 + 2
  | rename .. => HEADER_LEN + 1 + 2 + 2
  | connect _ => HEADER_LEN + 1 + 8 + 2

end NamingVerb

/-! ## What an encoded request holds -/

/-- What the encoder of a command makes of a request: a word block of `count`
words and a byte area of `length` bytes, from which the command's decoder gives
the request back where `ByteCount` can hold the length. -/
structure NamedRequest.Encodes (r : NamedRequest) (words area : Bytes) (count : ℕ) : Prop where
  encoded : r.encodeBody = .ok (body words area)
  paired : words.length = count * 2
  small : count < 256
  back : ∀ {h : SmbHeader} {m : Message}, h.command = r.command → m.Holds h words area →
    area.length < 2 ^ 16 → r.NameLengthTrue m ∧ r.decode m = .ok r

theorem NtCreateAndxRequest.encodes (request : NtCreateAndxRequest) :
    (NamedRequest.create request).Encodes request.words.write (0 :: utf16z request.name) 24 where
  encoded := request.encodeBody_eq
  paired := CreateRequestWords.length_write _
  small := by decide
  back := by
    intro h m command holds whole
    have name : (utf16Bytes request.name).length < 2 ^ 16 := by
      rw [request.length_area] at whole
      rw [length_utf16Bytes]
      omega
    refine ⟨⟨request.words, ?_, ?_⟩, ?_⟩
    · rw [holds.words, CreateRequestWords.readWords_write]
    · rw [request.nameLength_toNat, Nat.mod_eq_of_lt name]
    · have decoded := NtCreateAndxRequest.decode_encoded command holds
        (utf16Bytes request.name) [0, 0] (Nat.mod_eq_of_lt name).symm
        (by rw [Nat.mod_eq_of_lt whole, List.take_length, utf16z])
      rw [NamedRequest.decode, decoded, fromUtf16_utf16Bytes]
      rfl

theorem RenameRequest.encodes (request : RenameRequest) (oldNoNull : '\x00' ∉ request.oldName)
    (newNoNull : '\x00' ∉ request.newName) :
    (NamedRequest.rename request).Encodes (u16le request.searchAttributes) request.placed 1 where
  encoded := request.encodeBody_eq
  paired := length_u16le _
  small := by decide
  back := by
    intro h m command holds whole
    have decoded := RenameRequest.decode_encoded command holds whole oldNoNull newNoNull
    refine ⟨trivial, ?_⟩
    rw [NamedRequest.decode, decoded]
    rfl

theorem ConnectTarget.encodes (target : ConnectTarget) :
    (NamedRequest.connect target.request).Encodes target.request.words.write
      (TreeConnectAndxRequest.placed target.path target.service) 4 where
  encoded := TreeConnectAndxRequest.encodeBody_eq _ _
  paired := TreeConnectRequestWords.length_write _
  small := by decide
  back := by
    intro h m command holds whole
    have decoded := TreeConnectAndxRequest.decode_encoded command holds whole target.path_noNull
      target.asciiZ_service
    refine ⟨trivial, ?_⟩
    rw [NamedRequest.decode, decoded]
    rfl

namespace NamedRequest

/-- A request survives exactly where its byte area fits `ByteCount` or its message
does not fit the frame. -/
theorem Encodes.survives_iff_fits {r : NamedRequest} {words area : Bytes} {count : ℕ}
    (encodes : r.Encodes words area count) (mid tid uid : UInt16) :
    r.Survives mid tid uid ↔ area.length < 2 ^ 16 ∨
      Netbios.MAX_MESSAGE_LEN < HEADER_LEN + 1 + words.length + 2 + area.length := by
  obtain ⟨m, parsed, holds⟩ := Message.parse_message_body (r.header mid tid uid) area
    encodes.paired encodes.small
  have total : (message (r.header mid tid uid) (body words area)).length =
      HEADER_LEN + 1 + words.length + 2 + area.length := by
    rw [message, List.length_append, SmbHeader.length_write, body, List.length_cons,
      List.length_append, List.length_append, length_u16le]
    omega
  rw [Survives, encodes.encoded]
  dsimp only
  rw [frame_isOk, total]
  constructor
  · intro survives
    by_contra condition
    obtain ⟨m', parsed', count', -, -⟩ := survives (by omega)
    rw [parsed] at parsed'
    cases parsed'
    rw [holds.byteCount, holds.byteAreaToEnd] at count'
    have := Nat.mod_lt area.length (Nat.two_pow_pos 16)
    omega
  · intro condition framed
    have whole : area.length < 2 ^ 16 := by omega
    obtain ⟨nameLength, decoded⟩ := encodes.back rfl holds whole
    refine ⟨m, parsed, ?_, nameLength, decoded⟩
    rw [holds.byteCount, holds.byteAreaToEnd, Nat.mod_eq_of_lt whole]

end NamedRequest

/-- **The names that survive.** A verb's request fails locally or is read back as
it was built, with true lengths, exactly where its byte area is shorter than
2^16 bytes or its message is longer than a frame may be. -/
theorem NamingVerb.survives_iff (verb : NamingVerb) (mid tid uid : UInt16) :
    verb.request.Survives mid tid uid ↔
      2 * verb.units + verb.around < 2 ^ 16 ∨
        Netbios.MAX_MESSAGE_LEN < verb.fixed + (2 * verb.units + verb.around) := by
  have created : ∀ request : NtCreateAndxRequest,
      (NamedRequest.create request).Survives mid tid uid ↔
        2 * (Utf16.encode request.name).length + 3 < 2 ^ 16 ∨ Netbios.MAX_MESSAGE_LEN <
          HEADER_LEN + 1 + 48 + 2 + (2 * (Utf16.encode request.name).length + 3) := by
    intro request
    rw [request.encodes.survives_iff_fits, request.length_area, CreateRequestWords.length_write]
  cases verb with
  | openWith path options => exact created (options.request path)
  | createDir path => exact created (createDirRequest path)
  | removeFile path => exact created (removeFileRequest path)
  | removeDir path => exact created (removeDirRequest path)
  | rename old new =>
      have encodes := RenameRequest.encodes (renameRequest old new)
        (withLeadingBackslash_noNull old.noNull) (withLeadingBackslash_noNull new.noNull)
      rw [request, encodes.survives_iff_fits, RenameRequest.length_placed, length_u16le,
        ← Nat.mul_add]
      rfl
  | connect target =>
      rw [request, target.encodes.survives_iff_fits, TreeConnectAndxRequest.length_placed,
        TreeConnectRequestWords.length_write, Nat.add_assoc]
      rfl

/-! ## A name that wraps to nothing -/

theorem encode_replicate_a (n : ℕ) : (Utf16.encode (List.replicate n 'a')).length = n := by
  rw [Utf16.encode, List.length_flatMap, List.map_replicate, List.sum_replicate]
  exact Nat.mul_one n

theorem normalize_replicate_a (n : ℕ) :
    normalize (List.replicate n 'a') = List.replicate n 'a' := by
  have kept : ∀ m, (List.replicate m 'a').dropWhile isWhitespace = List.replicate m 'a'
    | 0 => rfl
    | m + 1 => by rw [List.replicate_succ, List.dropWhile_cons_of_neg (by decide)]
  rw [normalize, trim, kept, List.reverse_replicate, kept, List.reverse_replicate,
    List.map_replicate, if_neg (by decide)]

theorem SharePath.new_replicate_a {n : ℕ} (long : 2 < n) :
    ∃ path, SharePath.new (List.replicate n 'a') = .ok path ∧ path.text = List.replicate n 'a' := by
  have noNull : '\x00' ∉ List.replicate n 'a' := by simp [List.mem_replicate]
  have relative : (List.replicate n 'a').head? ≠ some '\\' := by
    rw [List.head?_replicate]
    split <;> decide
  have shape : ∀ short : Text, short.length ≤ 2 → List.replicate n 'a' ≠ short := by
    rintro short bound rfl
    rw [List.length_replicate] at bound
    omega
  have confined : escapesShareRoot (List.replicate n 'a') ≠ true := by
    rw [escapesShareRoot, List.splitOn_eq_singleton (by simp [List.mem_replicate]), escapesFrom,
      if_neg (by simp only [not_or]; exact ⟨shape _ (by simp), shape _ (by simp)⟩),
      if_neg (shape _ (by simp)), escapesFrom]
    exact Bool.false_ne_true
  refine ⟨⟨List.replicate n 'a', noNull, relative, Bool.eq_false_iff.mpr confined⟩, ?_, rfl⟩
  rw [SharePath.new]
  simp only [normalize_replicate_a, dif_neg noNull, dif_neg relative, dif_neg confined]

/-- Removing the file named by 32,768 letters: the name's length wraps to zero, and
the request that reaches the server opens the share root for deletion. -/
theorem removeFile_wraps :
    ∃ path, SharePath.new (List.replicate 32768 'a') = .ok path ∧
      ¬ (NamingVerb.removeFile path).request.Survives 0 0 0 ∧
      ∃ body m, (removeFileRequest path).encodeBody = .ok body ∧
        (frame (message ((NamingVerb.removeFile path).request.header 0 0 0) body)).isOk = true ∧
        Message.parse (message ((NamingVerb.removeFile path).request.header 0 0 0) body) = .ok m ∧
        NtCreateAndxRequest.decode m = .ok { removeFileRequest path with name := [] } := by
  obtain ⟨path, accepted, text⟩ := SharePath.new_replicate_a (n := 32768) (by omega)
  have units : (Utf16.encode (removeFileRequest path).name).length = 32768 := by
    change (Utf16.encode path.text).length = 32768
    rw [text, encode_replicate_a]
  have encodes := (removeFileRequest path).encodes
  obtain ⟨m, parsed, holds⟩ := Message.parse_message_body
    ((NamingVerb.removeFile path).request.header 0 0 0) (0 :: utf16z (removeFileRequest path).name)
    encodes.paired encodes.small
  refine ⟨path, accepted, ?_, ?_⟩
  · rw [NamingVerb.request, encodes.survives_iff_fits, NtCreateAndxRequest.length_area, units,
      CreateRequestWords.length_write, HEADER_LEN, Netbios.MAX_MESSAGE_LEN]
    omega
  · have framed : (frame (message ((NamingVerb.removeFile path).request.header 0 0 0)
        (body (removeFileRequest path).words.write
          (0 :: utf16z (removeFileRequest path).name)))).isOk = true := by
      rw [frame_isOk, message, List.length_append, SmbHeader.length_write, body, List.length_cons,
        List.length_append, List.length_append, length_u16le, NtCreateAndxRequest.length_area,
        units, CreateRequestWords.length_write, HEADER_LEN, Netbios.MAX_MESSAGE_LEN]
      omega
    refine ⟨_, m, encodes.encoded, framed, parsed, ?_⟩
    have length : (utf16Bytes (removeFileRequest path).name).length = 65536 := by
      rw [length_utf16Bytes, units]
    have area : (0 :: utf16z (removeFileRequest path).name).length = 65539 := by
      rw [NtCreateAndxRequest.length_area, units]
    have decoded := NtCreateAndxRequest.decode_encoded rfl holds []
      ((utf16z (removeFileRequest path).name).take 2) (by rw [length]; rfl)
      (by rw [area]; rfl)
    rw [decoded]
    rfl

end Smb1Client
