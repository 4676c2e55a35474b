import Smb1Client.Wire.Text

/-!
`srvsvc`'s `NetrShareEnum` at information level 1, and the NDR32 it is marshalled in.

Every primitive is aligned to four bytes from the start of the stub, and a pointer is a
referent id whose target is written behind all the structures, in the order the pointers
were met.
-/

namespace Smb1Client

open LittleEndian

/-! ## NDR32 -/

/-- What a stub can be that stops it decoding. -/
inductive NdrError where
  | truncated (field : String) (offset needed length : ℕ)
  | inconsistentString (offset : ℕ) (maximum first actual : UInt32)
  | invalidUtf16 (offset : ℕ)
  deriving DecidableEq, Repr

namespace Ndr

def ALIGN : ℕ := 4

/-- The next boundary at or past an offset. -/
def aligned (offset : ℕ) : ℕ := (offset + ALIGN - 1) / ALIGN * ALIGN

/-- A cursor over a stub, failing with `ε`. -/
abbrev Cursor (ε : Type) : Type → Type := ReaderT Bytes (StateT ℕ (Except ε))

def takeBytes (field : String) (length : ℕ) : Cursor NdrError Bytes := fun stub start =>
  if start + length ≤ stub.length then .ok ((stub.drop start).take length, start + length)
  else .error (.truncated field start length stub.length)

def u32 (field : String) : Cursor NdrError UInt32 := fun stub start =>
  (takeBytes field 4 stub (aligned start)).map fun (raw, stop) =>
    (UInt32.ofNat (decode raw), stop)

/-- Reads a referent id and reports only whether it is null. -/
def isNullPointer (field : String) : Cursor NdrError Bool := return (← u32 field) = 0

/-- A maximum count, the index of the first element, an actual count, and that many
UTF-16 code units ending in a null one. -/
def conformantVaryingString (field : String) : Cursor NdrError Text := do
  let countsAt := aligned (← get)
  let maximum ← u32 field
  let first ← u32 field
  let actual ← u32 field
  if first ≠ 0 ∨ actual > maximum then
    throw (.inconsistentString countsAt maximum first actual)
  let charactersAt ← get
  let bytes ← takeBytes field (actual.toNat * 2)
  let units := Utf16.ofBytes bytes
  let text := if units.getLast? = some 0 then units.dropLast else units
  match Utf16.decode text with
  | some text => return text
  | none => throw (.invalidUtf16 charactersAt)

/-- Pads a stub out to the next boundary. -/
def pad (stub : Bytes) : Bytes := stub ++ .replicate (aligned stub.length - stub.length) 0

def putU32 (stub : Bytes) (value : UInt32) : Bytes := pad stub ++ u32le value

def putString (stub : Bytes) (text : Text) : Bytes :=
  let units := Utf16.encode text ++ [0]
  let count := UInt32.ofNat units.length
  pad (putU32 (putU32 (putU32 stub count) 0) count ++ Utf16.toBytes units)

section Cursor

variable {ε α β : Type} {stub : Bytes} {start : ℕ}

/-- A cursor that got through a sequence got through both of its parts. -/
theorem of_bind_ok {x : Cursor ε α} {f : α → Cursor ε β} {result : β × ℕ}
    (ran : (x >>= f) stub start = .ok result) :
    ∃ value next, x stub start = .ok (value, next) ∧ f value stub next = .ok result := by
  change (x stub start >>= fun p => f p.1 stub p.2) = .ok result at ran
  cases first : x stub start with
  | error error =>
      rw [first] at ran
      cases ran
  | ok p =>
      rw [first] at ran
      exact ⟨p.1, p.2, rfl, ran⟩

theorem bind_of_ok {x : Cursor ε α} {value : α} {next : ℕ} (ran : x stub start = .ok (value, next))
    (f : α → Cursor ε β) : (x >>= f) stub start = f value stub next := by
  change (x stub start).bind (fun p => f p.1 stub p.2) = _
  rw [ran]
  rfl

end Cursor

end Ndr

/-! ## Shares -/

/-- What a share serves. -/
inductive ShareService where
  | disk
  | printQueue
  | device
  | ipc
  | other (code : UInt16)
  deriving DecidableEq, Repr

def ShareService.fromCode (code : UInt16) : ShareService :=
  if code = 0 then disk
  else if code = 1 then printQueue
  else if code = 2 then device
  else if code = 3 then ipc
  else other code

structure ShareKind where
  service : ShareService
  special : Bool
  temporary : Bool
  deriving DecidableEq, Repr

def SRVSVC_SPECIAL : UInt32 := 0x80000000
def SRVSVC_TEMPORARY : UInt32 := 0x40000000

def ShareKind.fromSrvsvc (kind : UInt32) : ShareKind where
  service := .fromCode (kind &&& ~~~(SRVSVC_SPECIAL ||| SRVSVC_TEMPORARY)).toUInt16
  special := kind &&& SRVSVC_SPECIAL ≠ 0
  temporary := kind &&& SRVSVC_TEMPORARY ≠ 0

/-- One share a server offers. -/
structure Share where
  name : Text
  kind : ShareKind
  comment : Text
  deriving DecidableEq, Repr

/-! ## NetrShareEnum -/

/-- What a `NetrShareEnum` reply can be that stops it decoding. -/
inductive SrvsvcError where
  | ndr (error : NdrError)
  | level (outer : UInt32)
  | levelMismatch (outer inner : UInt32)
  | arrayTooSmall (entries maximum : UInt32)
  | totalBelowEntries (entries total : UInt32)
  | failed (code : UInt32)
  deriving DecidableEq, Repr

namespace Srvsvc

def INTERFACE : Bytes :=
  [0xc8, 0x4f, 0x32, 0x4b, 0x70, 0x16, 0xd3, 0x01, 0x12, 0x78, 0x5a, 0x47, 0xbf, 0x6e, 0xe1, 0x88]
def INTERFACE_VERSION : UInt32 := 3

/-- `NetrShareEnum`. -/
def OPNUM : UInt16 := 15

def LEVEL : UInt32 := 1
def NO_PREFERRED_MAXIMUM : UInt32 := 0xFFFFFFFF
def SERVER_NAME_REFERENT : UInt32 := 0x00020000
def CONTAINER_REFERENT : UInt32 := 0x00020004
def RESUME_HANDLE_REFERENT : UInt32 := 0x00020008
def WERR_OK : UInt32 := 0
def ERROR_MORE_DATA : UInt32 := 234

/-- The UNC form of a server name. -/
def unc (server : Text) : Text :=
  match server with
  | '\\' :: rest => '\\' :: '\\' :: rest.dropWhile (· = '\\')
  | _ => '\\' :: '\\' :: server

/-- The request stub for one round of the enumeration. -/
def request (server : Text) (resume : UInt32) : Bytes :=
  let stub := Ndr.putU32 [] SERVER_NAME_REFERENT
  let stub := Ndr.putString stub (unc server)
  [LEVEL, LEVEL, CONTAINER_REFERENT, 0, 0, NO_PREFERRED_MAXIMUM, RESUME_HANDLE_REFERENT,
    resume].foldl Ndr.putU32 stub

/-- One reply to `NetrShareEnum`. -/
structure Page where
  shares : List Share
  total : UInt32
  resume : UInt32
  more : Bool
  deriving DecidableEq, Repr

/-- Reads a field of the stub. -/
def field {α : Type} (read : Ndr.Cursor NdrError α) : Ndr.Cursor SrvsvcError α :=
  fun stub start => (read stub start).mapError .ndr

/-- The structures of the array: whether each is named, its kind, and whether it has a
comment. -/
def structures : ℕ → Ndr.Cursor SrvsvcError (List (Bool × ShareKind × Bool))
  | 0 => return []
  | entries + 1 => do
      let unnamed ← field (Ndr.isNullPointer "share netname pointer")
      let kind ← field (Ndr.u32 "share type")
      let uncommented ← field (Ndr.isNullPointer "share remark pointer")
      let rest ← structures entries
      return (!unnamed, .fromSrvsvc kind, !uncommented) :: rest

/-- The string a pointer has for its target, which is empty where the pointer is null. -/
def target (present : Bool) (name : String) : Ndr.Cursor SrvsvcError Text :=
  if present then field (Ndr.conformantVaryingString name) else return []

/-- Walks an array of `SHARE_INFO_1`: every structure first, then every string. -/
def shareInfo1Array (entries : UInt32) : Ndr.Cursor SrvsvcError (List Share) := do
  let maximum ← field (Ndr.u32 "array conformance")
  if entries > maximum then throw (.arrayTooSmall entries maximum)
  (← structures entries.toNat).mapM fun (named, kind, commented) => do
    let name ← target named "share netname"
    let comment ← target commented "share remark"
    return { name, kind, comment }

/-- The container's entry count and its shares. -/
def container : Ndr.Cursor SrvsvcError (UInt32 × List Share) := do
  if ← field (Ndr.isNullPointer "ShareInfo1 container") then return (0, [])
  let entries ← field (Ndr.u32 "EntriesRead")
  if ← field (Ndr.isNullPointer "container Buffer") then return (entries, [])
  return (entries, ← shareInfo1Array entries)

def readPage : Ndr.Cursor SrvsvcError Page := do
  let outer ← field (Ndr.u32 "Level")
  if outer ≠ LEVEL then throw (.level outer)
  let inner ← field (Ndr.u32 "InfoStruct.Level")
  if inner ≠ outer then throw (.levelMismatch outer inner)
  let (entries, shares) ← container
  let total ← field (Ndr.u32 "TotalEntries")
  if total < entries then throw (.totalBelowEntries entries total)
  let unresumed ← field (Ndr.isNullPointer "ResumeHandle")
  let resume ← if unresumed then pure 0 else field (Ndr.u32 "ResumeHandle")
  let code ← field (Ndr.u32 "return value")
  if code = WERR_OK then return { shares, total, resume, more := false }
  else if code = ERROR_MORE_DATA then return { shares, total, resume, more := true }
  else throw (.failed code)

/-- Decodes one reply's stub. -/
def response (stub : Bytes) : Except SrvsvcError Page := (readPage stub 0).map (·.1)

end Srvsvc

end Smb1Client
