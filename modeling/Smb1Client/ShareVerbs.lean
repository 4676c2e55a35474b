import Smb1Client.Lib.Peer
import Smb1Client.RemoveDirAll
import Smb1Client.Timestamps

/-!
The verbs of `tree.rs` on paths that neither list nor delete.

Three requests more than the listings and deletes put are behind them. Each names its path
in its normalized form, a rename with a leading backslash in front.
-/

namespace Smb1Client

def SUBCOMMAND_QUERY_FS_INFORMATION : UInt16 := 0x0003

/-- A request of the tree verbs. -/
inductive ShareRequest where
  | tree (request : TreeRequest)
  | rename (request : RenameRequest)
  | setPath (path : Text) (block : BasicInfo)
  | queryFs (level : UInt16)
  deriving DecidableEq

abbrev ShareVerb := Dialogue ShareRequest Answer Taking ClientError

namespace ShareRequest

/-- The command body, or why the request is not put. -/
def encodeBody (n : Negotiated) : ShareRequest → Except ClientError Bytes
  | tree request => request.encodeBody n
  | rename request => request.encodeBody.mapError .ofWire
  | setPath path block =>
      transactionBody n
        (.trans2 SUBCOMMAND_SET_PATH_INFORMATION (setPathParameters SET_BASIC_INFO path)
          block.encode)
        "TRANS2_SET_PATH_INFORMATION"
  | queryFs level =>
      transactionBody n
        (.trans2 SUBCOMMAND_QUERY_FS_INFORMATION (LittleEndian.u16le level) [])
        "TRANS2_QUERY_FS_INFORMATION"

/-- Puts a request, and refuses a status that is not success. -/
def checked (n : Negotiated) (r : ShareRequest) : ShareVerb Reply :=
  match r.encodeBody n with
  | .error error => .failed error
  | .ok _ => .ask r fun answer =>
      match answer with
      | .error gone => .failed (.ofConnection gone)
      | .ok reply =>
          if reply.status ≠ .SUCCESS then .failed (.refused reply.status) else .done reply

end ShareRequest

namespace Tree

variable (n : Negotiated)

/-- A verb that puts only what the listings and deletes put. -/
def lift {α : Type} (verb : TreeVerb α) : ShareVerb α := verb.relabel .tree

/-- `Tree::create_dir`. -/
def createDir (path : Text) : TreeVerb Unit := do
  let path ← sharePath path
  let opened ← createAndx n (createDirRequest path)
  closeHandle n opened.fid

/-- `Tree::exists`. -/
def isThere (path : Text) : TreeVerb Bool := do
  match ← (metadata n path).attempt with
  | .ok _ => return true
  | .error error => if error.isNotFound then return false else .failed error

/-- `Tree::open_with`, and the close of what it gives: the length the open reported. -/
def openAndClose (path : Text) (options : OpenOptions) : TreeVerb UInt64 := do
  let path ← sharePath path
  let opened ← createAndx n (options.request path)
  closeHandle n opened.fid
  return opened.endOfFile

/-- `Tree::rename`. -/
def rename (old new : Text) : ShareVerb Unit := do
  let old ← lift (sharePath old)
  let new ← lift (sharePath new)
  let _ ← ShareRequest.checked n (.rename (renameRequest old new))
  return ()

/-- `Tree::set_path`. -/
def setPath (path : Text) (block : BasicInfo) : ShareVerb Unit := do
  let path ← lift (sharePath path)
  let _ ← ShareRequest.checked n (.setPath path.text block)
  return ()

/-- `Tree::set_times`. -/
def setTimes (path : Text) (creation lastAccess lastWrite change : Option OffsetDateTime) :
    ShareVerb Unit :=
  setPath n path
    { creationTime := creation.map toFiletime, lastAccessTime := lastAccess.map toFiletime
      lastWriteTime := lastWrite.map toFiletime, changeTime := change.map toFiletime }

/-- `Tree::set_attributes`, where clearing them all is said with the one that means none. -/
def setAttributes (path : Text) (attributes : UInt32) : ShareVerb Unit :=
  setPath n path
    { attributes := some (if attributes = 0 then ATTRIBUTE_NORMAL else attributes) }

end Tree

end Smb1Client
