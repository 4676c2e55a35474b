import Smb1Client.Resource.Listing

/-!
`Tree::remove_dir_all`: each level is listed to its end and its search closed before
anything on it is deleted.
-/

namespace Smb1Client

def CLOSE_LEAVES_THE_TIME_ALONE : UInt32 := 0

/-- Joins a directory to an entry's name, for the recursive walk. -/
def join (directory name : Text) : Text :=
  if directory = [] then name
  else if directory.getLast? = some '\\' then directory ++ name
  else directory ++ '\\' :: name

/-- The walk is at an entry a level's listing gave it. -/
structure Taking where
  directory : Text
  name : Text
  isDir : Bool
  deriving DecidableEq, Repr

abbrev TreeVerb := Dialogue TreeRequest Answer Taking ClientError

namespace Tree

variable (n : Negotiated)

def sharePath (path : Text) : TreeVerb SharePath :=
  .ofExcept ((SharePath.new path).mapError .invalidPath)

def readDir (path : Text) : TreeVerb ReadDir := do
  let path ← sharePath path
  ReadDir.start n (searchPattern path.text)

/-- Opens a path, with what the server said about what it opened. -/
def createAndx (request : NtCreateAndxRequest) : TreeVerb NtCreateAndxResponse := do
  let reply ← TreeRequest.checked n (.create request)
  .ofExcept ((NtCreateAndxResponse.decode reply.message).mapError .ofWire)

def closeHandle (fid : UInt16) : TreeVerb Unit := do
  let _ ← TreeRequest.checked n (.close ⟨fid, CLOSE_LEAVES_THE_TIME_ALONE⟩)
  return ()

/-- Opens with `DELETE` under `FILE_DELETE_ON_CLOSE`, then closes. -/
def delete (path : Text) (kind : UInt32) : TreeVerb Unit := do
  let path ← sharePath path
  let opened ← createAndx n (deleteRequest path kind)
  closeHandle n opened.fid

def queryPath (path : Text) (level : UInt16) : TreeVerb Bytes := do
  let reply ← TreeRequest.checked n (.queryPath level path)
  return reply.transactionData

def metadata (path : Text) : TreeVerb Metadata := do
  let path ← sharePath path
  let basic ← queryPath n path.text QUERY_BASIC_INFO
  let basic ← .ofExcept ((BasicInfo.decode basic).mapError .ofWire)
  let standard ← queryPath n path.text QUERY_STANDARD_INFO
  let standard ← .ofExcept ((StandardInfo.decode standard).mapError .ofWire)
  return .fromParts basic standard.endOfFile standard.allocationSize (basic.attributes.getD 0)

def removeFile (path : Text) : TreeVerb Unit := delete n path FILE_NON_DIRECTORY_FILE

/-- Deletes an empty directory, and reports one that survived its own deletion. -/
def removeDir (path : Text) : TreeVerb Unit := do
  delete n path FILE_DIRECTORY_FILE
  match ← (metadata n path).attempt with
  | .error error => if error.isNotFound then return () else .failed error
  | .ok _ => .failed (.status .DIRECTORY_NOT_EMPTY)

/-- The entries of a listing to its end, `turns` of them at most. -/
def drain : ℕ → ReadDir → TreeVerb (ReadDir × List DirEntry)
  | 0, _ => .paused
  | turns + 1, listing => do
      match ← listing.nextEntry n turns with
      | (none, listing) => return (listing, [])
      | (some entry, listing) => do
          let (listing, entries) ← drain turns listing
          return (listing, entry :: entries)

/-- One level of the recursive delete, `turns` levels deep at most. -/
def removeLevel : ℕ → Text → TreeVerb Unit
  | 0, _ => .paused
  | turns + 1, path => do
      let listing ← readDir n path
      let (listing, entries) ← drain n turns listing
      listing.close n
      entries.forM fun entry => do
        .note ⟨path, entry.name, entry.isDir⟩
        let child := join path entry.name
        if entry.isDir then removeLevel turns child else removeFile n child
      removeDir n path

def removeDirAll (turns : ℕ) (path : Text) : TreeVerb Unit := do
  let path ← sharePath path
  removeLevel n turns path.text

end Tree

end Smb1Client
