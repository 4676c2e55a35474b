import Smb1Client.TreeRequest

/-!
The lazily-paged listing of `resource/listing.rs`.

Two replies end a listing: one that says `EndOfSearch`, and `STATUS_NO_MORE_FILES`. What
ends it has closed the search on the server. A page without entries that ends nothing is
an error; the entries are counted before `.` and `..` are left out.
-/

namespace Smb1Client

def BATCH : UInt16 := 100
def FIRST_FLAGS : UInt16 := FLAG_CLOSE_AT_EOS
def NEXT_FLAGS : UInt16 := FLAG_CLOSE_AT_EOS ||| FLAG_CONTINUE_FROM_LAST

/-- The pattern a listing of a path searches on. -/
def searchPattern (normalized : Text) : Text :=
  if normalized = [] then ['\\', '*']
  else if normalized.getLast? = some '\\' then normalized ++ ['*']
  else normalized ++ ['\\', '*']

/-- One directory entry. -/
structure DirEntry where
  name : Text
  metadata : Metadata
  deriving DecidableEq, Repr

namespace DirEntry

def isDir (e : DirEntry) : Bool := e.metadata.isDir

def ofDirectoryEntry (e : DirectoryEntry) : DirEntry where
  name := e.fileName
  metadata := .fromParts
    { creationTime := some e.creationTime, lastAccessTime := some e.lastAccessTime
      lastWriteTime := some e.lastWriteTime, changeTime := some e.changeTime
      attributes := some e.extFileAttributes }
    e.endOfFile e.allocationSize e.extFileAttributes

end DirEntry

/-- The entries every directory has. -/
def DirectoryEntry.isDots (e : DirectoryEntry) : Bool :=
  e.fileName = ['.'] || e.fileName = ['.', '.']

/-- The entries of a page that a listing gives its caller. -/
def shown (entries : List DirectoryEntry) : List DirEntry :=
  (entries.filter fun e => !e.isDots).map .ofDirectoryEntry

/-- A directory listing, which owns the server-side search. -/
structure ReadDir where
  pattern : Text
  sid : Option UInt16
  finished : Bool
  closed : Bool
  page : List DirEntry
  deriving DecidableEq, Repr

namespace ReadDir

def new (pattern : Text) : ReadDir where
  pattern
  sid := none
  finished := false
  closed := false
  page := []

def firstParams (pattern : Text) : FindFirst2Params where
  searchAttributes := SEARCH_ATTRIBUTES
  searchCount := BATCH
  flags := FIRST_FLAGS
  informationLevel := INFO_LEVEL_BOTH_DIRECTORY_INFO
  pattern

def nextParams (r : ReadDir) (sid : UInt16) : FindNext2Params where
  sid
  searchCount := BATCH
  informationLevel := INFO_LEVEL_BOTH_DIRECTORY_INFO
  resumeKey := 0
  flags := NEXT_FLAGS
  pattern := r.pattern

/-- What a page's reply says of it: of the entries, and of the search. -/
def decodePage (first : Bool) (reply : Reply) : Except ClientError (FindReply × Bytes) :=
  match reply.transaction with
  | none => .error (.ofWire (.noResponseBody Command.TRANSACTION2 reply.status))
  | some body => do
      let found ← ((if first then FindReply.decodeFirst else FindReply.decodeNext)
        body.parameters).mapError .ofWire
      return (found, body.data)

/-- Takes the entries of a page. The search id of a first page is held before its entries
are walked, so a page that fails may leave it behind. -/
def takeEntries (r : ReadDir) (found : FindReply) (data : Bytes) :
    ReadDir × Except ClientError Unit :=
  match walkEntries data found.searchCount with
  | .error error => (r, .error (.ofWire error))
  | .ok entries =>
      let r := { r with page := r.page ++ shown entries }
      if found.endOfSearch ≠ 0 then ({ r with finished := true }, .ok ())
      else if entries = [] then (r, .error (.protocol (.listing (.noProgress r.pattern))))
      else (r, .ok ())

/-- What a FIND round's reply makes of the listing. -/
def pageIn (r : ReadDir) (first : Bool) (reply : Reply) : ReadDir × Except ClientError Unit :=
  if reply.status = .NO_MORE_FILES then ({ r with finished := true }, .ok ())
  else if reply.status ≠ .SUCCESS then (r, .error (.refused reply.status))
  else
    match decodePage first reply with
    | .error error => (r, .error error)
    | .ok (found, data) =>
        (if first then { r with sid := found.sid } else r).takeEntries found data

/-- What a call for the next entry does where nothing is in flight. -/
inductive Next where
  | entry (e : DirEntry) (rest : ReadDir)
  | ended
  | fetch (params : FindNext2Params)

/-- Answers out of the page in hand, ends, or asks for another page. -/
def next (r : ReadDir) : Next :=
  match r.page with
  | e :: page => .entry e { r with page }
  | [] =>
      if r.finished || r.closed then .ended
      else
        match r.sid with
        | none => .ended
        | some sid => .fetch (r.nextParams sid)

variable {μ : Type} (n : Negotiated)

/-- One FIND round whose failure ends what it is part of. -/
def round (r : ReadDir) (first : Bool) (request : TreeRequest) :
    Dialogue TreeRequest Answer μ ClientError ReadDir := do
  let reply ← request.put n
  let (r, taken) := r.pageIn first reply
  Dialogue.ofExcept (taken.map fun () => r)

/-- `ReadDir::start`. -/
def start (pattern : Text) : Dialogue TreeRequest Answer μ ClientError ReadDir :=
  (new pattern).round n true (.findFirst (firstParams pattern))

/-- The next entry, with at most `turns` pages asked for. -/
def nextEntry : ℕ → ReadDir → Dialogue TreeRequest Answer μ ClientError (Option DirEntry × ReadDir)
  | 0, _ => .paused
  | turns + 1, r =>
      match r.next with
      | .entry e rest => return (some e, rest)
      | .ended => return (none, r)
      | .fetch params => do nextEntry turns (← r.round n false (.findNext params))

/-- `ReadDir::close`, which sends nothing for a search the server has closed. -/
def close (r : ReadDir) : Dialogue TreeRequest Answer μ ClientError Unit :=
  match r.sid with
  | none => return ()
  | some sid => do
      if r.finished then return ()
      let _ ← TreeRequest.checked n (.findClose ⟨sid⟩)
      return ()

end ReadDir

end Smb1Client
