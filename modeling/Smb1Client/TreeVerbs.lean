import Smb1Client.Unc
import Smb1Client.Wire.File
import Smb1Client.Wire.Tree

/-!
The requests the tree verbs of `tree.rs` build from a caller's path.
-/

namespace Smb1Client

def DELETE : UInt32 := 0x00010000
def FILE_READ_DATA : UInt32 := 0x00000001
def FILE_WRITE_DATA : UInt32 := 0x00000002
def FILE_APPEND_DATA : UInt32 := 0x00000004
def FILE_READ_ATTRIBUTES : UInt32 := 0x00000080
def FILE_WRITE_ATTRIBUTES : UInt32 := 0x00000100

def FILE_OPEN : UInt32 := 1
def FILE_CREATE : UInt32 := 2
def FILE_OPEN_IF : UInt32 := 3
def FILE_OVERWRITE : UInt32 := 4
def FILE_OVERWRITE_IF : UInt32 := 5

def FILE_DIRECTORY_FILE : UInt32 := 0x00000001
def FILE_NON_DIRECTORY_FILE : UInt32 := 0x00000040
def FILE_DELETE_ON_CLOSE : UInt32 := 0x00001000

def SEC_IMPERSONATE : UInt32 := 2
def SHARE_ALL : UInt32 := 0x00000007
def ATTRIBUTE_NORMAL : UInt32 := 0x00000080

/-- The attributes a rename matches, from `wire/find.rs`. -/
def SEARCH_ATTRIBUTES : UInt16 := 0x0016

/-- How to open a file. -/
structure OpenOptions where
  read : Bool := false
  write : Bool := false
  append : Bool := false
  truncate : Bool := false
  create : Bool := false
  createNew : Bool := false
  share : UInt32 := SHARE_ALL
  deriving DecidableEq, Repr

namespace OpenOptions

def desiredAccess (o : OpenOptions) : UInt32 :=
  let access := if o.read then FILE_READ_DATA ||| FILE_READ_ATTRIBUTES else 0
  let access := if o.write || o.append then access ||| (FILE_WRITE_DATA ||| FILE_WRITE_ATTRIBUTES)
    else access
  let access := if o.append then access ||| FILE_APPEND_DATA else access
  if access = 0 then FILE_READ_DATA ||| FILE_READ_ATTRIBUTES else access

def createDisposition (o : OpenOptions) : UInt32 :=
  match o.createNew, o.create, o.truncate with
  | true, _, _ => FILE_CREATE
  | _, true, true => FILE_OVERWRITE_IF
  | _, true, false => FILE_OPEN_IF
  | _, false, true => FILE_OVERWRITE
  | _, false, false => FILE_OPEN

def request (o : OpenOptions) (path : SharePath) : NtCreateAndxRequest where
  flags := 0
  rootDirectoryFid := 0
  desiredAccess := o.desiredAccess
  allocationSize := 0
  extFileAttributes := ATTRIBUTE_NORMAL
  shareAccess := o.share
  createDisposition := o.createDisposition
  createOptions := FILE_NON_DIRECTORY_FILE
  impersonationLevel := SEC_IMPERSONATE
  securityFlags := 0
  name := path.text

end OpenOptions

/-- The request of `Tree::create_dir`. -/
def createDirRequest (path : SharePath) : NtCreateAndxRequest where
  flags := 0
  rootDirectoryFid := 0
  desiredAccess := FILE_WRITE_ATTRIBUTES
  allocationSize := 0
  extFileAttributes := ATTRIBUTE_NORMAL
  shareAccess := SHARE_ALL
  createDisposition := FILE_CREATE
  createOptions := FILE_DIRECTORY_FILE
  impersonationLevel := SEC_IMPERSONATE
  securityFlags := 0
  name := path.text

/-- The request of `Tree::delete`, where `kind` says file or directory. -/
def deleteRequest (path : SharePath) (kind : UInt32) : NtCreateAndxRequest where
  flags := 0
  rootDirectoryFid := 0
  desiredAccess := DELETE
  allocationSize := 0
  extFileAttributes := ATTRIBUTE_NORMAL
  shareAccess := SHARE_ALL
  createDisposition := FILE_OPEN
  createOptions := kind ||| FILE_DELETE_ON_CLOSE
  impersonationLevel := SEC_IMPERSONATE
  securityFlags := 0
  name := path.text

def removeFileRequest (path : SharePath) : NtCreateAndxRequest :=
  deleteRequest path FILE_NON_DIRECTORY_FILE

def removeDirRequest (path : SharePath) : NtCreateAndxRequest :=
  deleteRequest path FILE_DIRECTORY_FILE

def withLeadingBackslash (path : Text) : Text :=
  if path.head? = some '\\' then path else '\\' :: path

/-- The request of `Tree::rename`. -/
def renameRequest (old new : SharePath) : RenameRequest where
  searchAttributes := SEARCH_ATTRIBUTES
  oldName := withLeadingBackslash old.text
  newName := withLeadingBackslash new.text

theorem withLeadingBackslash_noNull {path : Text} (noNull : '\x00' ∉ path) :
    '\x00' ∉ withLeadingBackslash path := by
  unfold withLeadingBackslash
  split
  · exact noNull
  · simp [noNull]

/-- The shares a tree is connected to: a caller's, by whatever service the server
picks, or the server's `IPC$`. -/
inductive ConnectTarget where
  | share (path : UncPath)
  | ipc (server : Server)

namespace ConnectTarget

def path : ConnectTarget → Text
  | share path => path.sharePath
  | ipc server => server.ipcPath

def service : ConnectTarget → Text
  | share _ => SERVICE_ANY
  | ipc _ => SERVICE_IPC

def request (t : ConnectTarget) : TreeConnectAndxRequest := .new t.path t.service

theorem path_noNull (t : ConnectTarget) : '\x00' ∉ t.path := by
  cases t with
  | share path => exact path.server.uncTo_noNull (share_noNull path.validShare)
  | ipc server => exact server.uncTo_noNull (by decide)

theorem asciiZ_service (t : ConnectTarget) :
    asciiZ "Service" (asBytes t.service ++ [0]) = .ok t.service := by
  cases t with
  | share => exact (by decide : asciiZ "Service" (asBytes SERVICE_ANY ++ [0]) = .ok SERVICE_ANY)
  | ipc => exact (by decide : asciiZ "Service" (asBytes SERVICE_IPC ++ [0]) = .ok SERVICE_IPC)

end ConnectTarget

end Smb1Client
