import Smb1Client.Wire.Text

/-!
The TRANS2 information levels a stat by path asks for: the basic one has the times and
the attributes, the standard one the sizes.
-/

namespace Smb1Client

open LittleEndian

def SUBCOMMAND_QUERY_PATH_INFORMATION : UInt16 := 0x0005
def QUERY_BASIC_INFO : UInt16 := 0x0101
def QUERY_STANDARD_INFO : UInt16 := 0x0102
def ATTRIBUTE_DIRECTORY : UInt32 := 0x00000010

/-- The parameter block of a `TRANS2_QUERY_PATH_INFORMATION`. -/
def queryPathParameters (level : UInt16) (path : Text) : Bytes :=
  u16le level ++ u32le 0 ++ utf16z path

/-- `SMB_QUERY_FILE_BASIC_INFO`; a field that is not named is left as it was. -/
structure BasicInfo where
  creationTime : Option Int64 := none
  lastAccessTime : Option Int64 := none
  lastWriteTime : Option Int64 := none
  changeTime : Option Int64 := none
  attributes : Option UInt32 := none
  deriving DecidableEq, Repr

def BasicInfo.read : Reader BasicInfo := do
  let creationTime := (← Reader.u64).toInt64
  let lastAccessTime := (← Reader.u64).toInt64
  let lastWriteTime := (← Reader.u64).toInt64
  let changeTime := (← Reader.u64).toInt64
  let attributes ← Reader.u32
  return { creationTime := some creationTime, lastAccessTime := some lastAccessTime
           lastWriteTime := some lastWriteTime, changeTime := some changeTime
           attributes := some attributes }

def BasicInfo.decode (data : Bytes) : Except WireError BasicInfo :=
  if data.length < 36 then .error (.truncated "SMB_QUERY_FILE_BASIC_INFO" 36 data.length)
  else readWords BasicInfo.read (data.take 36)

/-- `SMB_QUERY_FILE_STANDARD_INFO`. -/
structure StandardInfo where
  allocationSize : UInt64
  endOfFile : UInt64
  numberOfLinks : UInt32
  deletePending : Bool
  directory : Bool
  deriving DecidableEq, Repr

def StandardInfo.read : Reader StandardInfo := do
  let allocationSize ← Reader.u64
  let endOfFile ← Reader.u64
  let numberOfLinks ← Reader.u32
  let deletePending ← Reader.u8
  let directory ← Reader.u8
  return { allocationSize, endOfFile, numberOfLinks
           deletePending := deletePending ≠ 0, directory := directory ≠ 0 }

def StandardInfo.decode (data : Bytes) : Except WireError StandardInfo :=
  if data.length < 22 then .error (.truncated "SMB_QUERY_FILE_STANDARD_INFO" 22 data.length)
  else readWords StandardInfo.read (data.take 22)

/-- Everything a stat carries. -/
structure Metadata where
  creationTime : Int64
  lastAccessTime : Int64
  lastWriteTime : Int64
  changeTime : Int64
  len : UInt64
  allocationSize : UInt64
  attributes : UInt32
  deriving DecidableEq, Repr

namespace Metadata

def fromParts (basic : BasicInfo) (len allocationSize : UInt64) (attributes : UInt32) :
    Metadata where
  creationTime := basic.creationTime.getD 0
  lastAccessTime := basic.lastAccessTime.getD 0
  lastWriteTime := basic.lastWriteTime.getD 0
  changeTime := basic.changeTime.getD 0
  len
  allocationSize
  attributes

def isDir (m : Metadata) : Bool := m.attributes &&& ATTRIBUTE_DIRECTORY ≠ 0

end Metadata

end Smb1Client
