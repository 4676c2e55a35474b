import Smb1Client.Wire.Text

/-!
`TRANS2_FIND_FIRST2`, `TRANS2_FIND_NEXT2`, and the directory entry chain.

The walk of the chain ends at a zero `NextEntryOffset` and at the end of the data, each
of which one family of servers relies on. Every other offset is at least an entry long,
so the walk has an entry's length of data fewer at each turn (`walkFrom_succ`).
-/

namespace Smb1Client

open LittleEndian

def SUBCOMMAND_FIND_FIRST2 : UInt16 := 0x0001
def SUBCOMMAND_FIND_NEXT2 : UInt16 := 0x0002
def INFO_LEVEL_BOTH_DIRECTORY_INFO : UInt16 := 0x0104
def FLAG_CLOSE_AT_EOS : UInt16 := 0x0002
def FLAG_CONTINUE_FROM_LAST : UInt16 := 0x0008

/-- The fixed fields of an entry, with an empty name. -/
def MIN_ENTRY_LEN : ℕ := 94

/-- What comes before the pattern in a request's parameter block. -/
def FIXED_PARAMETERS_LEN : ℕ := 12

/-! ## Requests -/

/-- A pattern may come with its terminator or without. -/
def trimTerminator (bytes : Bytes) : Bytes :=
  if bytes.drop (bytes.length - 2) = [0, 0] then bytes.take (bytes.length - 2) else bytes

/-- The parameter block of a `TRANS2_FIND_FIRST2` request. -/
structure FindFirst2Params where
  searchAttributes : UInt16
  searchCount : UInt16
  flags : UInt16
  informationLevel : UInt16
  pattern : Text
  deriving DecidableEq, Repr

def FindFirst2Params.encode (p : FindFirst2Params) : Except WireError Bytes :=
  .ok (u16le p.searchAttributes ++ u16le p.searchCount ++ u16le p.flags ++
    u16le p.informationLevel ++ u32le 0 ++ utf16z p.pattern)

/-- The fixed fields, which want a pattern. -/
def FindFirst2Params.read : Reader (Text → FindFirst2Params) := do
  let searchAttributes ← Reader.u16
  let searchCount ← Reader.u16
  let flags ← Reader.u16
  let informationLevel ← Reader.u16
  let _searchStorageType ← Reader.u32
  return fun pattern => { searchAttributes, searchCount, flags, informationLevel, pattern }

def FindFirst2Params.decode (parameters : Bytes) : Except WireError FindFirst2Params :=
  if parameters.length < FIXED_PARAMETERS_LEN then
    .error (.truncated "FIND_FIRST2 parameters" FIXED_PARAMETERS_LEN parameters.length)
  else do
    let words ← readWords read (parameters.take FIXED_PARAMETERS_LEN)
    let pattern ←
      fromUtf16 "FileName" 0 (trimTerminator (parameters.drop FIXED_PARAMETERS_LEN))
    return words pattern

/-- The parameter block of a `TRANS2_FIND_NEXT2` request, which names the search and
sends its pattern again. -/
structure FindNext2Params where
  sid : UInt16
  searchCount : UInt16
  informationLevel : UInt16
  resumeKey : UInt32
  flags : UInt16
  pattern : Text
  deriving DecidableEq, Repr

def FindNext2Params.encode (p : FindNext2Params) : Except WireError Bytes :=
  .ok (u16le p.sid ++ u16le p.searchCount ++ u16le p.informationLevel ++ u32le p.resumeKey ++
    u16le p.flags ++ utf16z p.pattern)

def FindNext2Params.read : Reader (Text → FindNext2Params) := do
  let sid ← Reader.u16
  let searchCount ← Reader.u16
  let informationLevel ← Reader.u16
  let resumeKey ← Reader.u32
  let flags ← Reader.u16
  return fun pattern => { sid, searchCount, informationLevel, resumeKey, flags, pattern }

def FindNext2Params.decode (parameters : Bytes) : Except WireError FindNext2Params :=
  if parameters.length < FIXED_PARAMETERS_LEN then
    .error (.truncated "FIND_NEXT2 parameters" FIXED_PARAMETERS_LEN parameters.length)
  else do
    let words ← readWords read (parameters.take FIXED_PARAMETERS_LEN)
    let pattern ←
      fromUtf16 "FileName" 0 (trimTerminator (parameters.drop FIXED_PARAMETERS_LEN))
    return words pattern

/-! ### Read back -/

theorem trimTerminator_utf16z (text : Text) : trimTerminator (utf16z text) = utf16Bytes text := by
  rw [trimTerminator, utf16z, List.length_append]
  exact (if_pos (List.drop_left' rfl)).trans (List.take_left' rfl)

/-- **A first page's parameters are read back**, whatever the pattern. -/
theorem FindFirst2Params.decode_encode {p : FindFirst2Params} {parameters : Bytes}
    (encoded : p.encode = .ok parameters) : decode parameters = .ok p := by
  have fixed : (u16le p.searchAttributes ++ u16le p.searchCount ++ u16le p.flags ++
      u16le p.informationLevel ++ u32le 0).length = FIXED_PARAMETERS_LEN := by
    simp [FIXED_PARAMETERS_LEN]
  have words : readWords read (u16le p.searchAttributes ++ u16le p.searchCount ++ u16le p.flags ++
      u16le p.informationLevel ++ u32le 0) = .ok fun pattern => { p with pattern } := by
    rw [← List.append_nil (_ ++ u32le 0), readWords, read]
    simp only [List.append_assoc]
    rw [Reader.u16_bind, Reader.u16_bind, Reader.u16_bind, Reader.u16_bind, Reader.u32_bind,
      Reader.pure_apply]
  cases encoded
  rw [decode, if_neg (by rw [List.length_append]; omega), List.take_left' fixed,
    List.drop_left' fixed, words, trimTerminator_utf16z, fromUtf16_utf16Bytes]
  rfl

theorem FindNext2Params.decode_encode {p : FindNext2Params} {parameters : Bytes}
    (encoded : p.encode = .ok parameters) : decode parameters = .ok p := by
  have fixed : (u16le p.sid ++ u16le p.searchCount ++ u16le p.informationLevel ++
      u32le p.resumeKey ++ u16le p.flags).length = FIXED_PARAMETERS_LEN := by
    simp [FIXED_PARAMETERS_LEN]
  have words : readWords read (u16le p.sid ++ u16le p.searchCount ++ u16le p.informationLevel ++
      u32le p.resumeKey ++ u16le p.flags) = .ok fun pattern => { p with pattern } := by
    rw [← List.append_nil (_ ++ u16le p.flags), readWords, read]
    simp only [List.append_assoc]
    rw [Reader.u16_bind, Reader.u16_bind, Reader.u16_bind, Reader.u32_bind, Reader.u16_bind,
      Reader.pure_apply]
  cases encoded
  rw [decode, if_neg (by rw [List.length_append]; omega), List.take_left' fixed,
    List.drop_left' fixed, words, trimTerminator_utf16z, fromUtf16_utf16Bytes]
  rfl

/-- An `SMB_COM_FIND_CLOSE2` request. -/
structure FindClose2Request where
  sid : UInt16
  deriving DecidableEq, Repr

def FindClose2Request.encodeBody (r : FindClose2Request) : Except WireError Bytes :=
  .ok (body (u16le r.sid) [])

/-! ## Replies -/

/-- What a reply's parameter block says about the page it carries. -/
structure FindReply where
  sid : Option UInt16
  searchCount : UInt16
  endOfSearch : UInt16
  eaErrorOffset : UInt16
  lastNameOffset : UInt16
  deriving DecidableEq, Repr

namespace FindReply

def readNext : Reader FindReply := do
  let searchCount ← Reader.u16
  let endOfSearch ← Reader.u16
  let eaErrorOffset ← Reader.u16
  let lastNameOffset ← Reader.u16
  return { sid := none, searchCount, endOfSearch, eaErrorOffset, lastNameOffset }

def readFirst : Reader FindReply := do
  let sid ← Reader.u16
  let rest ← readNext
  return { rest with sid := some sid }

def decodeFirst (parameters : Bytes) : Except WireError FindReply := readWords readFirst parameters

/-- A `FIND_NEXT2` reply carries no search id. -/
def decodeNext (parameters : Bytes) : Except WireError FindReply := readWords readNext parameters

end FindReply

/-- One `SMB_FIND_FILE_BOTH_DIRECTORY_INFO` entry. -/
structure DirectoryEntry where
  fileIndex : UInt32
  creationTime : Int64
  lastAccessTime : Int64
  lastWriteTime : Int64
  changeTime : Int64
  endOfFile : UInt64
  allocationSize : UInt64
  extFileAttributes : UInt32
  eaSize : UInt32
  shortName : Text
  fileName : Text
  deriving DecidableEq, Repr

structure EntryWords where
  nextEntryOffset : UInt32
  fileIndex : UInt32
  creationTime : Int64
  lastAccessTime : Int64
  lastWriteTime : Int64
  changeTime : Int64
  endOfFile : UInt64
  allocationSize : UInt64
  extFileAttributes : UInt32
  fileNameLength : UInt32
  eaSize : UInt32
  shortNameLength : UInt8
  reserved : UInt8
  shortName : Bytes
  deriving DecidableEq, Repr

def EntryWords.read : Reader EntryWords := do
  let nextEntryOffset ← Reader.u32
  let fileIndex ← Reader.u32
  let creationTime := (← Reader.u64).toInt64
  let lastAccessTime := (← Reader.u64).toInt64
  let lastWriteTime := (← Reader.u64).toInt64
  let changeTime := (← Reader.u64).toInt64
  let endOfFile ← Reader.u64
  let allocationSize ← Reader.u64
  let extFileAttributes ← Reader.u32
  let fileNameLength ← Reader.u32
  let eaSize ← Reader.u32
  let shortNameLength ← Reader.u8
  let reserved ← Reader.u8
  let shortName ← Reader.take 24
  return { nextEntryOffset, fileIndex, creationTime, lastAccessTime, lastWriteTime, changeTime,
           endOfFile, allocationSize, extFileAttributes, fileNameLength, eaSize, shortNameLength,
           reserved, shortName }

/-- Reads the entry at the head of `entry`, with the offset of the next one. -/
def readEntry (position : ℕ) (entry : Bytes) : Except WireError (DirectoryEntry × ℕ) := do
  if entry.length < MIN_ENTRY_LEN then
    .error (.truncated "directory entry" MIN_ENTRY_LEN entry.length)
  let words ← readWords EntryWords.read (entry.take MIN_ENTRY_LEN)
  let nameEnd := MIN_ENTRY_LEN + words.fileNameLength.toNat
  if entry.length < nameEnd then
    .error (.truncated "directory entry FileName" nameEnd entry.length)
  let rawName := (entry.take nameEnd).drop MIN_ENTRY_LEN
  let shortLength := min words.shortNameLength.toNat words.shortName.length
  let shortName ← fromUtf16 "ShortName" position (words.shortName.take shortLength)
  let fileName ← fromUtf16 "FileName" position rawName
  return ({ fileIndex := words.fileIndex
            creationTime := words.creationTime
            lastAccessTime := words.lastAccessTime
            lastWriteTime := words.lastWriteTime
            changeTime := words.changeTime
            endOfFile := words.endOfFile
            allocationSize := words.allocationSize
            extFileAttributes := words.extFileAttributes
            eaSize := words.eaSize
            shortName, fileName }, words.nextEntryOffset.toNat)

/-- The chain from `offset` on, behind the entries before it, in at most `turns` turns. -/
def walkFrom (data : Bytes) : ℕ → ℕ → List DirectoryEntry → Except WireError (List DirectoryEntry)
  | 0, _, entries => .ok entries
  | turns + 1, offset, entries =>
      if offset < data.length then do
        let (entry, next) ← readEntry entries.length (data.drop offset)
        let entries := entries ++ [entry]
        if next = 0 then .ok entries
        else if next < MIN_ENTRY_LEN then .error (.entryOffsetTooSmall offset next MIN_ENTRY_LEN)
        else walkFrom data turns (offset + next) entries
      else .ok entries

/-- Walks the entry chain of a reassembled reply, and checks the count against what the
reply says it returned. -/
def walkEntries (data : Bytes) (searchCount : UInt16) : Except WireError (List DirectoryEntry) := do
  let entries ← walkFrom data data.length 0 []
  if entries.length ≠ searchCount.toNat then
    .error (.entryCountMismatch entries.length searchCount)
  else .ok entries

/-- The data is all the turns the walk takes. -/
theorem walkFrom_succ {data : Bytes} {turns offset : ℕ} {entries : List DirectoryEntry}
    (enough : data.length - offset ≤ turns) :
    walkFrom data (turns + 1) offset entries = walkFrom data turns offset entries := by
  induction turns generalizing offset entries with
  | zero =>
      have ended : ¬ offset < data.length := by omega
      simp only [walkFrom, if_neg ended]
  | succ turns ih =>
      rw [walkFrom, walkFrom]
      by_cases within : offset < data.length
      · rw [if_pos within, if_pos within]
        cases readEntry entries.length (data.drop offset) with
        | error error => rfl
        | ok read =>
            obtain ⟨entry, next⟩ := read
            simp only [bind, Except.bind]
            by_cases last : next = 0
            · rw [if_pos last, if_pos last]
            · rw [if_neg last, if_neg last]
              by_cases short : next < MIN_ENTRY_LEN
              · rw [if_pos short, if_pos short]
              · rw [if_neg short, if_neg short]
                exact ih (by omega)
      · rw [if_neg within, if_neg within]

end Smb1Client
