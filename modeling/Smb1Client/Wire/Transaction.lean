import Smb1Client.Wire.Text

/-!
TRANS2 and `SMB_COM_TRANSACTION`: one message of a reply that may be spread over several,
and the request, which has to fit one message.
-/

namespace Smb1Client

open LittleEndian

def RESPONSE_FIXED_WORDS : UInt8 := 10

structure ResponseWords where
  totalParameterCount : UInt16
  totalDataCount : UInt16
  reserved : UInt16
  parameterCount : UInt16
  parameterOffset : UInt16
  parameterDisplacement : UInt16
  dataCount : UInt16
  dataOffset : UInt16
  dataDisplacement : UInt16
  setupCount : UInt8
  reserved2 : UInt8
  deriving DecidableEq, Repr

def ResponseWords.read : Reader ResponseWords := do
  let totalParameterCount ← Reader.u16
  let totalDataCount ← Reader.u16
  let reserved ← Reader.u16
  let parameterCount ← Reader.u16
  let parameterOffset ← Reader.u16
  let parameterDisplacement ← Reader.u16
  let dataCount ← Reader.u16
  let dataOffset ← Reader.u16
  let dataDisplacement ← Reader.u16
  let setupCount ← Reader.u8
  let reserved2 ← Reader.u8
  return { totalParameterCount, totalDataCount, reserved, parameterCount, parameterOffset,
           parameterDisplacement, dataCount, dataOffset, dataDisplacement, setupCount, reserved2 }

/-- One message of a transaction reply. -/
structure TransactionResponse where
  totalParameterCount : UInt16
  totalDataCount : UInt16
  parameterDisplacement : UInt16
  dataDisplacement : UInt16
  parameterOffset : UInt16
  dataOffset : UInt16
  setup : List UInt16
  parameters : Bytes
  data : Bytes
  deriving DecidableEq, Repr

/-- The setup words after the fixed ones. -/
def setupWords (m : Message) (fixed declared : UInt8) : Except WireError (List UInt16) :=
  let start := fixed.toNat * 2
  let stop := start + declared.toNat * 2
  if stop ≤ m.words.length then .ok (Utf16.ofBytes ((m.words.take stop).drop start))
  else .error (.truncated "setup words" stop m.words.length)

def TransactionResponse.decode (m : Message) : Except WireError TransactionResponse :=
  let command := m.header.command
  if command ≠ Command.TRANSACTION2 ∧ command ≠ Command.TRANSACTION then
    .error (.unexpectedCommand Command.TRANSACTION2 command)
  else if m.wordCount < RESPONSE_FIXED_WORDS then
    .error (if m.isBodyless then .noResponseBody command m.header.status
      else .unexpectedWordCount command m.wordCount "at least 10")
  else do
    let words ← readWords ResponseWords.read m.words
    let setup ← setupWords m RESPONSE_FIXED_WORDS words.setupCount
    let parameters ←
      m.block "ParameterOffset" words.parameterOffset.toNat words.parameterCount.toNat
    let data ← m.block "DataOffset" words.dataOffset.toNat words.dataCount.toNat
    return { totalParameterCount := words.totalParameterCount
             totalDataCount := words.totalDataCount
             parameterDisplacement := words.parameterDisplacement
             dataDisplacement := words.dataDisplacement
             parameterOffset := words.parameterOffset
             dataOffset := words.dataOffset
             setup, parameters, data }

/-! ## The request -/

def REQUEST_FIXED_WORDS : ℕ := 14

/-- The boundary the parameter and data blocks are placed on. -/
def BLOCK_ALIGNMENT : ℕ := 2

def MAX_RETURN_SUM : ℕ := 66524
def MIN_MAX_PARAMETER_COUNT : UInt16 := 64
def MAX_DATA_COUNT : UInt16 := 65472

/-- The transaction name the RAP path addresses. -/
def PIPE_LANMAN : Text := ['\\', 'P', 'I', 'P', 'E', '\\', 'L', 'A', 'N', 'M', 'A', 'N']
def PIPE_TRANSACT_NAME : Text := ['\\', 'P', 'I', 'P', 'E', '\\']
def TRANS_TRANSACT_NMPIPE : UInt16 := 0x0026

structure RequestWords where
  totalParameterCount : UInt16
  totalDataCount : UInt16
  maxParameterCount : UInt16
  maxDataCount : UInt16
  maxSetupCount : UInt8
  reserved : UInt8
  flags : UInt16
  timeout : UInt32
  reserved2 : UInt16
  parameterCount : UInt16
  parameterOffset : UInt16
  dataCount : UInt16
  dataOffset : UInt16
  setupCount : UInt8
  reserved3 : UInt8
  deriving DecidableEq, Repr

def RequestWords.write (w : RequestWords) : Bytes :=
  u16le w.totalParameterCount ++ (u16le w.totalDataCount ++ (u16le w.maxParameterCount ++
    (u16le w.maxDataCount ++ (u8le w.maxSetupCount ++ (u8le w.reserved ++ (u16le w.flags ++
    (u32le w.timeout ++ (u16le w.reserved2 ++ (u16le w.parameterCount ++
    (u16le w.parameterOffset ++ (u16le w.dataCount ++ (u16le w.dataOffset ++
    (u8le w.setupCount ++ u8le w.reserved3)))))))))))))

def RequestWords.read : Reader RequestWords := do
  let totalParameterCount ← Reader.u16
  let totalDataCount ← Reader.u16
  let maxParameterCount ← Reader.u16
  let maxDataCount ← Reader.u16
  let maxSetupCount ← Reader.u8
  let reserved ← Reader.u8
  let flags ← Reader.u16
  let timeout ← Reader.u32
  let reserved2 ← Reader.u16
  let parameterCount ← Reader.u16
  let parameterOffset ← Reader.u16
  let dataCount ← Reader.u16
  let dataOffset ← Reader.u16
  let setupCount ← Reader.u8
  let reserved3 ← Reader.u8
  return { totalParameterCount, totalDataCount, maxParameterCount, maxDataCount, maxSetupCount,
           reserved, flags, timeout, reserved2, parameterCount, parameterOffset, dataCount,
           dataOffset, setupCount, reserved3 }

@[simp] theorem RequestWords.length_write (w : RequestWords) :
    w.write.length = REQUEST_FIXED_WORDS * 2 := by
  simp [write, REQUEST_FIXED_WORDS]

/-- The fixed words are read back from in front of the setup words. -/
theorem RequestWords.readWords_write (w : RequestWords) (setup : Bytes) :
    readWords read (w.write ++ setup) = .ok w := by
  have all : read (w.write ++ setup) = some (w, setup) := by
    rw [read, write]
    simp only [List.append_assoc]
    rw [Reader.u16_bind, Reader.u16_bind, Reader.u16_bind, Reader.u16_bind, Reader.u8_bind,
      Reader.u8_bind, Reader.u16_bind, Reader.u32_bind, Reader.u16_bind, Reader.u16_bind,
      Reader.u16_bind, Reader.u16_bind, Reader.u16_bind, Reader.u8_bind, Reader.u8_bind,
      Reader.pure_apply]
  rw [readWords, all]

/-- How an `SMB_COM_TRANSACTION` spells its name. -/
inductive NameEncoding where
  | unicode
  | ascii
  deriving DecidableEq, Repr

structure TransactionName where
  text : Text
  encoding : NameEncoding
  deriving DecidableEq, Repr

/-- A TRANS2 or `SMB_COM_TRANSACTION` request. -/
structure TransactionRequest where
  command : UInt8
  maxParameterCount : UInt16
  maxDataCount : UInt16
  maxSetupCount : UInt8
  flags : UInt16
  timeout : UInt32
  setup : List UInt16
  name : Option TransactionName
  parameters : Bytes
  data : Bytes
  deriving DecidableEq, Repr

namespace TransactionRequest

/-- A TRANS2 request carrying one subcommand setup word. -/
def trans2 (subcommand : UInt16) (parameters data : Bytes) : TransactionRequest where
  command := Command.TRANSACTION2
  maxParameterCount := MIN_MAX_PARAMETER_COUNT
  maxDataCount := MAX_DATA_COUNT
  maxSetupCount := 0
  flags := 0
  timeout := 0
  setup := [subcommand]
  name := none
  parameters
  data

/-- A RAP request on `\PIPE\LANMAN`, whose byte area opens with that name. -/
def rap (parameters data : Bytes) : TransactionRequest where
  command := Command.TRANSACTION
  maxParameterCount := MIN_MAX_PARAMETER_COUNT
  maxDataCount := MAX_DATA_COUNT
  maxSetupCount := 0
  flags := 0
  timeout := 0
  setup := []
  name := some ⟨PIPE_LANMAN, .unicode⟩
  parameters
  data

/-- A `TRANS_TRANSACT_NMPIPE` on an open pipe. -/
def pipeTransact (fid : UInt16) (data : Bytes) : TransactionRequest where
  command := Command.TRANSACTION
  maxParameterCount := MIN_MAX_PARAMETER_COUNT
  maxDataCount := MAX_DATA_COUNT
  maxSetupCount := 0
  flags := 0
  timeout := 0
  setup := [TRANS_TRANSACT_NMPIPE, fid]
  name := some ⟨PIPE_TRANSACT_NAME, .unicode⟩
  parameters := []
  data

/-- The byte area with the name put in front, where there is one. -/
def named (r : TransactionRequest) : Except WireError ByteArea :=
  let area := ByteArea.forWordCount (REQUEST_FIXED_WORDS + r.setup.length)
  match r.name with
  | none => .ok area
  | some ⟨text, .unicode⟩ => do
      let area := area.alignTo NAME_ALIGNMENT
      requireWordAligned "Name" area.offset
      return area.put (utf16z text)
  | some ⟨text, .ascii⟩ => .ok ((area.put (asBytes text)).put [0])

/-- The command body; an empty parameter block declares offset 0. -/
def encodeBody (r : TransactionRequest) : Except WireError Bytes := do
  let area ← r.named
  let (parameterOffset, area) :=
    if r.parameters = [] then (0, area)
    else
      let (start, area) := area.putAligned BLOCK_ALIGNMENT r.parameters
      (start, area.alignTo BLOCK_ALIGNMENT)
  let words : RequestWords :=
    { totalParameterCount := UInt16.ofNat r.parameters.length
      totalDataCount := UInt16.ofNat r.data.length
      maxParameterCount := r.maxParameterCount
      maxDataCount := r.maxDataCount
      maxSetupCount := r.maxSetupCount
      reserved := 0
      flags := r.flags
      timeout := r.timeout
      reserved2 := 0
      parameterCount := UInt16.ofNat r.parameters.length
      parameterOffset := UInt16.ofNat parameterOffset
      dataCount := UInt16.ofNat r.data.length
      dataOffset := UInt16.ofNat area.offset
      setupCount := UInt8.ofNat r.setup.length
      reserved3 := 0 }
  return body (words.write ++ r.setup.flatMap u16le) (area.put r.data).finish

/-- Refuses a request that asks for too much back, or that does not fit one message. -/
def checkLimits (r : TransactionRequest) (maxBufferSize : UInt32) : Except WireError Unit := do
  let sum := r.maxParameterCount.toNat + r.maxDataCount.toNat
  if sum > MAX_RETURN_SUM then
    .error (.fieldTooLong "MaxParameterCount + MaxDataCount" sum MAX_RETURN_SUM)
  let encoded := (← r.encodeBody).length + HEADER_LEN
  if encoded > maxBufferSize.toNat then
    .error (.fieldTooLong "transaction request" encoded maxBufferSize.toNat)

end TransactionRequest

/-! ## The request as the server reads it -/

/-- The name in the byte area up to the block that lands first. Its spelling is told from the
bytes: UTF-16 is padded to a word boundary, even, and ends in its only null unit. -/
def decodeName (byteAreaOffset : ℕ) (region : Bytes) : Except WireError TransactionName :=
  let pad := if byteAreaOffset % NAME_ALIGNMENT = 0 then 0 else 1
  let units := region.drop pad
  let text := units.take (units.length - 2)
  if pad ≤ region.length ∧ 2 ≤ units.length ∧ units.length % 2 = 0 ∧
      units.drop (units.length - 2) = [0, 0] ∧ ∀ unit ∈ Utf16.ofBytes text, unit ≠ 0 then
    (fromUtf16 "Name" 0 text).map (⟨·, .unicode⟩)
  else
    .ok ⟨fromUtf8Lossy (region.takeWhile (· ≠ 0)), .ascii⟩

/-- Where the first block that is there begins; an offset of zero is one that is not. -/
def RequestWords.firstBlock (w : RequestWords) : ℕ :=
  ((([w.parameterOffset, w.dataOffset].filter (· ≠ 0)).min?).map (·.toNat)).getD 0

/-- The name, which an `SMB_COM_TRANSACTION` alone may carry. -/
def TransactionRequest.nameOf (m : Message) (words : RequestWords) :
    Except WireError (Option TransactionName) :=
  if m.header.command = Command.TRANSACTION ∧ m.byteAreaOffset < words.firstBlock then
    let stop := words.firstBlock - m.byteAreaOffset
    if stop ≤ m.byteAreaToEnd.length then
      (decodeName m.byteAreaOffset (m.byteAreaToEnd.take stop)).map some
    else .error (.truncated "transaction Name" stop m.byteAreaToEnd.length)
  else .ok none

def TransactionRequest.decode (m : Message) : Except WireError TransactionRequest :=
  let command := m.header.command
  if command ≠ Command.TRANSACTION2 ∧ command ≠ Command.TRANSACTION then
    .error (.unexpectedCommand Command.TRANSACTION2 command)
  else if m.wordCount.toNat < REQUEST_FIXED_WORDS then
    .error (.unexpectedWordCount command m.wordCount "at least 14")
  else do
    let words ← readWords RequestWords.read m.words
    let setup ← setupWords m (UInt8.ofNat REQUEST_FIXED_WORDS) words.setupCount
    let name ← nameOf m words
    let parameters ←
      m.block "ParameterOffset" words.parameterOffset.toNat words.parameterCount.toNat
    let data ← m.block "DataOffset" words.dataOffset.toNat words.dataCount.toNat
    return { command
             maxParameterCount := words.maxParameterCount
             maxDataCount := words.maxDataCount
             maxSetupCount := words.maxSetupCount
             flags := words.flags
             timeout := words.timeout
             setup, name, parameters, data }

end Smb1Client
