import Smb1Client.Wire.Text

/-!
`SMB_COM_NEGOTIATE`. One dialect is offered, and a response is parsed by its `WordCount`.
-/

namespace Smb1Client

open LittleEndian

def NT_LM_0_12 : Text := ['N', 'T', ' ', 'L', 'M', ' ', '0', '.', '1', '2']

/-- The `DialectIndex` of a server that accepted nothing on offer. -/
def NO_COMMON_DIALECT : UInt16 := 0xFFFF
def DIALECT_ENTRY : UInt8 := 0x02
def NEGOTIATE_RESPONSE_WORDS : UInt8 := 17

/-- The dialects offered, in order. -/
structure NegotiateRequest where
  dialects : List Text
  deriving DecidableEq, Repr

namespace NegotiateRequest

/-- The offer this crate makes. -/
def singleDialect : NegotiateRequest := ⟨[NT_LM_0_12]⟩

def area (r : NegotiateRequest) : ByteArea :=
  r.dialects.foldl (fun area dialect =>
    ((area.put [DIALECT_ENTRY]).put (asBytes dialect)).put [0]) (.forWordCount 0)

def encodeBody (r : NegotiateRequest) : Except WireError Bytes := .ok (body [] r.area.finish)

end NegotiateRequest

/-- The 17 words of an NT LM 0.12 response. -/
structure NegotiateWords where
  dialectIndex : UInt16
  securityMode : UInt8
  maxMpxCount : UInt16
  maxNumberVcs : UInt16
  maxBufferSize : UInt32
  maxRawSize : UInt32
  sessionKey : UInt32
  capabilities : UInt32
  systemTime : Int64
  serverTimeZone : Int16
  encryptionKeyLength : UInt8
  deriving DecidableEq, Repr

def NegotiateWords.read : Reader NegotiateWords := do
  let dialectIndex ← Reader.u16
  let securityMode ← Reader.u8
  let maxMpxCount ← Reader.u16
  let maxNumberVcs ← Reader.u16
  let maxBufferSize ← Reader.u32
  let maxRawSize ← Reader.u32
  let sessionKey ← Reader.u32
  let capabilities ← Reader.u32
  let systemTime := (← Reader.u64).toInt64
  let serverTimeZone := (← Reader.u16).toInt16
  let encryptionKeyLength ← Reader.u8
  return { dialectIndex, securityMode, maxMpxCount, maxNumberVcs, maxBufferSize, maxRawSize,
           sessionKey, capabilities, systemTime, serverTimeZone, encryptionKeyLength }

/-- A negotiate response. -/
structure NegotiateResponse where
  words : NegotiateWords
  serverGuid : Bytes
  securityBlob : Bytes
  deriving DecidableEq, Repr

namespace NegotiateResponse

def decode (m : Message) : Except WireError NegotiateResponse := do
  m.expectWords Command.NEGOTIATE [NEGOTIATE_RESPONSE_WORDS] "17"
  let words ← readWords NegotiateWords.read m.words
  let area ← m.byteArea
  if area.length < 16 then .error (.truncated "ServerGUID" 16 area.length)
  else return { words, serverGuid := area.take 16, securityBlob := area.drop 16 }

/-- Refuses a selection this crate did not offer. -/
def acceptedOfferedDialect (r : NegotiateResponse) : Except WireError Unit :=
  if r.words.dialectIndex = 0 then .ok ()
  else if r.words.dialectIndex = NO_COMMON_DIALECT then .error .noCommonDialect
  else .error (.unsupportedDialectIndex r.words.dialectIndex)

theorem acceptedOfferedDialect_eq_ok {r : NegotiateResponse} :
    r.acceptedOfferedDialect = .ok () ↔ r.words.dialectIndex = 0 := by
  rw [acceptedOfferedDialect]
  split
  · next zero => exact iff_of_true rfl zero
  · next other =>
      refine iff_of_false ?_ other
      split <;> exact nofun

end NegotiateResponse

end Smb1Client
