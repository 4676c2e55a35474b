import Smb1Client.Wire.Text

/-!
`SMB_COM_SESSION_SETUP_ANDX`.

The strings of a session setup sit behind a security blob whose length varies, so the pad before
them is computed. What a server calls itself is a diagnostic: strings that do not decode cost
nothing.
-/

namespace Smb1Client

open LittleEndian

def SETUP_REQUEST_WORDS : UInt8 := 12
def SETUP_RESPONSE_WORDS : UInt8 := 4

/-- The `Action` bit of a guest logon. -/
def ACTION_GUEST : UInt16 := 0x0001

/-! ## SESSION_SETUP_ANDX -/

/-- A session setup request. -/
structure SessionSetupAndx where
  maxBufferSize : UInt16
  maxMpxCount : UInt16
  sessionKey : UInt32
  capabilities : UInt32
  securityBlob : Bytes
  nativeOs : Text
  nativeLanMan : Text
  deriving DecidableEq, Repr

namespace SessionSetupAndx

/-- The 12 words; `SecurityBlobLength` is the blob's length, and `VcNumber` and the reserved field
are zero. -/
def words (r : SessionSetupAndx) : Bytes :=
  AndX.NONE.write ++ (u16le r.maxBufferSize ++ (u16le r.maxMpxCount ++ (u16le 0 ++
    (u32le r.sessionKey ++ (u16le (UInt16.ofNat r.securityBlob.length) ++ (u32le 0 ++
      u32le r.capabilities))))))

def area (r : SessionSetupAndx) : Except WireError Bytes := do
  let area := ((ByteArea.forWordCount SETUP_REQUEST_WORDS.toNat).put r.securityBlob).alignTo
    NAME_ALIGNMENT
  requireWordAligned "NativeOS" area.offset
  return ((area.put (utf16z r.nativeOs)).put (utf16z r.nativeLanMan)).finish

def encodeBody (r : SessionSetupAndx) : Except WireError Bytes := do
  if r.securityBlob.length > 0xFFFF then
    .error (.fieldTooLong "SecurityBlobLength" r.securityBlob.length 0xFFFF)
  else return body r.words (← r.area)

end SessionSetupAndx

structure SetupResponseWords where
  andx : AndX
  action : UInt16
  securityBlobLength : UInt16
  deriving DecidableEq, Repr

def SetupResponseWords.read : Reader SetupResponseWords := do
  let andx ← AndX.read
  let action ← Reader.u16
  let securityBlobLength ← Reader.u16
  return { andx, action, securityBlobLength }

/-- Splits a run of null-terminated UTF-16 strings, up to the first that does not decode. -/
def decodeStringRun (units current : List UInt16) : List Text :=
  match units with
  | [] => []
  | unit :: units =>
      if unit = 0 then
        match Utf16.decode current with
        | some text => text :: decodeStringRun units []
        | none => []
      else decodeStringRun units (current ++ [unit])

/-- A session setup response. -/
structure SessionSetupResponse where
  action : UInt16
  securityBlob : Bytes
  serverStrings : List Text
  deriving DecidableEq, Repr

namespace SessionSetupResponse

def decode (m : Message) : Except WireError SessionSetupResponse := do
  m.expectWords Command.SESSION_SETUP_ANDX [SETUP_RESPONSE_WORDS] "4"
  let words ← readWords SetupResponseWords.read m.words
  words.andx.refuseChaining
  let blobLength := words.securityBlobLength.toNat
  let securityBlob ← m.block "SecurityBlobLength" m.byteAreaOffset blobLength
  let stop := m.byteAreaOffset + blobLength
  let start := if stop % NAME_ALIGNMENT = 0 then stop else stop + 1
  return { action := words.action, securityBlob
           serverStrings := decodeStringRun (Utf16.ofBytes (m.bytes.drop start)) [] }

def isGuest (r : SessionSetupResponse) : Bool := r.action &&& ACTION_GUEST ≠ 0

end SessionSetupResponse

end Smb1Client
