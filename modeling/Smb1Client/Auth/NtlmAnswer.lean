import Smb1Client.Auth.Ntlm
import Smb1Client.Lib.Slices

/-!
What a client answers a challenge with, over digests this development leaves open.

Where the challenge has a timestamp, the answer has a MIC and the AV pairs it sends back say so:
in the flags pairs of four bytes, or in a pair of its own. A flags pair of another length is sent
back as it was, and a list is read by its first one.
-/

namespace Smb1Client

open LittleEndian Slices

namespace Ntlm

def AV_FLAGS : UInt16 := 0x0006
def AV_TIMESTAMP : UInt16 := 0x0007
def AV_FLAG_MIC_PROVIDED : UInt32 := 0x00000002
def MESSAGE_AUTHENTICATE : UInt32 := 3

/-- Where the payload begins without a MIC. -/
def AUTHENTICATE_HEADER_LEN : ℕ := 72
def MIC_OFFSET : ℕ := 72
def DIGEST_LEN : ℕ := 16

/-! ## AV pairs -/

/-- An id and a value. -/
abbrev AvPair := UInt16 × Bytes

namespace AvPairs

/-- The pairs from `start` on, of which there are fewer than `turns`. -/
def iterFrom (bytes : Bytes) : ℕ → ℕ → List AvPair
  | 0, _ => []
  | turns + 1, start =>
      if bytes.length < start + 4 then []
      else
        let length := (u16At bytes (start + 2)).toNat
        if bytes.length < start + 4 + length then []
        else
          (u16At bytes start, slice bytes (start + 4) length) ::
            iterFrom bytes turns (start + 4 + length)

/-- The pairs ahead of the terminator. -/
def iter (p : AvPairs) : List AvPair := iterFrom (p.bytes.take p.stop) (p.stop + 1) 0

/-- The list up to and including its terminator. -/
def asSent (p : AvPairs) : Bytes := p.bytes.take (p.stop + 4)

/-- The value of the first pair with an id. -/
def get (p : AvPairs) (id : UInt16) : Option Bytes := (p.iter.find? (·.1 = id)).map (·.2)

/-- The server's own timestamp, where it sent one. -/
def timestamp (p : AvPairs) : Option (Vector UInt8 8) :=
  (p.get AV_TIMESTAMP).bind fun value =>
    if eight : value.length = 8 then some ⟨value.toArray, eight⟩ else none

/-- A pair that says how a message is made. -/
def isFlags (pair : AvPair) : Bool := pair.1 = AV_FLAGS && pair.2.length = 4

/-- The pair with the flag of a MIC. -/
def flagged (pair : AvPair) : AvPair :=
  if isFlags pair then (pair.1, u32le (u32At pair.2 0 ||| AV_FLAG_MIC_PROVIDED)) else pair

def put (pair : AvPair) : Bytes :=
  u16le pair.1 ++ (u16le (UInt16.ofNat pair.2.length) ++ pair.2)

/-- The list as it goes into the answer: every pair the server sent, and that a MIC follows. -/
def withMicFlag (p : AvPairs) : Bytes :=
  p.iter.flatMap (fun pair => put (flagged pair)) ++
    ((if p.iter.any isFlags then [] else put (AV_FLAGS, u32le AV_FLAG_MIC_PROVIDED)) ++
      (u16le AV_EOL ++ u16le 0))

end AvPairs

/-! ## The answer -/

/-- The digests an answer is computed with, and the upper-casing of a name. -/
structure Digests where
  hmacMd5 : Bytes → Bytes → Vector UInt8 DIGEST_LEN
  md4 : Bytes → Vector UInt8 DIGEST_LEN
  md5 : Bytes → Vector UInt8 DIGEST_LEN
  /-- RC4 over a buffer, in place. -/
  rc4 : Bytes → (length : ℕ) → Vector UInt8 length → Vector UInt8 length
  toUppercase : Text → Text

variable (d : Digests)

/-- `NTOWFv2`: the user is upper-cased and the domain is not. -/
def ntowfV2 (credentials : Credentials) : Vector UInt8 DIGEST_LEN :=
  d.hmacMd5 (d.md4 (utf16Bytes credentials.password)).toList
    (utf16Bytes (d.toUppercase credentials.user) ++ utf16Bytes credentials.domain)

/-- A message's header and its payload so far, with a field's descriptor written into the one and
its value behind the other. -/
def putField (headerLen : ℕ) (message : Bytes × Bytes) (start : ℕ) (value : Bytes) :
    Bytes × Bytes :=
  (splice message.1 start (u16le (UInt16.ofNat value.length) ++
      (u16le (UInt16.ofNat value.length) ++
        u32le (UInt32.ofNat (headerLen + message.2.length)))),
    message.2 ++ value)

/-- What the proof of an answer is computed over, behind the server's challenge. -/
def temp (timestamp clientChallenge avPairs : Bytes) : Bytes :=
  [1, 1, 0, 0, 0, 0, 0, 0] ++ (timestamp ++ (clientChallenge ++ (.replicate 4 0 ++
    (avPairs ++ .replicate 4 0))))

section

variable (challenge : Challenge) (credentials : Credentials) (values : ClientValues)

/-- Where the payload begins. -/
def headerLen : ℕ :=
  if challenge.targetInfo.timestamp.isSome then MIC_OFFSET + DIGEST_LEN
  else AUTHENTICATE_HEADER_LEN

/-- The AV pairs that are sent back. -/
def avPairs : Bytes :=
  if challenge.targetInfo.timestamp.isSome then challenge.targetInfo.withMicFlag
  else challenge.targetInfo.asSent

def ntTemp : Bytes :=
  temp (challenge.targetInfo.timestamp.getD values.timestamp).toList values.clientChallenge.toList
    (avPairs challenge)

def ntProof : Vector UInt8 DIGEST_LEN :=
  d.hmacMd5 (ntowfV2 d credentials).toList
    (challenge.serverChallenge ++ ntTemp challenge values)

def ntResponse : Bytes := (ntProof d challenge credentials values).toList ++ ntTemp challenge values

def encryptedSessionKey : Vector UInt8 DIGEST_LEN :=
  d.rc4 (d.hmacMd5 (ntowfV2 d credentials).toList
    (ntProof d challenge credentials values).toList).toList DIGEST_LEN values.exportedSessionKey

/-- The answer with zeros where its MIC goes. -/
def unsigned : Bytes :=
  let headerLen := headerLen challenge
  let header := splice (splice (splice (.replicate headerLen 0) 0 SIGNATURE) 8
    (u32le MESSAGE_AUTHENTICATE)) 60 (u32le NEGOTIATE_FLAGS)
  let message := putField headerLen (header, []) 28 (utf16Bytes credentials.domain)
  let message := putField headerLen message 36 (utf16Bytes credentials.user)
  let message := putField headerLen message 44 []
  let message := putField headerLen message 12 (.replicate 24 0)
  let message := putField headerLen message 20 (ntResponse d challenge credentials values)
  let message := putField headerLen message 52
    (encryptedSessionKey d challenge credentials values).toList
  message.1 ++ message.2

/-- `SIGNKEY` and `SEALKEY`. -/
def magicKey (exportedSessionKey : Vector UInt8 DIGEST_LEN) (constant : Bytes) :
    Vector UInt8 DIGEST_LEN := d.md5 (exportedSessionKey.toList ++ constant)

def CLIENT_SIGNING : Bytes :=
  asBytes "session key to client-to-server signing key magic constant".toList ++ [0]
def CLIENT_SEALING : Bytes :=
  asBytes "session key to client-to-server sealing key magic constant".toList ++ [0]

/-- The `mechListMIC` over the mechanisms that were offered. -/
def mechListMic (exportedSessionKey : Vector UInt8 DIGEST_LEN) (mechList : Bytes) : Bytes :=
  let digest := d.hmacMd5 (magicKey d exportedSessionKey CLIENT_SIGNING).toList
    (u32le 0 ++ mechList)
  let checksum := d.rc4 (magicKey d exportedSessionKey CLIENT_SEALING).toList _
    (digest.take 8)
  splice (splice (.replicate DIGEST_LEN 0) 0 (u32le 1)) 4 checksum.toList

/-- The message that answers a challenge. -/
def authenticate (negotiate : Bytes) : Authenticate where
  message :=
    let message := unsigned d challenge credentials values
    if challenge.targetInfo.timestamp.isSome then
      splice message MIC_OFFSET
        (d.hmacMd5 values.exportedSessionKey.toList
          (negotiate ++ (challenge.raw ++ message))).toList
    else message
  mechListMic := mechListMic d values.exportedSessionKey

end

end Ntlm

end Smb1Client
