import Smb1Client.ClientError
import Smb1Client.Lib.Dialogue
import Smb1Client.Wire.Negotiate
import Smb1Client.Wire.Session

/-!
The handshake of `session.rs`: negotiate, and a session setup of one leg or two.

A server is every way of answering: to each message put, the frames that arrive behind it,
keep-alives among them. What the second leg answers a challenge with is computed from the
password by digests that are a parameter here, as is the entropy it is drawn from.
-/

namespace Smb1Client

open Dialogue

/-! ## The stream -/

/-- What the four bytes before a message declare. -/
def declared (header : Vector UInt8 4) : Except WireError (Netbios.MessageType × ℕ) :=
  Netbios.decodeHeader header[0] header[1] header[2] header[3]

/-- One frame off the stream: a NetBIOS header, and as many bytes as it declares. -/
structure Frame where
  header : Vector UInt8 4
  body : Bytes
  whole : ∀ kind length, declared header = .ok (kind, length) → body.length = length

/-- What reading the next frame comes to. -/
abbrev FrameArrival := Except IoError Frame

/-- A message of the handshake. -/
inductive HandshakeRequest where
  | negotiate (request : NegotiateRequest)
  | sessionSetup (uid : UInt16) (request : SessionSetupAndx)
  deriving DecidableEq

namespace HandshakeRequest

def command : HandshakeRequest → UInt8
  | negotiate _ => Command.NEGOTIATE
  | sessionSetup _ _ => Command.SESSION_SETUP_ANDX

def uid : HandshakeRequest → UInt16
  | negotiate _ => 0
  | sessionSetup uid _ => uid

def encodeBody : HandshakeRequest → Except WireError Bytes
  | negotiate request => request.encodeBody
  | sessionSetup _ request => request.encodeBody

/-- The bytes written to the stream. -/
def frame (r : HandshakeRequest) : Except WireError Bytes := do
  let body ← r.encodeBody
  Smb1Client.frame (message { SmbHeader.request r.command with uid := r.uid } body)

end HandshakeRequest

abbrev Handshaking := Dialogue HandshakeRequest (List FrameArrival) Empty ClientError
abbrev HandshakeMoment := Happening HandshakeRequest (List FrameArrival) Empty

/-- Reads frames until one is no keep-alive, and gives the message of that. -/
def receive (command : UInt8) : List FrameArrival → Handshaking Message
  | [] => .paused
  | .error error :: _ => .failed (.io error)
  | .ok frame :: rest =>
      match declared frame.header with
      | .error error => .failed (.ofWire error)
      | .ok (.keepAlive, _) => receive command rest
      | .ok (.sessionMessage, _) =>
          match Message.parse frame.body with
          | .error error => .failed (.ofWire error)
          | .ok message =>
              if message.header.command ≠ command then
                .failed (.unsupportedServer (.answers command message.header.command))
              else .done message

/-- Sends one request and reads the reply. A write that fails is a first arrival that does. -/
def send (r : HandshakeRequest) : Handshaking Message :=
  match r.frame with
  | .error error => .failed (.ofWire error)
  | .ok _ => .ask r fun arrivals => receive r.command arrivals

/-- Refuses a response that answered outside NT status. -/
def expectNtStatus (m : Message) : Except ClientError Unit :=
  if m.header.flags2 &&& FLAGS2_NT_STATUS = 0 then
    .error (.unsupportedServer (.ntStatus m.header.command m.header.flags2))
  else .ok ()

/-! ## Negotiate -/

def SECURITY_USER : UInt8 := 0x01
def SECURITY_SIGNATURES_REQUIRED : UInt8 := 0x08
def MIN_MAX_BUFFER_SIZE : UInt32 := 4356
def CAP_EXTENDED_SECURITY : UInt32 := 0x80000000

def REQUIRED_CAPABILITIES : List (UInt32 × String) :=
  [(0x00000010, "CAP_NT_SMBS"), (0x00000004, "CAP_UNICODE"), (0x00000008, "CAP_LARGE_FILES"),
    (0x00000040, "CAP_STATUS32"), (0x00000200, "CAP_NT_FIND"),
    (CAP_EXTENDED_SECURITY, "CAP_EXTENDED_SECURITY")]

def CLIENT_CAPABILITIES : UInt32 :=
  0x00000010 ||| 0x00000004 ||| 0x00000008 ||| 0x00000040 ||| CAP_EXTENDED_SECURITY

def NATIVE_OS : Text := ['s', 'm', 'b', '1', 'c', 'l', 'i', 'e', 'n', 't', '-', 'r', 's']
def PACKAGE_VERSION : Text := ['0', '.', '1', '.', '0']

/-- How a handshake is run. -/
structure SessionOptions where
  allowGuest : Bool
  advertisedMaxBufferSize : UInt16
  deriving DecidableEq, Repr

/-- The checks of a negotiate response, in their order. -/
def NegotiateResponse.check (r : NegotiateResponse) : Except ClientError Unit := do
  r.acceptedOfferedDialect.mapError .ofWire
  REQUIRED_CAPABILITIES.forM fun (bit, name) =>
    if r.words.capabilities &&& bit = 0 then
      .error (.unsupportedServer (.capability name r.words.capabilities))
    else .ok ()
  if r.words.securityMode &&& SECURITY_USER = 0 then
    .error (.unsupportedServer (.userSecurity r.words.securityMode))
  else if r.words.securityMode &&& SECURITY_SIGNATURES_REQUIRED ≠ 0 then .error .signingRequired
  else if r.words.maxBufferSize < MIN_MAX_BUFFER_SIZE then
    .error (.unsupportedServer (.bufferSize r.words.maxBufferSize))
  else .ok ()

/-- Offers one dialect, and refuses a server that fails a requirement. -/
def negotiate : Handshaking NegotiateResponse := do
  let message ← send (.negotiate .singleDialect)
  .ofExcept (expectNtStatus message)
  if message.header.status ≠ .SUCCESS then .failed (.status message.header.status)
  else do
    let response ← .ofExcept ((NegotiateResponse.decode message).mapError .ofWire)
    .ofExcept response.check
    return response

/-! ## Session setup -/

/-- What a handshake is run with beside its options: the client's entropy, and its answer to a
challenge. -/
structure Authenticator where
  fresh : Except IoError Ntlm.ClientValues
  authenticate : Bytes → Ntlm.Challenge → Credentials → Ntlm.ClientValues → Ntlm.Authenticate

section

variable (auth : Authenticator) (credentials : Credentials) (options : SessionOptions)

/-- The request of the first leg. -/
def setupRequest (response : NegotiateResponse) (negotiated : Negotiated) : SessionSetupAndx where
  maxBufferSize := options.advertisedMaxBufferSize
  maxMpxCount :=
    if negotiated.admissionLimit < 2 ^ 16 then UInt16.ofNat negotiated.admissionLimit else 0xFFFF
  sessionKey := response.words.sessionKey
  capabilities := CLIENT_CAPABILITIES |||
    (response.words.capabilities &&& (CAP_LARGE_READX ||| CAP_LARGE_WRITEX))
  securityBlob := Spnego.negTokenInit Ntlm.negotiateMessage
  nativeOs := NATIVE_OS
  nativeLanMan := NATIVE_OS ++ '/' :: PACKAGE_VERSION

def decodeSetup (m : Message) : Handshaking SessionSetupResponse :=
  .ofExcept ((SessionSetupResponse.decode m).mapError .ofWire)

/-- The challenge of a first leg's reply. -/
def challengeOf (m : Message) : Except ClientError Ntlm.Challenge := do
  let response ← (SessionSetupResponse.decode m).mapError .ofWire
  let token ← (Spnego.responseToken response.securityBlob).mapError (.protocol ∘ .spnego)
  (Ntlm.Challenge.parse token).mapError (.protocol ∘ .ntlm)

/-- The SPNEGO exchange, which is one leg or two. -/
def sessionSetup (response : NegotiateResponse) (negotiated : Negotiated) :
    Handshaking (UInt16 × SessionSetupResponse) := do
  let request := setupRequest options response negotiated
  let first ← send (.sessionSetup 0 request)
  .ofExcept (expectNtStatus first)
  if first.header.status = .SUCCESS then return (first.header.uid, ← decodeSetup first)
  else if first.header.status ≠ .MORE_PROCESSING_REQUIRED then
    .failed (.status first.header.status)
  else do
    let challenge ← .ofExcept (challengeOf first)
    let values ← .ofExcept (auth.fresh.mapError .io)
    let authenticate := auth.authenticate Ntlm.negotiateMessage challenge credentials values
    let mic := authenticate.mechListMic Spnego.mechList
    let second ← send (.sessionSetup first.header.uid
      { request with securityBlob := Spnego.negTokenResp authenticate.message mic })
    .ofExcept (expectNtStatus second)
    if second.header.status ≠ .SUCCESS then .failed (.status second.header.status)
    else return (second.header.uid, ← decodeSetup second)

/-- What the server said about itself. -/
structure ServerInfo where
  capabilities : UInt32
  securityMode : UInt8
  maxBufferSize : UInt32
  guest : Bool
  strings : List Text
  deriving DecidableEq, Repr

/-- What a handshake produced. -/
structure Handshake where
  negotiated : Negotiated
  uid : UInt16
  server : ServerInfo
  deriving DecidableEq, Repr

def NegotiateWords.negotiated (w : NegotiateWords) : Negotiated where
  maxMpxCount := w.maxMpxCount
  maxBufferSize := w.maxBufferSize
  capabilities := w.capabilities

/-- The handshake. -/
def handshake : Handshaking Handshake := do
  let response ← negotiate
  let negotiated := response.words.negotiated
  let (uid, setup) ← sessionSetup auth credentials options response negotiated
  if setup.isGuest ∧ ¬ options.allowGuest then .failed .guestLogon
  else return { negotiated, uid,
                server :=
                  { capabilities := response.words.capabilities
                    securityMode := response.words.securityMode
                    maxBufferSize := response.words.maxBufferSize
                    guest := setup.isGuest
                    strings := setup.serverStrings } }

end

end Smb1Client
