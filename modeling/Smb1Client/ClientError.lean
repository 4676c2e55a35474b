import Smb1Client.Auth.Ntlm
import Smb1Client.Auth.Spnego
import Smb1Client.Connection.Types
import Smb1Client.Rpc.Pdu
import Smb1Client.Rpc.Rap
import Smb1Client.Rpc.Srvsvc
import Smb1Client.Unc

/-!
`error.rs`: what a call of the crate fails with, and what a status or a connection's
failure means there.
-/

namespace Smb1Client

/-- What a listing can fail with that no status names. -/
inductive ListingError where
  | noProgress (pattern : Text)
  deriving DecidableEq, Repr

/-- What a read can fail with that no status names. -/
inductive ReadError where
  | overlapping (start length : ℕ)
  deriving DecidableEq, Repr

/-- What a write can fail with that no status names. -/
inductive WriteError where
  | noProgress (start length : ℕ)
  deriving DecidableEq, Repr

/-- What the `NetrShareEnum` paging loop can fail with. -/
inductive PagingError where
  | noProgress (resume : UInt32)
  | tooManyRounds (rounds shares : ℕ)
  deriving DecidableEq, Repr

/-- The source of an `Error::Protocol`. -/
inductive ProtocolError where
  | wire (error : WireError)
  | reassembly (error : ReassemblyError)
  | listing (error : ListingError)
  | read (error : ReadError)
  | write (error : WriteError)
  | pdu (error : PduError)
  | srvsvc (error : SrvsvcError)
  | rap (error : RapError)
  | paging (error : PagingError)
  | spnego (error : SpnegoError)
  | ntlm (error : NtlmError)
  deriving DecidableEq

/-- The requirement a server does not meet. -/
inductive Requirement where
  | capability (name : String) (capabilities : UInt32)
  | userSecurity (securityMode : UInt8)
  | bufferSize (maxBufferSize : UInt32)
  | ntStatus (command : UInt8) (flags2 : UInt16)
  | answers (command answered : UInt8)
  deriving DecidableEq, Repr

/-- What a call fails with. -/
inductive ClientError where
  | status (status : NtStatus)
  | transactionRefused
  | transactionTooLarge (request : String) (size limit : ℕ)
  | connectionLost (status : Option NtStatus)
  | treeDisconnected
  | requestTimeout
  | io (error : IoError)
  | protocol (source : ProtocolError)
  | unfilledSpan (start length : ℕ)
  | invalidPath (refusal : InvalidPath)
  | bothAttemptsFailed (operation : String) (first second : ClientError)
  | writePartial (written : UInt64) (source : ClientError)
  | progressInUse
  | connectTimeout
  | signingRequired
  | guestLogon
  | unsupportedServer (requirement : Requirement)
  deriving DecidableEq

def STATUS_OBJECT_NAME_EXISTS : NtStatus := ⟨0x40000000⟩

/-- `STATUS_LOGON_FAILURE` to `STATUS_NETWORK_ACCESS_DENIED`: a logon or an access is refused. -/
def STATUSES_DENIED : List NtStatus :=
  [⟨0xC000006D⟩, ⟨0xC0000022⟩, ⟨0xC000006F⟩, ⟨0xC000010B⟩, ⟨0xC000015B⟩, ⟨0xC0000155⟩, ⟨0xC0000072⟩,
    ⟨0xC0000193⟩, ⟨0xC0000071⟩, ⟨0xC0000224⟩, ⟨0xC000006A⟩, ⟨0xC0000064⟩, ⟨0xC0000062⟩,
    ⟨0xC0000070⟩, ⟨0xC000006E⟩, ⟨0xC0000250⟩, ⟨0xC00002FA⟩, ⟨0xC0000061⟩, ⟨0xC00000CA⟩]

/-- `STATUS_PENDING`, `STATUS_RETRY`, `STATUS_DEVICE_NOT_READY`, `STATUS_TOO_MANY_SESSIONS` and
`STATUS_NETWORK_BUSY`. -/
def STATUSES_BUSY : List NtStatus :=
  [.PENDING, ⟨0xC000022D⟩, ⟨0xC00000A3⟩, ⟨0xC00000CE⟩, ⟨0xC00000BF⟩]

/-- What a status classifies as, of the few dozen that do. -/
def statusKind (status : NtStatus) : ErrorKind :=
  if status ∈ [NtStatus.NO_SUCH_FILE, NtStatus.OBJECT_NAME_NOT_FOUND,
      NtStatus.OBJECT_PATH_NOT_FOUND, NtStatus.NOT_FOUND] then .notFound
  else if status = NtStatus.DIRECTORY_NOT_EMPTY then .directoryNotEmpty
  else if status = NtStatus.NOT_A_DIRECTORY then .notADirectory
  else if status = NtStatus.FILE_IS_A_DIRECTORY then .isADirectory
  else if status = NtStatus.INVALID_HANDLE then .invalidInput
  else if status = NtStatus.SHARING_VIOLATION then .resourceBusy
  else if status ∈ [NtStatus.OBJECT_NAME_COLLISION, STATUS_OBJECT_NAME_EXISTS] then .alreadyExists
  else if status ∈ STATUSES_DENIED then .permissionDenied
  else if status ∈ STATUSES_BUSY then .resourceBusy
  else .other

namespace ClientError

/-- What a status a server refused an operation with means. -/
def refused (status : NtStatus) : ClientError :=
  if status = NtStatus.INSUFF_SERVER_RESOURCES then transactionRefused
  else if status = NtStatus.NETWORK_NAME_DELETED then treeDisconnected
  else if status = NtStatus.USER_SESSION_DELETED then connectionLost (some status)
  else .status status

/-- What a connection's failure means to a caller. -/
def ofConnection : Error → ClientError
  | .io error => io error
  | .wire error => protocol (.wire error)
  | .timeout => requestTimeout
  | .reassembly error => protocol (.reassembly error)
  | .sessionDeleted => connectionLost (some NtStatus.USER_SESSION_DELETED)
  | .lost => connectionLost none
  | .unroutable _ _ => connectionLost none
  | .chainedResponse _ => connectionLost none
  | .silent => connectionLost none
  | .retirementBudget _ => connectionLost none
  | .poolExhausted => connectionLost none

def ofWire (error : WireError) : ClientError := protocol (.wire error)

/-- A transaction this crate built that will not fit one message. -/
def tooLarge (error : WireError) (request : String) : ClientError :=
  match error with
  | .fieldTooLong "transaction request" length limit => transactionTooLarge request length limit
  | other => ofWire other

/-- `Error::kind`: the standard library's word for what went wrong. -/
def kind : ClientError → ErrorKind
  | status s => statusKind s
  | transactionRefused => .other
  | transactionTooLarge _ _ _ => .invalidInput
  | invalidPath _ => .invalidInput
  | progressInUse => .invalidInput
  | writePartial _ source => source.kind
  | connectionLost _ => .connectionAborted
  | treeDisconnected => .notConnected
  | connectTimeout => .timedOut
  | requestTimeout => .timedOut
  | io error => error
  | protocol _ => .invalidData
  | unfilledSpan _ _ => .unexpectedEof
  | guestLogon => .permissionDenied
  | signingRequired => .unsupported
  | unsupportedServer _ => .unsupported
  | bothAttemptsFailed _ _ second => second.kind

def isNotFound (error : ClientError) : Bool := error.kind = .notFound

end ClientError

end Smb1Client
