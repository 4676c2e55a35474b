import Smb1Client.Connection.Reassembly

/-!
What `connection/mod.rs` passes between a caller and the connection task.

A caller's oneshot sender and an outcome hook have no content the connection reads,
so both are modelled by the ticket of the request they belong to. Handing one its
value is an `Effect`.
-/

namespace Smb1Client

/-- A point on the monotonic clock, and a span of it. -/
abbrev Instant := ℕ
abbrev Duration := ℕ

def ADMISSION_CEILING : ℕ := 50
def CAP_LARGE_READX : UInt32 := 0x00004000
def CAP_LARGE_WRITEX : UInt32 := 0x00008000
def LARGE_IO_CHUNK : ℕ := 130048
def SMALL_IO_CHUNK : ℕ := 65520
def PROTOCOL_OVERHEAD : ℕ := 1024
def MIN_BUFFER_SIZE : ℕ := 4356

/-- The two timing bounds the connection works to. -/
structure Timeouts where
  perRequest : Duration
  overall : Duration
  deriving DecidableEq, Repr

/-- What the handshake negotiated. -/
structure Negotiated where
  maxMpxCount : UInt16
  maxBufferSize : UInt32
  capabilities : UInt32
  deriving DecidableEq, Repr

/-- The connection's admission limit. -/
def Negotiated.admissionLimit (n : Negotiated) : ℕ :=
  if n.maxMpxCount = 0 ∨ n.maxMpxCount = 1 then 1 else min n.maxMpxCount.toNat ADMISSION_CEILING

theorem Negotiated.admissionLimit_pos (n : Negotiated) : 0 < n.admissionLimit := by
  unfold admissionLimit
  split
  · exact Nat.one_pos
  · next multiplexes =>
      have positive : 0 < n.maxMpxCount.toNat := by
        by_contra zero
        apply multiplexes
        exact Or.inl (UInt16.toNat_inj.mp (by simpa using zero))
      exact lt_min positive (by decide)

/-- Which request a sender or a hook belongs to. -/
abbrev Ticket := ℕ

/-- One request for the connection to issue. -/
structure Request where
  command : UInt8
  tid : UInt16
  uid : UInt16
  body : Bytes
  maxParameterCount : UInt16
  maxDataCount : UInt16
  outcome : Option Ticket
  deriving DecidableEq, Repr

/-- What the handle sends the actor. `reply` is nothing for a close enqueued by
`Drop`, which has nobody to return to. The ticket is where the request stands in the
order of all sends; nothing in the connection reads it. -/
structure Dispatch where
  ticket : Ticket
  request : Request
  reply : Option Ticket
  deriving DecidableEq, Repr

/-- The blocks of a reassembled transaction reply. -/
structure TransactionBody where
  setup : List UInt16
  parameters : Bytes
  data : Bytes
  deriving DecidableEq, Repr

/-- A completed reply. -/
structure Reply where
  message : Message
  transaction : Option TransactionBody
  deriving DecidableEq

/-- The kinds of `std::io::ErrorKind` an I/O failure is classified by. -/
inductive ErrorKind where
  | notFound
  | permissionDenied
  | connectionRefused
  | connectionReset
  | hostUnreachable
  | networkUnreachable
  | connectionAborted
  | notConnected
  | addrInUse
  | addrNotAvailable
  | networkDown
  | brokenPipe
  | alreadyExists
  | wouldBlock
  | notADirectory
  | isADirectory
  | directoryNotEmpty
  | resourceBusy
  | invalidInput
  | invalidData
  | timedOut
  | writeZero
  | interrupted
  | unsupported
  | unexpectedEof
  | outOfMemory
  | other
  deriving DecidableEq, Repr

/-- What a socket failed with. -/
abbrev IoError := ErrorKind

/-- What can go wrong on a connection. -/
inductive Error where
  | io (error : IoError)
  | wire (error : WireError)
  | timeout
  | reassembly (error : ReassemblyError)
  | lost
  | unroutable (mid : UInt16) (command : UInt8)
  | chainedResponse (command : UInt8)
  | sessionDeleted
  | silent
  | retirementBudget (retired : ℕ)
  | poolExhausted
  deriving DecidableEq

/-- A use of a caller's sender or of an outcome hook. -/
inductive Effect where
  | ended (hook : Ticket) (outcome : Except Error Reply)
  | answered (caller : Ticket) (outcome : Except Error Reply)

/-- An `expect`, an `unreachable!`, an underflow or a loop that does not end. -/
inductive Panic where
  | expiryDisagrees
  | retiredDeadline
  | retiredUnknown
  | fragmentWithoutAssembly
  | assemblyGone
  | chargingUnderflow
  | expireSpins
  | writtenWithoutWriting
  deriving DecidableEq, Repr

end Smb1Client
