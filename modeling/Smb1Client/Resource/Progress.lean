import Smb1Client.Connection.Coverage
import Smb1Client.TreeRequest

/-!
`resource/progress.rs`: the acknowledged ranges of a write, and the signal that says they are
final.

A range is recorded from the reply: the chunk's offset, and the count the reply acknowledges,
clamped to what the chunk offered.
-/

namespace Smb1Client

/-- The state behind a handle. -/
structure WriteProgress where
  base : UInt64
  covered : Coverage
  outstanding : ℕ
  issuing : Bool
  registered : Bool
  finalPrefix : Option ℕ
  deriving DecidableEq

/-- What a `WRITE_ANDX` reply acknowledges, where it acknowledges something that can be read. -/
def Reply.acknowledged (reply : Reply) : Option ℕ :=
  if reply.status ≠ .SUCCESS then none
  else (WriteAndxResponse.decode reply.message).toOption.map (·.count.toNat)

namespace WriteProgress

def new : WriteProgress where
  base := 0
  covered := .empty
  outstanding := 0
  issuing := false
  registered := false
  finalPrefix := none

/-- The contiguous acknowledged prefix. -/
def written (p : WriteProgress) : ℕ := p.finalPrefix.getD p.covered.prefixLen

/-- Claims the handle for one write, which begins at `base`. -/
def register (p : WriteProgress) (base : UInt64) : Except ClientError WriteProgress :=
  if p.registered then .error .progressInUse
  else .ok { p with registered := true, issuing := true, base }

/-- A chunk enters the group. -/
def chunk (p : WriteProgress) : WriteProgress := { p with outstanding := p.outstanding + 1 }

/-- How much of a chunk an outcome acknowledges. -/
def accepted (offered : ℕ) : Except Error Reply → Option ℕ
  | .error _ => none
  | .ok reply =>
      match reply.acknowledged with
      | some count => if 0 < count then some (min count offered) else none
      | none => none

/-- Records what an outcome acknowledges of a chunk. The position is a saturating difference. -/
def record (p : WriteProgress) (offset : UInt64) (offered : ℕ) (outcome : Except Error Reply) :
    WriteProgress :=
  match accepted offered outcome with
  | some count => { p with covered := (p.covered.cover (offset.toNat - p.base.toNat) count).1 }
  | none => p

/-- A chunk leaves the group. -/
def depart (p : WriteProgress) : WriteProgress := { p with outstanding := p.outstanding - 1 }

/-- The guard has been dropped. -/
def release (p : WriteProgress) : WriteProgress := { p with issuing := false }

/-- Declares the prefix final, where the write has stopped issuing and every chunk has left. -/
def settle (p : WriteProgress) : Option WriteProgress :=
  if p.issuing ∨ 0 < p.outstanding ∨ p.finalPrefix.isSome then none
  else some { p with finalPrefix := some p.covered.prefixLen }

/-- A chunk's request ends: all of what its ticket does, at once. -/
def ended (p : WriteProgress) (offset : UInt64) (offered : ℕ) (outcome : Except Error Reply) :
    WriteProgress :=
  let p := (p.record offset offered outcome).depart
  p.settle.getD p

end WriteProgress

/-- The reply to a write that acknowledges so many bytes. -/
def writeReply (count : UInt16) : Reply where
  message :=
    { header := SmbHeader.request Command.WRITE_ANDX
      bytes := .replicate 33 0 ++ (AndX.NONE.write ++ (LittleEndian.u16le count ++ .replicate 8 0))
      wordCount := WRITE_RESPONSE_WORDS
      byteCount := 0
      fits := by simp [WRITE_RESPONSE_WORDS, HEADER_LEN] }
  transaction := none

end Smb1Client
