import Smb1Client.Connection.Coverage
import Smb1Client.Wire.Transaction

/-!
Transaction reassembly, as `connection/reassembly.rs` does it.

A `Track` carries in its type that its buffer is as long as the total it last
declared, which is what keeps the copy of a fragment inside the buffer, and that
nothing past that total is covered. A failed step gives back the error alone: the
owner of a reassembly that failed drops it.
-/

namespace Smb1Client

/-- The most fragments accepted for one reply. -/
def FRAGMENT_CAP : ℕ := 64

/-- How many messages may contribute no bytes at all before the reassembly fails. -/
def EMPTY_TOLERANCE : ℕ := 1

/-- Which of a reply's two blocks. -/
inductive Block where
  | parameter
  | data
  deriving DecidableEq, Repr

inductive ReassemblyError where
  | revisedUpward (block : Block) (declared revised : ℕ)
  | outsideDeclaredRange (block : Block) (displacement length total : ℕ)
  | overlapping (block : Block) (displacement length : ℕ)
  | moreThanAsked (block : Block) (total asked : ℕ)
  | tooManyFragments (cap : ℕ)
  | noProgress
  deriving DecidableEq, Repr

/-- `Vec::resize` with zeros. -/
def resize (bytes : Bytes) (total : ℕ) : Bytes :=
  bytes.take total ++ .replicate (total - bytes.length) 0

/-- `bytes[at ..].copy_from_slice(payload)`, for a payload that fits. -/
def copyInto (bytes : Bytes) (displacement : ℕ) (payload : Bytes) : Bytes :=
  bytes.take displacement ++ (payload ++ bytes.drop (displacement + payload.length))

@[simp] theorem length_resize (bytes : Bytes) (total : ℕ) :
    (resize bytes total).length = total := by
  rw [resize, List.length_append, List.length_take, List.length_replicate]
  omega

theorem length_copyInto {bytes payload : Bytes} {displacement : ℕ}
    (fits : displacement + payload.length ≤ bytes.length) :
    (copyInto bytes displacement payload).length = bytes.length := by
  rw [copyInto, List.length_append, List.length_append, List.length_take, List.length_drop]
  omega

/-! ## One block -/

/-- One of the two blocks a transaction reply carries. `bytes` is the reassembly
buffer, which a request that has lapsed no longer holds. -/
structure Track where
  block : Block
  total : ℕ
  asked : ℕ
  declared : Bool
  covered : Coverage
  bytes : Option Bytes
  sized : ∀ buffer ∈ bytes, buffer.length = total
  inside : covered.cells ⊆ Set.Iio total

namespace Track

def new (block : Block) (asked : ℕ) : Track where
  block := block
  total := 0
  asked := asked
  declared := false
  covered := .empty
  bytes := some []
  sized := by rintro _ ⟨⟩; rfl
  inside := by rw [Coverage.cells_empty]; exact Set.empty_subset _

/-- Takes the total a message declares. -/
def declare (t : Track) (total : ℕ) : Except ReassemblyError Track :=
  if t.declared ∧ total > t.total then .error (.revisedUpward t.block t.total total)
  else if total > t.asked then .error (.moreThanAsked t.block total t.asked)
  else .ok { t with
    total := total
    declared := true
    covered := if total < t.total then t.covered.truncate total else t.covered
    bytes := t.bytes.map (resize · total)
    sized := by
      intro buffer member
      obtain ⟨before, -, rfl⟩ := Option.mem_map.mp member
      exact length_resize before total
    inside := by
      split
      · rw [Coverage.cells_truncate]
        exact Set.inter_subset_right
      · next grown => exact t.inside.trans (Set.Iio_subset_Iio (not_lt.mp grown)) }

/-- Places one message's bytes at the displacement it declared. -/
def accept (t : Track) (displacement : ℕ) (payload : Bytes) : Except ReassemblyError Track :=
  if payload = [] then .ok t
  else if outside : displacement + payload.length > t.total then
    .error (.outsideDeclaredRange t.block displacement payload.length t.total)
  else
    match taken : t.covered.cover displacement payload.length with
    | (_, false) => .error (.overlapping t.block displacement payload.length)
    | (covered, true) => .ok { t with
        covered := covered
        bytes := t.bytes.map (copyInto · displacement payload)
        sized := by
          intro buffer member
          obtain ⟨before, held, rfl⟩ := Option.mem_map.mp member
          have size := t.sized before held
          rw [length_copyInto (by omega), size]
        inside := by
          rw [(Coverage.cover_true taken).2]
          refine Set.union_subset t.inside fun n within => ?_
          have := within.2
          exact Set.mem_Iio.mpr (by omega) }

def complete (t : Track) : Bool := t.declared && t.covered.covers t.total

def release (t : Track) : Track := { t with bytes := none, sized := by simp }

/-- `Option::take` on the buffer, and nothing where none is held. -/
def taken (t : Track) : Bytes := t.bytes.getD []

end Track

/-! ## A reply -/

/-- How far a message carried the reassembly. -/
inductive Progress where
  | continuing
  | complete
  deriving DecidableEq, Repr

/-- A transaction reply being reassembled. -/
structure Assembly where
  parameters : Track
  data : Track
  setup : List UInt16
  fragments : ℕ
  empty : ℕ
  buffered : Bool

namespace Assembly

/-- A reassembly bounded by what the request asked the reply to return. -/
def new (maxParameterCount maxDataCount : UInt16) : Assembly where
  parameters := .new .parameter maxParameterCount.toNat
  data := .new .data maxDataCount.toNat
  setup := []
  fragments := 0
  empty := 0
  buffered := true

/-- Drops the reassembly buffer; coverage tracking survives. -/
def release (a : Assembly) : Assembly :=
  { a with parameters := a.parameters.release, data := a.data.release, setup := [],
           buffered := false }

/-- Counts a message against the cap, while the reassembly holds its buffer. -/
def countFragment (a : Assembly) : Except ReassemblyError ℕ :=
  if a.buffered then
    if a.fragments + 1 > FRAGMENT_CAP then .error (.tooManyFragments FRAGMENT_CAP)
    else .ok (a.fragments + 1)
  else .ok a.fragments

/-- Counts a message that contributed no bytes, while the reassembly holds its buffer. -/
def countEmpty (a : Assembly) (response : TransactionResponse) : Except ReassemblyError ℕ :=
  if a.buffered ∧ response.parameters = [] ∧ response.data = [] then
    if a.empty + 1 > EMPTY_TOLERANCE then .error .noProgress else .ok (a.empty + 1)
  else .ok a.empty

/-- Takes one message of the reply. -/
def accept (a : Assembly) (response : TransactionResponse) :
    Except ReassemblyError (Assembly × Progress) := do
  let fragments ← a.countFragment
  let parameters ← a.parameters.declare response.totalParameterCount.toNat
  let data ← a.data.declare response.totalDataCount.toNat
  let parameters ← parameters.accept response.parameterDisplacement.toNat response.parameters
  let data ← data.accept response.dataDisplacement.toNat response.data
  let setup := if response.setup ≠ [] then response.setup else a.setup
  let empty ← a.countEmpty response
  return ({ a with parameters, data, setup, fragments, empty },
    if parameters.complete && data.complete then .complete else .continuing)

/-- The reassembled reply. -/
def finish (a : Assembly) : List UInt16 × Bytes × Bytes :=
  (a.setup, a.parameters.taken, a.data.taken)

/-- Feeds messages one after another until the first that completes or fails the
reassembly; what is left of the messages is given back. -/
def run (a : Assembly) : List TransactionResponse →
    Except ReassemblyError (Assembly × Progress × List TransactionResponse)
  | [] => .ok (a, .continuing, [])
  | response :: rest => do
      match ← a.accept response with
      | (a, .complete) => .ok (a, .complete, rest)
      | (a, .continuing) => run a rest

end Assembly

end Smb1Client
