import Smb1Client.Connection.Types
import Smb1Client.Wire.Io

/-!
The chunk sizes of a connection, before and after its downgrade.

After the downgrade the size is the negotiated buffer less the overhead, with no other
bound: a server that declares a buffer larger than a frame, or than the field that asks
for the bytes, is asked for more once it has refused a size, not for less.
-/

namespace Smb1Client

namespace Negotiated

/-- What the handshake and `transport::spawn` let through. -/
def Admitted (n : Negotiated) : Prop := MIN_BUFFER_SIZE ≤ n.maxBufferSize.toNat

instance (n : Negotiated) : Decidable n.Admitted :=
  inferInstanceAs (Decidable (MIN_BUFFER_SIZE ≤ n.maxBufferSize.toNat))

def buffered (n : Negotiated) : ℕ := (n.maxBufferSize - UInt32.ofNat PROTOCOL_OVERHEAD).toNat

/-- Whether the server advertised a capability. -/
def has (n : Negotiated) (capability : UInt32) : Bool := n.capabilities &&& capability ≠ 0

/-- The three cases the chunk size has. -/
def chunkSize (n : Negotiated) (downgraded : Bool) (capability : UInt32) : ℕ :=
  if downgraded then n.buffered
  else if n.has capability then LARGE_IO_CHUNK
  else min n.buffered SMALL_IO_CHUNK

def readChunkSize (n : Negotiated) (downgraded : Bool) : ℕ :=
  n.chunkSize downgraded CAP_LARGE_READX

def writeChunkSize (n : Negotiated) (downgraded : Bool) : ℕ :=
  n.chunkSize downgraded CAP_LARGE_WRITEX

variable {n : Negotiated} {capability : UInt32}

theorem buffered_eq (admitted : n.Admitted) :
    n.buffered = n.maxBufferSize.toNat - PROTOCOL_OVERHEAD := by
  have above : UInt32.ofNat PROTOCOL_OVERHEAD ≤ n.maxBufferSize :=
    UInt32.le_iff_toNat_le.mpr (le_trans (by decide) admitted)
  rw [buffered, UInt32.toNat_sub_of_le _ _ above]
  rfl

theorem buffered_pos (admitted : n.Admitted) : 1 ≤ n.buffered := by
  have floor : 4356 ≤ n.maxBufferSize.toNat := admitted
  rw [buffered_eq admitted, PROTOCOL_OVERHEAD]
  omega

/-- Every chunk asks for at least a byte. -/
theorem chunkSize_pos (admitted : n.Admitted) (downgraded : Bool) :
    1 ≤ n.chunkSize downgraded capability := by
  have positive := buffered_pos admitted
  unfold chunkSize
  split
  · exact positive
  · split
    · decide
    · exact le_min positive (by decide)

/-- The downgrade shrinks a chunk exactly where the buffer is within the size before it. -/
theorem chunkSize_shrinks_iff :
    n.chunkSize true capability ≤ n.chunkSize false capability ↔
      n.buffered ≤ if n.has capability then LARGE_IO_CHUNK else SMALL_IO_CHUNK := by
  unfold chunkSize
  rw [if_pos rfl, if_neg Bool.false_ne_true]
  split
  · exact Iff.rfl
  · exact le_min_iff.trans (and_iff_right le_rfl)

/-- Without the capability no chunk is larger than the small one, where the buffer is not. -/
theorem chunkSize_le_small (downgraded : Bool) (lacks : n.has capability = false)
    (small : n.buffered ≤ SMALL_IO_CHUNK) : n.chunkSize downgraded capability ≤ SMALL_IO_CHUNK := by
  unfold chunkSize
  split
  · exact small
  · rw [if_neg (by rw [lacks]; exact Bool.false_ne_true)]
    exact min_le_right _ _

theorem chunkSize_le_large (downgraded : Bool) (large : n.buffered ≤ LARGE_IO_CHUNK) :
    n.chunkSize downgraded capability ≤ LARGE_IO_CHUNK := by
  unfold chunkSize
  split
  · exact large
  · split
    · exact le_rfl
    · exact (min_le_left _ _).trans large

end Negotiated

/-- A write passes the frame exactly where its payload leaves room for 63 bytes. -/
theorem WriteAndxRequest.frame_isOk_iff (h : SmbHeader) (r : WriteAndxRequest) :
    (frame (message h (body r.words.write r.data))).isOk = true ↔
      r.data.length + 63 ≤ Netbios.MAX_MESSAGE_LEN := by
  rw [frame_isOk, WriteAndxRequest.length_message]

namespace Negotiated

variable {n : Negotiated}

/-- A write of a large chunk passes the frame. -/
theorem frame_of_le_large (h : SmbHeader) (r : WriteAndxRequest)
    (large : r.data.length ≤ LARGE_IO_CHUNK) :
    (frame (message h (body r.words.write r.data))).isOk = true := by
  rw [r.frame_isOk_iff h]
  exact (Nat.add_le_add_right large 63).trans (by decide)

/-- What is said of the chunk sizes: a downgrade leaves one of at least a byte and no
larger than before, a write of one passes the frame, and without the capability every
count fits its 16-bit field. -/
structure Sendable (n : Negotiated) : Prop where
  shrinks : ∀ capability ∈ [CAP_LARGE_READX, CAP_LARGE_WRITEX],
    1 ≤ n.chunkSize true capability ∧ n.chunkSize true capability ≤ n.chunkSize false capability
  frames : ∀ downgraded (h : SmbHeader) (r : WriteAndxRequest),
    r.data.length ≤ n.writeChunkSize downgraded →
      (frame (message h (body r.words.write r.data))).isOk = true
  counts : ∀ capability ∈ [CAP_LARGE_READX, CAP_LARGE_WRITEX], n.has capability = false →
    ∀ downgraded count, count ≤ n.chunkSize downgraded capability →
      count ≤ SMALL_IO_CHUNK ∧ count < 2 ^ 16

/-- **Chunk sizes are sendable and only shrink** exactly where the negotiated buffer, less
the overhead, is within the small chunk, or within the large one of a server that has
both capabilities. -/
theorem sendable_iff (admitted : n.Admitted) :
    n.Sendable ↔ n.buffered ≤ SMALL_IO_CHUNK ∨
      n.buffered ≤ LARGE_IO_CHUNK ∧ n.has CAP_LARGE_READX = true ∧
        n.has CAP_LARGE_WRITEX = true := by
  constructor
  · intro sendable
    have read := chunkSize_shrinks_iff.mp (sendable.shrinks CAP_LARGE_READX (by simp)).2
    have write := chunkSize_shrinks_iff.mp (sendable.shrinks CAP_LARGE_WRITEX (by simp)).2
    cases reads : n.has CAP_LARGE_READX with
    | false =>
        rw [reads] at read
        exact Or.inl read
    | true =>
        cases writes : n.has CAP_LARGE_WRITEX with
        | false =>
            rw [writes] at write
            exact Or.inl write
        | true =>
            rw [reads] at read
            exact Or.inr ⟨read, rfl, rfl⟩
  · intro within
    have large : n.buffered ≤ LARGE_IO_CHUNK := by
      rcases within with small | ⟨large, -⟩
      · exact small.trans (by decide)
      · exact large
    have lacking : ∀ capability ∈ [CAP_LARGE_READX, CAP_LARGE_WRITEX],
        n.has capability = false → n.buffered ≤ SMALL_IO_CHUNK := by
      intro capability member lacks
      rcases within with small | ⟨-, reads, writes⟩
      · exact small
      · rcases List.mem_cons.mp member with rfl | member
        · exact absurd (reads.symm.trans lacks) (by decide)
        · rw [List.mem_singleton.mp member, writes] at lacks
          exact absurd lacks (by decide)
    refine ⟨fun capability member => ⟨chunkSize_pos admitted true, ?_⟩,
      fun downgraded h r fits => ?_,
      fun capability member lacks downgraded count fits => ?_⟩
    · rw [chunkSize_shrinks_iff]
      split
      · exact large
      · next lacks => exact lacking capability member (Bool.not_eq_true _ ▸ lacks)
    · exact frame_of_le_large h r (fits.trans (chunkSize_le_large downgraded large))
    · have small :=
        fits.trans (chunkSize_le_small downgraded lacks (lacking capability member lacks))
      exact ⟨small, lt_of_le_of_lt small (by decide)⟩

/-- A Samba server's buffer, with both capabilities. -/
theorem sendable_samba : Sendable ⟨50, 16644, CAP_LARGE_READX ||| CAP_LARGE_WRITEX⟩ :=
  (sendable_iff (by decide)).mpr (Or.inl (by decide))

/-- The largest buffer a server can declare, and no capability. -/
theorem largest_buffer_unsendable : ¬ ∀ n : Negotiated, n.Admitted → n.Sendable := by
  intro claimed
  have sendable := claimed ⟨50, 4294967295, 0⟩ (by decide)
  exact absurd (sendable.shrinks CAP_LARGE_READX (by simp)).2 (by decide)

end Negotiated

end Smb1Client
