import Smb1Client.DiskVerbs
import Smb1Client.ShareVerbs

/-!
How large a share is, by either of two levels.

A server says a volume's size in allocation units, sectors and bytes, and the caller is told the
product. The modern level's counts are of 64 bits; where it fails in any way the legacy one is
asked, whose counts are of 32. The product stops at what 64 bits hold.
-/

namespace Smb1Client

open LittleEndian

/-- A volume's size, from whichever of the two levels answered. -/
structure FsSize where
  totalUnits : UInt64
  freeUnits : UInt64
  sectorsPerUnit : UInt32
  bytesPerSector : UInt32
  deriving DecidableEq, Repr

def QUERY_FS_SIZE_INFO : UInt16 := 0x0103
def QUERY_FS_ALLOCATION : UInt16 := 0x0001

namespace FsSize

def readSizeInfo : Reader FsSize := do
  let totalUnits ← Reader.u64
  let freeUnits ← Reader.u64
  let sectorsPerUnit ← Reader.u32
  let bytesPerSector ← Reader.u32
  return { totalUnits, freeUnits, sectorsPerUnit, bytesPerSector }

def decodeSizeInfo (data : Bytes) : Except WireError FsSize :=
  if data.length < 24 then .error (.truncated "SMB_QUERY_FS_SIZE_INFO" 24 data.length)
  else readWords readSizeInfo (data.take 24)

/-- The counts of the legacy level are 32-bit. -/
def readAllocation : Reader FsSize := do
  let _fileSystemId ← Reader.u32
  let sectorsPerUnit ← Reader.u32
  let totalUnits ← Reader.u32
  let freeUnits ← Reader.u32
  let bytesPerSector ← Reader.u16
  return { totalUnits := totalUnits.toUInt64, freeUnits := freeUnits.toUInt64, sectorsPerUnit
           bytesPerSector := bytesPerSector.toUInt32 }

def decodeAllocation (data : Bytes) : Except WireError FsSize :=
  if data.length < 18 then .error (.truncated "SMB_INFO_ALLOCATION" 18 data.length)
  else readWords readAllocation (data.take 18)

/-- The product that stops at the largest value. -/
def saturatingMul (x y : UInt64) : UInt64 := UInt64.ofNat (min (x.toNat * y.toNat) (2 ^ 64 - 1))

/-- The unit counts multiplied out. -/
def bytes (s : FsSize) (units : UInt64) : UInt64 :=
  saturatingMul (saturatingMul units s.sectorsPerUnit.toUInt64) s.bytesPerSector.toUInt64

end FsSize

inductive FsInfoLevel where
  | size
  | allocation
  deriving DecidableEq, Repr

/-- A share's size. -/
structure FsStatistics where
  totalBytes : UInt64
  availableBytes : UInt64
  level : FsInfoLevel
  deriving DecidableEq, Repr

namespace Tree

variable (n : Negotiated)

/-- `Tree::query_fs`. -/
def queryFs (level : UInt16) : ShareVerb Bytes := do
  let reply ← ShareRequest.checked n (.queryFs level)
  return reply.transactionData

/-- The volume's size, by the legacy level where the modern one fails in any way. -/
def volume : ShareVerb (FsSize × FsInfoLevel) := do
  match ← (queryFs n QUERY_FS_SIZE_INFO).attempt with
  | .ok data => do
      let size ← .ofExcept ((FsSize.decodeSizeInfo data).mapError .ofWire)
      return (size, .size)
  | .error first => do
      match ← (queryFs n QUERY_FS_ALLOCATION).attempt with
      | .error second => .failed (.bothAttemptsFailed "volume statistics" first second)
      | .ok data => do
          let size ← .ofExcept ((FsSize.decodeAllocation data).mapError .ofWire)
          return (size, .allocation)

/-- `Tree::statistics`. -/
def statistics : ShareVerb FsStatistics := do
  let (size, level) ← volume n
  return { totalBytes := size.bytes size.totalUnits, availableBytes := size.bytes size.freeUnits
           level }

end Tree

/-! ## What a server says of a volume -/

namespace FsSize

/-- What the legacy level has fields for. -/
structure Narrow (s : FsSize) : Prop where
  total : s.totalUnits.toNat < 2 ^ 32
  free : s.freeUnits.toNat < 2 ^ 32
  bytes : s.bytesPerSector.toNat < 2 ^ 16

def writeSizeInfo (s : FsSize) : Bytes :=
  u64le s.totalUnits ++ (u64le s.freeUnits ++ (u32le s.sectorsPerUnit ++ u32le s.bytesPerSector))

def writeAllocation (s : FsSize) (fileSystemId : UInt32) : Bytes :=
  u32le fileSystemId ++ (u32le s.sectorsPerUnit ++ (u32le s.totalUnits.toUInt32 ++
    (u32le s.freeUnits.toUInt32 ++ u16le s.bytesPerSector.toUInt16)))

variable {s : FsSize}

theorem decodeSizeInfo_write (s : FsSize) : decodeSizeInfo s.writeSizeInfo = .ok s := by
  have length : s.writeSizeInfo.length = 24 := by simp [writeSizeInfo]
  have whole : s.writeSizeInfo.take 24 = s.writeSizeInfo ++ [] := by
    rw [List.append_nil, ← length, List.take_length]
  rw [decodeSizeInfo, if_neg (by omega), whole, readWords, readSizeInfo, writeSizeInfo]
  simp only [List.append_assoc]
  rw [Reader.u64_bind, Reader.u64_bind, Reader.u32_bind, Reader.u32_bind, Reader.pure_apply]

theorem decodeAllocation_write (narrow : s.Narrow) (fileSystemId : UInt32) :
    decodeAllocation (s.writeAllocation fileSystemId) = .ok s := by
  have length : (s.writeAllocation fileSystemId).length = 18 := by simp [writeAllocation]
  have whole : (s.writeAllocation fileSystemId).take 18 = s.writeAllocation fileSystemId ++ [] := by
    rw [List.append_nil, ← length, List.take_length]
  have total : s.totalUnits.toUInt32.toUInt64 = s.totalUnits := by
    apply UInt64.toNat_inj.mp
    simpa using narrow.total
  have free : s.freeUnits.toUInt32.toUInt64 = s.freeUnits := by
    apply UInt64.toNat_inj.mp
    simpa using narrow.free
  have bytes : s.bytesPerSector.toUInt16.toUInt32 = s.bytesPerSector := by
    apply UInt32.toNat_inj.mp
    simpa using narrow.bytes
  rw [decodeAllocation, if_neg (by omega), whole, readWords, readAllocation, writeAllocation]
  simp only [List.append_assoc]
  rw [Reader.u32_bind, Reader.u32_bind, Reader.u32_bind, Reader.u32_bind, Reader.u16_bind,
    Reader.pure_apply, total, free, bytes]

theorem toNat_saturatingMul (x y : UInt64) :
    (saturatingMul x y).toNat = min (x.toNat * y.toNat) (2 ^ 64 - 1) :=
  UInt64.toNat_ofNat_of_lt' (by rw [UInt64.size]; omega)

/-- **The product stops once**, in whichever order the factors come to the limit. -/
theorem toNat_bytes (s : FsSize) (units : UInt64) : (s.bytes units).toNat =
    min (units.toNat * s.sectorsPerUnit.toNat * s.bytesPerSector.toNat) (2 ^ 64 - 1) := by
  rw [bytes, toNat_saturatingMul, toNat_saturatingMul, UInt32.toNat_toUInt64,
    UInt32.toNat_toUInt64]
  rcases Nat.le_total (units.toNat * s.sectorsPerUnit.toNat) (2 ^ 64 - 1) with within | past
  · rw [Nat.min_eq_left within]
  · rw [Nat.min_eq_right past]
    rcases Nat.eq_zero_or_pos s.bytesPerSector.toNat with none | some
    · rw [none, Nat.mul_zero, Nat.mul_zero]
    · rw [Nat.min_eq_right (Nat.le_mul_of_pos_right _ some),
        Nat.min_eq_right (past.trans (Nat.le_mul_of_pos_right _ some))]

/-- What a server with this volume answers: a level that it has, it lays out. -/
def LaysOut (s : FsSize) (level : UInt16) (reply : Reply) : Prop :=
  (level = QUERY_FS_SIZE_INFO → reply.transactionData = s.writeSizeInfo) ∧
    (level = QUERY_FS_ALLOCATION →
      s.Narrow ∧ ∃ fileSystemId, reply.transactionData = s.writeAllocation fileSystemId)

/-- A server with a volume, which may fail or refuse any request. -/
def Holds : Peer FsSize ShareRequest Answer := fun s request answer s' =>
  s' = s ∧ ∀ level, request = .queryFs level →
    ∀ reply, answer = .ok reply → reply.status = .SUCCESS → s.LaysOut level reply

end FsSize

/-- The statistics are the volume's, as far as 64 bits go. -/
structure FsStatistics.Of (t : FsStatistics) (s : FsSize) : Prop where
  total : t.totalBytes.toNat =
    min (s.totalUnits.toNat * s.sectorsPerUnit.toNat * s.bytesPerSector.toNat) (2 ^ 64 - 1)
  available : t.availableBytes.toNat =
    min (s.freeUnits.toNat * s.sectorsPerUnit.toNat * s.bytesPerSector.toNat) (2 ^ 64 - 1)

namespace Tree

open Dialogue

variable {n : Negotiated} {s s' : FsSize}

/-- A query of a level comes to what the server lays out of it, or fails. -/
theorem meets_queryFs (level : UInt16) : Meets FsSize.Holds s (queryFs n level) fun s' result =>
    s' = s ∧ ∀ data, result = .ok data → ∃ reply : Reply, data = reply.transactionData ∧
      s.LaysOut level reply := by
  have put : Meets FsSize.Holds s (ShareRequest.checked n (.queryFs level)) fun s' result =>
      s' = s ∧ ∀ reply, result = .ok reply → s.LaysOut level reply := by
    rw [ShareRequest.checked]
    split
    · exact meets_failed.mpr ⟨rfl, fun reply came => by cases came⟩
    · refine meets_ask.mpr fun answer t given => ?_
      obtain ⟨rfl, laid⟩ := given
      cases answer with
      | error gone => exact meets_failed.mpr ⟨rfl, fun reply came => by cases came⟩
      | ok reply =>
          dsimp only
          split
          · exact meets_failed.mpr ⟨rfl, fun reply came => by cases came⟩
          · next success =>
              refine meets_pure.mpr ⟨rfl, fun reply' came => ?_⟩
              cases came
              exact laid level rfl reply rfl (not_not.mp success)
  rw [queryFs, meets_bind]
  apply put.mono
  rintro s₁ result ⟨still, laid⟩
  cases result with
  | error error => exact ⟨still, fun data came => by cases came⟩
  | ok reply =>
      refine meets_pure.mpr ⟨still, fun data came => ?_⟩
      cases came
      exact ⟨reply, rfl, laid reply rfl⟩

/-- The size is the volume's, or neither level is answered. -/
theorem meets_volume : Meets FsSize.Holds s (volume n) fun _ result =>
    (∃ level, result = .ok (s, level)) ∨
      ∃ first second, result = .error (.bothAttemptsFailed "volume statistics" first second) := by
  rw [volume, meets_bind, meets_attempt]
  apply (meets_queryFs QUERY_FS_SIZE_INFO).mono
  rintro s₁ modern ⟨rfl, answered⟩
  cases modern with
  | ok data =>
      obtain ⟨reply, rfl, laid⟩ := answered data rfl
      refine meets_bind.mpr (meets_ofExcept.mpr ?_)
      rw [laid.1 rfl, FsSize.decodeSizeInfo_write]
      exact meets_pure.mpr (Or.inl ⟨.size, rfl⟩)
  | error first =>
      refine meets_bind.mpr (meets_attempt.mpr ?_)
      apply (meets_queryFs QUERY_FS_ALLOCATION).mono
      rintro s₂ legacy ⟨rfl, answered⟩
      cases legacy with
      | error second => exact meets_failed.mpr (Or.inr ⟨first, second, rfl⟩)
      | ok data =>
          obtain ⟨reply, rfl, laid⟩ := answered data rfl
          obtain ⟨narrow, fileSystemId, block⟩ := laid.2 rfl
          refine meets_bind.mpr (meets_ofExcept.mpr ?_)
          rw [block, FsSize.decodeAllocation_write narrow]
          exact meets_pure.mpr (Or.inl ⟨.allocation, rfl⟩)

/-- **The size a caller is told is the volume's**, whichever level a server answers by, or both
levels have failed. -/
theorem statistics_tells {answers : List Answer}
    (served : Served FsSize.Holds s (statistics n) answers s') :
    (∃ request, (statistics n).asks answers = some request) ∨
      (∃ t : FsStatistics, (statistics n).outcome answers = some (.ok t) ∧ t.Of s) ∨
        ∃ first second, (statistics n).outcome answers =
          some (.error (.bothAttemptsFailed "volume statistics" first second)) := by
  have meets : Meets FsSize.Holds s (statistics n) fun _ result =>
      (∃ t : FsStatistics, result = .ok t ∧ t.Of s) ∨
        ∃ first second, result = .error (.bothAttemptsFailed "volume statistics" first second) := by
    rw [statistics, meets_bind]
    apply meets_volume.mono
    rintro s₁ result (⟨level, rfl⟩ | ⟨first, second, rfl⟩)
    · exact meets_pure.mpr (Or.inl ⟨_, rfl, s.toNat_bytes s.totalUnits, s.toNat_bytes s.freeUnits⟩)
    · exact Or.inr ⟨first, second, rfl⟩
  rcases meets.served served with asks | ⟨result, came, ⟨t, rfl, told⟩ | ⟨first, second, rfl⟩⟩
  · exact Or.inl asks
  · exact Or.inr (Or.inl ⟨t, came, told⟩)
  · exact Or.inr (Or.inr ⟨first, second, came⟩)

end Tree

end Smb1Client
