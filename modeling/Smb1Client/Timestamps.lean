import Smb1Client.Unc
import Smb1Client.Wire.Info
import Smb1Client.Wire.Transaction

/-!
The times of a file, as a caller has them and as FILETIMEs, which count ticks of 100
nanoseconds from 1601.

A FILETIME outside the years a caller's time reaches is not reported, the 1601 epoch itself is
sent as no time, and an instant before 1970 that is not on a tick is sent as the tick after it.
-/

namespace Smb1Client

open LittleEndian

/-! ## Times -/

/-- The 1601 epoch as an offset from the 1970 one, in ticks. -/
def FILETIME_EPOCH_TICKS : ℤ := 116444736000000000

/-- The first and the last nanosecond of the years -9999 to 9999, from 1970. -/
def MIN_NANOS : ℤ := -377705116800 * 10 ^ 9
def MAX_NANOS : ℤ := 253402300800 * 10 ^ 9 - 1

/-- What is furthest from UTC, in seconds: 25:59:59. -/
def MAX_OFFSET : ℤ := 93599

/-- `time::OffsetDateTime`: a local date and time, and how far it is ahead of UTC. -/
structure OffsetDateTime where
  localNanos : ℤ
  offset : ℤ
  inYears : MIN_NANOS ≤ localNanos ∧ localNanos ≤ MAX_NANOS
  inOffsets : -MAX_OFFSET ≤ offset ∧ offset ≤ MAX_OFFSET

namespace OffsetDateTime

def unixTimestampNanos (t : OffsetDateTime) : ℤ := t.localNanos - t.offset * 10 ^ 9

/-- In UTC, where the years reach it. -/
def fromUnixTimestampNanos (nanos : ℤ) : Option OffsetDateTime :=
  if inYears : MIN_NANOS ≤ nanos ∧ nanos ≤ MAX_NANOS then
    some ⟨nanos, 0, inYears, by decide⟩
  else none

end OffsetDateTime

/-- A time as the FILETIME the wire carries. -/
def toFiletime (t : OffsetDateTime) : Int64 :=
  -- the quotient of `i128` is rounded towards zero
  Int64.ofIntClamp (t.unixTimestampNanos.tdiv 100 + FILETIME_EPOCH_TICKS)

/-- A FILETIME as a time. -/
def fromFiletime (ticks : Int64) : Option OffsetDateTime :=
  if ticks = 0 then none
  else OffsetDateTime.fromUnixTimestampNanos ((ticks.toInt - FILETIME_EPOCH_TICKS) * 100)

/-! ## Setting them -/

def SUBCOMMAND_SET_PATH_INFORMATION : UInt16 := 0x0006
def SET_BASIC_INFO : UInt16 := 0x0101

/-- The parameter block of a `TRANS2_SET_PATH_INFORMATION`. -/
def setPathParameters (level : UInt16) (path : Text) : Bytes := queryPathParameters level path

/-- The data block of an `SMB_SET_FILE_BASIC_INFO`, a field that is not named encoded as zero. -/
def BasicInfo.encode (i : BasicInfo) : Bytes :=
  u64le (i.creationTime.getD 0).toUInt64 ++ u64le (i.lastAccessTime.getD 0).toUInt64 ++
    u64le (i.lastWriteTime.getD 0).toUInt64 ++ u64le (i.changeTime.getD 0).toUInt64 ++
    u32le (i.attributes.getD 0) ++ u32le 0

/-- The request of `Tree::set_path`. -/
def setPath (path : Text) (block : BasicInfo) : Except InvalidPath TransactionRequest := do
  let path ← SharePath.new path
  return .trans2 SUBCOMMAND_SET_PATH_INFORMATION (setPathParameters SET_BASIC_INFO path.text)
    block.encode

/-- The request of `Tree::set_times`. -/
def setTimes (path : Text) (creation lastAccess lastWrite change : Option OffsetDateTime) :
    Except InvalidPath TransactionRequest :=
  setPath path
    { creationTime := creation.map toFiletime, lastAccessTime := lastAccess.map toFiletime
      lastWriteTime := lastWrite.map toFiletime, changeTime := change.map toFiletime }

/-! ## What a time is to be sent as -/

/-- The whole ticks from 1601, rounded down. -/
def OffsetDateTime.ticks (t : OffsetDateTime) : ℤ :=
  t.unixTimestampNanos / 100 + FILETIME_EPOCH_TICKS

/-- A field is zero for no time and no other, and for a time it is its ticks. -/
def HoldsTime (time : Option OffsetDateTime) (field : Int64) : Prop :=
  (field = 0 ↔ time = none) ∧ ∀ t, time = some t → field.toInt = t.ticks

/-- A time on a tick, or not before 1970, and not at the 1601 epoch. -/
def OffsetDateTime.OnWire (t : OffsetDateTime) : Prop :=
  (0 ≤ t.unixTimestampNanos ∨ 100 ∣ t.unixTimestampNanos) ∧
    t.unixTimestampNanos ≠ -(FILETIME_EPOCH_TICKS * 100)

/-- A data block whose four times are these ones. -/
def HoldsTimes (data : Bytes) (creation lastAccess lastWrite change : Option OffsetDateTime) :
    Prop :=
  ∃ c a w h : Int64, data = u64le c.toUInt64 ++ u64le a.toUInt64 ++ u64le w.toUInt64 ++
      u64le h.toUInt64 ++ u32le 0 ++ u32le 0 ∧
    HoldsTime creation c ∧ HoldsTime lastAccess a ∧ HoldsTime lastWrite w ∧ HoldsTime change h

/-- The FILETIMEs of the years a time reaches. -/
def InYears (ticks : Int64) : Prop :=
  MIN_NANOS ≤ (ticks.toInt - FILETIME_EPOCH_TICKS) * 100 ∧
    (ticks.toInt - FILETIME_EPOCH_TICKS) * 100 ≤ MAX_NANOS

/-- A FILETIME is reported as a time that is sent as it. -/
def Lossless (ticks : Int64) : Prop :=
  ticks ≠ 0 → ∃ t, fromFiletime ticks = some t ∧ toFiletime t = ticks

/-! ## Converting -/

/-- Rounding towards zero is rounding down, but for what is negative and not a multiple. -/
theorem tdiv_hundred (n : ℤ) :
    n.tdiv 100 = if 0 ≤ n ∨ 100 ∣ n then n / 100 else n / 100 + 1 := by
  rw [Int.tdiv_eq_ediv]
  split
  · exact Int.add_zero _
  · rfl

theorem toInt_toFiletime (t : OffsetDateTime) :
    (toFiletime t).toInt = t.unixTimestampNanos.tdiv 100 + FILETIME_EPOCH_TICKS := by
  obtain ⟨first, last⟩ := t.inYears
  obtain ⟨west, east⟩ := t.inOffsets
  have nanos : t.unixTimestampNanos = t.localNanos - t.offset * 10 ^ 9 := rfl
  unfold MIN_NANOS at first
  unfold MAX_NANOS at last
  unfold MAX_OFFSET at west east
  have low : Int64.minValue.toInt = -2 ^ 63 := rfl
  have high : Int64.maxValue.toInt = 2 ^ 63 - 1 := rfl
  have rounded := tdiv_hundred t.unixTimestampNanos
  -- the years lie well inside what a FILETIME counts, and the clamp keeps all of them
  rw [toFiletime, Int64.toInt_ofIntClamp]
  · rw [low, FILETIME_EPOCH_TICKS]
    split at rounded <;> omega
  · rw [high, FILETIME_EPOCH_TICKS]
    split at rounded <;> omega

theorem lossless_iff (ticks : Int64) : Lossless ticks ↔ ticks = 0 ∨ InYears ticks := by
  constructor
  · intro lossless
    by_cases zero : ticks = 0
    · exact Or.inl zero
    obtain ⟨t, reported, -⟩ := lossless zero
    rw [fromFiletime, if_neg zero, OffsetDateTime.fromUnixTimestampNanos] at reported
    split at reported
    · next inYears => exact Or.inr inYears
    · cases reported
  · rintro (zero | inYears) given
    · exact absurd zero given
    · refine ⟨⟨_, 0, inYears, by decide⟩, ?_, ?_⟩
      · rw [fromFiletime, if_neg given, OffsetDateTime.fromUnixTimestampNanos]
        exact dif_pos inYears
      · have whole := Int.mul_tdiv_cancel (ticks.toInt - FILETIME_EPOCH_TICKS)
          (by decide : 100 ≠ (0 : ℤ))
        rw [← Int64.toInt_inj, toInt_toFiletime, OffsetDateTime.unixTimestampNanos, Int.zero_mul,
          Int.sub_zero, whole, Int.sub_add_cancel]

theorem toFiletime_eq_ticks (t : OffsetDateTime) :
    (toFiletime t).toInt = t.ticks ↔ 0 ≤ t.unixTimestampNanos ∨ 100 ∣ t.unixTimestampNanos := by
  rw [toInt_toFiletime, OffsetDateTime.ticks, tdiv_hundred]
  split
  · next onTick => exact iff_of_true rfl onTick
  · next offTick => exact iff_of_false (by omega) offTick

theorem carries_iff (time : Option OffsetDateTime) :
    HoldsTime time ((time.map toFiletime).getD 0) ↔ ∀ t, time = some t → t.OnWire := by
  cases time with
  | none => exact iff_of_true ⟨iff_of_true rfl rfl, by rintro _ ⟨⟩⟩ (by rintro _ ⟨⟩)
  | some t =>
      have ticks := toFiletime_eq_ticks t
      have zero : toFiletime t = 0 ↔ (toFiletime t).toInt = 0 := (Int64.toInt_inj (y := 0)).symm
      have epoch : FILETIME_EPOCH_TICKS = 116444736000000000 := rfl
      have counted : t.ticks = t.unixTimestampNanos / 100 + FILETIME_EPOCH_TICKS := rfl
      constructor
      · rintro ⟨named, sent⟩ _ ⟨⟩
        have onTick := ticks.mp (sent t rfl)
        refine ⟨onTick, fun atEpoch => ?_⟩
        have none := named.mp (zero.mpr (by rw [ticks.mpr onTick]; omega))
        cases none
      · intro onWire
        obtain ⟨onTick, notEpoch⟩ := onWire t rfl
        refine ⟨iff_of_false (fun none => notEpoch ?_) (Option.some_ne_none t), ?_⟩
        · have none' := zero.mp none
          rw [ticks.mpr onTick] at none'
          omega
        · rintro _ ⟨⟩
          exact ticks.mpr onTick

theorem data_of_setTimes {path : Text}
    {creation lastAccess lastWrite change : Option OffsetDateTime} {request : TransactionRequest}
    (sent : setTimes path creation lastAccess lastWrite change = .ok request) :
    request.data = BasicInfo.encode
      { creationTime := creation.map toFiletime, lastAccessTime := lastAccess.map toFiletime
        lastWriteTime := lastWrite.map toFiletime, changeTime := change.map toFiletime } := by
  unfold setTimes setPath at sent
  cases accepted : SharePath.new path with
  | error refusal =>
      rw [accepted] at sent
      cases sent
  | ok p =>
      rw [accepted] at sent
      cases sent
      rfl

/-- A field of a data block is the time it was written from. -/
theorem u64le_injective {x y : Int64} {s s' : Bytes}
    (same : u64le x.toUInt64 ++ s = u64le y.toUInt64 ++ s') : x = y ∧ s = s' := by
  obtain ⟨field, rest⟩ := List.append_inj same (by rw [length_u64le, length_u64le])
  have read := Reader.u64_append x.toUInt64 []
  rw [field, Reader.u64_append] at read
  have value : y.toUInt64 = x.toUInt64 := (Prod.mk.inj (Option.some.inj read)).1
  refine ⟨?_, rest⟩
  rw [← Int64.toInt64_toUInt64 x, ← value]
  exact Int64.toInt64_toUInt64 y

theorem carriesTimes_encode_iff {creation lastAccess lastWrite change : Option OffsetDateTime} :
    HoldsTimes (BasicInfo.encode
      { creationTime := creation.map toFiletime, lastAccessTime := lastAccess.map toFiletime
        lastWriteTime := lastWrite.map toFiletime, changeTime := change.map toFiletime })
      creation lastAccess lastWrite change ↔
    ∀ time ∈ [creation, lastAccess, lastWrite, change], ∀ t, time = some t → t.OnWire := by
  simp only [List.forall_mem_cons, ← carries_iff]
  constructor
  · rintro ⟨c, a, w, h, same, created, accessed, written, changed⟩
    simp only [BasicInfo.encode, List.append_assoc] at same
    obtain ⟨creation, same⟩ := u64le_injective same
    obtain ⟨lastAccess, same⟩ := u64le_injective same
    obtain ⟨lastWrite, same⟩ := u64le_injective same
    obtain ⟨change, -⟩ := u64le_injective same
    exact ⟨creation ▸ created, lastAccess ▸ accessed, lastWrite ▸ written, change ▸ changed,
      List.forall_mem_nil _⟩
  · rintro ⟨created, accessed, written, changed, -⟩
    exact ⟨_, _, _, _, rfl, created, accessed, written, changed⟩

/-- A time the condition leaves out is not carried, on any path that is taken. -/
theorem not_carried {t : OffsetDateTime} (off : ¬ t.OnWire) {path : Text} {p : SharePath}
    (accepted : SharePath.new path = .ok p) :
    ∃ request, setTimes path (some t) none none none = .ok request ∧
      ¬ HoldsTimes request.data (some t) none none none := by
  have sent : ∃ request, setTimes path (some t) none none none = .ok request := by
    rw [setTimes, setPath, accepted]
    exact ⟨_, rfl⟩
  obtain ⟨request, sent⟩ := sent
  refine ⟨request, sent, ?_⟩
  rw [data_of_setTimes sent, carriesTimes_encode_iff]
  exact fun onWire => off (onWire _ List.mem_cons_self t rfl)

/-- **The exact condition of lossless timestamps.** -/
theorem timestamps_carried_iff (ticks : Int64)
    (creation lastAccess lastWrite change : Option OffsetDateTime) :
    (Lossless ticks ↔ ticks = 0 ∨ InYears ticks) ∧
    ((∀ path request, setTimes path creation lastAccess lastWrite change = .ok request →
        HoldsTimes request.data creation lastAccess lastWrite change) ↔
      ∀ time ∈ [creation, lastAccess, lastWrite, change], ∀ t, time = some t → t.OnWire) := by
  refine ⟨lossless_iff ticks, ?_⟩
  rw [← carriesTimes_encode_iff]
  constructor
  · intro carried
    have sent : ∃ request, setTimes ['a'] creation lastAccess lastWrite change = .ok request :=
      ⟨_, rfl⟩
    obtain ⟨request, sent⟩ := sent
    rw [← data_of_setTimes sent]
    exact carried ['a'] request sent
  · intro carried path request sent
    rw [data_of_setTimes sent]
    exact carried

/-- The last FILETIME is not reported; the instants at the 1601 epoch and one nanosecond before
1970 are sent as no time and as the 1970 epoch. -/
theorem timestamps_lost :
    ¬ Lossless Int64.maxValue ∧
    (∃ t request, setTimes ['a'] (some t) none none none = .ok request ∧
      ¬ HoldsTimes request.data (some t) none none none ∧
      t.unixTimestampNanos = -(FILETIME_EPOCH_TICKS * 100)) ∧
    ∃ t request, setTimes ['a'] (some t) none none none = .ok request ∧
      ¬ HoldsTimes request.data (some t) none none none ∧ t.unixTimestampNanos = -1 := by
  have accepted : ∃ p, SharePath.new ['a'] = .ok p := ⟨_, rfl⟩
  obtain ⟨p, accepted⟩ := accepted
  refine ⟨?_, ?_, ?_⟩
  · rw [lossless_iff]
    unfold InYears
    decide
  · have off : ¬ OffsetDateTime.OnWire
        ⟨-(FILETIME_EPOCH_TICKS * 100), 0, by decide, by decide⟩ := fun onWire => onWire.2 rfl
    obtain ⟨request, sent, lost⟩ := not_carried off accepted
    exact ⟨_, request, sent, lost, rfl⟩
  · have off : ¬ OffsetDateTime.OnWire ⟨-1, 0, by decide, by decide⟩ :=
      fun onWire => absurd onWire.1 (by decide)
    obtain ⟨request, sent, lost⟩ := not_carried off accepted
    exact ⟨_, request, sent, lost, rfl⟩

end Smb1Client
