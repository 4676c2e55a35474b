import Smb1Client.Wire.Find
import Mathlib.Order.Interval.Set.Disjoint

/-!
What a walk over a directory page reads, and from which bytes.

The chain goes by `NextEntryOffset` while a name is as long as `FileNameLength` says, and
nothing compares the two: a name that is longer than its stride is read on into the entry
behind it.
-/

namespace Smb1Client

open LittleEndian

/-! ## The bytes of an entry -/

/-- The bytes one entry is read from: its fixed part and its name. -/
structure EntryRange where
  start : ℕ
  stop : ℕ
  deriving DecidableEq, Repr

/-- The fixed part of the entry at an offset. -/
def wordsAt (data : Bytes) (offset : ℕ) : Option EntryWords :=
  (readWords EntryWords.read ((data.drop offset).take MIN_ENTRY_LEN)).toOption

/-- The ranges of the chain from `offset` on, in at most `turns` turns. -/
def rangesFrom (data : Bytes) : ℕ → ℕ → List EntryRange
  | 0, _ => []
  | turns + 1, offset =>
      if offset < data.length then
        match wordsAt data offset with
        | none => []
        | some words =>
            ⟨offset, offset + (MIN_ENTRY_LEN + words.fileNameLength.toNat)⟩ ::
              if words.nextEntryOffset.toNat = 0 then []
              else rangesFrom data turns (offset + words.nextEntryOffset.toNat)
      else []

def ranges (data : Bytes) : List EntryRange := rangesFrom data data.length 0

/-- Every entry of the chain with another behind it declares a name that ends by where that
one starts. -/
def NamesFitFrom (data : Bytes) : ℕ → ℕ → Prop
  | 0, _ => True
  | turns + 1, offset =>
      ∀ words, wordsAt data offset = some words → words.nextEntryOffset.toNat ≠ 0 →
        offset + words.nextEntryOffset.toNat < data.length →
        MIN_ENTRY_LEN + words.fileNameLength.toNat ≤ words.nextEntryOffset.toNat ∧
          NamesFitFrom data turns (offset + words.nextEntryOffset.toNat)

def NamesFit (data : Bytes) : Prop := NamesFitFrom data data.length 0

/-- An entry is read from a range of the block, and from nothing else. -/
def ReadFrom (data : Bytes) (range : EntryRange) (entry : DirectoryEntry) : Prop :=
  range.start + MIN_ENTRY_LEN ≤ range.stop ∧ range.stop ≤ data.length ∧
    ∃ position next,
      readEntry position ((data.drop range.start).take (range.stop - range.start)) =
        .ok (entry, next)

/-- The entries of a page, each read from its own bytes. -/
structure ParsedExactly (data : Bytes) (searchCount : UInt16) (entries : List DirectoryEntry) :
    Prop where
  counted : entries.length = searchCount.toNat
  readFrom : List.Forall₂ (ReadFrom data) (ranges data) entries
  apart : (ranges data).Pairwise fun first second => first.start + MIN_ENTRY_LEN ≤ second.start
  disjoint : (ranges data).Pairwise fun first second =>
    Disjoint (Set.Ico first.start first.stop) (Set.Ico second.start second.stop)

/-! ## Reading one entry -/

/-- An entry is read from its fixed part and its name. -/
theorem readEntry_ok {position next : ℕ} {entry : Bytes} {e : DirectoryEntry}
    (read : readEntry position entry = .ok (e, next)) :
    ∃ words, readWords EntryWords.read (entry.take MIN_ENTRY_LEN) = .ok words ∧
      next = words.nextEntryOffset.toNat ∧
      MIN_ENTRY_LEN + words.fileNameLength.toNat ≤ entry.length ∧
      readEntry position (entry.take (MIN_ENTRY_LEN + words.fileNameLength.toNat)) =
        .ok (e, next) := by
  unfold readEntry at read
  by_cases short : entry.length < MIN_ENTRY_LEN
  · rw [if_pos short] at read
    cases read
  rw [if_neg short] at read
  cases fixed : readWords EntryWords.read (entry.take MIN_ENTRY_LEN) with
  | error error =>
      rw [fixed] at read
      cases read
  | ok words =>
  rw [fixed] at read
  simp only [bind, Except.bind, pure, Except.pure] at read
  by_cases cut : entry.length < MIN_ENTRY_LEN + words.fileNameLength.toNat
  · rw [if_pos cut] at read
    cases read
  have next_eq : next = words.nextEntryOffset.toNat := by
    rw [if_neg cut] at read
    split at read
    · cases read
    split at read
    · cases read
    · cases read
      rfl
  refine ⟨words, rfl, next_eq, not_lt.mp cut, ?_⟩
  have length : (entry.take (MIN_ENTRY_LEN + words.fileNameLength.toNat)).length =
      MIN_ENTRY_LEN + words.fileNameLength.toNat := List.length_take_of_le (not_lt.mp cut)
  unfold readEntry
  rw [length, if_neg (by omega), List.take_take, Nat.min_eq_left (Nat.le_add_right _ _), fixed]
  simp only [bind, Except.bind, pure, Except.pure]
  rw [if_neg (lt_irrefl _), List.take_take, Nat.min_self]
  rw [if_neg cut] at read
  exact read

/-! ## Walking the chain -/

/-- A turn of the walk that comes to an end without an error. -/
theorem walkFrom_cases {data : Bytes} {turns offset : ℕ} {entries result : List DirectoryEntry}
    (walked : walkFrom data (turns + 1) offset entries = .ok result)
    (within : offset < data.length) :
    ∃ words e, wordsAt data offset = some words ∧
      ReadFrom data ⟨offset, offset + (MIN_ENTRY_LEN + words.fileNameLength.toNat)⟩ e ∧
      (words.nextEntryOffset.toNat = 0 ∧ result = entries ++ [e] ∨
        words.nextEntryOffset.toNat ≠ 0 ∧ MIN_ENTRY_LEN ≤ words.nextEntryOffset.toNat ∧
          walkFrom data turns (offset + words.nextEntryOffset.toNat) (entries ++ [e]) =
            .ok result) := by
  rw [walkFrom, if_pos within] at walked
  cases read : readEntry entries.length (data.drop offset) with
  | error error =>
      rw [read] at walked
      cases walked
  | ok entry =>
  obtain ⟨e, next⟩ := entry
  rw [read] at walked
  simp only [bind, Except.bind] at walked
  obtain ⟨words, fixed, rfl, inside, only⟩ := readEntry_ok read
  have room := List.length_drop (l := data) (i := offset)
  refine ⟨words, e, ?_, ⟨Nat.add_le_add_left (Nat.le_add_right _ _) _, by dsimp only; omega,
    entries.length, words.nextEntryOffset.toNat, ?_⟩, ?_⟩
  · rw [wordsAt, fixed]
    rfl
  · rw [Nat.add_sub_cancel_left]
    exact only
  · by_cases last : words.nextEntryOffset.toNat = 0
    · rw [if_pos last] at walked
      cases walked
      exact Or.inl ⟨last, rfl⟩
    · rw [if_neg last] at walked
      by_cases short : words.nextEntryOffset.toNat < MIN_ENTRY_LEN
      · rw [if_pos short] at walked
        cases walked
      · rw [if_neg short] at walked
        exact Or.inr ⟨last, not_lt.mp short, walked⟩

theorem start_of_rangesFrom {data : Bytes} {turns offset : ℕ} {first : EntryRange}
    (head : (rangesFrom data turns offset).head? = some first) :
    first.start = offset ∧ offset < data.length := by
  cases turns with
  | zero => cases head
  | succ turns =>
      rw [rangesFrom] at head
      split at head
      · next within =>
          split at head
          · cases head
          · cases head
            exact ⟨rfl, within⟩
      · cases head

theorem rangesFrom_past {data : Bytes} {turns offset : ℕ} (past : data.length ≤ offset) :
    rangesFrom data turns offset = [] := by
  cases turns with
  | zero => rfl
  | succ turns => rw [rangesFrom, if_neg (not_lt.mpr past)]

theorem namesFitFrom_past {data : Bytes} {turns offset : ℕ} (past : data.length ≤ offset) :
    NamesFitFrom data turns offset := by
  cases turns with
  | zero => trivial
  | succ turns => exact fun words _ _ inside => absurd inside (by omega)

/-- A walk that goes on inside the block has a range there. -/
theorem head?_rangesFrom {data : Bytes} {turns offset : ℕ} {entries result : List DirectoryEntry}
    (enough : data.length ≤ offset + turns) (within : offset < data.length)
    (walked : walkFrom data turns offset entries = .ok result) :
    ∃ first, (rangesFrom data turns offset).head? = some first := by
  cases turns with
  | zero => omega
  | succ turns =>
      obtain ⟨words, e, fixed, -⟩ := walkFrom_cases walked within
      rw [rangesFrom, if_pos within, fixed]
      exact ⟨_, rfl⟩

/-- What a walk has read: its entries in order, each from its own range, the ranges a fixed
part apart. -/
theorem walkFrom_ranges {data : Bytes} {turns offset : ℕ} {entries result : List DirectoryEntry}
    (walked : walkFrom data turns offset entries = .ok result) :
    ∃ read, result = entries ++ read ∧
      List.Forall₂ (ReadFrom data) (rangesFrom data turns offset) read ∧
      (∀ range ∈ rangesFrom data turns offset, offset ≤ range.start) ∧
      (rangesFrom data turns offset).Pairwise
        (fun first second => first.start + MIN_ENTRY_LEN ≤ second.start) := by
  induction turns generalizing offset entries with
  | zero =>
      cases walked
      exact ⟨[], (List.append_nil _).symm, .nil, by rintro _ ⟨⟩, .nil⟩
  | succ turns ih =>
      by_cases within : offset < data.length
      case neg =>
        rw [walkFrom, if_neg within] at walked
        cases walked
        rw [rangesFrom_past (not_lt.mp within)]
        exact ⟨[], (List.append_nil _).symm, .nil, by rintro _ ⟨⟩, .nil⟩
      obtain ⟨words, e, fixed, readFrom, ended⟩ := walkFrom_cases walked within
      rw [rangesFrom, if_pos within, fixed]
      dsimp only
      rcases ended with ⟨last, rfl⟩ | ⟨more, apart, walked⟩
      · rw [if_pos last]
        exact ⟨[e], rfl, .cons readFrom .nil, by simp, List.pairwise_singleton _ _⟩
      · obtain ⟨read, rfl, later, behind, pairwise⟩ := ih walked
        rw [if_neg more]
        refine ⟨e :: read, by rw [List.append_assoc, List.singleton_append],
          .cons readFrom later, ?_, List.pairwise_cons.mpr ⟨fun second member => ?_, pairwise⟩⟩
        · rintro range (_ | ⟨_, member⟩)
          · exact le_rfl
          · exact (Nat.le_add_right _ _).trans (behind range member)
        · exact (Nat.add_le_add_left apart offset).trans (behind second member)

/-- Names fit their strides when each range ends by where the next one starts. -/
theorem namesFitFrom_iff {data : Bytes} {turns offset : ℕ} {entries result : List DirectoryEntry}
    (enough : data.length ≤ offset + turns)
    (walked : walkFrom data turns offset entries = .ok result) :
    NamesFitFrom data turns offset ↔
      (rangesFrom data turns offset).IsChain fun first second => first.stop ≤ second.start := by
  induction turns generalizing offset entries with
  | zero => exact iff_of_true trivial .nil
  | succ turns ih =>
      by_cases within : offset < data.length
      case neg =>
        rw [rangesFrom_past (not_lt.mp within)]
        exact iff_of_true (namesFitFrom_past (not_lt.mp within)) .nil
      obtain ⟨words, e, fixed, -, ended⟩ := walkFrom_cases walked within
      have only : ∀ words', wordsAt data offset = some words' → words' = words := by
        intro words' fixed'
        exact Option.some.inj (fixed'.symm.trans fixed)
      rw [rangesFrom, if_pos within, fixed]
      dsimp only
      rcases ended with ⟨last, -⟩ | ⟨more, apart, walked⟩
      · rw [if_pos last]
        refine iff_of_true (fun words' fixed' more => ?_) (.singleton _)
        rw [only words' fixed'] at more
        exact absurd last more
      · have enough' : data.length ≤ offset + words.nextEntryOffset.toNat + turns := by
          unfold MIN_ENTRY_LEN at apart
          omega
        rw [if_neg more, List.isChain_cons, ← ih enough' walked]
        by_cases behind : offset + words.nextEntryOffset.toNat < data.length
        case neg =>
          rw [rangesFrom_past (not_lt.mp behind)]
          refine iff_of_true (fun words' fixed' _ behind' => ?_)
            ⟨by rintro _ ⟨⟩, namesFitFrom_past (not_lt.mp behind)⟩
          rw [only words' fixed'] at behind'
          exact absurd behind' behind
        obtain ⟨second, head⟩ := head?_rangesFrom enough' behind walked
        have start := (start_of_rangesFrom head).1
        constructor
        · intro fit
          obtain ⟨ends, later⟩ := fit words fixed more behind
          refine ⟨fun second' head' => ?_, later⟩
          rw [(start_of_rangesFrom head').1]
          exact Nat.add_le_add_left ends offset
        · rintro ⟨ends, later⟩ words' fixed' _ _
          cases only words' fixed'
          have ends := ends second head
          rw [start] at ends
          exact ⟨Nat.le_of_add_le_add_left ends, later⟩

/-- No walk takes more turns than the block has bytes. -/
theorem walkFrom_data_length (data : Bytes) (entries : List DirectoryEntry) {turns : ℕ}
    (more : data.length ≤ turns) :
    walkFrom data turns 0 entries = walkFrom data data.length 0 entries := by
  induction turns, more using Nat.le_induction with
  | base => rfl
  | succ turns more ih => rw [walkFrom_succ (by omega), ih]

theorem walkEntries_ok {data : Bytes} {searchCount : UInt16} {entries : List DirectoryEntry}
    (walked : walkEntries data searchCount = .ok entries) :
    walkFrom data data.length 0 [] = .ok entries ∧ entries.length = searchCount.toNat := by
  unfold walkEntries at walked
  cases found : walkFrom data data.length 0 [] with
  | error error =>
      rw [found] at walked
      cases walked
  | ok entries' =>
  rw [found] at walked
  simp only [bind, Except.bind] at walked
  by_cases mismatch : entries'.length ≠ searchCount.toNat
  · rw [if_pos mismatch] at walked
    cases walked
  · rw [if_neg mismatch] at walked
    cases walked
    exact ⟨rfl, not_not.mp mismatch⟩

theorem exists_readFrom {data : Bytes} {found : List EntryRange} {entries : List DirectoryEntry}
    (readFrom : List.Forall₂ (ReadFrom data) found entries) {range : EntryRange}
    (member : range ∈ found) : ∃ e, ReadFrom data range e := by
  induction readFrom with
  | nil => cases member
  | @cons first e rest entries read later ih =>
      rcases List.mem_cons.mp member with rfl | behind
      · exact ⟨e, read⟩
      · exact ih behind

/-- Ranges that start a fixed part apart share no byte when the first ends by where the second
starts. -/
theorem disjoint_iff {data : Bytes} {first second : EntryRange} {e e' : DirectoryEntry}
    (readFrom : ReadFrom data first e) (readFrom' : ReadFrom data second e')
    (apart : first.start + MIN_ENTRY_LEN ≤ second.start) :
    Disjoint (Set.Ico first.start first.stop) (Set.Ico second.start second.stop) ↔
      first.stop ≤ second.start := by
  have long := readFrom.1
  have long' := readFrom'.1
  have positive : 0 < MIN_ENTRY_LEN := by decide
  rw [Set.Ico_disjoint_Ico, min_le_iff, le_max_iff, le_max_iff]
  omega

theorem disjoint_iff_isChain {data : Bytes} {found : List EntryRange}
    {entries : List DirectoryEntry} (readFrom : List.Forall₂ (ReadFrom data) found entries)
    (apart : found.Pairwise fun first second => first.start + MIN_ENTRY_LEN ≤ second.start) :
    (found.Pairwise fun first second =>
      Disjoint (Set.Ico first.start first.stop) (Set.Ico second.start second.stop)) ↔
    found.IsChain fun first second => first.stop ≤ second.start := by
  induction readFrom with
  | nil => exact iff_of_true .nil .nil
  | @cons first e rest entries read later ih =>
      obtain ⟨ahead, apart⟩ := List.pairwise_cons.mp apart
      rw [List.pairwise_cons, List.isChain_cons, ih apart]
      refine and_congr_left fun _ => ⟨fun disjoint second head => ?_, fun ends second member => ?_⟩
      · have member := List.mem_of_mem_head? head
        obtain ⟨e', read'⟩ := exists_readFrom later member
        exact (disjoint_iff read read' (ahead second member)).mp (disjoint second member)
      · obtain ⟨e', read'⟩ := exists_readFrom later member
        refine (disjoint_iff read read' (ahead second member)).mpr ?_
        cases later with
        | nil => cases member
        | @cons next _ rest _ _ _ =>
            have ended := ends next rfl
            rcases List.mem_cons.mp member with rfl | behind
            · exact ended
            · have further := (List.pairwise_cons.mp apart).1 second behind
              omega

/-! ## Pages -/

/-- A walk that comes to an end has parsed exactly when every name fits its stride. -/
theorem parsedExactly_iff {data : Bytes} {searchCount : UInt16} {entries : List DirectoryEntry}
    (walked : walkEntries data searchCount = .ok entries) :
    ParsedExactly data searchCount entries ↔ NamesFit data := by
  obtain ⟨found, counted⟩ := walkEntries_ok walked
  obtain ⟨read, rfl, readFrom, -, apart⟩ := walkFrom_ranges found
  rw [NamesFit, namesFitFrom_iff (Nat.zero_add _).ge found, ← disjoint_iff_isChain readFrom apart]
  exact ⟨fun parsed => parsed.disjoint, fun disjoint => ⟨counted, readFrom, apart, disjoint⟩⟩

/-! ## Laying out a page -/

def EntryWords.write (w : EntryWords) : Bytes :=
  u32le w.nextEntryOffset ++ (u32le w.fileIndex ++ (u64le w.creationTime.toUInt64 ++
    (u64le w.lastAccessTime.toUInt64 ++ (u64le w.lastWriteTime.toUInt64 ++
      (u64le w.changeTime.toUInt64 ++ (u64le w.endOfFile ++ (u64le w.allocationSize ++
        (u32le w.extFileAttributes ++ (u32le w.fileNameLength ++ (u32le w.eaSize ++
          (u8le w.shortNameLength ++ (u8le w.reserved ++ w.shortName))))))))))))

/-- An entry as a server lays it out: its short name in a field of 24 bytes, its name, and any
bytes up to the next entry. -/
structure LaidEntry where
  entry : DirectoryEntry
  shortNameLength : UInt8
  reserved : UInt8
  shortName : Bytes
  padding : Bytes
  shortWhole : shortName.length = 24
  shortNamed : fromUtf16 "ShortName" 0 (shortName.take (min shortNameLength.toNat 24)) =
    .ok entry.shortName
  /-- `NextEntryOffset` is a field of 32 bits. -/
  fits : MIN_ENTRY_LEN + (utf16Bytes entry.fileName).length + padding.length < 2 ^ 32

namespace LaidEntry

/-- From the start of the entry to the start of what is behind it. -/
def stride (l : LaidEntry) : ℕ :=
  MIN_ENTRY_LEN + (utf16Bytes l.entry.fileName).length + l.padding.length

def words (l : LaidEntry) (next : ℕ) : EntryWords where
  nextEntryOffset := UInt32.ofNat next
  fileIndex := l.entry.fileIndex
  creationTime := l.entry.creationTime
  lastAccessTime := l.entry.lastAccessTime
  lastWriteTime := l.entry.lastWriteTime
  changeTime := l.entry.changeTime
  endOfFile := l.entry.endOfFile
  allocationSize := l.entry.allocationSize
  extFileAttributes := l.entry.extFileAttributes
  fileNameLength := UInt32.ofNat (utf16Bytes l.entry.fileName).length
  eaSize := l.entry.eaSize
  shortNameLength := l.shortNameLength
  reserved := l.reserved
  shortName := l.shortName

def block (l : LaidEntry) (next : ℕ) : Bytes :=
  (l.words next).write ++ (utf16Bytes l.entry.fileName ++ l.padding)

end LaidEntry

/-- Entries in order, the last with a `NextEntryOffset` of zero or to the end of the block. -/
def layout (toEnd : Bool) : List LaidEntry → Bytes
  | [] => []
  | [last] => last.block (if toEnd then last.stride else 0)
  | first :: second :: rest => first.block first.stride ++ layout toEnd (second :: rest)

/-! ## Walking a layout -/

theorem EntryWords.length_write {w : EntryWords} (whole : w.shortName.length = 24) :
    w.write.length = MIN_ENTRY_LEN := by
  simp [write, whole, MIN_ENTRY_LEN]

theorem EntryWords.readWords_write {w : EntryWords} (whole : w.shortName.length = 24) :
    readWords read w.write = .ok w := by
  have last : ∀ (f : Bytes → Reader EntryWords) s,
      (Reader.take 24 >>= f) (w.shortName ++ s) = f w.shortName s :=
    fun f s => whole ▸ Reader.take_bind f s w.shortName
  have all : read (w.write ++ []) = some (w, []) := by
    rw [read, write]
    simp only [List.append_assoc]
    rw [Reader.u32_bind, Reader.u32_bind, Reader.u64_bind, Reader.u64_bind, Reader.u64_bind,
      Reader.u64_bind, Reader.u64_bind, Reader.u64_bind, Reader.u32_bind, Reader.u32_bind,
      Reader.u32_bind, Reader.u8_bind, Reader.u8_bind, last, Reader.pure_apply]
    simp only [Int64.toInt64_toUInt64]
  rw [List.append_nil] at all
  rw [readWords, all]

theorem fromUtf16_ok {field : String} {position : ℕ} {bytes : Bytes} {text : Text}
    (decoded : fromUtf16 field position bytes = .ok text) (position' : ℕ) :
    fromUtf16 field position' bytes = .ok text := by
  unfold fromUtf16 at decoded ⊢
  split at decoded
  · cases decoded
  next even =>
  rw [if_neg even]
  split at decoded
  · exact decoded
  · cases decoded

namespace LaidEntry

variable (l : LaidEntry)

theorem stride_pos : 0 < l.stride := by
  unfold stride MIN_ENTRY_LEN
  omega

theorem length_block (next : ℕ) : (l.block next).length = l.stride := by
  have fixed : (l.words next).write.length = MIN_ENTRY_LEN := EntryWords.length_write l.shortWhole
  rw [block, List.length_append, List.length_append, fixed, stride]
  omega

/-- An entry is read from where it was laid out. -/
theorem readEntry_block {next : ℕ} (small : next < 2 ^ 32) (position : ℕ) (rest : Bytes) :
    readEntry position (l.block next ++ rest) = .ok (l.entry, next) := by
  have fits := l.fits
  have fixed : (l.words next).write.length = MIN_ENTRY_LEN := EntryWords.length_write l.shortWhole
  have nextField : (l.words next).nextEntryOffset.toNat = next := UInt32.toNat_ofNat_of_lt' small
  have nameField : (l.words next).fileNameLength.toNat = (utf16Bytes l.entry.fileName).length :=
    UInt32.toNat_ofNat_of_lt' (by show _ < 2 ^ 32; omega)
  have head : (l.block next ++ rest).take MIN_ENTRY_LEN = (l.words next).write := by
    rw [block, List.append_assoc, ← fixed, List.take_left]
  have name : ((l.block next ++ rest).take
      (MIN_ENTRY_LEN + (utf16Bytes l.entry.fileName).length)).drop MIN_ENTRY_LEN =
        utf16Bytes l.entry.fileName := by
    rw [block, List.append_assoc, ← fixed, List.take_length_add_append, List.drop_left,
      List.append_assoc, List.take_left]
  have length : (l.block next ++ rest).length = l.stride + rest.length := by
    rw [List.length_append, l.length_block]
  unfold readEntry
  rw [length, if_neg (by unfold stride; omega), head, EntryWords.readWords_write l.shortWhole]
  simp only [bind, Except.bind]
  rw [nameField, if_neg (by unfold stride; omega), name, fromUtf16_utf16Bytes]
  have short : fromUtf16 "ShortName" position ((l.words next).shortName.take
      (min (l.words next).shortNameLength.toNat (l.words next).shortName.length)) =
        .ok l.entry.shortName := by
    have whole : (l.words next).shortName.length = 24 := l.shortWhole
    rw [whole]
    exact fromUtf16_ok l.shortNamed position
  rw [short, nextField]
  rfl

end LaidEntry

theorem walkFrom_past {data : Bytes} {turns offset : ℕ} {entries : List DirectoryEntry}
    (past : data.length ≤ offset) : walkFrom data turns offset entries = .ok entries := by
  cases turns with
  | zero => rfl
  | succ turns => rw [walkFrom, if_neg (not_lt.mpr past)]

/-- One turn over an entry that was laid out. -/
theorem walkFrom_block (l : LaidEntry) {next : ℕ} (small : next < 2 ^ 32) (front rest : Bytes)
    (turns : ℕ) (entries : List DirectoryEntry) :
    walkFrom (front ++ (l.block next ++ rest)) (turns + 1) front.length entries =
      if next = 0 then .ok (entries ++ [l.entry])
      else if next < MIN_ENTRY_LEN then
        .error (.entryOffsetTooSmall front.length next MIN_ENTRY_LEN)
      else walkFrom (front ++ (l.block next ++ rest)) turns (front.length + next)
        (entries ++ [l.entry]) := by
  have long := l.length_block next
  rw [walkFrom, if_pos, List.drop_left, l.readEntry_block small]
  · rfl
  · rw [List.length_append, List.length_append, long]
    have positive : 0 < l.stride := l.stride_pos
    omega

/-- A turn over an entry with its stride goes on behind it. -/
theorem walkFrom_stride (l : LaidEntry) (front rest : Bytes) (turns : ℕ)
    (entries : List DirectoryEntry) :
    walkFrom (front ++ (l.block l.stride ++ rest)) (turns + 1) front.length entries =
      walkFrom ((front ++ l.block l.stride) ++ rest) turns (front ++ l.block l.stride).length
        (entries ++ [l.entry]) := by
  have positive := l.stride_pos
  have long : ¬ l.stride < MIN_ENTRY_LEN := by
    unfold LaidEntry.stride
    omega
  have small : l.stride < 2 ^ 32 := l.fits
  rw [walkFrom_block l small, if_neg positive.ne', if_neg long, List.length_append,
    l.length_block, List.append_assoc]

/-- A walk over a layout reads its entries in order. -/
theorem walkFrom_layout (toEnd : Bool) (laid : List LaidEntry) {front : Bytes} {turns : ℕ}
    (enough : laid.length ≤ turns) (entries : List DirectoryEntry) :
    walkFrom (front ++ layout toEnd laid) turns front.length entries =
      .ok (entries ++ laid.map (·.entry)) := by
  fun_induction layout toEnd laid generalizing front turns entries with
  | case1 => rw [walkFrom_past (by rw [List.append_nil]), List.map_nil, List.append_nil]
  | case2 last =>
      obtain ⟨turns, rfl⟩ := Nat.exists_eq_succ_of_ne_zero (Nat.pos_iff_ne_zero.mp enough)
      cases toEnd with
      | false =>
          have step := @walkFrom_block last 0 (by decide) front [] turns entries
          rw [List.append_nil] at step
          exact step.trans (if_pos rfl)
      | true =>
          have step := walkFrom_stride last front [] turns entries
          rw [List.append_nil, List.append_nil] at step
          exact step.trans (walkFrom_past le_rfl)
  | case3 first second rest ih =>
      obtain ⟨turns, rfl⟩ := Nat.exists_eq_succ_of_ne_zero
        (Nat.pos_iff_ne_zero.mp (lt_of_lt_of_le (Nat.succ_pos _) enough))
      have behind : (second :: rest).length ≤ turns := Nat.le_of_succ_le_succ enough
      rw [walkFrom_stride, ih behind, List.append_assoc]
      rfl

theorem length_le_length_layout (toEnd : Bool) (laid : List LaidEntry) :
    laid.length ≤ (layout toEnd laid).length := by
  fun_induction layout toEnd laid with
  | case1 => exact le_rfl
  | case2 last =>
      rw [last.length_block]
      exact last.stride_pos
  | case3 first second rest ih =>
      have positive := first.stride_pos
      rw [List.length_append, first.length_block, List.length_cons]
      omega

theorem walkEntries_layout (toEnd : Bool) {laid : List LaidEntry} (few : laid.length ≤ 65535) :
    walkEntries (layout toEnd laid) (UInt16.ofNat laid.length) = .ok (laid.map (·.entry)) := by
  have walked := @walkFrom_layout toEnd laid [] _ (length_le_length_layout toEnd laid) []
  have counted : (laid.map (·.entry)).length = (UInt16.ofNat laid.length).toNat := by
    rw [List.length_map]
    exact (UInt16.toNat_ofNat_of_lt' (Nat.lt_succ_of_le few)).symm
  rw [walkEntries]
  rw [List.nil_append, List.nil_append, List.length_nil] at walked
  rw [walked]
  simp only [bind, Except.bind]
  rw [if_neg (not_not.mpr counted)]

/-- **The exact condition of exactly parsed pages.** -/
theorem pages_parsed_exactly_iff (data : Bytes) (searchCount : UInt16) :
    (∀ entries, walkEntries data searchCount = .ok entries →
      (ParsedExactly data searchCount entries ↔ NamesFit data)) ∧
    (∀ turns, data.length ≤ turns →
      walkFrom data turns 0 [] = walkFrom data data.length 0 []) ∧
    ∀ toEnd laid, laid.length ≤ 65535 →
      walkEntries (layout toEnd laid) (UInt16.ofNat laid.length) = .ok (laid.map (·.entry)) :=
  ⟨fun _ walked => parsedExactly_iff walked, fun _ more => walkFrom_data_length data [] more,
    fun toEnd _ few => walkEntries_layout toEnd few⟩

/-- A fixed part with nothing in it but its lengths. -/
def EntryWords.bare (next nameLength : UInt32) : EntryWords :=
  ⟨next, 0, 0, 0, 0, 0, 0, 0, 0, nameLength, 0, 0, 0, .replicate 24 0⟩

/-- A first name longer than its stride does not fit. -/
theorem not_namesFit {data : Bytes} {words : EntryWords} (fixed : wordsAt data 0 = some words)
    (more : words.nextEntryOffset.toNat ≠ 0)
    (behind : 0 + words.nextEntryOffset.toNat < data.length)
    (long : words.nextEntryOffset.toNat < MIN_ENTRY_LEN + words.fileNameLength.toNat) :
    ¬ NamesFit data := by
  obtain ⟨turns, length⟩ := Nat.exists_eq_succ_of_ne_zero (Nat.ne_zero_of_lt behind)
  rw [NamesFit, length]
  exact fun fit => absurd (fit words fixed more behind).1 (not_le.mpr long)

/-- A block of two entries, the first with a name of 96 bytes over a stride of 94. -/
def overlappingNames : Bytes :=
  (EntryWords.bare 94 96).write ++ ((EntryWords.bare 0 2).write ++ [0x61, 0x00])

/-- The name of the second entry is read in both. -/
theorem names_read_twice :
    ∃ entries, walkEntries overlappingNames 2 = .ok entries ∧
      ¬ ParsedExactly overlappingNames 2 entries ∧
      ∀ e ∈ entries, 'a' ∈ e.fileName := by
  have walked : ∃ entries, walkEntries overlappingNames 2 = .ok entries ∧
      ∀ e ∈ entries, 'a' ∈ e.fileName := by
    have both : ((walkEntries overlappingNames 2).toOption.any fun entries =>
        entries.all fun e => 'a' ∈ e.fileName) = true := by decide +kernel
    cases walked : walkEntries overlappingNames 2 with
    | error error =>
        rw [walked] at both
        cases both
    | ok entries =>
        rw [walked] at both
        refine ⟨entries, rfl, fun e member => ?_⟩
        exact decide_eq_true_eq.mp (List.all_eq_true.mp both e member)
  obtain ⟨entries, walked, both⟩ := walked
  refine ⟨entries, walked, ?_, both⟩
  rw [parsedExactly_iff walked]
  have first : wordsAt overlappingNames 0 = some (.bare 94 96) := by decide +kernel
  exact not_namesFit first (by decide) (by decide +kernel) (by decide)

end Smb1Client
