import Smb1Client.Lib.RangeList

/-!
The coverage map of `connection/reassembly.rs`, shared by transaction reassembly
and by the read fill loop.

The functions on plain range lists follow the source statement by statement;
`Coverage` carries the normal form of its ranges as a field, so a map whose
ranges overlap or touch cannot be built. Each operation has one specification
lemma, in terms of the set of naturals `Coverage.cells`.
-/

namespace Smb1Client

open RangeList

/-! ## The source's operations on a range list -/

/-- `Vec::partition_point` on the starts: how many leading ranges begin before `start`. -/
def partitionPoint (ranges : List (ℕ × ℕ)) (start : ℕ) : ℕ :=
  (ranges.takeWhile (fun r => r.1 < start)).length

/-- Merges the range at `index` with the one after it where the two touch. -/
def mergeRight (ranges : List (ℕ × ℕ)) (index : ℕ) : List (ℕ × ℕ) :=
  match ranges[index]?, ranges[index + 1]? with
  | some range, some next =>
      if range.2 = next.1 then (ranges.set index (range.1, next.2)).eraseIdx (index + 1)
      else ranges
  | _, _ => ranges

/-- Merges the range at `index` with the one before it where the two touch. -/
def mergeLeft (ranges : List (ℕ × ℕ)) (index : ℕ) : List (ℕ × ℕ) :=
  match index with
  | 0 => ranges
  | before + 1 =>
      match ranges[before]?, ranges[before + 1]? with
      | some previous, some range =>
          if previous.2 = range.1 then
            (ranges.set before (previous.1, range.2)).eraseIdx (before + 1)
          else ranges
      | _, _ => ranges

/-- Whether the range before `index` reaches past `start`. -/
def overlapsBefore (ranges : List (ℕ × ℕ)) (index start : ℕ) : Bool :=
  match index with
  | 0 => false
  | before + 1 => (ranges[before]?).any (fun r => start < r.2)

/-- Whether the range at `index` begins before `stop`. -/
def overlapsAfter (ranges : List (ℕ × ℕ)) (index stop : ℕ) : Bool :=
  (ranges[index]?).any (fun r => r.1 < stop)

/-- The ranges with `start .. start + length` recorded, or `none` where some of
it was already covered. -/
def coverRanges (ranges : List (ℕ × ℕ)) (start length : ℕ) : Option (List (ℕ × ℕ)) :=
  if length = 0 then some ranges
  else
    let stop := start + length
    let index := partitionPoint ranges start
    if overlapsBefore ranges index start then none
    else if overlapsAfter ranges index stop then none
    else some (mergeLeft (mergeRight (ranges.insertIdx index (start, stop)) index) index)

/-- Drops what lies past `total`: `retain`, then the clamp of the last range. -/
def truncateRanges (ranges : List (ℕ × ℕ)) (total : ℕ) : List (ℕ × ℕ) :=
  let kept := ranges.filter (fun r => r.1 < total)
  kept.modify (kept.length - 1) (fun r => (r.1, min r.2 total))

/-- The loop of `gap`, from the first position not yet known to be covered. -/
def gapFrom (position : ℕ) (total : ℕ) : List (ℕ × ℕ) → Option (ℕ × ℕ)
  | [] => if position < total then some (position, total) else none
  | r :: rest =>
      if position < r.1 then some (position, min r.1 total)
      else if total ≤ r.2 then none
      else gapFrom r.2 total rest

/-! ## The zipper the index arithmetic walks -/

variable {left right : List (ℕ × ℕ)} {x : ℕ × ℕ} {start length total : ℕ}

theorem partitionPoint_split (ranges : List (ℕ × ℕ)) (start : ℕ) :
    ∃ left right, ranges = left ++ right ∧ partitionPoint ranges start = left.length ∧
      (∀ r ∈ left, r.1 < start) ∧ ∀ r ∈ right.head?, start ≤ r.1 := by
  refine ⟨ranges.takeWhile (fun r => r.1 < start), ranges.dropWhile (fun r => r.1 < start),
    (List.takeWhile_append_dropWhile).symm, rfl, fun r member => ?_, fun r member => ?_⟩
  · simpa using List.mem_takeWhile_imp member
  · have headFails := List.head?_dropWhile_not (fun r : ℕ × ℕ => decide (r.1 < start)) ranges
    rw [Option.mem_def] at member
    rw [member] at headFails
    simpa using headFails

theorem insertIdx_split : (left ++ right).insertIdx left.length x = left ++ x :: right := by
  induction left with
  | nil => rfl
  | cons head tail ih => simpa [List.insertIdx_succ_cons] using ih

theorem modify_split (f : ℕ × ℕ → ℕ × ℕ) :
    (left ++ x :: right).modify left.length f = left ++ f x :: right := by
  induction left with
  | nil => rfl
  | cons head tail ih => simpa [List.modify_succ_cons] using ih

theorem mergeRight_cons {next : ℕ × ℕ} :
    mergeRight (left ++ x :: next :: right) left.length =
      if x.2 = next.1 then left ++ (x.1, next.2) :: right else left ++ x :: next :: right := by
  have here : (left ++ x :: next :: right)[left.length]? = some x := by simp
  have there : (left ++ x :: next :: right)[left.length + 1]? = some next := by
    rw [List.getElem?_append_right (by omega)]
    simp
  simp only [mergeRight, here, there]
  split
  · rw [List.set_append_right _ _ le_rfl, List.eraseIdx_append_of_length_le (by omega)]
    simp
  · rfl

theorem mergeRight_nil : mergeRight (left ++ [x]) left.length = left ++ [x] := by
  have there : (left ++ [x])[left.length + 1]? = none := by simp
  simp only [mergeRight, there]
  split <;> simp_all

theorem mergeLeft_concat {previous : ℕ × ℕ} :
    mergeLeft (left ++ previous :: x :: right) (left.length + 1) =
      if previous.2 = x.1 then left ++ (previous.1, x.2) :: right
      else left ++ previous :: x :: right := by
  have here : (left ++ previous :: x :: right)[left.length]? = some previous := by simp
  have there : (left ++ previous :: x :: right)[left.length + 1]? = some x := by
    rw [List.getElem?_append_right (by omega)]
    simp
  simp only [mergeLeft, here, there]
  split
  · rw [List.set_append_right _ _ le_rfl, List.eraseIdx_append_of_length_le (by omega)]
    simp
  · rfl

theorem overlapsBefore_concat {previous : ℕ × ℕ} :
    overlapsBefore (left ++ previous :: right) (left.length + 1) start =
      decide (start < previous.2) := by
  simp [overlapsBefore]

theorem overlapsAfter_cons {stop : ℕ} :
    overlapsAfter (left ++ x :: right) left.length stop = decide (x.1 < stop) := by
  simp [overlapsAfter]

/-- Merging rightwards keeps the start, the cells and the normal form of what
lies from the inserted range on. -/
theorem mergeRight_spec (normal : Normal right) (proper : x.1 < x.2)
    (after : ∀ r ∈ right.head?, x.2 ≤ r.1) :
    ∃ y rest, mergeRight (left ++ x :: right) left.length = left ++ y :: rest ∧
      y.1 = x.1 ∧ Normal (y :: rest) ∧ cells (y :: rest) = Set.Ico x.1 x.2 ∪ cells right := by
  cases right with
  | nil =>
      exact ⟨x, [], mergeRight_nil, rfl, normal_cons.mpr ⟨proper, by simp, .nil⟩, cells_cons⟩
  | cons next rest =>
      obtain ⟨nextProper, gap, restNormal⟩ := normal_cons.mp normal
      have before : x.2 ≤ next.1 := after next rfl
      rw [mergeRight_cons]
      by_cases touching : x.2 = next.1
      · refine ⟨(x.1, next.2), rest, by rw [if_pos touching], rfl,
          normal_cons.mpr ⟨by dsimp only; omega, gap, restNormal⟩, ?_⟩
        rw [cells_cons, cells_cons, ← Set.union_assoc, touching,
          Set.Ico_union_Ico_eq_Ico (by omega) nextProper.le]
      · refine ⟨x, next :: rest, by rw [if_neg touching], rfl,
          normal_cons.mpr ⟨proper, fun q member => ?_, normal⟩, cells_cons⟩
        rcases List.mem_cons.mp member with rfl | inRest
        · omega
        · exact (before.trans_lt nextProper).trans (gap q inRest)

/-- Merging leftwards keeps the cells and restores the normal form. -/
theorem mergeLeft_spec {previous : ℕ × ℕ} (normalLeft : Normal (left ++ [previous]))
    (normalRight : Normal (x :: right)) (before : previous.2 ≤ x.1) :
    Normal (mergeLeft (left ++ previous :: x :: right) (left.length + 1)) ∧
      cells (mergeLeft (left ++ previous :: x :: right) (left.length + 1)) =
        cells (left ++ [previous]) ∪ cells (x :: right) := by
  obtain ⟨initNormal, lastNormal, initGap⟩ := normal_append.mp normalLeft
  have initGap : ∀ a ∈ left, a.2 < previous.1 := fun a member =>
    initGap a member previous (List.mem_singleton_self _)
  have previousProper : previous.1 < previous.2 := (normal_cons.mp lastNormal).1
  obtain ⟨proper, gap, restNormal⟩ := normal_cons.mp normalRight
  rw [mergeLeft_concat]
  by_cases touching : previous.2 = x.1
  · rw [if_pos touching]
    refine ⟨normal_append.mpr ⟨initNormal, normal_cons.mpr
      ⟨by dsimp only; omega, gap, restNormal⟩, fun a inInit b member => ?_⟩, ?_⟩
    · have := initGap a inInit
      rcases List.mem_cons.mp member with rfl | inRest
      · exact this
      · have := gap b inRest
        omega
    · have split : Set.Ico previous.1 x.2 = Set.Ico previous.1 previous.2 ∪ Set.Ico x.1 x.2 := by
        rw [← touching, Set.Ico_union_Ico_eq_Ico previousProper.le (touching ▸ proper.le)]
      simp only [cells_append, cells_cons, cells_nil, Set.union_empty, Set.union_assoc, split]
  · rw [if_neg touching]
    have joined : left ++ previous :: x :: right = (left ++ [previous]) ++ x :: right := by simp
    refine ⟨joined ▸ normal_append.mpr ⟨normalLeft, normalRight, fun a inLeft b member => ?_⟩,
      by rw [joined, cells_append]⟩
    have low : x.1 ≤ b.1 := by
      rcases List.mem_cons.mp member with rfl | inRest
      · exact le_rfl
      · exact (proper.trans (gap b inRest)).le
    rcases List.mem_append.mp inLeft with inInit | isLast
    · have := initGap a inInit
      omega
    · rw [List.mem_singleton] at isLast
      subst isLast
      omega

/-- What `cover` did to a range list: nothing where the range met what was there,
and otherwise exactly the range added. -/
theorem coverRanges_spec {ranges : List (ℕ × ℕ)} (normal : Normal ranges) (start length : ℕ) :
    match coverRanges ranges start length with
    | none => ∃ n ∈ Set.Ico start (start + length), n ∈ cells ranges
    | some rs => Normal rs ∧ cells rs = cells ranges ∪ Set.Ico start (start + length) ∧
        Disjoint (cells ranges) (Set.Ico start (start + length)) := by
  by_cases zero : length = 0
  · simp [coverRanges, zero, normal]
  obtain ⟨left, right, rfl, index, below, above⟩ := partitionPoint_split ranges start
  obtain ⟨leftNormal, rightNormal, gap⟩ := normal_append.mp normal
  simp only [coverRanges, if_neg zero, index]
  by_cases hitsLeft : overlapsBefore (left ++ right) left.length start = true
  · -- The last range that begins before `start` reaches past it.
    rw [if_pos hitsLeft]
    rcases List.eq_nil_or_concat left with rfl | ⟨init, previous, rfl⟩
    · simp [overlapsBefore] at hitsLeft
    · rw [List.length_concat, List.concat_append, overlapsBefore_concat,
        decide_eq_true_eq] at hitsLeft
      have low := below previous (by simp)
      exact ⟨start, ⟨le_rfl, by omega⟩, previous, by simp, low.le, hitsLeft⟩
  rw [if_neg hitsLeft]
  by_cases hitsRight : overlapsAfter (left ++ right) left.length (start + length) = true
  · -- The first range that begins at or past `start` begins before the end.
    rw [if_pos hitsRight]
    cases right with
    | nil => simp [overlapsAfter] at hitsRight
    | cons next rest =>
        rw [overlapsAfter_cons, decide_eq_true_eq] at hitsRight
        have low := above next rfl
        exact ⟨next.1, ⟨low, hitsRight⟩, next, by simp, le_rfl,
          (normal_cons.mp rightNormal).1⟩
  rw [if_neg hitsRight]
  have after : ∀ r ∈ right.head?, start + length ≤ r.1 := by
    intro r member
    cases right with
    | nil => cases member
    | cons next rest =>
        cases Option.some.inj member
        rw [overlapsAfter_cons, decide_eq_true_eq] at hitsRight
        omega
  obtain ⟨y, rest, merged, starts, mergedNormal, mergedCells⟩ :=
    @mergeRight_spec left right (start, start + length) rightNormal (by dsimp only; omega) after
  rw [insertIdx_split, merged]
  have later : ∀ n ∈ cells right, start + length ≤ n := by
    intro n member
    cases right with
    | nil => rw [cells_nil] at member; cases member
    | cons next rest => exact (after next rfl).trans (rightNormal.head_le member)
  have union : cells (y :: rest) = cells right ∪ Set.Ico start (start + length) := by
    rw [mergedCells, Set.union_comm]
  rcases List.eq_nil_or_concat left with rfl | ⟨init, previous, rfl⟩
  · refine ⟨mergedNormal, union, Set.disjoint_left.mpr fun n member inRange => ?_⟩
    have := later n member
    have := inRange.2
    omega
  · simp only [List.concat_eq_append] at *
    have joined : ∀ l, init ++ [previous] ++ l = init ++ previous :: l := by simp
    have before : previous.2 ≤ y.1 := by
      rw [List.length_append, List.length_singleton, joined, overlapsBefore_concat,
        decide_eq_true_eq] at hitsLeft
      omega
    obtain ⟨resultNormal, resultCells⟩ := mergeLeft_spec leftNormal mergedNormal before
    rw [joined, List.length_append, List.length_singleton]
    have split := @cells_append (init ++ [previous]) right
    refine ⟨resultNormal, by rw [resultCells, union, split, Set.union_assoc],
      Set.disjoint_left.mpr fun n member inRange => ?_⟩
    have ⟨low, high⟩ := inRange
    rw [cells_append] at member
    rcases member with inLeft | inRight
    · have := leftNormal.lt_last inLeft
      omega
    · have := later n inRight
      omega

/-- What `truncate` leaves: exactly the cells below `total`. -/
theorem truncateRanges_spec {ranges : List (ℕ × ℕ)} (normal : Normal ranges) (total : ℕ) :
    Normal (truncateRanges ranges total) ∧
      cells (truncateRanges ranges total) = cells ranges ∩ Set.Iio total := by
  have keptNormal : Normal (ranges.filter (fun r => r.1 < total)) :=
    ⟨fun r member => normal.nonempty r (List.mem_of_mem_filter member),
      normal.apart.sublist List.filter_sublist⟩
  have keptCells : cells ranges ∩ Set.Iio total =
      cells (ranges.filter (fun r => r.1 < total)) ∩ Set.Iio total := by
    ext n
    simp only [Set.mem_inter_iff, mem_cells, Set.mem_Iio, List.mem_filter, decide_eq_true_eq]
    constructor
    · rintro ⟨⟨r, member, low, high⟩, below⟩
      exact ⟨⟨r, ⟨member, by omega⟩, low, high⟩, below⟩
    · rintro ⟨⟨r, ⟨member, -⟩, low, high⟩, below⟩
      exact ⟨⟨r, member, low, high⟩, below⟩
  have keptBelow : ∀ r ∈ ranges.filter (fun r => r.1 < total), r.1 < total := by
    intro r member
    simpa using List.of_mem_filter member
  rw [keptCells, truncateRanges]
  generalize ranges.filter (fun r => r.1 < total) = kept at *
  rcases List.eq_nil_or_concat kept with rfl | ⟨init, last, rfl⟩
  · simp [Normal.nil]
  · simp only [List.concat_eq_append] at *
    obtain ⟨initNormal, lastNormal, gap⟩ := normal_append.mp keptNormal
    have clamped : (init ++ [last]).modify ((init ++ [last]).length - 1)
        (fun r => (r.1, min r.2 total)) = init ++ [(last.1, min last.2 total)] := by
      rw [List.length_append, List.length_singleton, Nat.add_sub_cancel]
      exact modify_split _
    have lastBelow := keptBelow last (by simp)
    have lastProper := (normal_cons.mp lastNormal).1
    rw [clamped]
    refine ⟨normal_append.mpr ⟨initNormal, normal_cons.mpr ⟨lt_min lastProper lastBelow,
      by simp, .nil⟩, fun a inInit b isLast => ?_⟩, ?_⟩
    · rw [List.mem_singleton] at isLast
      subst isLast
      exact gap a inInit last (List.mem_singleton_self _)
    · -- Only the last range can reach `total`.
      have initInside : cells init ∩ Set.Iio total = cells init := by
        rw [Set.inter_eq_left]
        rintro n ⟨r, member, -, high⟩
        have := gap r member last (List.mem_singleton_self _)
        rw [Set.mem_Iio]
        omega
      rw [cells_append, cells_append, cells_singleton, cells_singleton,
        Set.union_inter_distrib_right, initInside, Set.Ico_inter_Iio]

/-- What the loop of `gap` answers: nothing where all of `position .. total` is
covered, and otherwise its first maximal hole. -/
theorem gapFrom_spec {ranges : List (ℕ × ℕ)} (normal : Normal ranges) {position total : ℕ}
    (before : position < total) (reached : ∀ n ∈ cells ranges, position ≤ n) :
    match gapFrom position total ranges with
    | none => ∀ n, position ≤ n → n < total → n ∈ cells ranges
    | some hole => position ≤ hole.1 ∧ hole.1 < hole.2 ∧ hole.2 ≤ total ∧
        (∀ n, position ≤ n → n < hole.1 → n ∈ cells ranges) ∧
        (∀ n, hole.1 ≤ n → n < hole.2 → n ∉ cells ranges) ∧
        (hole.2 < total → hole.2 ∈ cells ranges) := by
  induction ranges generalizing position with
  | nil =>
      rw [gapFrom, if_pos before]
      exact ⟨le_rfl, before, le_rfl, fun n low high => absurd high (not_lt.mpr low),
        by simp, fun short => absurd short (lt_irrefl _)⟩
  | cons r rest ih =>
      obtain ⟨proper, -, restNormal⟩ := normal_cons.mp normal
      have start := reached r.1 normal.head_mem
      rw [gapFrom]
      by_cases hole : position < r.1
      · rw [if_pos hole]
        refine ⟨le_rfl, lt_min hole before, min_le_right _ _,
          fun n low high => absurd high (not_lt.mpr low), fun n _ high member => ?_,
          fun short => ?_⟩
        · have := normal.head_le member
          have := lt_min_iff.mp high
          omega
        · have : min r.1 total = r.1 := by omega
          dsimp only
          rw [this]
          exact normal.head_mem
      rw [if_neg hole]
      have covered : ∀ n, position ≤ n → n < r.2 → n ∈ cells (r :: rest) :=
        fun n low high => ⟨r, List.mem_cons_self, by omega, high⟩
      by_cases whole : total ≤ r.2
      · rw [if_pos whole]
        exact fun n low high => covered n low (by omega)
      rw [if_neg whole]
      have step := ih restNormal (by omega : r.2 < total)
        (fun n member => (normal.lt_of_mem_tail member).le)
      split at step
      · intro n low high
        by_cases inHead : n < r.2
        · exact covered n low inHead
        · rw [cells_cons]
          exact Or.inr (step n (by omega) high)
      · obtain ⟨past, nonempty, bounded, filled, hollow, maximal⟩ := step
        refine ⟨by omega, nonempty, bounded, fun n low high => ?_, fun n low high member => ?_,
          fun short => ?_⟩
        · by_cases inHead : n < r.2
          · exact covered n low inHead
          · rw [cells_cons]
            exact Or.inr (filled n (by omega) high)
        · rw [cells_cons] at member
          rcases member with ⟨-, inHead⟩ | inTail
          · omega
          · exact hollow n low high inTail
        · rw [cells_cons]
          exact Or.inr (maximal short)

/-! ## The coverage map -/

/-- The bytes of one range that have been covered so far, in the normal form
`cover` and `truncate` keep. -/
structure Coverage where
  ranges : List (ℕ × ℕ)
  normal : Normal ranges
  deriving DecidableEq

namespace Coverage

/-- The positions covered. -/
def cells (c : Coverage) : Set ℕ := RangeList.cells c.ranges

/-- `Coverage::default`. -/
def empty : Coverage := ⟨[], .nil⟩

/-- Records `start .. start + length` as covered; `false` where any of those
bytes was already covered. -/
def cover (c : Coverage) (start length : ℕ) : Coverage × Bool :=
  match covered : coverRanges c.ranges start length with
  | none => (c, false)
  | some ranges =>
      (⟨ranges, by have := coverRanges_spec c.normal start length; rw [covered] at this
                   exact this.1⟩, true)

/-- Drops coverage past `total`. -/
def truncate (c : Coverage) (total : ℕ) : Coverage :=
  ⟨truncateRanges c.ranges total, (truncateRanges_spec c.normal total).1⟩

/-- The first range of `0 .. total` that has not been covered, if any. -/
def gap (c : Coverage) (total : ℕ) : Option (ℕ × ℕ) := gapFrom 0 total c.ranges

/-- The length of the contiguous prefix from zero. -/
def prefixLen (c : Coverage) : ℕ :=
  match c.ranges with
  | (0, stop) :: _ => stop
  | _ => 0

/-- Whether every byte of `0 .. total` has been covered, and nothing else. -/
def covers (c : Coverage) (total : ℕ) : Bool :=
  match c.ranges with
  | [] => total = 0
  | [(0, stop)] => stop = total
  | _ => false

variable {c : Coverage} {start length total n : ℕ}

@[simp] theorem cells_empty : empty.cells = ∅ := cells_nil

/-- `cover` refuses exactly a range that meets what is covered, leaving the map
as it was, and otherwise adds exactly that range. -/
theorem cover_cases (c : Coverage) (start length : ℕ) :
    (∃ n ∈ Set.Ico start (start + length), n ∈ c.cells) ∧ c.cover start length = (c, false) ∨
      Disjoint c.cells (Set.Ico start (start + length)) ∧
        ∃ c', c.cover start length = (c', true) ∧
          c'.cells = c.cells ∪ Set.Ico start (start + length) := by
  have spec := coverRanges_spec c.normal start length
  unfold cover
  split
  · next refused =>
      rw [refused] at spec
      exact Or.inl ⟨spec, rfl⟩
  · next ranges covered =>
      rw [covered] at spec
      exact Or.inr ⟨spec.2.2, _, rfl, spec.2.1⟩

theorem cover_of_disjoint (apart : Disjoint c.cells (Set.Ico start (start + length))) :
    ∃ c', c.cover start length = (c', true) ∧
      c'.cells = c.cells ∪ Set.Ico start (start + length) := by
  rcases c.cover_cases start length with ⟨⟨n, inRange, covered⟩, -⟩ | ⟨-, accepted⟩
  · exact (Set.disjoint_left.mp apart covered inRange).elim
  · exact accepted

theorem cover_true {c' : Coverage} (accepted : c.cover start length = (c', true)) :
    Disjoint c.cells (Set.Ico start (start + length)) ∧
      c'.cells = c.cells ∪ Set.Ico start (start + length) := by
  rcases c.cover_cases start length with ⟨-, refused⟩ | ⟨apart, c₁, accepted', cells⟩
  · rw [refused] at accepted
    cases accepted
  · rw [accepted'] at accepted
    cases accepted
    exact ⟨apart, cells⟩

theorem cover_false {c' : Coverage} (refused : c.cover start length = (c', false)) :
    c' = c ∧ ∃ n ∈ Set.Ico start (start + length), n ∈ c.cells := by
  rcases c.cover_cases start length with ⟨meets, refused'⟩ | ⟨-, c₁, accepted, -⟩
  · rw [refused'] at refused
    cases refused
    exact ⟨rfl, meets⟩
  · rw [accepted] at refused
    cases refused

theorem cells_truncate : (c.truncate total).cells = c.cells ∩ Set.Iio total :=
  (truncateRanges_spec c.normal total).2

/-- For a non-empty span, `gap` is nothing exactly where the span is covered, and
otherwise its first maximal hole. -/
theorem gap_spec (c : Coverage) (positive : 0 < total) :
    match c.gap total with
    | none => ∀ n < total, n ∈ c.cells
    | some hole => hole.1 < hole.2 ∧ hole.2 ≤ total ∧ (∀ n < hole.1, n ∈ c.cells) ∧
        (∀ n, hole.1 ≤ n → n < hole.2 → n ∉ c.cells) ∧
        (hole.2 < total → hole.2 ∈ c.cells) := by
  have spec := gapFrom_spec c.normal positive (fun n _ => Nat.zero_le n)
  rw [gap]
  split at spec
  · exact fun n below => spec n (Nat.zero_le n) below
  · exact ⟨spec.2.1, spec.2.2.1, fun n below => spec.2.2.2.1 n (Nat.zero_le n) below,
      spec.2.2.2.2⟩

/-- `prefixLen` is the least position that is not covered. -/
theorem mem_of_lt_prefixLen (below : n < c.prefixLen) : n ∈ c.cells := by
  unfold prefixLen at below
  split at below
  · next stop rest equal =>
      exact ⟨(0, stop), by rw [equal]; exact List.mem_cons_self, Nat.zero_le _, below⟩
  · exact absurd below (Nat.not_lt_zero _)

theorem prefixLen_notMem (c : Coverage) : c.prefixLen ∉ c.cells := by
  obtain ⟨ranges, normal⟩ := c
  unfold prefixLen cells
  split
  · next stop rest equal =>
      dsimp only at equal
      subst equal
      exact normal.end_notMem
  · next headless =>
      dsimp only at headless ⊢
      cases ranges with
      | nil => simp
      | cons r rest =>
          intro zero
          have start := Nat.le_zero.mp (normal.head_le zero)
          exact headless r.2 rest (by rw [← start])

theorem prefixLen_eq_iff : c.prefixLen = n ↔ (∀ m < n, m ∈ c.cells) ∧ n ∉ c.cells := by
  constructor
  · rintro rfl
    exact ⟨fun m => mem_of_lt_prefixLen, c.prefixLen_notMem⟩
  · rintro ⟨filled, hole⟩
    apply le_antisymm
    · by_contra above
      exact hole (mem_of_lt_prefixLen (by omega))
    · by_contra below
      exact c.prefixLen_notMem (filled _ (by omega))

/-- A map that covers a front of the span has its one gap behind it. -/
theorem gap_of_front {front : ℕ} (cells : c.cells = Set.Iio front) (within : front ≤ total) :
    c.gap total = if front < total then some (front, total) else none := by
  rcases Nat.eq_zero_or_pos total with rfl | positive
  · obtain rfl : front = 0 := by omega
    have none : c.ranges = [] := c.normal.cells_eq_empty_iff.mp (cells.trans (by simp))
    rw [gap, none]
    rfl
  · have spec := c.gap_spec positive
    split at spec
    · next whole =>
        have last := spec (total - 1) (by omega)
        rw [cells, Set.mem_Iio] at last
        rw [whole, if_neg (by omega)]
    · next hole found =>
        obtain ⟨some, inside, before, missing, maximal⟩ := spec
        have start : front ≤ hole.1 := by
          have out := missing hole.1 le_rfl some
          rwa [cells, Set.mem_Iio, not_lt] at out
        have stop : ¬ hole.2 < total := by
          intro short
          have next := maximal short
          rw [cells, Set.mem_Iio] at next
          omega
        have start' : hole.1 ≤ front := by
          by_contra past
          have last := before (hole.1 - 1) (by omega)
          rw [cells, Set.mem_Iio] at last
          omega
        rw [found, if_pos (by omega)]
        congr 1
        exact Prod.ext (le_antisymm start' start) (by omega)

theorem prefixLen_of_front {front : ℕ} (cells : c.cells = Set.Iio front) : c.prefixLen = front := by
  rw [prefixLen_eq_iff, cells]
  exact ⟨fun m below => below, lt_irrefl front⟩

/-- `covers` recognises exactly the map whose cells are `0 .. total`. -/
theorem covers_iff : c.covers total = true ↔ c.cells = Set.Iio total := by
  constructor
  · intro whole
    unfold covers at whole
    split at whole
    · next equal =>
        rw [decide_eq_true_eq] at whole
        simp [cells, equal, whole]
    · next stop equal =>
        rw [decide_eq_true_eq] at whole
        rw [cells, equal, cells_singleton, ← whole]
        exact Set.ext fun n => by simp
    · cases whole
  · intro same
    rcases Nat.eq_zero_or_pos total with rfl | positive
    · have none : c.ranges = [] := c.normal.cells_eq_empty_iff.mp (by simpa [cells] using same)
      simp [covers, none]
    · have one : c.ranges = [(0, total)] := by
        refine c.normal.ext (normal_cons.mpr ⟨positive, by simp, .nil⟩) ?_
        rw [cells_singleton]
        exact same.trans (Set.ext fun n => by simp)
      simp [covers, one]

end Coverage

end Smb1Client
