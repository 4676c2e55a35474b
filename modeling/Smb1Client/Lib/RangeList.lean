import Mathlib

/-!
# Lists of half-open ranges as sets of naturals

A range `(a, b)` stands for the naturals `a ≤ n < b`, and a list of ranges for
the union (`RangeList.cells`). `RangeList.Normal` is the normal form in which the
list is sorted and no two ranges overlap or touch. A set of naturals has at most
one normal list (`RangeList.Normal.ext`), so a function on normal lists may be
specified by what it does to the set of cells alone.
-/

namespace RangeList

/-- The naturals a list of ranges covers. -/
def cells (rs : List (ℕ × ℕ)) : Set ℕ := {n | ∃ r ∈ rs, r.1 ≤ n ∧ n < r.2}

/-- `a` ends strictly before `b` begins, so the two neither overlap nor touch. -/
def Apart (a b : ℕ × ℕ) : Prop := a.2 < b.1

/-- Sorted, with no empty range, no overlap and no two ranges touching. -/
structure Normal (rs : List (ℕ × ℕ)) : Prop where
  nonempty : ∀ r ∈ rs, r.1 < r.2
  apart : rs.Pairwise Apart

instance : DecidableRel Apart := fun a b => inferInstanceAs (Decidable (a.2 < b.1))

instance (rs : List (ℕ × ℕ)) : Decidable (Normal rs) :=
  decidable_of_iff ((∀ r ∈ rs, r.1 < r.2) ∧ rs.Pairwise Apart)
    ⟨fun h => ⟨h.1, h.2⟩, fun h => ⟨h.nonempty, h.apart⟩⟩

variable {rs left right : List (ℕ × ℕ)} {r : ℕ × ℕ} {n : ℕ}

@[simp] theorem mem_cells : n ∈ cells rs ↔ ∃ r ∈ rs, r.1 ≤ n ∧ n < r.2 := Iff.rfl

@[simp] theorem cells_nil : cells [] = ∅ := by
  ext n
  simp

theorem cells_cons : cells (r :: rs) = Set.Ico r.1 r.2 ∪ cells rs := by
  ext n
  simp only [mem_cells, List.exists_mem_cons_iff, Set.mem_union, Set.mem_Ico]

theorem cells_append : cells (left ++ right) = cells left ∪ cells right := by
  ext n
  simp only [mem_cells, List.mem_append, or_and_right, exists_or, Set.mem_union]

theorem cells_singleton : cells [r] = Set.Ico r.1 r.2 := by
  rw [cells_cons, cells_nil, Set.union_empty]

theorem Normal.nil : Normal [] := ⟨by simp, .nil⟩

theorem normal_cons :
    Normal (r :: rs) ↔ r.1 < r.2 ∧ (∀ q ∈ rs, r.2 < q.1) ∧ Normal rs := by
  constructor
  · rintro ⟨nonempty, apart⟩
    rw [List.pairwise_cons] at apart
    exact ⟨nonempty r List.mem_cons_self, apart.1,
      fun q member => nonempty q (List.mem_cons_of_mem _ member), apart.2⟩
  · rintro ⟨head, gap, nonempty, apart⟩
    exact ⟨List.forall_mem_cons.mpr ⟨head, nonempty⟩, List.pairwise_cons.mpr ⟨gap, apart⟩⟩

theorem normal_append :
    Normal (left ++ right) ↔
      Normal left ∧ Normal right ∧ ∀ a ∈ left, ∀ b ∈ right, a.2 < b.1 := by
  constructor
  · rintro ⟨nonempty, apart⟩
    rw [List.pairwise_append] at apart
    exact ⟨⟨fun q member => nonempty q (List.mem_append_left _ member), apart.1⟩,
      ⟨fun q member => nonempty q (List.mem_append_right _ member), apart.2.1⟩, apart.2.2⟩
  · rintro ⟨normalLeft, normalRight, gap⟩
    refine ⟨fun q member => ?_, List.pairwise_append.mpr
      ⟨normalLeft.apart, normalRight.apart, gap⟩⟩
    rcases List.mem_append.mp member with member | member
    · exact normalLeft.nonempty q member
    · exact normalRight.nonempty q member

theorem Normal.tail (normal : Normal (r :: rs)) : Normal rs := (normal_cons.mp normal).2.2

/-- Ranges past the head of a normal list lie past the head's end. -/
theorem Normal.lt_of_mem_tail (normal : Normal (r :: rs)) (member : n ∈ cells rs) :
    r.2 < n := by
  obtain ⟨q, inTail, low, -⟩ := member
  exact lt_of_lt_of_le ((normal_cons.mp normal).2.1 q inTail) low

/-- The end of the first range of a normal list is not covered. -/
theorem Normal.end_notMem (normal : Normal (r :: rs)) : r.2 ∉ cells (r :: rs) := by
  rw [cells_cons]
  rintro (⟨-, past⟩ | inTail)
  · exact lt_irrefl _ past
  · exact lt_irrefl _ (normal.lt_of_mem_tail inTail)

/-- The first range of a normal list begins at its least cell. -/
theorem Normal.head_le (normal : Normal (r :: rs)) (member : n ∈ cells (r :: rs)) :
    r.1 ≤ n := by
  rw [cells_cons] at member
  rcases member with ⟨low, -⟩ | inTail
  · exact low
  · exact ((normal_cons.mp normal).1.trans (normal.lt_of_mem_tail inTail)).le

theorem Normal.head_mem (normal : Normal (r :: rs)) : r.1 ∈ cells (r :: rs) :=
  ⟨r, List.mem_cons_self, le_rfl, (normal_cons.mp normal).1⟩

/-- The last range of a normal list ends past its greatest cell. -/
theorem Normal.lt_last (normal : Normal (left ++ [r])) (member : n ∈ cells (left ++ [r])) :
    n < r.2 := by
  obtain ⟨-, lastNormal, gap⟩ := normal_append.mp normal
  rw [cells_append, cells_singleton] at member
  rcases member with ⟨q, inLeft, -, high⟩ | ⟨-, high⟩
  · have := gap q inLeft r (List.mem_singleton_self _)
    have := (normal_cons.mp lastNormal).1
    omega
  · exact high

/-- The first range of a normal list is the run of cells that begins at its start. -/
theorem Normal.head_end_le (normal : Normal (r :: rs)) {m : ℕ}
    (run : ∀ k, r.1 ≤ k → k < m → k ∈ cells (r :: rs)) : m ≤ r.2 := by
  by_contra past
  exact normal.end_notMem (run r.2 (normal_cons.mp normal).1.le (by omega))

theorem Normal.cells_eq_empty_iff (normal : Normal rs) : cells rs = ∅ ↔ rs = [] := by
  constructor
  · intro empty
    cases rs with
    | nil => rfl
    | cons r rs => exact (Set.eq_empty_iff_forall_notMem.mp empty _ normal.head_mem).elim
  · rintro rfl
    exact cells_nil

/-- **The normal form is unique.** -/
theorem Normal.ext {rs qs : List (ℕ × ℕ)} (normal : Normal rs) (normal' : Normal qs)
    (same : cells rs = cells qs) : rs = qs := by
  induction rs generalizing qs with
  | nil =>
      rw [cells_nil] at same
      exact (normal'.cells_eq_empty_iff.mp same.symm).symm
  | cons r rs ih =>
      cases qs with
      | nil =>
          rw [cells_nil] at same
          exact normal.cells_eq_empty_iff.mp same
      | cons q qs =>
          -- The two heads begin at the least cell and end at the first hole past it.
          have starts : r.1 = q.1 :=
            le_antisymm (normal.head_le (same ▸ normal'.head_mem))
              (normal'.head_le (same ▸ normal.head_mem))
          have sameHead : ∀ {a b : ℕ × ℕ} {as bs : List (ℕ × ℕ)}, Normal (a :: as) →
              Normal (b :: bs) → cells (a :: as) = cells (b :: bs) → a.1 = b.1 → a.2 ≤ b.2 := by
            intro a b as bs first second equal start
            have bound := (normal_cons.mp first).1
            refine second.head_end_le (fun k low high => ?_)
            rw [← equal]
            exact ⟨a, List.mem_cons_self, by omega, high⟩
          have ends : r.2 = q.2 :=
            le_antisymm (sameHead normal normal' same starts)
              (sameHead normal' normal same.symm starts.symm)
          have heads : r = q := Prod.ext starts ends
          subst heads
          congr 1
          refine ih normal.tail normal'.tail ?_
          ext n
          constructor
          · intro member
            have both : n ∈ cells (r :: qs) := same ▸ (by rw [cells_cons]; exact Or.inr member)
            rw [cells_cons] at both
            rcases both with ⟨-, high⟩ | inTail
            · exact absurd (normal.lt_of_mem_tail member) (by omega)
            · exact inTail
          · intro member
            have both : n ∈ cells (r :: rs) := same ▸ (by rw [cells_cons]; exact Or.inr member)
            rw [cells_cons] at both
            rcases both with ⟨-, high⟩ | inTail
            · exact absurd (normal'.lt_of_mem_tail member) (by omega)
            · exact inTail

end RangeList
