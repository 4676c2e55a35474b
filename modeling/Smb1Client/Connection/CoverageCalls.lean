import Smb1Client.Connection.Coverage

/-!
A coverage map over every run of its calls is a set of naturals.

`Coverage.Call.onSet` says what the two calls that change the map do to the set it stands for.
Every run of calls from the empty map answers as the set does, and the map it ends with answers
every question from that set.
-/

namespace Smb1Client

namespace Coverage

/-- The calls that change the map. -/
inductive Call where
  | cover (start length : ℕ)
  | truncate (total : ℕ)
  deriving DecidableEq, Repr

/-- The map after a call, with what `cover` returned. -/
def Call.onMap : Call → Coverage → Coverage × Option Bool
  | .cover start length, c => ((c.cover start length).1, some (c.cover start length).2)
  | .truncate total, c => (c.truncate total, none)

open Classical in
/-- The set after a call, with the answer to it. -/
noncomputable def Call.onSet : Call → Set ℕ → Set ℕ × Option Bool
  | .cover start length, s =>
      if Disjoint s (Set.Ico start (start + length)) then
        (s ∪ Set.Ico start (start + length), some true)
      else (s, some false)
  | .truncate total, s => (s ∩ Set.Iio total, none)

/-- One call after another, with the answers. -/
def replay {σ : Type} (perform : Call → σ → σ × Option Bool) (s : σ) :
    List Call → σ × List (Option Bool)
  | [] => (s, [])
  | call :: calls =>
      ((replay perform (perform call s).1 calls).1,
        (perform call s).2 :: (replay perform (perform call s).1 calls).2)

/-- A map answers every question from a set. -/
structure Stands (c : Coverage) (s : Set ℕ) : Prop where
  nonempty : ∀ r ∈ c.ranges, r.1 < r.2
  apart : c.ranges.Pairwise fun r r' => r.2 < r'.1
  cells : ∀ n, (∃ r ∈ c.ranges, r.1 ≤ n ∧ n < r.2) ↔ n ∈ s
  refuses : ∀ start length, (c.cover start length).2 = false ↔
    ∃ n ∈ s, start ≤ n ∧ n < start + length
  unchanged : ∀ start length, (c.cover start length).2 = false → (c.cover start length).1 = c
  least : IsLeast {n | n ∉ s} c.prefixLen
  whole : ∀ total, c.covers total = true ↔ s = Set.Iio total
  filled : ∀ total, 0 < total → (c.gap total = none ↔ Set.Iio total ⊆ s)
  hole : ∀ total hole, 0 < total → c.gap total = some hole →
    hole.1 < hole.2 ∧ hole.2 ≤ total ∧ Set.Iio hole.1 ⊆ s ∧
      Disjoint (Set.Ico hole.1 hole.2) s ∧ (hole.2 < total → hole.2 ∈ s)

variable {c : Coverage} {start length total : ℕ}

theorem cover_eq_false_iff : (c.cover start length).2 = false ↔
    ∃ n ∈ c.cells, start ≤ n ∧ n < start + length := by
  rcases c.cover_cases start length with ⟨⟨n, inRange, member⟩, refused⟩ | ⟨apart, c', accepted, -⟩
  · rw [refused]
    exact iff_of_true rfl ⟨n, member, inRange.1, inRange.2⟩
  · rw [accepted]
    refine iff_of_false Bool.noConfusion ?_
    rintro ⟨n, member, inRange⟩
    exact Set.disjoint_left.mp apart member inRange

theorem gap_eq_none_iff (positive : 0 < total) :
    c.gap total = none ↔ Set.Iio total ⊆ c.cells := by
  have spec := c.gap_spec positive
  cases found : c.gap total with
  | none =>
      rw [found] at spec
      exact iff_of_true rfl spec
  | some hole =>
      rw [found] at spec
      obtain ⟨proper, inside, -, missing, -⟩ := spec
      refine iff_of_false (Option.some_ne_none hole) fun filled => ?_
      exact missing hole.1 le_rfl proper (filled (lt_of_lt_of_le proper inside))

/-- A map stands for its cells. -/
theorem stands_cells (c : Coverage) : c.Stands c.cells where
  nonempty := c.normal.nonempty
  apart := c.normal.apart
  cells _ := Iff.rfl
  refuses _ _ := cover_eq_false_iff
  unchanged start length refused := (cover_false (Prod.ext rfl refused)).1
  least := ⟨c.prefixLen_notMem, fun n missing => by
    by_contra below
    exact missing (mem_of_lt_prefixLen (not_le.mp below))⟩
  whole _ := covers_iff
  filled _ positive := gap_eq_none_iff positive
  hole total hole positive found := by
    have spec := c.gap_spec positive
    rw [found] at spec
    obtain ⟨proper, inside, front, missing, maximal⟩ := spec
    refine ⟨proper, inside, front, ?_, maximal⟩
    exact Set.disjoint_left.mpr fun n within => missing n within.1 within.2

/-- A call does to the map's cells what it does to a set. -/
theorem onSet_cells (call : Call) (c : Coverage) :
    call.onSet c.cells = ((call.onMap c).1.cells, (call.onMap c).2) := by
  cases call with
  | truncate total =>
      rw [Call.onSet, Call.onMap, cells_truncate]
  | cover start length =>
      rcases c.cover_cases start length with ⟨⟨n, inRange, member⟩, refused⟩ |
        ⟨apart, c', accepted, cells⟩
      · have meets : ¬ Disjoint c.cells (Set.Ico start (start + length)) :=
          fun apart => Set.disjoint_left.mp apart member inRange
        rw [Call.onSet, Call.onMap, if_neg meets, refused]
      · rw [Call.onSet, Call.onMap, if_pos apart, accepted, cells]

/-- **Coverage is a set of naturals.** Every run of calls answers as a set does, and leaves a map
that stands for the set the same calls leave. -/
theorem replay_stands (calls : List Call) :
    (replay Call.onMap empty calls).2 = (replay Call.onSet ∅ calls).2 ∧
      (replay Call.onMap empty calls).1.Stands (replay Call.onSet ∅ calls).1 := by
  have general : ∀ (calls : List Call) (c : Coverage), replay Call.onSet c.cells calls =
      ((replay Call.onMap c calls).1.cells, (replay Call.onMap c calls).2) := by
    intro calls
    induction calls with
    | nil => exact fun _ => rfl
    | cons call calls ih =>
        intro c
        rw [replay, onSet_cells, ih (call.onMap c).1]
        rfl
  have run := general calls empty
  rw [cells_empty] at run
  rw [run]
  exact ⟨rfl, stands_cells _⟩

end Coverage

end Smb1Client
