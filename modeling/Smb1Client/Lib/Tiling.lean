import Mathlib

/-!
# Spans, and how many of them hold a position

A span is a start and a length. Taking a span apart, moving it from one list to another
and reordering a list keep how many spans hold each position (`held`) and how long they
are together (`total`); a list in which no position is held twice, and every position
below a bound once, is a tiling.
-/

namespace Tiling

/-- Whether a span of this start and length holds a position, as a count. -/
def holds (p start length : ℕ) : ℕ := if start ≤ p ∧ p < start + length then 1 else 0

/-- How many spans hold a position. -/
def held (p : ℕ) : List (ℕ × ℕ) → ℕ
  | [] => 0
  | s :: spans => holds p s.1 s.2 + held p spans

/-- How long spans are together. -/
def total : List (ℕ × ℕ) → ℕ
  | [] => 0
  | s :: spans => s.2 + total spans

variable {p start length : ℕ} {s : ℕ × ℕ} {spans spans' : List (ℕ × ℕ)}

theorem holds_of_mem (inside : start ≤ p) (below : p < start + length) : holds p start length = 1 :=
  if_pos ⟨inside, below⟩

theorem holds_le_one : holds p start length ≤ 1 := by
  unfold holds
  split <;> decide

theorem holds_pos_iff : 0 < holds p start length ↔ start ≤ p ∧ p < start + length := by
  unfold holds
  split
  · next inside => exact iff_of_true one_pos inside
  · next outside => exact iff_of_false (lt_irrefl 0) outside

@[simp] theorem holds_zero : holds p start 0 = 0 := by
  unfold holds
  rw [if_neg]
  omega

/-- A span taken apart. -/
theorem holds_add (first second : ℕ) :
    holds p start (first + second) = holds p start first + holds p (start + first) second := by
  unfold holds
  split_ifs <;> omega

/-- Spans and positions counted from somewhere else. -/
theorem holds_shift (base : ℕ) : holds (base + p) (base + start) length = holds p start length := by
  unfold holds
  split_ifs <;> omega

@[simp] theorem held_nil : held p [] = 0 := rfl

@[simp] theorem held_cons : held p (s :: spans) = holds p s.1 s.2 + held p spans := rfl

@[simp] theorem held_append : held p (spans ++ spans') = held p spans + held p spans' := by
  induction spans with
  | nil => rw [List.nil_append, held_nil, Nat.zero_add]
  | cons s spans ih => rw [List.cons_append, held_cons, held_cons, ih, Nat.add_assoc]

@[simp] theorem total_nil : total [] = 0 := rfl

@[simp] theorem total_cons : total (s :: spans) = s.2 + total spans := rfl

@[simp] theorem total_append : total (spans ++ spans') = total spans + total spans' := by
  induction spans with
  | nil => rw [List.nil_append, total_nil, Nat.zero_add]
  | cons s spans ih => rw [List.cons_append, total_cons, total_cons, ih, Nat.add_assoc]

/-- A span is held with the spans beside it. -/
theorem held_eraseIdx {index : ℕ} (found : spans[index]? = some s) :
    held p spans = holds p s.1 s.2 + held p (spans.eraseIdx index) := by
  induction spans generalizing index with
  | nil => cases found
  | cons s' spans ih =>
      cases index with
      | zero =>
          cases found
          rfl
      | succ index =>
          rw [List.eraseIdx_cons_succ, held_cons, held_cons, ih found]
          omega

/-- A span is replaced in its place. -/
theorem held_set {index : ℕ} (found : spans[index]? = some s) (s' : ℕ × ℕ) :
    held p (spans.set index s') + holds p s.1 s.2 = held p spans + holds p s'.1 s'.2 := by
  induction spans generalizing index with
  | nil => cases found
  | cons s₀ spans ih =>
      cases index with
      | zero =>
          cases found
          rw [List.set_cons_zero, held_cons, held_cons]
          omega
      | succ index =>
          have rest := ih found
          rw [List.set_cons_succ, held_cons, held_cons]
          omega

theorem total_eraseIdx {index : ℕ} (found : spans[index]? = some s) :
    total spans = s.2 + total (spans.eraseIdx index) := by
  induction spans generalizing index with
  | nil => cases found
  | cons s' spans ih =>
      cases index with
      | zero =>
          cases found
          rfl
      | succ index =>
          rw [List.eraseIdx_cons_succ, total_cons, total_cons, ih found]
          omega

/-- A position is held exactly where one of the spans holds it. -/
theorem held_pos_iff : 0 < held p spans ↔ ∃ s ∈ spans, s.1 ≤ p ∧ p < s.1 + s.2 := by
  induction spans with
  | nil => simp
  | cons s spans ih =>
      rw [held_cons, Nat.add_pos_iff_pos_or_pos, holds_pos_iff, ih]
      simp

end Tiling
