import Mathlib.Data.List.Basic

/-!
# Slices of lists, and writing over them

`splice` writes over a part of a list and `spliceAll` over several. What was written last over a
part is read back from it, and a part that nothing was written over is as it was.
-/

namespace Slices

variable {α : Type*} {xs ys zs : List α} {start start' length : ℕ}

def slice (xs : List α) (start length : ℕ) : List α := (xs.drop start).take length

/-- A list with other elements from `start` on, as many as these are. -/
def splice (xs : List α) (start : ℕ) (ys : List α) : List α :=
  xs.take start ++ (ys ++ xs.drop (start + ys.length))

/-- Two parts, as a start and a length each, that share no position. -/
def Apart (start length start' length' : ℕ) : Prop :=
  start + length ≤ start' ∨ start' + length' ≤ start

@[simp] theorem length_slice (inside : start + length ≤ xs.length) :
    (slice xs start length).length = length := by
  rw [slice, List.length_take, List.length_drop]
  omega

theorem slice_append_left (inside : start + length ≤ xs.length) :
    slice (xs ++ zs) start length = slice xs start length := by
  have room : length ≤ (xs.drop start).length := by
    rw [List.length_drop]
    omega
  rw [slice, slice, List.drop_append_of_le_length (by omega), List.take_append_of_le_length room]

theorem slice_append_right :
    slice (xs ++ zs) (xs.length + start) length = slice zs start length := by
  rw [slice, slice, ← List.drop_drop, List.drop_left]

theorem length_splice (inside : start + ys.length ≤ xs.length) :
    (splice xs start ys).length = xs.length := by
  rw [splice, List.length_append, List.length_append, List.length_take, List.length_drop]
  omega

theorem slice_splice_self (inside : start + ys.length ≤ xs.length) :
    slice (splice xs start ys) start ys.length = ys := by
  have front : (xs.take start).length = start := List.length_take_of_le (by omega)
  rw [slice, splice, List.drop_left' front, List.take_left]

theorem slice_splice_of_apart (inside : start + ys.length ≤ xs.length)
    (apart : Apart start' length start ys.length) :
    slice (splice xs start ys) start' length = slice xs start' length := by
  have front : (xs.take start).length = start := List.length_take_of_le (by omega)
  rcases apart with before | after
  · rw [splice, slice_append_left (by omega), slice, slice, List.drop_take, List.take_take,
      Nat.min_eq_left (by omega)]
  · obtain ⟨more, rfl⟩ := Nat.exists_eq_add_of_le after
    have whole : splice xs start ys = (xs.take start ++ ys) ++ xs.drop (start + ys.length) := by
      rw [splice, List.append_assoc]
    have behind : (xs.take start ++ ys).length = start + ys.length := by
      rw [List.length_append, front]
    rw [whole, ← behind, slice_append_right, behind, slice, slice, List.drop_drop]

theorem splice_append_left (inside : start + ys.length ≤ xs.length) :
    splice (xs ++ zs) start ys = splice xs start ys ++ zs := by
  rw [splice, splice, List.take_append_of_le_length (by omega),
    List.drop_append_of_le_length (by omega), List.append_assoc, List.append_assoc]

/-- What a part held, written back over whatever was written there. -/
theorem splice_splice_slice (inside : start + ys.length ≤ xs.length) :
    splice (splice xs start ys) start (slice xs start ys.length) = xs := by
  have front : (xs.take start).length = start := List.length_take_of_le (by omega)
  have written : (xs.take start ++ ys).length = start + ys.length := by
    rw [List.length_append, front]
  have ahead : (splice xs start ys).take start = xs.take start := by
    rw [splice, List.take_left' front]
  have behind : (splice xs start ys).drop (start + ys.length) = xs.drop (start + ys.length) := by
    rw [splice, ← List.append_assoc, List.drop_left' written]
  rw [splice, length_slice inside, ahead, behind, slice, ← List.drop_drop,
    List.take_append_drop, List.take_append_drop]

theorem slice_replicate {a : α} {count : ℕ} (inside : start + length ≤ count) :
    slice (List.replicate count a) start length = List.replicate length a := by
  rw [slice, List.drop_replicate, List.take_replicate, Nat.min_eq_left (by omega)]

/-- A list is what is ahead of a part, the part, and what is behind it. -/
theorem take_append_slice_append_drop :
    xs.take start ++ (slice xs start length ++ xs.drop (start + length)) = xs := by
  rw [slice, ← List.drop_drop, List.take_append_drop, List.take_append_drop]

/-! ## Several parts -/

def spliceAll (xs : List α) (blocks : List (ℕ × List α)) : List α :=
  blocks.foldl (fun xs block => splice xs block.1 block.2) xs

variable {blocks : List (ℕ × List α)}

theorem length_spliceAll (inside : ∀ block ∈ blocks, block.1 + block.2.length ≤ xs.length) :
    (spliceAll xs blocks).length = xs.length := by
  induction blocks generalizing xs with
  | nil => rfl
  | cons block blocks ih =>
      have here := length_splice (inside block List.mem_cons_self)
      rw [spliceAll, List.foldl_cons, ← spliceAll, ih, here]
      intro block' member
      rw [here]
      exact inside block' (List.mem_cons_of_mem _ member)

theorem slice_spliceAll_of_apart
    (inside : ∀ block ∈ blocks, block.1 + block.2.length ≤ xs.length)
    (apart : ∀ block ∈ blocks, Apart start length block.1 block.2.length) :
    slice (spliceAll xs blocks) start length = slice xs start length := by
  induction blocks generalizing xs with
  | nil => rfl
  | cons block blocks ih =>
      have first := inside block List.mem_cons_self
      rw [spliceAll, List.foldl_cons, ← spliceAll, ih,
        slice_splice_of_apart first (apart block List.mem_cons_self)]
      · intro block' member
        rw [length_splice first]
        exact inside block' (List.mem_cons_of_mem _ member)
      · exact fun block' member => apart block' (List.mem_cons_of_mem _ member)

/-- Parts that are apart are all read back as they were written. -/
theorem slice_spliceAll_of_mem
    (inside : ∀ block ∈ blocks, block.1 + block.2.length ≤ xs.length)
    (apart : blocks.Pairwise fun block block' =>
      Apart block.1 block.2.length block'.1 block'.2.length)
    {block : ℕ × List α} (member : block ∈ blocks) :
    slice (spliceAll xs blocks) block.1 block.2.length = block.2 := by
  induction blocks generalizing xs with
  | nil => cases member
  | cons first blocks ih =>
      obtain ⟨ahead, later⟩ := List.pairwise_cons.mp apart
      have here := inside first List.mem_cons_self
      have rest : ∀ block ∈ blocks, block.1 + block.2.length ≤
          (splice xs first.1 first.2).length := by
        intro block' behind
        rw [length_splice here]
        exact inside block' (List.mem_cons_of_mem _ behind)
      rw [spliceAll, List.foldl_cons, ← spliceAll]
      rcases List.mem_cons.mp member with rfl | behind
      · rw [slice_spliceAll_of_apart rest ahead, slice_splice_self here]
      · exact ih rest later behind

end Slices
