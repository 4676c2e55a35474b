import Mathlib

/-!
# A sequence that is written over in parts

`overlay` writes elements over a sequence from a position on; a sequence that ends before that
is filled up. `Between` is what the parts of one whole make of a sequence in any order and any
number: each position is as it was, filled up, or as the whole has it. Where every position is
as the whole has it, the parts have come to the whole written over at once (`eq_overlay`).
-/

namespace Overlay

variable {α : Type*} {fill : α} {store original data whole : List α} {start base p : ℕ}

/-- Writes elements over a sequence from a position on. Nothing written changes nothing. -/
def overlay (fill : α) (store : List α) (start : ℕ) (data : List α) : List α :=
  if data = [] then store
  else
    (store ++ List.replicate (start - store.length) fill).take start ++
      (data ++ store.drop (start + data.length))

@[simp] theorem overlay_nil : overlay fill store start [] = store := if_pos rfl

/-- A position is as it is written, as it was, or filled up. -/
theorem getElem?_overlay (nonempty : data ≠ []) : (overlay fill store start data)[p]? =
    if start ≤ p ∧ p < start + data.length then data[p - start]?
    else if p < store.length then store[p]?
    else if p < start then some fill
    else none := by
  have front : ((store ++ List.replicate (start - store.length) fill).take start).length =
      start := by
    rw [List.length_take, List.length_append, List.length_replicate]
    omega
  rw [overlay, if_neg nonempty]
  rcases Nat.lt_or_ge p start with before | from_
  · rw [if_neg (by omega), List.getElem?_append_left (by omega), List.getElem?_take_of_lt before]
    split
    · next inside => rw [List.getElem?_append_left inside]
    · next past =>
        rw [List.getElem?_append_right (by omega), List.getElem?_replicate, if_pos (by omega)]
  · rw [List.getElem?_append_right (by omega), front]
    rcases Nat.lt_or_ge p (start + data.length) with within | after
    · rw [if_pos ⟨from_, within⟩, List.getElem?_append_left (by omega)]
    · have place : start + data.length + (p - start - data.length) = p := by omega
      rw [if_neg (by omega), List.getElem?_append_right (by omega), List.getElem?_drop, place,
        if_neg (show ¬ p < start by omega)]
      split
      · rfl
      · next past => exact List.getElem?_eq_none (by omega)

/-! ## Parts of one whole -/

/-- Elements that are the whole's own at their place, where the whole begins at the base. -/
def Part (base : ℕ) (whole : List α) (start : ℕ) (data : List α) : Prop :=
  base ≤ start ∧ start + data.length ≤ base + whole.length ∧
    ∀ i < data.length, whole[start - base + i]? = data[i]?

theorem part_slice {first length : ℕ} (inside : first + length ≤ whole.length) :
    Part base whole (base + first) ((whole.drop first).take length) := by
  have long : ((whole.drop first).take length).length = length := by
    rw [List.length_take, List.length_drop]
    omega
  refine ⟨Nat.le_add_right _ _, by omega, fun i below => ?_⟩
  rw [List.getElem?_take_of_lt (by omega), List.getElem?_drop, Nat.add_sub_cancel_left]

/-- The front of a part is one. -/
theorem Part.take (part : Part base whole start data) (count : ℕ) :
    Part base whole start (data.take count) := by
  obtain ⟨above, inside, same⟩ := part
  have short := List.length_take_le' count data
  refine ⟨above, by omega, fun i below => ?_⟩
  rw [List.length_take] at below
  rw [List.getElem?_take_of_lt (by omega)]
  exact same i (by omega)

/-- A part of a whole is one of what begins with it. -/
theorem Part.append (part : Part base whole start data) (more : List α) :
    Part base (whole ++ more) start data := by
  obtain ⟨above, inside, same⟩ := part
  refine ⟨above, by rw [List.length_append]; omega, fun i below => ?_⟩
  rw [List.getElem?_append_left (by omega)]
  exact same i below

/-! ## What parts make of a sequence -/

/-- What a position may hold once parts have been written over it. -/
inductive Cell (fill : α) (original : List α) (base : ℕ) (whole : List α) (p : ℕ) :
    Option α → Prop
  | old : Cell fill original base whole p original[p]?
  | filled (past : original.length ≤ p) (before : p < base + whole.length)
      (nonempty : whole ≠ []) :
      Cell fill original base whole p (some fill)
  | new (above : base ≤ p) (before : p < base + whole.length) :
      Cell fill original base whole p whole[p - base]?

/-- What parts of a whole have made of a sequence. -/
def Between (fill : α) (original : List α) (base : ℕ) (whole store : List α) : Prop :=
  ∀ p, Cell fill original base whole p store[p]?

theorem between_refl : Between fill original base whole original := fun _ => .old

theorem Between.append (between : Between fill original base whole store) (more : List α) :
    Between fill original base (whole ++ more) store := by
  intro p
  have longer : base + whole.length ≤ base + (whole ++ more).length := by
    rw [List.length_append]
    omega
  generalize held : store[p]? = cell
  cases held ▸ between p with
  | old => exact .old
  | filled past before nonempty =>
      exact .filled past (by omega) (List.append_ne_nil_of_left_ne_nil nonempty more)
  | new above before =>
      have inside : p - base < whole.length := by omega
      have same : (whole ++ more)[p - base]? = whole[p - base]? := List.getElem?_append_left inside
      rw [← same]
      exact .new above (by omega)

/-- Nothing that was there is lost. -/
theorem Between.length_le (between : Between fill original base whole store) :
    original.length ≤ store.length := by
  by_contra short
  have cell := between store.length
  generalize held : store[store.length]? = value at cell
  rw [List.getElem?_eq_none (le_refl _)] at held
  have inside : store.length < original.length := by omega
  cases cell with
  | old => rw [List.getElem?_eq_getElem inside] at held; cases held
  | filled past before => omega
  | new above before => rw [List.getElem?_eq_getElem (by omega)] at held; cases held

/-- Another part is written over it. -/
theorem Between.overlay (between : Between fill original base whole store)
    (part : Part base whole start data) :
    Between fill original base whole (overlay fill store start data) := by
  obtain ⟨above, inside, same⟩ := part
  have long := between.length_le
  intro p
  by_cases empty : data = []
  · rw [empty, overlay_nil]
    exact between p
  · rw [getElem?_overlay empty]
    split
    · next here =>
        have place : start - base + (p - start) = p - base := by omega
        rw [← same (p - start) (by omega), place]
        exact .new (by omega) (by omega)
    · next elsewhere =>
        split
        · exact between p
        · next past =>
            split
            · refine .filled (by omega) (by omega) fun none => ?_
              have some := List.length_pos_of_ne_nil empty
              rw [none, List.length_nil] at inside
              omega
            · rw [← List.getElem?_eq_none (by omega : original.length ≤ p)]
              exact .old

/-- A position that is as the whole has it stays so. -/
theorem getElem?_overlay_of_part (part : Part base whole start data) (below : p < whole.length)
    (there : store[base + p]? = whole[p]?) :
    (overlay fill store start data)[base + p]? = whole[p]? := by
  obtain ⟨above, inside, same⟩ := part
  by_cases empty : data = []
  · rw [empty, overlay_nil]
    exact there
  · have held : base + p < store.length := by
      by_contra past
      rw [List.getElem?_eq_none (by omega), List.getElem?_eq_getElem below] at there
      cases there
    rw [getElem?_overlay empty]
    split
    · next here =>
        have place : start - base + (base + p - start) = p := by omega
        rw [← same (base + p - start) (by omega), place]
    · exact there

/-- **Parts come to the whole.** Where every position of the whole is as the whole has it, the
whole has been written over. -/
theorem Between.eq_overlay (between : Between fill original base whole store)
    (all : ∀ p < whole.length, store[base + p]? = whole[p]?) :
    store = Overlay.overlay fill original base whole := by
  have long := between.length_le
  apply List.ext_getElem?
  intro p
  have cell := between p
  generalize held : store[p]? = value at cell
  by_cases empty : whole = []
  · subst empty
    rw [overlay_nil]
    cases cell with
    | old => rfl
    | filled past before nonempty => exact absurd rfl nonempty
    | new above before =>
        rw [List.length_nil] at before
        omega
  · have some := List.length_pos_of_ne_nil empty
    rw [getElem?_overlay empty]
    split
    · next here =>
        have there := all (p - base) (by omega)
        rw [show base + (p - base) = p by omega, held] at there
        exact there
    · next elsewhere =>
        split
        · next inside =>
            cases cell with
            | old => rfl
            | filled past before => omega
            | new above before => omega
        · next past =>
            have first := all 0 some
            rw [Nat.add_zero, List.getElem?_eq_getElem some] at first
            have grown := (List.getElem?_eq_some_iff.mp first).1
            cases cell with
            | old =>
                have gone : original[p]? = none := List.getElem?_eq_none (by omega)
                rw [gone] at held ⊢
                have ended := List.getElem?_eq_none_iff.mp held
                rw [if_neg (by omega)]
            | filled past' before => rw [if_pos (by omega)]
            | new above before => omega

end Overlay
