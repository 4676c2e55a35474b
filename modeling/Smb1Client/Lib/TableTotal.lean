import Mathlib

/-!
# Totals over a finite table

A value summed over the rows of an association list, in any additive commutative
monoid: a count of the rows with a property, or a multiset of what the rows hold.
Changing, adding or removing one row changes the total by that row's value.
-/

namespace TableTotal

variable {α β M : Type*} [DecidableEq α] [AddCommMonoid M]
  {f : β → M} {s : AList (fun _ : α => β)} {a : α} {b : β}

/-- The sum of `f` over the rows of a table. -/
def total (f : β → M) (s : AList (fun _ : α => β)) : M := (s.entries.map fun row => f row.2).sum

omit [DecidableEq α] in
@[simp] theorem total_empty : total f (∅ : AList (fun _ : α => β)) = 0 := rfl

/-- A row's value and the total of the other rows make up the total. -/
theorem total_erase (found : s.lookup a = some b) : total f s = f b + total f (s.erase a) := by
  have present : a ∈ s.entries.keys := AList.lookup_isSome.mp (by rw [found]; rfl)
  obtain ⟨c, front, back, -, split, erased⟩ := List.exists_of_kerase present
  have row : c = b := by
    have member : (⟨a, c⟩ : Sigma fun _ : α => β) ∈ s.entries := by
      rw [split]
      exact List.mem_append_right _ List.mem_cons_self
    exact Option.some.inj ((AList.mem_lookup_iff.mpr member).symm.trans found)
  have rest : (s.erase a).entries = front ++ back := erased
  rw [total, total, rest, split, List.map_append, List.map_append, List.map_cons, List.sum_append,
    List.sum_append, List.sum_cons, row]
  exact add_left_comm _ _ _

theorem total_insert_new (absent : a ∉ s) : total f (s.insert a b) = f b + total f s := by
  rw [total, AList.entries_insert_of_notMem absent, List.map_cons, List.sum_cons, total]

/-- Changing a row's value changes the total by the difference of the two. -/
theorem total_insert (found : s.lookup a = some b) (b' : β) :
    f b + total f (s.insert a b') = f b' + total f s := by
  have entries : total f (s.insert a b') = f b' + total f (s.erase a) := by
    rw [total, AList.entries_insert, List.map_cons, List.sum_cons]
    rfl
  rw [entries, total_erase found]
  exact add_left_comm _ _ _

end TableTotal
