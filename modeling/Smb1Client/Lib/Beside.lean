import Smb1Client.Lib.Trace

/-!
# A machine beside what surrounds it

A surrounding hears what a machine puts out, and moves on its own between the machine's steps:
the other end of a connection, a store the machine writes to. `Machine.beside` interleaves the
two in every way, and `beside_induction` carries an invariant of both.
-/

namespace Trace

/-- What hears the outputs of a machine, and moves on its own where a move is enabled. -/
structure Surrounding (τ κ ω : Type*) where
  hears : τ → ω → τ
  moves : τ → κ → Option τ

namespace Machine

variable {σ τ ε κ ω : Type*} {m : Machine σ ε ω} {u : Surrounding τ κ ω} {s s' : σ × τ}
  {es : List (ε ⊕ κ)} {log : List ω}

/-- A machine and its surrounding, of which one takes a step at a time. -/
def beside (m : Machine σ ε ω) (u : Surrounding τ κ ω) : Machine (σ × τ) (ε ⊕ κ) ω where
  step s
    | .inl e => (m.step s.1 e).map fun (s', out) => ((s', out.foldl u.hears s.2), out)
    | .inr move => (u.moves s.2 move).map fun t' => ((s.1, t'), [])

theorem beside_inl {e : ε} (stepped : (m.beside u).step s (.inl e) = some (s', log)) :
    m.step s.1 e = some (s'.1, log) ∧ s'.2 = log.foldl u.hears s.2 := by
  obtain ⟨⟨t, out⟩, taken, same⟩ := Option.map_eq_some_iff.mp stepped
  cases same
  exact ⟨taken, rfl⟩

theorem beside_inr {move : κ} (stepped : (m.beside u).step s (.inr move) = some (s', log)) :
    u.moves s.2 move = some s'.2 ∧ s'.1 = s.1 ∧ log = [] := by
  obtain ⟨t, moved, same⟩ := Option.map_eq_some_iff.mp stepped
  cases same
  exact ⟨moved, rfl, rfl⟩

/-- **Invariants of the two**, which may speak of the steps and the outputs so far. -/
theorem beside_induction {P : List ((σ × τ) × (ε ⊕ κ)) → σ → τ → List ω → Prop}
    (start : P [] s.1 s.2 [])
    (steps : ∀ done s t log e s' out, P done s t log → m.step s e = some (s', out) →
      P (done ++ [((s, t), .inl e)]) s' (out.foldl u.hears t) (log ++ out))
    (moves : ∀ done s t log move t', P done s t log → u.moves t move = some t' →
      P (done ++ [((s, t), .inr move)]) s t' log)
    (ran : (m.beside u).run s es = some (s', log)) :
    P ((m.beside u).visits s es) s'.1 s'.2 log := by
  apply run_induction (P := fun done s log => P done s.1 s.2 log) start ?_ ran
  intro done s log e s' out holds stepped
  cases e with
  | inl e =>
      obtain ⟨own, heard⟩ := beside_inl stepped
      rw [heard]
      exact steps done s.1 s.2 log e s'.1 out holds own
  | inr move =>
      obtain ⟨moved, same, rfl⟩ := beside_inr stepped
      rw [same, List.append_nil]
      exact moves done s.1 s.2 log move s'.2 holds moved

end Machine

end Trace
