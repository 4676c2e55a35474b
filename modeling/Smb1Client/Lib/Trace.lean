import Mathlib

/-!
# Runs of a machine with outputs

A machine takes a step on an event, where the event is enabled, and puts out a list
of outputs. A run is given by its events; what it visits is the states the events
were taken in. The rules carry invariants over runs: `Machine.run_induction`, whose
invariant may speak of the steps so far and of the outputs so far, `Machine.invariant`
for the plain case, and `Machine.visits_induction` for a run every step of which is
restricted.
-/

namespace Trace

/-- A deterministic step on each event, which is not enabled where it gives nothing. -/
structure Machine (σ ε ω : Type*) where
  step : σ → ε → Option (σ × List ω)

variable {σ ε ω : Type*} {m : Machine σ ε ω} {s s' : σ} {es : List ε} {log : List ω}

/-- An entry of a log that has grown was there before, or is among what is new. -/
theorem split_append {out before after : List ω} {x : ω}
    (split : log ++ out = before ++ x :: after) :
    (∃ rest, log = before ++ x :: rest ∧ after = rest ++ out) ∨
      ∃ front, before = log ++ front ∧ out = front ++ x :: after := by
  rcases List.append_eq_append_iff.mp split with ⟨front, earlier, later⟩ | ⟨rest, earlier, later⟩
  · exact Or.inr ⟨front, earlier, later⟩
  · cases rest with
    | nil => exact Or.inr ⟨[], by simpa using earlier.symm, later.symm⟩
    | cons y rest =>
        obtain ⟨rfl, after⟩ := List.cons.inj later
        exact Or.inl ⟨rest, earlier, after⟩

theorem split_concat {before after : List ω} {x y : ω} (split : log ++ [y] = before ++ x :: after) :
    (∃ rest, log = before ++ x :: rest ∧ after = rest ++ [y]) ∨
      before = log ∧ y = x ∧ after = [] := by
  rcases split_append split with earlier | ⟨front, rfl, now⟩
  · exact Or.inl earlier
  · cases front with
    | nil =>
        obtain ⟨rfl, rfl⟩ := List.cons.inj now
        exact Or.inr ⟨List.append_nil _, rfl, rfl⟩
    | cons z front =>
        exact absurd (List.cons.inj now).2.symm
          (List.append_ne_nil_of_right_ne_nil _ (List.cons_ne_nil _ _))

namespace Machine

/-- Takes events one after another, collecting the outputs. -/
def run (m : Machine σ ε ω) (s : σ) : List ε → Option (σ × List ω)
  | [] => some (s, [])
  | e :: es => (m.step s e).bind fun (s₁, out) =>
      (run m s₁ es).map fun (s', log) => (s', out ++ log)

/-- The states a run takes its events in, each with the event. -/
def visits (m : Machine σ ε ω) (s : σ) : List ε → List (σ × ε)
  | [] => []
  | e :: es => (s, e) :: ((m.step s e).map fun (s₁, _) => visits m s₁ es).getD []

theorem run_cons {e : ε} (ran : m.run s (e :: es) = some (s', log)) :
    ∃ s₁ out rest, m.step s e = some (s₁, out) ∧ m.run s₁ es = some (s', rest) ∧
      log = out ++ rest := by
  rw [run] at ran
  obtain ⟨⟨s₁, out⟩, stepped, after⟩ := Option.bind_eq_some_iff.mp ran
  obtain ⟨⟨s'', rest⟩, tail, same⟩ := Option.map_eq_some_iff.mp after
  cases same
  exact ⟨s₁, out, rest, stepped, tail, rfl⟩

theorem visits_cons {e : ε} {s₁ : σ} {out : List ω} (stepped : m.step s e = some (s₁, out)) :
    m.visits s (e :: es) = (s, e) :: m.visits s₁ es := by
  rw [visits, stepped]
  rfl

theorem run_append {es' : List ε} {s₁ : σ} {log' : List ω} (ran : m.run s es = some (s₁, log))
    (goesOn : m.run s₁ es' = some (s', log')) : m.run s (es ++ es') = some (s', log ++ log') := by
  induction es generalizing s log with
  | nil =>
      cases ran
      exact goesOn
  | cons e es ih =>
      obtain ⟨s₂, out, rest, stepped, tail, rfl⟩ := run_cons ran
      rw [List.cons_append, run, stepped, Option.bind_some]
      dsimp only
      rw [ih tail, Option.map_some, List.append_assoc]

theorem run_singleton {e : ε} (stepped : m.step s e = some (s', log)) :
    m.run s [e] = some (s', log) := by
  rw [run, stepped, Option.bind_some]
  dsimp only [run]
  rw [Option.map_some, List.append_nil]

theorem length_visits (ran : m.run s es = some (s', log)) : (m.visits s es).length = es.length := by
  induction es generalizing s log with
  | nil => rfl
  | cons e es ih =>
      obtain ⟨s₁, out, rest, stepped, tail, -⟩ := run_cons ran
      rw [visits_cons stepped, List.length_cons, List.length_cons, ih tail]

/-- **Invariants with history.** A property of the steps so far, the state and the
outputs so far that every step keeps holds at the end of every run. -/
theorem run_induction {P : List (σ × ε) → σ → List ω → Prop} (start : P [] s [])
    (step : ∀ done s log e s' out, P done s log → m.step s e = some (s', out) →
      P (done ++ [(s, e)]) s' (log ++ out))
    (ran : m.run s es = some (s', log)) : P (m.visits s es) s' log := by
  have general : ∀ (es : List ε) (done : List (σ × ε)) (s : σ) (before log : List ω),
      P done s before → m.run s es = some (s', log) →
        P (done ++ m.visits s es) s' (before ++ log) := by
    intro es
    induction es with
    | nil =>
        intro done s before log holds ran
        cases ran
        rwa [visits, List.append_nil, List.append_nil]
    | cons e es ih =>
        intro done s before log holds ran
        obtain ⟨s₁, out, rest, stepped, tail, rfl⟩ := run_cons ran
        have later := ih _ _ _ _ (step done s before e s₁ out holds stepped) tail
        rwa [List.append_assoc, List.append_assoc, List.singleton_append,
          ← visits_cons stepped] at later
  exact general es [] s [] log start ran

/-- The steps before a step are a run of their own. -/
theorem run_before {before after : List (σ × ε)} {v : σ × ε}
    (split : m.visits s es = before ++ v :: after) :
    ∃ earlier log, m.run s earlier = some (v.1, log) ∧ m.visits s earlier = before := by
  induction before generalizing s es with
  | nil =>
      cases es with
      | nil => cases split
      | cons e es =>
          rw [visits] at split
          have head := (List.cons.inj split).1
          exact ⟨[], [], by rw [← head]; rfl, rfl⟩
  | cons u before ih =>
      cases es with
      | nil => cases split
      | cons e es =>
          cases stepped : m.step s e with
          | none =>
              rw [visits, stepped] at split
              have tail := (List.cons.inj split).2
              exact absurd tail.symm (List.append_ne_nil_of_right_ne_nil _ (List.cons_ne_nil _ _))
          | some result =>
              obtain ⟨s₁, out⟩ := result
              rw [visits_cons stepped] at split
              obtain ⟨rfl, rest⟩ := List.cons.inj split
              obtain ⟨earlier, log, ran, visited⟩ := ih rest
              refine ⟨e :: earlier, out ++ log, ?_, ?_⟩
              · exact run_append (run_singleton stepped) ran
              · rw [visits_cons stepped, visited]

/-- **Invariants.** A property that every step keeps holds at the end of every run. -/
theorem invariant {P : σ → Prop} (start : P s)
    (step : ∀ s e s' out, P s → m.step s e = some (s', out) → P s')
    (ran : m.run s es = some (s', log)) : P s' :=
  run_induction (P := fun _ s _ => P s) start
    (fun _ s _ e s' out holds stepped => step s e s' out holds stepped) ran

/-- **Bounded runs.** A measure that every step makes smaller, where an invariant holds,
bounds the length of every run. -/
theorem length_le_of_measure {P : σ → Prop} (μ : σ → ℕ) (start : P s)
    (step : ∀ s e s' out, P s → m.step s e = some (s', out) → P s' ∧ μ s' < μ s)
    (ran : m.run s es = some (s', log)) : es.length ≤ μ s := by
  induction es generalizing s log with
  | nil => exact Nat.zero_le _
  | cons e es ih =>
      obtain ⟨s₁, out, rest, stepped, tail, -⟩ := run_cons ran
      obtain ⟨holds, smaller⟩ := step s e s₁ out start stepped
      have later := ih holds tail
      rw [List.length_cons]
      omega

/-- **Invariants of restricted runs.** A property that every allowed step keeps holds in
every state a run visits, where all of the run's steps are allowed. -/
theorem visits_induction {P : σ → Prop} {allowed : σ → ε → Prop} (start : P s)
    (step : ∀ s e s' out, P s → allowed s e → m.step s e = some (s', out) → P s')
    (within : ∀ v ∈ m.visits s es, allowed v.1 v.2) : ∀ v ∈ m.visits s es, P v.1 := by
  induction es generalizing s with
  | nil => exact fun v none => absurd none List.not_mem_nil
  | cons e es ih =>
      intro v member
      cases stepped : m.step s e with
      | none =>
          rw [visits, stepped] at member
          obtain rfl := List.mem_singleton.mp member
          exact start
      | some result =>
          obtain ⟨s₁, out⟩ := result
          rw [visits_cons stepped] at member within
          rcases List.mem_cons.mp member with rfl | member
          · exact start
          · have here := within (s, e) List.mem_cons_self
            exact ih (step s e s₁ out start here stepped)
              (fun v later => within v (List.mem_cons_of_mem _ later)) v member

/-- **Invariants of the states visited.** A property that every step keeps holds in every state
a run visits. -/
theorem visits_invariant {P : σ → Prop} (start : P s)
    (step : ∀ s e s' out, P s → m.step s e = some (s', out) → P s') {v : σ × ε}
    (visited : v ∈ m.visits s es) : P v.1 :=
  @visits_induction _ _ _ m s es P (fun _ _ => True) start
    (fun s e s' out holds _ stepped => step s e s' out holds stepped) (fun _ _ => trivial) v visited

/-- **What holds until.** A property that one kind of step brings about, and that every step
keeps but those of another kind, holds in the states visited later, unless a step of that other
kind came between. -/
theorem holds_until (now ends : σ → ε → Prop) {P Q : σ → Prop} (start : P s)
    (step : ∀ s e s' out, P s → m.step s e = some (s', out) → P s')
    (brings : ∀ s e s' out, P s → now s e → m.step s e = some (s', out) → Q s')
    (keeps : ∀ s e s' out, P s → Q s → ¬ ends s e → m.step s e = some (s', out) → Q s')
    (ran : m.run s es = some (s', log)) {before mid after : List (σ × ε)} {v w : σ × ε}
    (split : m.visits s es = before ++ v :: (mid ++ w :: after)) (since : now v.1 v.2) :
    P w.1 ∧ (Q w.1 ∨ ∃ u ∈ mid, ends u.1 u.2) := by
  have whole := run_induction (P := fun done s _ => P s ∧
    (∀ before v mid, done = before ++ v :: mid → now v.1 v.2 →
      Q s ∨ ∃ u ∈ mid, ends u.1 u.2) ∧
    ∀ before v mid w after, done = before ++ v :: (mid ++ w :: after) → now v.1 v.2 →
      P w.1 ∧ (Q w.1 ∨ ∃ u ∈ mid, ends u.1 u.2))
    ⟨start, fun before v mid none => by simp at none,
      fun before v mid w after none => by simp at none⟩ ?_ ran
  · exact whole.2.2 before v mid w after split since
  · rintro done s log e s' out ⟨holds, opened, past⟩ stepped
    refine ⟨step s e s' out holds stepped, ?_, ?_⟩
    · intro before v mid split since
      rcases split_concat split with ⟨rest, earlier, rfl⟩ | ⟨rfl, rfl, rfl⟩
      · rcases opened before v rest earlier since with still | ⟨u, member, ended⟩
        · by_cases ends : ends s e
          · exact Or.inr ⟨(s, e), List.mem_append_right _ (List.mem_singleton.mpr rfl), ends⟩
          · exact Or.inl (keeps s e s' out holds still ends stepped)
        · exact Or.inr ⟨u, List.mem_append_left _ member, ended⟩
      · exact Or.inl (brings s e s' out holds since stepped)
    · intro before v mid w after split since
      have split : done ++ [(s, e)] = (before ++ v :: mid) ++ w :: after := by
        rw [split, List.append_assoc, List.cons_append]
      rcases split_concat split with ⟨rest, earlier, rfl⟩ | ⟨earlier, rfl, rfl⟩
      · refine past before v mid w rest ?_ since
        rw [earlier, List.append_assoc, List.cons_append]
      · exact ⟨holds, opened before v mid earlier.symm since⟩

end Machine

end Trace
