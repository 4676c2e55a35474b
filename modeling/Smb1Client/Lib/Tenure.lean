import Smb1Client.Lib.Peer
import Smb1Client.Lib.Trace

/-!
# A machine between two conversations

A call that acquires what it works on, works on it and releases it, whatever the work came to.
Acquiring and releasing are conversations, whose requests are put out with their answers; the
work is a machine of its own. `Tenure.Told` is what a log tells of how far the call has come:
a call is not over without the conversation that releases what it acquired
(`released_of_outcome`).
-/

open Trace Dialogue

/-- A call that acquires, works and releases. What the work comes to is told by the state it is
in, and how it is entered by what is chosen then. -/
structure Tenure (ω ρ μ ε φ ι κ σ π α : Type) where
  acquire : Dialogue ω ρ μ ε φ
  enter : φ → ι → σ
  body : φ → Machine σ κ π
  result : φ → σ → Option (Except ε α)
  release : φ → Dialogue ω ρ μ ε Unit

namespace Tenure

variable {ω ρ μ ε φ ι κ σ π α : Type}

/-- How far a call has come, with the answers to the conversation it is in. -/
inductive Stage (ρ ε φ σ α : Type)
  | acquiring (answers : List ρ)
  | working (held : φ) (s : σ)
  | releasing (held : φ) (came : Except ε α) (answers : List ρ)

inductive Event (ρ ι κ : Type)
  | answer (answer : ρ)
  | enter (how : ι)
  | work (e : κ)
  | leave

inductive Out (ω ρ π : Type)
  | exchange (request : ω) (answer : ρ)
  | work (out : π)
  deriving DecidableEq

variable (b : Tenure ω ρ μ ε φ ι κ σ π α)

def step : Stage ρ ε φ σ α → Event ρ ι κ → Option (Stage ρ ε φ σ α × List (Out ω ρ π))
  | .acquiring answers, .answer answer =>
      (b.acquire.asks answers).map fun request =>
        (.acquiring (answers ++ [answer]), [.exchange request answer])
  | .acquiring answers, .enter how =>
      match b.acquire.outcome answers with
      | some (.ok held) => some (.working held (b.enter held how), [])
      | _ => none
  | .working held s, .work e =>
      ((b.body held).step s e).map fun (s', out) => (.working held s', out.map .work)
  | .working held s, .leave =>
      (b.result held s).map fun came => (.releasing held came [], [])
  | .releasing held came answers, .answer answer =>
      ((b.release held).asks answers).map fun request =>
        (.releasing held came (answers ++ [answer]), [.exchange request answer])
  | _, _ => none

def machine : Machine (Stage ρ ε φ σ α) (Event ρ ι κ) (Out ω ρ π) := ⟨b.step⟩

/-- What a call has come to: a failure of the work before one of the release. -/
def outcome : Stage ρ ε φ σ α → Option (Except ε α)
  | .acquiring answers =>
      match b.acquire.outcome answers with
      | some (.error error) => some (.error error)
      | _ => none
  | .working _ _ => none
  | .releasing held came answers =>
      ((b.release held).outcome answers).map fun released => came.bind fun value =>
        released.map fun _ => value

variable {b} {stage stage' : Stage ρ ε φ σ α} {out : List (Out ω ρ π)}

/-- What a step does. -/
inductive Stepped (b : Tenure ω ρ μ ε φ ι κ σ π α) :
    Stage ρ ε φ σ α → Event ρ ι κ → Stage ρ ε φ σ α → List (Out ω ρ π) → Prop
  | acquires {answers : List ρ} {request : ω} {answer : ρ}
      (asks : b.acquire.asks answers = some request) :
      Stepped b (.acquiring answers) (.answer answer) (.acquiring (answers ++ [answer]))
        [.exchange request answer]
  | enters {answers : List ρ} {held : φ} {how : ι}
      (acquired : b.acquire.outcome answers = some (.ok held)) :
      Stepped b (.acquiring answers) (.enter how) (.working held (b.enter held how)) []
  | works {held : φ} {s s' : σ} {e : κ} {did : List π}
      (stepped : (b.body held).step s e = some (s', did)) :
      Stepped b (.working held s) (.work e) (.working held s') (did.map .work)
  | leaves {held : φ} {s : σ} {came : Except ε α} (done : b.result held s = some came) :
      Stepped b (.working held s) .leave (.releasing held came []) []
  | releases {held : φ} {came : Except ε α} {answers : List ρ} {request : ω} {answer : ρ}
      (asks : (b.release held).asks answers = some request) :
      Stepped b (.releasing held came answers) (.answer answer)
        (.releasing held came (answers ++ [answer])) [.exchange request answer]

theorem step_cases {e : Event ρ ι κ} (stepped : b.step stage e = some (stage', out)) :
    Stepped b stage e stage' out := by
  cases stage with
  | acquiring answers =>
      cases e with
      | answer answer =>
          obtain ⟨request, asks, same⟩ := Option.map_eq_some_iff.mp stepped
          cases same
          exact .acquires asks
      | enter how =>
          rw [step] at stepped
          split at stepped <;> cases stepped
          next acquired => exact .enters acquired
      | work e => cases stepped
      | leave => cases stepped
  | working held s =>
      cases e with
      | answer answer => cases stepped
      | enter how => cases stepped
      | work e =>
          obtain ⟨⟨s', did⟩, goes, same⟩ := Option.map_eq_some_iff.mp stepped
          cases same
          exact .works goes
      | leave =>
          obtain ⟨came, done, same⟩ := Option.map_eq_some_iff.mp stepped
          cases same
          exact .leaves done
  | releasing held came answers =>
      cases e with
      | answer answer =>
          obtain ⟨request, asks, same⟩ := Option.map_eq_some_iff.mp stepped
          cases same
          exact .releases asks
      | enter how => cases stepped
      | work e => cases stepped
      | leave => cases stepped

/-- The exchanges of a log. -/
def exchanged (log : List (Out ω ρ π)) : List (ω × ρ) :=
  log.filterMap fun
    | .exchange request answer => some (request, answer)
    | .work _ => none

theorem exchanged_append (log log' : List (Out ω ρ π)) :
    exchanged (log ++ log') = exchanged log ++ exchanged log' := List.filterMap_append

theorem exchanged_work (did : List π) : exchanged (did.map (.work : π → Out ω ρ π)) = [] := by
  rw [exchanged, List.filterMap_map]
  exact List.filterMap_eq_nil_iff.mpr fun _ _ => rfl

/-- How far a call has come, and what it has exchanged until then. -/
inductive Told (b : Tenure ω ρ μ ε φ ι κ σ π α) : Stage ρ ε φ σ α → List (ω × ρ) → Prop
  | acquiring (answers : List ρ) :
      Told b (.acquiring answers) (exchanges (b.acquire.history answers))
  | working {answers : List ρ} {held : φ} {s : σ}
      (acquired : b.acquire.outcome answers = some (.ok held)) :
      Told b (.working held s) (exchanges (b.acquire.history answers))
  | releasing {answers : List ρ} {held : φ} {came : Except ε α} (answers' : List ρ)
      (acquired : b.acquire.outcome answers = some (.ok held)) :
      Told b (.releasing held came answers')
        (exchanges (b.acquire.history answers) ++ exchanges ((b.release held).history answers'))

theorem exchanges_nil {γ : Type} (d : Dialogue ω ρ μ ε γ) : exchanges (d.history []) = [] := by
  induction d with
  | mark point next ih => exact ih
  | _ => rfl

/-- An answer to what a program asks is one more exchange. -/
theorem exchanges_concat {γ : Type} {d : Dialogue ω ρ μ ε γ} {answers : List ρ} {request : ω}
    (asks : d.asks answers = some request) (answer : ρ) :
    exchanges (d.history (answers ++ [answer])) =
      exchanges (d.history answers) ++ [(request, answer)] := by
  induction d generalizing answers with
  | done value => cases asks
  | failed error => cases asks
  | paused => cases asks
  | mark point next ih => exact ih asks
  | ask request' next ih =>
      cases answers with
      | nil =>
          cases asks
          change (request, answer) :: exchanges ((next answer).history []) = [(request, answer)]
          rw [exchanges_nil]
      | cons first answers => exact congrArg ((request', first) :: ·) (ih first asks)

theorem told_run {es : List (Event ρ ι κ)}
    (ran : b.machine.run (.acquiring []) es = some (stage, out)) :
    Told b stage (exchanged out) := by
  apply Machine.run_induction (P := fun _ stage log => Told b stage (exchanged log)) ?_ ?_ ran
  · have start := Told.acquiring (b := b) []
    rwa [exchanges_nil] at start
  · intro _ stage log e stage' out told stepped
    rw [exchanged_append]
    generalize exchanged log = before at told
    cases step_cases stepped with
    | @acquires answers _ answer asks =>
        cases told
        change Told b _ (_ ++ [_])
        rw [← exchanges_concat asks]
        exact .acquiring _
    | enters acquired =>
        cases told
        change Told b _ (_ ++ [])
        rw [List.append_nil]
        exact .working acquired
    | works stepped =>
        cases told with
        | working acquired =>
            rw [exchanged_work, List.append_nil]
            exact .working acquired
    | @leaves _ _ came done =>
        cases told with
        | working acquired =>
            have released := @Told.releasing _ _ _ _ _ _ _ _ _ _ b _ _ came [] acquired
            rw [exchanges_nil] at released
            exact released
    | releases asks =>
        cases told with
        | releasing _ acquired =>
            change Told b _ (_ ++ [_])
            rw [List.append_assoc, ← exchanges_concat asks]
            exact .releasing _ acquired

/-- **What is acquired is released.** A call that is over has failed to acquire, or it has
released what it acquired, in full, whatever came of the work: it has exchanged nothing else. -/
theorem released_of_outcome {es : List (Event ρ ι κ)} {result : Except ε α}
    (ran : b.machine.run (.acquiring []) es = some (stage, out))
    (ends : b.outcome stage = some result) :
    (∃ answers error, b.acquire.outcome answers = some (.error error) ∧ result = .error error ∧
      exchanged out = exchanges (b.acquire.history answers)) ∨
    ∃ answers held, ∃ came : Except ε α, ∃ answers' released,
      b.acquire.outcome answers = some (.ok held) ∧
      (b.release held).outcome answers' = some released ∧
      (result = came.bind fun value => released.map fun _ => value) ∧
      exchanged out = exchanges (b.acquire.history answers) ++
        exchanges ((b.release held).history answers') := by
  have told := told_run ran
  generalize exchanged out = log at told ⊢
  cases told with
  | acquiring answers =>
      rw [outcome] at ends
      split at ends <;> cases ends
      next error failed => exact Or.inl ⟨answers, error, failed, rfl, rfl⟩
  | working acquired => cases ends
  | releasing answers' acquired =>
      obtain ⟨released, ended, same⟩ := Option.map_eq_some_iff.mp ends
      exact Or.inr ⟨_, _, _, answers', released, acquired, ended, same.symm, rfl⟩

end Tenure
