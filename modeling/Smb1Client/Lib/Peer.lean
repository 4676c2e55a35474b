import Smb1Client.Lib.Dialogue

/-!
# Conversations with a peer that keeps a state

A peer is the answers it may give to a request in each of its states, with the state each
answer leaves. `Dialogue.Meets` is total correctness against such a peer: whatever answers
it chooses, the program comes to a result, and the result and the state left are as the
postcondition says. `Meets.served` carries it to conversations, and the other rules take a
program apart by its structure.
-/

/-- Which answers a peer may give to a request, and the state each leaves it in. -/
abbrev Peer (σ ω ρ : Type) := σ → ω → ρ → σ → Prop

namespace Dialogue

variable {σ ω ρ μ ε α β : Type} {peer : Peer σ ω ρ} {s s' : σ}

/-- The peer gives a program these answers, each to what the program asks then, and is left
in this state. -/
def Served (peer : Peer σ ω ρ) : σ → Dialogue ω ρ μ ε α → List ρ → σ → Prop
  | s, mark _ next, answers, s' => Served peer s next answers s'
  | s, ask request next, answer :: answers, s' =>
      ∃ t, peer s request answer t ∧ Served peer t (next answer) answers s'
  | s, ask _ _, [], s' => s = s'
  | s, done _, answers, s' => answers = [] ∧ s = s'
  | s, failed _, answers, s' => answers = [] ∧ s = s'
  | s, paused, answers, s' => answers = [] ∧ s = s'

/-- Whatever the peer answers, the program comes to a result as the postcondition says. -/
def Meets (peer : Peer σ ω ρ) : σ → Dialogue ω ρ μ ε α → (σ → Except ε α → Prop) → Prop
  | s, done value, post => post s (.ok value)
  | s, failed error, post => post s (.error error)
  | _, paused, _ => False
  | s, ask request next, post =>
      ∀ answer t, peer s request answer t → Meets peer t (next answer) post
  | s, mark _ next, post => Meets peer s next post

/-- A program comes to a value, and the value and the state left are as this says. -/
def Returns (post : α → σ → Prop) (s : σ) (result : Except ε α) : Prop :=
  ∃ value, result = .ok value ∧ post value s

/-- A program fails, and the error and the state left are as this says. -/
def Raises (post : ε → σ → Prop) (s : σ) (result : Except ε α) : Prop :=
  ∃ error, result = .error error ∧ post error s

variable {d : Dialogue ω ρ μ ε α} {f : α → Dialogue ω ρ μ ε β}
  {post post' : σ → Except ε α → Prop}

/-- **Conversations.** A conversation that is not waiting for an answer has come to a result
as the postcondition says. -/
theorem Meets.served {answers : List ρ} (meets : Meets peer s d post)
    (served : Served peer s d answers s') :
    (∃ request, d.asks answers = some request) ∨
      ∃ result, d.outcome answers = some result ∧ post s' result := by
  induction d generalizing s answers with
  | done value =>
      obtain ⟨rfl, rfl⟩ := served
      exact Or.inr ⟨_, rfl, meets⟩
  | failed error =>
      obtain ⟨rfl, rfl⟩ := served
      exact Or.inr ⟨_, rfl, meets⟩
  | paused => exact meets.elim
  | mark point next ih => exact ih meets served
  | ask request next ih =>
      cases answers with
      | nil => exact Or.inl ⟨request, rfl⟩
      | cons answer answers =>
          obtain ⟨t, given, later⟩ := served
          exact ih answer (meets answer t given) later

/-- What a peer was asked, with what it answered. -/
def exchanges : List (Happening ω ρ μ) → List (ω × ρ)
  | [] => []
  | .answered request answer :: h => (request, answer) :: exchanges h
  | .sent _ :: h => exchanges h
  | .marked _ :: h => exchanges h

/-- The peer gives these answers to these requests, one after another. -/
def Gives (peer : Peer σ ω ρ) : σ → List (ω × ρ) → σ → Prop
  | s, [], s' => s = s'
  | s, (request, answer) :: given, s' => ∃ t, peer s request answer t ∧ Gives peer t given s'

/-- A conversation that ends is one of the peer's where its exchanges are. -/
theorem served_of_run {answers : List ρ} {result : Except ε α}
    (ran : d.run answers = some (result, []))
    (gives : Gives peer s (exchanges (d.history answers)) s') : Served peer s d answers s' := by
  induction d generalizing s answers with
  | done value =>
      cases ran
      exact ⟨rfl, gives⟩
  | failed error =>
      cases ran
      exact ⟨rfl, gives⟩
  | paused => cases ran
  | mark point next ih => exact ih ran gives
  | ask request next ih =>
      cases answers with
      | nil => cases ran
      | cons answer answers =>
          obtain ⟨t, given, later⟩ := gives
          exact ⟨t, given, ih answer ran later⟩

/-- A conversation that ends is not waiting. -/
theorem asks_of_run {answers rest : List ρ} {result : Except ε α}
    (ran : d.run answers = some (result, rest)) : d.asks answers = none := by
  induction d generalizing answers with
  | done value => rfl
  | failed error => rfl
  | paused => rfl
  | mark point next ih => exact ih ran
  | ask request next ih =>
      cases answers with
      | nil => cases ran
      | cons answer answers => exact ih answer ran

/-! ## Composition -/

theorem meets_pure {value : α} :
    Meets peer s (pure value : Dialogue ω ρ μ ε α) post ↔ post s (.ok value) := Iff.rfl

theorem meets_failed {error : ε} :
    Meets peer s (failed error : Dialogue ω ρ μ ε α) post ↔ post s (.error error) := Iff.rfl

theorem meets_ask {request : ω} {next : ρ → Dialogue ω ρ μ ε α} :
    Meets peer s (ask request next) post ↔
      ∀ answer t, peer s request answer t → Meets peer t (next answer) post := Iff.rfl

theorem meets_ofExcept {r : Except ε α} :
    Meets peer s (ofExcept r : Dialogue ω ρ μ ε α) post ↔ post s r := by
  cases r <;> exact Iff.rfl

theorem meets_note_bind {point : μ} {g : Unit → Dialogue ω ρ μ ε α} :
    Meets peer s (note point >>= g) post ↔ Meets peer s (g ()) post := Iff.rfl

theorem meets_bind {post : σ → Except ε β → Prop} :
    Meets peer s (d >>= f) post ↔ Meets peer s d fun t result =>
      match result with
      | .ok value => Meets peer t (f value) post
      | .error error => post t (.error error) := by
  change Meets peer s (d.bind f) post ↔ _
  induction d generalizing s with
  | done value => exact Iff.rfl
  | failed error => exact Iff.rfl
  | paused => exact Iff.rfl
  | mark point next ih => exact ih
  | ask request next ih =>
      exact forall_congr' fun answer => forall_congr' fun t => imp_congr_right fun _ => ih answer

theorem meets_attempt {post : σ → Except ε (Except ε α) → Prop} :
    Meets peer s d.attempt post ↔ Meets peer s d fun t result => post t (.ok result) := by
  induction d generalizing s with
  | done value => exact Iff.rfl
  | failed error => exact Iff.rfl
  | paused => exact Iff.rfl
  | mark point next ih => exact ih
  | ask request next ih =>
      exact forall_congr' fun answer => forall_congr' fun t => imp_congr_right fun _ => ih answer

/-- **Consequence.** -/
theorem Meets.mono (meets : Meets peer s d post)
    (weaker : ∀ t result, post t result → post' t result) : Meets peer s d post' := by
  induction d generalizing s with
  | done value => exact weaker s _ meets
  | failed error => exact weaker s _ meets
  | paused => exact meets.elim
  | mark point next ih => exact ih meets
  | ask request next ih => exact fun answer t given => ih answer (meets answer t given)

/-- **Sequence**, after a program that returns. -/
theorem Meets.bind {inter : α → σ → Prop} {post : σ → Except ε β → Prop}
    (first : Meets peer s d (Returns inter))
    (later : ∀ value t, inter value t → Meets peer t (f value) post) :
    Meets peer s (d >>= f) post := by
  rw [meets_bind]
  apply first.mono
  rintro t result ⟨value, rfl, holds⟩
  exact later value t holds

/-- **Sequence**, after a program that fails. -/
theorem Meets.bind_raises {inter : ε → σ → Prop} {post : σ → Except ε β → Prop}
    (first : Meets peer s d (Raises inter))
    (failure : ∀ error t, inter error t → post t (.error error)) :
    Meets peer s (d >>= f) post := by
  rw [meets_bind]
  apply first.mono
  rintro t result ⟨error, rfl, holds⟩
  exact failure error t holds

/-- **Loops.** An invariant of what is left of the list, kept by every turn. -/
theorem meets_forM {xs : List α} {f : α → Dialogue ω ρ μ ε Unit} (inv : List α → σ → Prop)
    (start : inv xs s)
    (turn : ∀ x rest t, x :: rest <:+ xs → inv (x :: rest) t →
      Meets peer t (f x) (Returns fun _ => inv rest)) :
    Meets peer s (xs.forM f) (Returns fun _ => inv []) := by
  induction xs generalizing s with
  | nil => exact ⟨(), rfl, start⟩
  | cons x xs ih =>
      change Meets peer s (f x >>= fun _ => xs.forM f) _
      apply (turn x xs s (List.suffix_refl _) start).bind
      intro _ t holds
      apply ih holds
      intro y rest t' tail holds'
      exact turn y rest t' (tail.trans (List.suffix_cons x xs)) holds'

/-- A program whose requests are put as requests of another kind. -/
def relabel {ω' : Type} (g : ω → ω') : Dialogue ω ρ μ ε α → Dialogue ω' ρ μ ε α
  | done value => done value
  | failed error => failed error
  | paused => paused
  | ask request next => ask (g request) fun answer => relabel g (next answer)
  | mark point next => mark point (relabel g next)

/-- A program that puts one request, and comes to what it makes of the answer. -/
def single (request : ω) (makes : ρ → Except ε α) : Dialogue ω ρ μ ε α :=
  ask request fun answer => ofExcept (makes answer)

variable {request request' : ω} {makes : ρ → Except ε α} {answers : List ρ}

theorem asks_single
    (asks : (single request makes : Dialogue ω ρ μ ε α).asks answers = some request') :
    answers = [] ∧ request' = request := by
  cases answers with
  | nil => exact ⟨rfl, (Option.some.inj asks).symm⟩
  | cons answer answers =>
      change (ofExcept (makes answer) : Dialogue ω ρ μ ε α).asks answers = _ at asks
      cases made : makes answer <;> rw [made] at asks <;> cases asks

/-- Once it has ended it has exchanged its request, and come to what it makes of the answer. -/
theorem ended_single {came : Except ε α}
    (ended : (single request makes : Dialogue ω ρ μ ε α).outcome answers = some came) :
    ∃ answer rest, answers = answer :: rest ∧ came = makes answer ∧
      exchanges ((single request makes : Dialogue ω ρ μ ε α).history answers) =
        [(request, answer)] := by
  cases answers with
  | nil => cases ended
  | cons answer answers =>
      have same : came = makes answer := by
        change (ofExcept (makes answer) : Dialogue ω ρ μ ε α).outcome answers = _ at ended
        cases made : makes answer <;> rw [made] at ended <;> exact (Option.some.inj ended).symm
      refine ⟨answer, answers, rfl, same, ?_⟩
      rw [single, history, exchanges, exchanges, history_ofExcept, exchanges]

-- A program is taken apart by the rules above from here on.
attribute [irreducible] Meets

end Dialogue
