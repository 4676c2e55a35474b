import Mathlib

/-!
# Conversations with a peer

A program that puts requests to a peer and goes on with its answers, as a tree: the peer
is every way of answering. What happens in a conversation is its history, and a contract
says which answers are considered and which requests are required after which history.
`Contract.Keeps` is the weakest precondition of a contract, by recursion on the program;
`Contract.Keeps.history` carries it to every history, and `keeps_bind` and its companions
compose it.
-/

/-- A program that puts requests `ω` to a peer and goes on with its answers `ρ`. A mark is
a point a reader of the history is told of. Nothing is followed past `paused`, which is
where a loop has taken all the turns it was given. -/
inductive Dialogue (ω ρ μ ε α : Type)
  | done (value : α)
  | failed (error : ε)
  | paused
  | ask (request : ω) (next : ρ → Dialogue ω ρ μ ε α)
  | mark (point : μ) (next : Dialogue ω ρ μ ε α)

namespace Dialogue

/-- What happens in a conversation. -/
inductive Happening (ω ρ μ : Type)
  | sent (request : ω)
  | answered (request : ω) (answer : ρ)
  | marked (point : μ)
  deriving DecidableEq

variable {ω ρ μ ε α β : Type}

/-! ## Programs -/

/-- Goes on with the value of a program, and stops where it fails. -/
def bind : Dialogue ω ρ μ ε α → (α → Dialogue ω ρ μ ε β) → Dialogue ω ρ μ ε β
  | done value, f => f value
  | failed error, _ => failed error
  | paused, _ => paused
  | ask request next, f => ask request fun answer => bind (next answer) f
  | mark point next, f => mark point (bind next f)

instance : Monad (Dialogue ω ρ μ ε) where
  pure := done
  bind := bind

/-- The result of a program as a value, so that what follows may look at a failure. -/
def attempt : Dialogue ω ρ μ ε α → Dialogue ω ρ μ ε (Except ε α)
  | done value => done (.ok value)
  | failed error => done (.error error)
  | paused => paused
  | ask request next => ask request fun answer => attempt (next answer)
  | mark point next => mark point (attempt next)

/-- A program that puts nothing to the peer. -/
def ofExcept : Except ε α → Dialogue ω ρ μ ε α
  | .ok value => done value
  | .error error => failed error

/-- Marks a point. -/
def note (point : μ) : Dialogue ω ρ μ ε Unit := mark point (done ())

/-! ## Histories -/

/-- What happens where the peer gives these answers, the conversation being broken off
where there is none. -/
def history : Dialogue ω ρ μ ε α → List ρ → List (Happening ω ρ μ)
  | done _, _ => []
  | failed _, _ => []
  | paused, _ => []
  | ask request _, [] => [.sent request]
  | ask request next, answer :: answers =>
      .sent request :: .answered request answer :: history (next answer) answers
  | mark point next, answers => .marked point :: history next answers

/-- What a program comes to where the peer gives these answers. -/
def outcome : Dialogue ω ρ μ ε α → List ρ → Option (Except ε α)
  | done value, _ => some (.ok value)
  | failed error, _ => some (.error error)
  | paused, _ => none
  | ask _ _, [] => none
  | ask _ next, answer :: answers => outcome (next answer) answers
  | mark _ next, answers => outcome next answers

/-- What a program asks next, after these answers. -/
def asks : Dialogue ω ρ μ ε α → List ρ → Option ω
  | done _, _ => none
  | failed _, _ => none
  | paused, _ => none
  | ask request _, [] => some request
  | ask _ next, answer :: answers => asks (next answer) answers
  | mark _ next, answers => asks next answers

/-! ## Runs -/

/-- What a program comes to, with the answers it leaves. -/
def run : Dialogue ω ρ μ ε α → List ρ → Option (Except ε α × List ρ)
  | done value, answers => some (.ok value, answers)
  | failed error, answers => some (.error error, answers)
  | paused, _ => none
  | ask _ _, [] => none
  | ask _ next, answer :: answers => run (next answer) answers
  | mark _ next, answers => run next answers

section Runs

variable {d : Dialogue ω ρ μ ε α} {f : α → Dialogue ω ρ μ ε β} {answers rest left : List ρ}
  {value : α} {error : ε}

theorem outcome_eq_run : d.outcome answers = (d.run answers).map (·.1) := by
  induction d generalizing answers with
  | done value => rfl
  | failed error => rfl
  | paused => rfl
  | mark point next ih => exact ih
  | ask request next ih =>
      cases answers with
      | nil => rfl
      | cons answer answers => exact ih answer

theorem bind_assoc {γ : Type} {g : β → Dialogue ω ρ μ ε γ} :
    (d >>= f) >>= g = d >>= fun value => f value >>= g := by
  change (d.bind f).bind g = d.bind fun value => (f value).bind g
  induction d with
  | done value => rfl
  | failed error => rfl
  | paused => rfl
  | mark point next ih => rw [bind, bind, bind, ih]
  | ask request next ih =>
      rw [bind, bind, bind]
      exact congrArg _ (funext ih)

theorem run_ofExcept {r : Except ε α} :
    (ofExcept r : Dialogue ω ρ μ ε α).run answers = some (r, answers) := by
  cases r <;> rfl

theorem history_ofExcept {r : Except ε α} :
    (ofExcept r : Dialogue ω ρ μ ε α).history answers = [] := by
  cases r <;> rfl

/-- What follows a value goes on with the answers that are left, and its history follows. -/
theorem bind_of_ok (ran : d.run answers = some (.ok value, rest)) :
    (d >>= f).run answers = (f value).run rest ∧
      (d >>= f).history answers = d.history answers ++ (f value).history rest := by
  change (d.bind f).run answers = _ ∧ (d.bind f).history answers = _
  induction d generalizing answers with
  | done value =>
      cases ran
      exact ⟨rfl, rfl⟩
  | failed error => cases ran
  | paused => cases ran
  | mark point next ih =>
      obtain ⟨runs, happens⟩ := ih ran
      exact ⟨runs, by simp only [bind, history, happens, List.cons_append]⟩
  | ask request next ih =>
      cases answers with
      | nil => cases ran
      | cons answer answers =>
          obtain ⟨runs, happens⟩ := ih answer ran
          exact ⟨runs, by simp only [bind, history, happens, List.cons_append]⟩

/-- Nothing follows a failure. -/
theorem bind_of_error (ran : d.run answers = some (.error error, rest)) :
    (d >>= f).run answers = some (.error error, rest) ∧
      (d >>= f).history answers = d.history answers := by
  change (d.bind f).run answers = _ ∧ (d.bind f).history answers = _
  induction d generalizing answers with
  | done value => cases ran
  | failed error =>
      cases ran
      exact ⟨rfl, rfl⟩
  | paused => cases ran
  | mark point next ih =>
      obtain ⟨runs, happens⟩ := ih ran
      exact ⟨runs, by simp only [bind, history, happens]⟩
  | ask request next ih =>
      cases answers with
      | nil => cases ran
      | cons answer answers =>
          obtain ⟨runs, happens⟩ := ih answer ran
          exact ⟨runs, by simp only [bind, history, happens]⟩

theorem bind_of_none (ran : d.run answers = none) :
    (d >>= f).run answers = none ∧ (d >>= f).history answers = d.history answers := by
  change (d.bind f).run answers = _ ∧ (d.bind f).history answers = _
  induction d generalizing answers with
  | done value => cases ran
  | failed error => cases ran
  | paused => exact ⟨rfl, rfl⟩
  | mark point next ih =>
      obtain ⟨runs, happens⟩ := ih ran
      exact ⟨runs, by simp only [bind, history, happens]⟩
  | ask request next ih =>
      cases answers with
      | nil => exact ⟨rfl, rfl⟩
      | cons answer answers =>
          obtain ⟨runs, happens⟩ := ih answer ran
          exact ⟨runs, by simp only [bind, history, happens]⟩

/-- A sequence begins with what happens in its first part. -/
theorem history_prefix_bind : d.history answers <+: (d >>= f).history answers := by
  cases ran : d.run answers with
  | none => rw [(bind_of_none ran).2]
  | some ended =>
      obtain ⟨_ | value, rest⟩ := ended
      · rw [(bind_of_error ran).2]
      · rw [(bind_of_ok ran).2]
        exact List.prefix_append _ _

/-- A sequence that came to something: its first part failed, or its second part came to it. -/
theorem of_run_bind {result : Except ε β} (ran : (d >>= f).run answers = some (result, left)) :
    (∃ error, d.run answers = some (.error error, left) ∧ result = .error error) ∨
      ∃ value rest, d.run answers = some (.ok value, rest) ∧
        (f value).run rest = some (result, left) := by
  cases first : d.run answers with
  | none => cases (bind_of_none first).1.symm.trans ran
  | some ended =>
      obtain ⟨_ | value, rest⟩ := ended
      · cases (bind_of_error first).1.symm.trans ran
        exact Or.inl ⟨_, rfl, rfl⟩
      · exact Or.inr ⟨value, rest, rfl, (bind_of_ok first).1.symm.trans ran⟩

theorem run_attempt : d.attempt.run answers = (d.run answers).map fun p => (.ok p.1, p.2) := by
  induction d generalizing answers with
  | done value => rfl
  | failed error => rfl
  | paused => rfl
  | mark point next ih => exact ih
  | ask request next ih =>
      cases answers with
      | nil => rfl
      | cons answer answers => exact ih answer

theorem history_attempt : d.attempt.history answers = d.history answers := by
  induction d generalizing answers with
  | done value => rfl
  | failed error => rfl
  | paused => rfl
  | mark point next ih => rw [attempt, history, history, ih]
  | ask request next ih =>
      cases answers with
      | nil => rfl
      | cons answer answers => rw [attempt, history, history, ih]

/-- A failure of an attempt is gone on with as a value is. -/
theorem bind_of_attempt {f : Except ε α → Dialogue ω ρ μ ε β} {result : Except ε α}
    (ran : d.run answers = some (result, rest)) :
    (d.attempt >>= f).run answers = (f result).run rest ∧
      (d.attempt >>= f).history answers = d.history answers ++ (f result).history rest := by
  have attempted : d.attempt.run answers = some (.ok result, rest) := by
    rw [run_attempt, ran]
    rfl
  obtain ⟨runs, happens⟩ := @bind_of_ok _ _ _ _ _ _ _ f _ _ _ attempted
  rw [history_attempt] at happens
  exact ⟨runs, happens⟩

theorem bind_of_attempt_none {f : Except ε α → Dialogue ω ρ μ ε β} (ran : d.run answers = none) :
    (d.attempt >>= f).run answers = none ∧
      (d.attempt >>= f).history answers = d.history answers := by
  have attempted : d.attempt.run answers = none := by
    rw [run_attempt, ran]
    rfl
  obtain ⟨runs, happens⟩ := @bind_of_none _ _ _ _ _ _ _ f _ attempted
  rw [history_attempt] at happens
  exact ⟨runs, happens⟩

/-- A program that came to something looks at no answers behind those it took. -/
theorem run_append {result : Except ε α} (ran : d.run answers = some (result, rest)) :
    d.run (answers ++ left) = some (result, rest ++ left) := by
  induction d generalizing answers with
  | done value =>
      cases ran
      rfl
  | failed error =>
      cases ran
      rfl
  | paused => cases ran
  | mark point next ih => exact ih ran
  | ask request next ih =>
      cases answers with
      | nil => cases ran
      | cons answer answers => exact ih answer ran

theorem run_cons {result : Except ε α} {answer : ρ} (ran : d.run [answer] = some (result, [])) :
    d.run (answer :: left) = some (result, left) := run_append ran

theorem bind_note {point : μ} {f : Unit → Dialogue ω ρ μ ε β} :
    (note point >>= f).run answers = (f ()).run answers ∧
      (note point >>= f).history answers = .marked point :: (f ()).history answers :=
  ⟨rfl, rfl⟩

end Runs

/-! ## Programs that end -/

/-- A program that comes to a result after at most so many requests, whatever the answers. -/
def Ends : Dialogue ω ρ μ ε α → ℕ → Prop
  | done _, _ => True
  | failed _, _ => True
  | paused, _ => False
  | ask _ next, k => 0 < k ∧ ∀ answer, Ends (next answer) (k - 1)
  | mark _ next, k => Ends next k

section Ends

variable {d : Dialogue ω ρ μ ε α} {f : α → Dialogue ω ρ μ ε β} {j k : ℕ} {answers : List ρ}

theorem Ends.mono (ends : d.Ends j) (more : j ≤ k) : d.Ends k := by
  induction d generalizing j k with
  | done value => trivial
  | failed error => trivial
  | paused => exact ends
  | mark point next ih => exact ih ends more
  | ask request next ih =>
      exact ⟨ends.1.trans_le more,
        fun answer => ih answer (ends.2 answer) (Nat.sub_le_sub_right more 1)⟩

/-- A sequence ends where its parts do. -/
theorem Ends.bind (ends : d.Ends j) (later : ∀ value, (f value).Ends k) :
    (d >>= f).Ends (j + k) := by
  change (d.bind f).Ends (j + k)
  induction d generalizing j with
  | done value => exact (later value).mono (Nat.le_add_left k j)
  | failed error => trivial
  | paused => exact ends
  | mark point next ih => exact ih ends
  | ask request next ih =>
      refine ⟨Nat.add_pos_left ends.1 k, fun answer => ?_⟩
      have tail := ih answer (ends.2 answer)
      have positive := ends.1
      rwa [show j - 1 + k = j + k - 1 by omega] at tail

theorem ends_ofExcept {r : Except ε α} : (ofExcept r : Dialogue ω ρ μ ε α).Ends 0 := by
  cases r <;> trivial

/-- A program that ends has come to a result once it has had its answers. -/
theorem Ends.run (ends : d.Ends k) (enough : k ≤ answers.length) :
    (d.run answers).isSome = true := by
  induction d generalizing k answers with
  | done value => rfl
  | failed error => rfl
  | paused => exact ends.elim
  | mark point next ih => exact ih ends enough
  | ask request next ih =>
      cases answers with
      | nil => exact absurd ends.1 (Nat.not_lt.mpr enough)
      | cons answer answers =>
          rw [List.length_cons] at enough
          exact ih answer (ends.2 answer) (Nat.sub_le_of_le_add enough)

end Ends

/-! ## Contracts -/

/-- Which answers and marks are considered after a history, and which requests are
required after one. -/
structure Contract (ω ρ μ : Type) where
  allowed : List (Happening ω ρ μ) → Happening ω ρ μ → Prop
  required : List (Happening ω ρ μ) → ω → Prop

namespace Contract

variable {c : Contract ω ρ μ} {h : List (Happening ω ρ μ)}

/-- A program started after a history puts only required requests to the peer, as long as
what happens is allowed, and its result is as the postcondition says. -/
def Keeps (c : Contract ω ρ μ) :
    List (Happening ω ρ μ) → Dialogue ω ρ μ ε α →
      (List (Happening ω ρ μ) → Except ε α → Prop) → Prop
  | h, done value, post => post h (.ok value)
  | h, failed error, post => post h (.error error)
  | _, paused, _ => True
  | h, ask request next, post => c.required h request ∧ ∀ answer,
      c.allowed (h ++ [.sent request]) (.answered request answer) →
        Keeps c (h ++ [.sent request, .answered request answer]) (next answer) post
  | h, mark point next, post =>
      c.allowed h (.marked point) → Keeps c (h ++ [.marked point]) next post

/-- What happens after a history, one happening after another, is allowed. -/
def Admits (c : Contract ω ρ μ) (h : List (Happening ω ρ μ)) :
    List (Happening ω ρ μ) → Prop
  | [] => True
  | .sent request :: rest => Admits c (h ++ [.sent request]) rest
  | e :: rest => c.allowed h e ∧ Admits c (h ++ [e]) rest

variable {post post' : List (Happening ω ρ μ) → Except ε α → Prop}

/-- **Histories of a program that keeps its contract.** Where all that happens is allowed,
every request is required when it is put, and the result is as the postcondition says. -/
theorem Keeps.history {d : Dialogue ω ρ μ ε α} {answers : List ρ} (keeps : c.Keeps h d post)
    (admitted : c.Admits h (d.history answers)) :
    (∀ before request after, d.history answers = before ++ .sent request :: after →
        c.required (h ++ before) request) ∧
      ∀ result, d.outcome answers = some result → post (h ++ d.history answers) result := by
  have none_sent : ∀ (before : List (Happening ω ρ μ)) request after,
      [] ≠ before ++ Happening.sent request :: after := by
    intro before request after
    exact (List.append_ne_nil_of_right_ne_nil _ (List.cons_ne_nil _ _)).symm
  induction d generalizing h answers with
  | done value =>
      refine ⟨fun before request after split => absurd split (none_sent _ _ _), ?_⟩
      intro result came
      cases came
      rwa [Dialogue.history, List.append_nil]
  | failed error =>
      refine ⟨fun before request after split => absurd split (none_sent _ _ _), ?_⟩
      intro result came
      cases came
      rwa [Dialogue.history, List.append_nil]
  | paused =>
      refine ⟨fun before request after split => absurd split (none_sent _ _ _), ?_⟩
      intro result came
      cases came
  | mark point next ih =>
      obtain ⟨here, later⟩ := admitted
      obtain ⟨requests, results⟩ := ih (keeps here) later
      refine ⟨fun before request after split => ?_, fun result came => ?_⟩
      · cases before with
        | nil => cases split
        | cons first before =>
            obtain ⟨rfl, tail⟩ := List.cons.inj split
            simpa using requests before request after tail
      · simpa [Dialogue.history] using results result came
  | ask request next ih =>
      obtain ⟨required, goes⟩ := keeps
      cases answers with
      | nil =>
          refine ⟨fun before asked after split => ?_, fun result came => ?_⟩
          · cases before with
            | nil =>
                cases split
                rwa [List.append_nil]
            | cons first before =>
                exact absurd (List.cons.inj split).2 (none_sent _ _ _)
          · cases came
      | cons answer answers =>
          obtain ⟨here, later⟩ := admitted
          have kept := goes answer here
          rw [List.append_assoc] at later
          obtain ⟨requests, results⟩ := ih answer kept later
          refine ⟨fun before asked after split => ?_, fun result came => ?_⟩
          · cases before with
            | nil =>
                cases split
                rwa [List.append_nil]
            | cons first before =>
                obtain ⟨rfl, tail⟩ := List.cons.inj split
                cases before with
                | nil => cases tail
                | cons second before =>
                    obtain ⟨rfl, rest⟩ := List.cons.inj tail
                    simpa using requests before asked after rest
          · simpa [Dialogue.history] using results result came

/-! ## Composition -/

theorem keeps_pure {value : α} :
    c.Keeps h (pure value : Dialogue ω ρ μ ε α) post ↔ post h (.ok value) := Iff.rfl

theorem keeps_failed {error : ε} :
    c.Keeps h (failed error : Dialogue ω ρ μ ε α) post ↔ post h (.error error) := Iff.rfl

theorem keeps_paused : c.Keeps h (paused : Dialogue ω ρ μ ε α) post := True.intro

theorem keeps_ask {request : ω} {next : ρ → Dialogue ω ρ μ ε α} :
    c.Keeps h (ask request next) post ↔ c.required h request ∧ ∀ answer,
      c.allowed (h ++ [.sent request]) (.answered request answer) →
        c.Keeps (h ++ [.sent request, .answered request answer]) (next answer) post := Iff.rfl

theorem keeps_note {point : μ} {post : List (Happening ω ρ μ) → Except ε Unit → Prop} :
    c.Keeps h (note point) post ↔
      (c.allowed h (.marked point) → post (h ++ [.marked point]) (.ok ())) := Iff.rfl

theorem keeps_bind {d : Dialogue ω ρ μ ε α} {f : α → Dialogue ω ρ μ ε β}
    {post : List (Happening ω ρ μ) → Except ε β → Prop} :
    c.Keeps h (d >>= f) post ↔ c.Keeps h d fun h' result =>
      match result with
      | .ok value => c.Keeps h' (f value) post
      | .error error => post h' (.error error) := by
  change c.Keeps h (d.bind f) post ↔ _
  induction d generalizing h with
  | done value => exact Iff.rfl
  | failed error => exact Iff.rfl
  | paused => exact Iff.rfl
  | ask request next ih =>
      exact and_congr_right fun _ => forall_congr' fun answer => imp_congr_right fun _ => ih answer
  | mark point next ih => exact imp_congr_right fun _ => ih

theorem keeps_attempt {d : Dialogue ω ρ μ ε α}
    {post : List (Happening ω ρ μ) → Except ε (Except ε α) → Prop} :
    c.Keeps h d.attempt post ↔ c.Keeps h d fun h' result => post h' (.ok result) := by
  induction d generalizing h with
  | done value => exact Iff.rfl
  | failed error => exact Iff.rfl
  | paused => exact Iff.rfl
  | ask request next ih =>
      exact and_congr_right fun _ => forall_congr' fun answer => imp_congr_right fun _ => ih answer
  | mark point next ih => exact imp_congr_right fun _ => ih

theorem keeps_ofExcept {r : Except ε α} :
    c.Keeps h (ofExcept r : Dialogue ω ρ μ ε α) post ↔ post h r := by
  cases r <;> exact Iff.rfl

/-- **Consequence.** A history only grows, so a postcondition may be weakened to what
follows from it after a longer history. -/
theorem Keeps.mono {d : Dialogue ω ρ μ ε α} (keeps : c.Keeps h d post)
    (weaker : ∀ h' result, h <+: h' → post h' result → post' h' result) : c.Keeps h d post' := by
  induction d generalizing h with
  | done value => exact weaker h _ (List.prefix_refl h) keeps
  | failed error => exact weaker h _ (List.prefix_refl h) keeps
  | paused => exact True.intro
  | ask request next ih =>
      refine ⟨keeps.1, fun answer here => ih answer (keeps.2 answer here) fun h' result grown => ?_⟩
      exact weaker h' result ((List.prefix_append h _).trans grown)
  | mark point next ih =>
      refine fun here => ih (keeps here) fun h' result grown => ?_
      exact weaker h' result ((List.prefix_append h _).trans grown)

/-- **Sequence.** What a program leaves, its value goes on from and its failure ends with. -/
theorem Keeps.bind {d : Dialogue ω ρ μ ε α} {f : α → Dialogue ω ρ μ ε β}
    {post' : List (Happening ω ρ μ) → Except ε β → Prop} (first : c.Keeps h d post)
    (ok : ∀ h' value, h <+: h' → post h' (.ok value) → c.Keeps h' (f value) post')
    (error : ∀ h' error, h <+: h' → post h' (.error error) → post' h' (.error error)) :
    c.Keeps h (d >>= f) post' := by
  rw [keeps_bind]
  apply first.mono
  intro h' result grown kept
  cases result with
  | error failure => exact error h' failure grown kept
  | ok value => exact ok h' value grown kept

/-- What a loop leaves: its invariant, or a failure as it may be. -/
def Leaves (inv : List (Happening ω ρ μ) → Prop) (broken : List (Happening ω ρ μ) → ε → Prop)
    (h : List (Happening ω ρ μ)) : Except ε Unit → Prop
  | .ok () => inv h
  | .error error => broken h error

/-- **Loops.** What every turn keeps, and lets a failure be, holds of the whole loop. -/
theorem keeps_forM {xs : List α} {f : α → Dialogue ω ρ μ ε Unit}
    {inv : List (Happening ω ρ μ) → Prop} {broken : List (Happening ω ρ μ) → ε → Prop}
    (start : inv h)
    (turn : ∀ x ∈ xs, ∀ h', h <+: h' → inv h' → c.Keeps h' (f x) (Leaves inv broken)) :
    c.Keeps h (xs.forM f) (Leaves inv broken) := by
  induction xs generalizing h with
  | nil => exact start
  | cons x xs ih =>
      change c.Keeps h (f x >>= fun _ => xs.forM f) _
      apply (turn x List.mem_cons_self h (List.prefix_refl h) start).bind
      · intro h' value grown kept
        apply ih kept
        intro y member h'' longer holds
        exact turn y (List.mem_cons_of_mem _ member) h'' (grown.trans longer) holds
      · exact fun h' error _ failed => failed

-- Past this point a program is taken apart by the rules above, never by evaluating it.
attribute [irreducible] Keeps

/-- Happenings each of which is allowed after those before it are admitted. -/
theorem admits_of_split {es : List (Happening ω ρ μ)}
    (allowed : ∀ before e after, es = before ++ e :: after → c.allowed (h ++ before) e) :
    c.Admits h es := by
  induction es generalizing h with
  | nil => exact True.intro
  | cons e es ih =>
      have here : c.allowed h e := by
        simpa using allowed [] e es rfl
      have later : c.Admits (h ++ [e]) es := by
        apply ih
        rintro before e' after rfl
        simpa using allowed (e :: before) e' after rfl
      cases e with
      | sent request => exact later
      | answered request answer => exact ⟨here, later⟩
      | marked point => exact ⟨here, later⟩

/-- Happenings each of which is allowed after any history are admitted. -/
theorem admits_of_forall {es : List (Happening ω ρ μ)}
    (allowed : ∀ e ∈ es, ∀ h, c.allowed h e) : c.Admits h es := by
  apply admits_of_split
  rintro before e after rfl
  exact allowed e (by simp) _

end Contract

end Dialogue
