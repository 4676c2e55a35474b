import Smb1Client.Lib.Trace
import Smb1Client.Resource.Progress

/-!
A `WriteProgress` with its tickets and its guard.

The handle is shared by the write that issues chunks, the tickets of its chunks and whoever
waits. Each takes the lock for a short while and goes on after it has let it go, so what they
do is a step at a time, in any order.
-/

namespace Smb1Client

open Trace

/-- Where a ticket is: at rest, or at one of the steps it takes when its request ends or it is
dropped. -/
inductive Stage where
  | rest
  | leave
  | depart
  | settle
  | signal
  deriving DecidableEq

/-- A chunk's ticket. `applied` is its flag, and `dropped` that nobody has it any more. -/
structure WriteTicket where
  offset : UInt64
  offered : ℕ
  applied : Bool
  dropped : Bool
  stage : Stage
  deriving DecidableEq

/-- The guard that says the write is still issuing, and what is left to do of its drop. -/
inductive Guard where
  | unclaimed
  | held
  | settle
  | signal
  | gone
  deriving DecidableEq

/-- A handle with its tickets and its guard. -/
structure WriteGroup where
  progress : WriteProgress
  tickets : List WriteTicket
  guard : Guard
  deriving DecidableEq

inductive GroupEvent where
  | register (base : UInt64)
  | chunk (offset : UInt64) (offered : ℕ)
  | ended (index : ℕ) (outcome : Except Error Reply)
  | drop (index : ℕ)
  | ticket (index : ℕ)
  | release
  | guard

/-- What happens to a group: a claim or its refusal, bytes acknowledged, a chunk leaving, and
the completion signal. -/
inductive GroupOut where
  | claimed
  | refused
  | acknowledged (offset : UInt64) (count : ℕ)
  | left (index : ℕ)
  | signal
  deriving DecidableEq

namespace WriteTicket

/-- The next step of a ticket that is not at rest. -/
def go (index : ℕ) (p : WriteProgress) (t : WriteTicket) :
    Option (WriteProgress × WriteTicket × List GroupOut) :=
  match t.stage with
  | .rest => none
  | .leave =>
      if t.applied then some (p, { t with stage := .rest }, [])
      else some (p, { t with applied := true, stage := .depart }, [])
  | .depart => some (p.depart, { t with stage := .settle }, [.left index])
  | .settle =>
      match p.settle with
      | none => some (p, { t with stage := .rest }, [])
      | some p => some (p, { t with stage := .signal }, [])
  | .signal => some (p, { t with stage := .rest }, [.signal])

/-- A ticket that has left the group. -/
def left (t : WriteTicket) : Bool := t.applied && t.stage ≠ .depart

end WriteTicket

namespace WriteGroup

def new : WriteGroup := ⟨.new, [], .unclaimed⟩

/-- Chunks are issued by the write that holds the guard. A ticket's request ends, or its last
holder drops it, while it is at rest. -/
def step (g : WriteGroup) : GroupEvent → Option (WriteGroup × List GroupOut)
  | .register base =>
      match g.progress.register base with
      | .error _ => some (g, [.refused])
      | .ok progress => some ({ g with progress, guard := .held }, [.claimed])
  | .chunk offset offered =>
      if g.guard = .held then
        some ({ g with
          progress := g.progress.chunk
          tickets := g.tickets ++ [⟨offset, offered, false, false, .rest⟩] }, [])
      else none
  | .ended index outcome =>
      match g.tickets[index]? with
      | none => none
      | some t =>
          if t.stage ≠ .rest ∨ t.dropped then none
          else
            some ({ g with
              progress := g.progress.record t.offset t.offered outcome
              tickets := g.tickets.set index { t with stage := .leave } },
              ((WriteProgress.accepted t.offered outcome).map (.acknowledged t.offset ·)).toList)
  | .drop index =>
      match g.tickets[index]? with
      | none => none
      | some t =>
          if t.stage ≠ .rest ∨ t.dropped then none
          else
            let stage : Stage := if t.applied then .rest else .leave
            some ({ g with tickets := g.tickets.set index { t with dropped := true, stage } }, [])
  | .ticket index =>
      match g.tickets[index]? with
      | none => none
      | some t =>
          (t.go index g.progress).map fun (progress, t, out) =>
            ({ g with progress, tickets := g.tickets.set index t }, out)
  | .release =>
      if g.guard = .held then
        some ({ g with progress := g.progress.release, guard := .settle }, [])
      else none
  | .guard =>
      match g.guard with
      | .settle =>
          match g.progress.settle with
          | none => some ({ g with guard := .gone }, [])
          | some progress => some ({ g with progress, guard := .signal }, [])
      | .signal => some ({ g with guard := .gone }, [.signal])
      | _ => none

def machine : Machine WriteGroup GroupEvent GroupOut where
  step := step

/-- The guard is gone, and every ticket has been dropped and has done what it does then. -/
def Quiet (g : WriteGroup) : Prop :=
  g.guard = .gone ∧ ∀ t ∈ g.tickets, t.dropped = true ∧ t.stage = .rest

instance (g : WriteGroup) : Decidable g.Quiet := by
  unfold Quiet
  infer_instance

/-- No chunk's offset is below where the write began. -/
def Above (g : WriteGroup) : GroupEvent → Prop
  | .chunk offset _ => g.progress.base ≤ offset
  | _ => True

instance (g : WriteGroup) (e : GroupEvent) : Decidable (g.Above e) := by
  cases e <;> unfold Above <;> infer_instance

variable {g g' : WriteGroup} {log : List GroupOut} {index : ℕ} {t t' : WriteTicket}

/-- What a step does. -/
inductive Stepped (g : WriteGroup) : GroupEvent → WriteGroup → List GroupOut → Prop
  | refused {base : UInt64} (claimed : g.progress.registered = true) :
      Stepped g (.register base) g [.refused]
  | claimed {base : UInt64} (unclaimed : g.progress.registered = false) :
      Stepped g (.register base)
        { g with
          progress := { g.progress with registered := true, issuing := true, base }
          guard := .held } [.claimed]
  | chunk {offset : UInt64} {offered : ℕ} (held : g.guard = .held) :
      Stepped g (.chunk offset offered)
        { g with
          progress := g.progress.chunk
          tickets := g.tickets ++ [⟨offset, offered, false, false, .rest⟩] } []
  | ended {index : ℕ} {outcome : Except Error Reply} {t : WriteTicket}
      (found : g.tickets[index]? = some t) (rests : t.stage = .rest) :
      Stepped g (.ended index outcome)
        { g with
          progress := g.progress.record t.offset t.offered outcome
          tickets := g.tickets.set index { t with stage := .leave } }
        ((WriteProgress.accepted t.offered outcome).map (.acknowledged t.offset ·)).toList
  | dropped {index : ℕ} {t : WriteTicket} (found : g.tickets[index]? = some t)
      (rests : t.stage = .rest) :
      Stepped g (.drop index)
        { g with
          tickets := g.tickets.set index
            { t with dropped := true, stage := if t.applied then .rest else .leave } } []
  | stays {index : ℕ} {t : WriteTicket} (found : g.tickets[index]? = some t)
      (leaves : t.stage = .leave) (applied : t.applied = true) :
      Stepped g (.ticket index)
        { g with tickets := g.tickets.set index { t with stage := .rest } } []
  | leaves {index : ℕ} {t : WriteTicket} (found : g.tickets[index]? = some t)
      (leaves : t.stage = .leave) (unapplied : t.applied = false) :
      Stepped g (.ticket index)
        { g with tickets := g.tickets.set index { t with applied := true, stage := .depart } } []
  | departs {index : ℕ} {t : WriteTicket} (found : g.tickets[index]? = some t)
      (departs : t.stage = .depart) :
      Stepped g (.ticket index)
        { g with
          progress := g.progress.depart
          tickets := g.tickets.set index { t with stage := .settle } } [.left index]
  | waits {index : ℕ} {t : WriteTicket} (found : g.tickets[index]? = some t)
      (looks : t.stage = .settle) (waits : g.progress.settle = none) :
      Stepped g (.ticket index)
        { g with tickets := g.tickets.set index { t with stage := .rest } } []
  | declares {index : ℕ} {t : WriteTicket} {progress : WriteProgress}
      (found : g.tickets[index]? = some t) (looks : t.stage = .settle)
      (settles : g.progress.settle = some progress) :
      Stepped g (.ticket index)
        { g with progress, tickets := g.tickets.set index { t with stage := .signal } } []
  | signals {index : ℕ} {t : WriteTicket} (found : g.tickets[index]? = some t)
      (signals : t.stage = .signal) :
      Stepped g (.ticket index) { g with tickets := g.tickets.set index { t with stage := .rest } }
        [.signal]
  | release (held : g.guard = .held) :
      Stepped g .release { g with progress := g.progress.release, guard := .settle } []
  | guardWaits (looks : g.guard = .settle) (waits : g.progress.settle = none) :
      Stepped g .guard { g with guard := .gone } []
  | guardDeclares {progress : WriteProgress} (looks : g.guard = .settle)
      (settles : g.progress.settle = some progress) :
      Stepped g .guard { g with progress, guard := .signal } []
  | guardSignals (signals : g.guard = .signal) :
      Stepped g .guard { g with guard := .gone } [.signal]

theorem step_cases {e : GroupEvent} {out : List GroupOut} (stepped : g.step e = some (g', out)) :
    Stepped g e g' out := by
  cases e with
  | register base =>
      rw [step, WriteProgress.register] at stepped
      split at stepped
      · next error refuses =>
          split at refuses <;> cases refuses
          next claimed =>
            cases stepped
            exact Stepped.refused claimed
      · next progress claims =>
          split at claims <;> cases claims
          next unclaimed =>
            cases stepped
            exact Stepped.claimed (Bool.eq_false_iff.mpr unclaimed)
  | chunk offset offered =>
      rw [step] at stepped
      split at stepped <;> cases stepped
      next held => exact Stepped.chunk held
  | ended index outcome =>
      rw [step] at stepped
      split at stepped
      · cases stepped
      · next t found =>
          split at stepped <;> cases stepped
          next rests => exact Stepped.ended found (not_not.mp (not_or.mp rests).1)
  | drop index =>
      rw [step] at stepped
      split at stepped
      · cases stepped
      · next t found =>
          split at stepped <;> cases stepped
          next rests => exact Stepped.dropped found (not_not.mp (not_or.mp rests).1)
  | ticket index =>
      rw [step] at stepped
      split at stepped
      · cases stepped
      · next t found =>
          obtain ⟨⟨progress, t', out⟩, goes, same⟩ := Option.map_eq_some_iff.mp stepped
          cases same
          rw [WriteTicket.go] at goes
          split at goes
          · cases goes
          · next leaves =>
              split at goes <;> cases goes
              · next applied => exact Stepped.stays found leaves applied
              · next unapplied =>
                  exact Stepped.leaves found leaves (Bool.eq_false_iff.mpr unapplied)
          · next departs =>
              cases goes
              exact Stepped.departs found departs
          · next looks =>
              split at goes <;> cases goes
              · next waits => exact Stepped.waits found looks waits
              · next settles => exact Stepped.declares found looks settles
          · next signals =>
              cases goes
              exact Stepped.signals found signals
  | release =>
      rw [step] at stepped
      split at stepped <;> cases stepped
      next held => exact Stepped.release held
  | guard =>
      rw [step] at stepped
      split at stepped
      · next looks =>
          split at stepped <;> cases stepped
          · next waits => exact Stepped.guardWaits looks waits
          · next settles => exact Stepped.guardDeclares looks settles
      · next signals =>
          cases stepped
          exact Stepped.guardSignals signals
      · cases stepped

/-! ## One ticket among the others -/

/-- A ticket takes a step in its place. -/
theorem countP_set_add {α : Type} {l : List α} {i : ℕ} {x y : α} {p : α → Bool}
    (found : l[i]? = some x) :
    (l.set i y).countP p + (if p x then 1 else 0) = l.countP p + if p y then 1 else 0 := by
  induction l generalizing i with
  | nil => cases found
  | cons z l ih =>
      cases i with
      | zero =>
          cases found
          simp only [List.set_cons_zero, List.countP_cons]
          omega
      | succ i =>
          have rest := ih found
          simp only [List.set_cons_succ, List.countP_cons]
          omega

theorem countP_eraseIdx_add {α : Type} {l : List α} {i : ℕ} {x : α} {p : α → Bool}
    (found : l[i]? = some x) : l.countP p = (l.eraseIdx i).countP p + if p x then 1 else 0 := by
  induction l generalizing i with
  | nil => cases found
  | cons z l ih =>
      cases i with
      | zero =>
          cases found
          rw [List.eraseIdx_cons_zero, List.countP_cons]
      | succ i =>
          rw [List.eraseIdx_cons_succ, List.countP_cons, List.countP_cons, ih found]
          omega

theorem mem_set_cases {α : Type} {l : List α} {i : ℕ} {x y : α} (member : x ∈ l.set i y) :
    x = y ∨ x ∈ l := (List.mem_or_eq_of_mem_set member).symm

theorem any_set {α : Type} {l : List α} {i j : ℕ} {x y : α} {p : α → Bool}
    (found : l[i]? = some x) :
    ((l.set i y)[j]?.any p) = if i = j then p y else (l[j]?.any p) := by
  rw [List.getElem?_set]
  by_cases here : i = j
  · rw [if_pos here, if_pos here, if_pos (List.getElem?_eq_some_iff.mp found).1, Option.any_some]
  · rw [if_neg here, if_neg here]

/-- The account of a group: who is outstanding, who has yet to look whether all have left, and
who has yet to signal. -/
structure Sound (g : WriteGroup) (log : List GroupOut) : Prop where
  outstanding : g.progress.outstanding = g.tickets.countP (!·.left)
  registered : g.progress.registered = true ↔ g.guard ≠ .unclaimed
  issuing : g.progress.issuing = true ↔ g.guard = .held
  unclaimed : g.guard = .unclaimed → g.tickets = []
  applied : ∀ t ∈ g.tickets, t.applied = false →
    t.stage = .leave ∨ t.stage = .rest ∧ t.dropped = false
  declared : g.progress.finalPrefix.isSome = true →
    g.guard ≠ .unclaimed ∧ g.guard ≠ .held ∧ g.progress.outstanding = 0
  open_ : g.progress.finalPrefix = none → g.guard ≠ .unclaimed → g.guard ≠ .held →
    g.progress.outstanding = 0 → g.guard = .settle ∨ 0 < g.tickets.countP (·.stage = .settle)
  signals : log.count .signal + g.tickets.countP (·.stage = .signal) +
    (if g.guard = .signal then 1 else 0) = g.progress.finalPrefix.toList.length
  lefts : ∀ index, log.count (.left index) =
    if (g.tickets[index]?.any WriteTicket.left) then 1 else 0

theorem sound_new : Sound new [] := by
  refine ⟨rfl, ?_, ?_, fun _ => rfl, fun t none => absurd none List.not_mem_nil, ?_, ?_, rfl,
    fun index => rfl⟩ <;> simp [new, WriteProgress.new]

/-- What settling does where it does something. -/
theorem settle_cases (p : WriteProgress) :
    p.settle = none ∧ (p.issuing = true ∨ 0 < p.outstanding ∨ p.finalPrefix.isSome = true) ∨
      p.issuing = false ∧ p.outstanding = 0 ∧ p.finalPrefix = none ∧
        p.settle = some { p with finalPrefix := some p.covered.prefixLen } := by
  rw [WriteProgress.settle]
  by_cases waits : p.issuing = true ∨ 0 < p.outstanding ∨ p.finalPrefix.isSome = true
  · rw [if_pos waits]
    exact Or.inl ⟨rfl, waits⟩
  · rw [if_neg waits]
    obtain ⟨unissuing, rest⟩ := not_or.mp waits
    obtain ⟨none, undeclared⟩ := not_or.mp rest
    exact Or.inr ⟨Bool.eq_false_iff.mpr unissuing, Nat.eq_zero_of_not_pos none,
      Option.not_isSome_iff_eq_none.mp undeclared, rfl⟩

/-- The fields of a handle that the account of a group is about. -/
structure SameAccount (p p' : WriteProgress) : Prop where
  outstanding : p'.outstanding = p.outstanding
  issuing : p'.issuing = p.issuing
  registered : p'.registered = p.registered
  finalPrefix : p'.finalPrefix = p.finalPrefix

theorem sameAccount_record (p : WriteProgress) (offset : UInt64) (offered : ℕ)
    (outcome : Except Error Reply) : SameAccount p (p.record offset offered outcome) := by
  rw [WriteProgress.record]
  split <;> exact ⟨rfl, rfl, rfl, rfl⟩

/-- Entries that are neither a signal nor a chunk leaving. -/
def QuietOut (out : List GroupOut) : Prop :=
  ∀ entry ∈ out, entry ≠ .signal ∧ ∀ index, entry ≠ .left index

theorem QuietOut.count_eq {out : List GroupOut} (quiet : QuietOut out) :
    (log ++ out).count .signal = log.count .signal ∧
      ∀ index, (log ++ out).count (.left index) = log.count (.left index) := by
  constructor
  · rw [List.count_append, Nat.add_eq_left, List.count_eq_zero]
    exact fun member => (quiet _ member).1 rfl
  · intro index
    rw [List.count_append, Nat.add_eq_left, List.count_eq_zero]
    exact fun member => (quiet _ member).2 index rfl

theorem Sound.logged {out : List GroupOut} (sound : Sound g log) (quiet : QuietOut out) :
    Sound g (log ++ out) := by
  refine ⟨sound.outstanding, sound.registered, sound.issuing, sound.unclaimed, sound.applied,
    sound.declared, sound.open_, ?_, fun index => ?_⟩
  · rw [quiet.count_eq.1]
    exact sound.signals
  · rw [quiet.count_eq.2]
    exact sound.lefts index

/-- A ticket changes its stage, and neither leaves nor has to settle or signal. -/
theorem Sound.moved {progress : WriteProgress} {out : List GroupOut} (sound : Sound g log)
    (found : g.tickets[index]? = some t) (same : SameAccount g.progress progress)
    (left : t'.left = t.left) (unsettled : t.stage ≠ .settle ∧ t'.stage ≠ .settle)
    (unsignalled : t.stage ≠ .signal ∧ t'.stage ≠ .signal)
    (applied : t'.applied = false → t'.stage = .leave ∨ t'.stage = .rest ∧ t'.dropped = false)
    (quiet : QuietOut out) :
    Sound { g with progress, tickets := g.tickets.set index t' } (log ++ out) := by
  have inGroup := @countP_set_add WriteTicket _ _ _ t' (!·.left) found
  have settling := @countP_set_add WriteTicket _ _ _ t' (·.stage = .settle) found
  have signalling := @countP_set_add WriteTicket _ _ _ t' (·.stage = .signal) found
  rw [left] at inGroup
  simp only [unsettled.1, unsettled.2, decide_false, Bool.false_eq_true, if_false] at settling
  simp only [unsignalled.1, unsignalled.2, decide_false, Bool.false_eq_true, if_false] at signalling
  refine ⟨?_, ?_, ?_, fun none => ?_, fun x member => ?_, ?_, ?_, ?_, fun i => ?_⟩
  · dsimp only
    rw [same.outstanding, sound.outstanding]
    omega
  · dsimp only
    rw [same.registered]
    exact sound.registered
  · dsimp only
    rw [same.issuing]
    exact sound.issuing
  · rw [sound.unclaimed none] at found
    cases found
  · rcases mem_set_cases member with rfl | old
    · exact applied
    · exact sound.applied x old
  · dsimp only
    rw [same.finalPrefix, same.outstanding]
    exact sound.declared
  · dsimp only
    rw [same.finalPrefix, same.outstanding]
    intro undeclared claimed unheld none
    rcases sound.open_ undeclared claimed unheld none with guard | ticket
    · exact Or.inl guard
    · right
      omega
  · have signals := sound.signals
    dsimp only
    rw [quiet.count_eq.1, same.finalPrefix]
    omega
  · dsimp only
    rw [quiet.count_eq.2, sound.lefts i, any_set found]
    by_cases here : index = i
    · rw [if_pos here, ← here, found, Option.any_some, left]
    · rw [if_neg here]

/-- A ticket that has begun to leave has its flag set. -/
theorem Sound.applied_of_stage (sound : Sound g log) (found : g.tickets[index]? = some t)
    (leaving : t.stage ≠ .leave) (moving : t.stage ≠ .rest) : t.applied = true := by
  by_contra unapplied
  rcases sound.applied t (List.mem_of_getElem? found) (Bool.eq_false_iff.mpr unapplied) with
    leaves | ⟨rests, -⟩
  · exact leaving leaves
  · exact moving rests

/-- A ticket looks whether all have left: it or another has done so, or some have not. -/
theorem Sound.ticketSettles (sound : Sound g log) (found : g.tickets[index]? = some t)
    (stage : t.stage = .settle) :
    (g.progress.settle = none →
      Sound { g with tickets := g.tickets.set index { t with stage := .rest } } log) ∧
    (∀ progress, g.progress.settle = some progress →
      Sound { g with progress, tickets := g.tickets.set index { t with stage := .signal } }
        log) := by
  have applied : t.applied = true :=
    sound.applied_of_stage found (by simp [stage]) (by simp [stage])
  have claimed : g.guard ≠ .unclaimed := by
    intro none
    rw [sound.unclaimed none] at found
    cases found
  have left : t.left = true := by rw [WriteTicket.left, applied, stage]; rfl
  have goes : ∀ stage' : Stage, stage' ≠ .depart →
      WriteTicket.left { t with stage := stage' } = true := by
    intro stage' stays
    rw [WriteTicket.left]
    simp [applied, stays]
  have lefts : ∀ stage' : Stage, stage' ≠ .depart → ∀ i : ℕ,
      ((g.tickets.set index { t with stage := stage' })[i]?.any WriteTicket.left) =
        (g.tickets[i]?.any WriteTicket.left) := by
    intro stage' stays i
    rw [any_set found]
    by_cases here : index = i
    · rw [if_pos here, ← here, found, Option.any_some, left, goes stage' stays]
    · rw [if_neg here]
  have keeps : ∀ stage' : Stage, ∀ x ∈ g.tickets.set index { t with stage := stage' },
      x.applied = false → x.stage = .leave ∨ x.stage = .rest ∧ x.dropped = false := by
    intro stage' x member unapplied
    rcases mem_set_cases member with rfl | old
    · rw [applied] at unapplied
      cases unapplied
    · exact sound.applied x old unapplied
  constructor
  · intro waits
    have inGroup := @countP_set_add WriteTicket _ _ _ { t with stage := .rest } (!·.left) found
    have signalling :=
        @countP_set_add WriteTicket _ _ _ { t with stage := .rest } (·.stage = .signal) found
    rw [left, goes .rest (by decide)] at inGroup
    simp only [stage, reduceCtorEq, decide_false, Bool.false_eq_true, if_false] at signalling
    refine ⟨?_, sound.registered, sound.issuing, fun none => absurd none claimed, keeps .rest,
      sound.declared, fun undeclared _ unheld none => ?_, ?_, fun i => ?_⟩
    · have outstanding := sound.outstanding
      dsimp only
      omega
    · exfalso
      rcases settle_cases g.progress with ⟨-, issuing | some | declared⟩ | ⟨-, -, -, settles⟩
      · exact unheld (sound.issuing.mp issuing)
      · dsimp only at none
        omega
      · rw [undeclared] at declared
        cases declared
      · rw [waits] at settles
        cases settles
    · have signals := sound.signals
      dsimp only
      omega
    · dsimp only
      rw [lefts .rest (by decide)]
      exact sound.lefts i
  · intro progress settles
    rcases settle_cases g.progress with ⟨waits, -⟩ | ⟨unissuing, none, undeclared, settles'⟩
    · rw [waits] at settles
      cases settles
    rw [settles'] at settles
    cases settles
    have inGroup := @countP_set_add WriteTicket _ _ _ { t with stage := .signal } (!·.left) found
    have signalling :=
        @countP_set_add WriteTicket _ _ _ { t with stage := .signal } (·.stage = .signal) found
    rw [left, goes .signal (by decide)] at inGroup
    simp only [stage, reduceCtorEq, decide_false, Bool.false_eq_true, if_false, decide_true,
      if_true]
      at signalling
    refine ⟨?_, sound.registered, sound.issuing, fun none => absurd none claimed, keeps .signal,
      fun _ => ⟨claimed, fun held => ?_, none⟩, fun undeclared => (by cases undeclared), ?_,
      fun i => ?_⟩
    · have outstanding := sound.outstanding
      dsimp only
      omega
    · rw [sound.issuing.mpr held] at unissuing
      cases unissuing
    · have signals := sound.signals
      rw [undeclared, Option.toList_none, List.length_nil] at signals
      rw [Option.toList_some, List.length_singleton]
      dsimp only
      omega
    · dsimp only
      rw [lefts .signal (by decide)]
      exact sound.lefts i

/-- A ticket that leaves was in the group, and has left it for good. -/
theorem Sound.departs (sound : Sound g log) (found : g.tickets[index]? = some t)
    (stage : t.stage = .depart) : 1 ≤ g.progress.outstanding ∧
      Sound { g with
        progress := g.progress.depart
        tickets := g.tickets.set index { t with stage := .settle } } (log ++ [.left index]) := by
  let t' : WriteTicket := { t with stage := .settle }
  have applied : t.applied = true :=
    sound.applied_of_stage found (by simp [stage]) (by simp [stage])
  have stays : t.left = false := by rw [WriteTicket.left, stage]; simp
  have left : t'.left = true := by simp [t', WriteTicket.left, applied]
  have inGroup := @countP_set_add WriteTicket _ _ _ t' (fun t => !t.left) found
  have settling := @countP_set_add WriteTicket _ _ _ t' (·.stage = .settle) found
  have signalling := @countP_set_add WriteTicket _ _ _ t' (·.stage = .signal) found
  rw [stays, left] at inGroup
  simp only [stage, t', reduceCtorEq, decide_false, decide_true, Bool.not_false, Bool.not_true,
    Bool.false_eq_true, if_false, if_true] at inGroup settling signalling
  have outstanding := sound.outstanding
  have claimed : g.guard ≠ .unclaimed := by
    intro none
    rw [sound.unclaimed none] at found
    cases found
  have undeclared : g.progress.finalPrefix = none := by
    by_contra declared
    have none := (sound.declared (Option.isSome_iff_ne_none.mpr declared)).2.2
    omega
  refine ⟨by omega, ?_, sound.registered, sound.issuing, fun none => absurd none claimed,
    fun x member unapplied => ?_, fun declared => ?_, fun _ _ _ _ => Or.inr ?_, ?_, fun i => ?_⟩
  · dsimp only [WriteProgress.depart]
    omega
  · rcases mem_set_cases member with rfl | old
    · rw [applied] at unapplied
      cases unapplied
    · exact sound.applied x old unapplied
  · dsimp only [WriteProgress.depart] at declared
    rw [undeclared] at declared
    cases declared
  · dsimp only
    omega
  · have signals := sound.signals
    dsimp only [WriteProgress.depart]
    rw [List.count_append, List.count_singleton, if_neg (by simp)]
    omega
  · dsimp only
    rw [List.count_append, List.count_singleton, sound.lefts i, any_set found]
    by_cases here : index = i
    · rw [if_pos here, ← here, found, Option.any_some, stays]
      simp [WriteTicket.left, applied]
    · rw [if_neg here]
      simp [here]

theorem Sound.ticketSignals (sound : Sound g log) (found : g.tickets[index]? = some t)
    (stage : t.stage = .signal) :
    Sound { g with tickets := g.tickets.set index { t with stage := .rest } }
      (log ++ [.signal]) := by
  let t' : WriteTicket := { t with stage := .rest }
  have applied : t.applied = true :=
    sound.applied_of_stage found (by simp [stage]) (by simp [stage])
  have left : t'.left = t.left := by simp [t', WriteTicket.left, stage]
  have inGroup := @countP_set_add WriteTicket _ _ _ t' (fun t => !t.left) found
  have settling := @countP_set_add WriteTicket _ _ _ t' (·.stage = .settle) found
  have signalling := @countP_set_add WriteTicket _ _ _ t' (·.stage = .signal) found
  rw [left] at inGroup
  simp only [stage, t', reduceCtorEq, decide_false, decide_true, Bool.false_eq_true, if_false,
    if_true] at settling signalling
  have outstanding := sound.outstanding
  refine ⟨?_, sound.registered, sound.issuing, fun none => ?_, fun x member unapplied => ?_,
    sound.declared, fun undeclared claimed unheld none => ?_, ?_, fun i => ?_⟩
  · dsimp only
    change _ = (g.tickets.set index t').countP _
    omega
  · rw [sound.unclaimed none] at found
    cases found
  · rcases mem_set_cases member with rfl | old
    · rw [applied] at unapplied
      cases unapplied
    · exact sound.applied x old unapplied
  · rcases sound.open_ undeclared claimed unheld none with guard | ticket
    · exact Or.inl guard
    · right
      dsimp only
      omega
  · have signals := sound.signals
    dsimp only
    rw [List.count_append, List.count_singleton, if_pos (by simp)]
    omega
  · dsimp only
    rw [List.count_append, List.count_singleton, if_neg (by simp), Nat.add_zero, sound.lefts i]
    change _ = if (g.tickets.set index t')[i]?.any WriteTicket.left = true then _ else _
    rw [any_set found]
    by_cases here : index = i
    · rw [if_pos here, ← here, found, Option.any_some, left]
    · rw [if_neg here]

/-- A new ticket is in the group. -/
theorem Sound.chunk {offset : UInt64} {offered : ℕ} (sound : Sound g log) (held : g.guard = .held) :
    Sound { g with
      progress := g.progress.chunk
      tickets := g.tickets ++ [⟨offset, offered, false, false, .rest⟩] } (log ++ []) := by
  rw [List.append_nil]
  have undeclared : g.progress.finalPrefix = none := by
    by_contra declared
    exact (sound.declared (Option.isSome_iff_ne_none.mpr declared)).2.1 held
  refine ⟨?_, sound.registered, sound.issuing, fun none => ?_, fun x member unapplied => ?_,
    fun declared => ?_, fun _ _ unheld => absurd held unheld, ?_, fun i => ?_⟩
  · simp only [WriteProgress.chunk, List.countP_append, sound.outstanding, List.countP_singleton,
      WriteTicket.left, Bool.false_and, Bool.not_false, if_true]
  · dsimp only at none
    rw [held] at none
    cases none
  · rcases List.mem_append.mp member with old | new
    · exact sound.applied x old unapplied
    · obtain rfl := List.mem_singleton.mp new
      exact Or.inr ⟨rfl, rfl⟩
  · dsimp only [WriteProgress.chunk] at declared
    rw [undeclared] at declared
    cases declared
  · have signals := sound.signals
    simpa only [WriteProgress.chunk, List.countP_append, List.countP_singleton, reduceCtorEq,
      decide_false, Bool.false_eq_true, if_false, Nat.add_zero] using signals
  · dsimp only
    rw [sound.lefts i]
    rcases Nat.lt_or_ge i g.tickets.length with below | past
    · rw [List.getElem?_append_left below]
    · rw [List.getElem?_append_right past, List.getElem?_eq_none past]
      rcases Nat.eq_or_lt_of_le past with here | after
      · rw [← here, Nat.sub_self]
        rfl
      · rw [List.getElem?_eq_none (by rw [List.length_singleton]; omega)]

theorem Sound.guardLooks (sound : Sound g log) (looks : g.guard = .settle) :
    (g.progress.settle = none → Sound { g with guard := .gone } (log ++ [])) ∧
      ∀ progress, g.progress.settle = some progress →
        Sound { g with progress, guard := .signal } (log ++ []) := by
  have registered := sound.registered
  have issuing := sound.issuing
  have signals := sound.signals
  rw [looks] at registered issuing signals
  rw [List.append_nil]
  constructor
  · intro waits
    refine ⟨sound.outstanding, by simpa using registered, by simpa using issuing,
      fun none => (by cases none), sound.applied, fun declared => ?_, fun undeclared _ _ none => ?_,
      signals, sound.lefts⟩
    · exact ⟨(by simp), (by simp), (sound.declared declared).2.2⟩
    · exfalso
      rcases settle_cases g.progress with ⟨-, issues | some | declared⟩ | ⟨-, -, -, settles⟩
      · exact absurd (issuing.mp issues) (by decide)
      · dsimp only at none
        omega
      · rw [undeclared] at declared
        cases declared
      · rw [waits] at settles
        cases settles
  · intro progress settles
    rcases settle_cases g.progress with ⟨waits, -⟩ | ⟨unissuing, none, undeclared, settles'⟩
    · rw [waits] at settles
      cases settles
    rw [settles'] at settles
    cases settles
    refine ⟨sound.outstanding, by simpa using registered, by simpa using issuing,
      fun none => (by cases none), sound.applied, fun _ => ⟨(by simp), (by simp), none⟩,
      fun declared => (by cases declared), ?_, sound.lefts⟩
    rw [undeclared] at signals
    simpa using signals

theorem Sound.guardSignals (sound : Sound g log) (stage : g.guard = .signal) :
    Sound { g with guard := .gone } (log ++ [.signal]) := by
  have registered := sound.registered
  have issuing := sound.issuing
  have signals := sound.signals
  rw [stage] at registered issuing signals
  have declared : g.progress.finalPrefix.isSome = true := by
    by_contra undeclared
    rw [Option.not_isSome_iff_eq_none.mp undeclared, Option.toList_none, List.length_nil] at signals
    simp at signals
  refine ⟨sound.outstanding, by simpa using registered, by simpa using issuing,
    fun none => (by cases none), sound.applied,
    fun _ => ⟨(by simp), (by simp), (sound.declared declared).2.2⟩, fun undeclared => ?_, ?_,
    fun i => ?_⟩
  · dsimp only at undeclared
    rw [undeclared] at declared
    cases declared
  · rw [List.count_append, List.count_singleton, if_pos (by simp)]
    simp only [reduceCtorEq, if_false, if_true] at signals ⊢
    omega
  · rw [List.count_append, List.count_singleton, if_neg (by simp), Nat.add_zero]
    exact sound.lefts i

theorem Sound.claim {base : UInt64} (sound : Sound g log)
    (unclaimed : g.progress.registered = false) :
    Sound { g with
      progress := { g.progress with registered := true, issuing := true, base }
      guard := .held } (log ++ [.claimed]) := by
  have guard : g.guard = .unclaimed := by
    by_contra claimed
    rw [sound.registered.mpr claimed] at unclaimed
    cases unclaimed
  have undeclared : g.progress.finalPrefix = none := by
    by_contra declared
    exact (sound.declared (Option.isSome_iff_ne_none.mpr declared)).1 guard
  have quiet : QuietOut [.claimed] := fun entry member => by simp [List.mem_singleton.mp member]
  refine ⟨sound.outstanding, iff_of_true rfl (by simp), iff_of_true rfl rfl,
    fun none => (by cases none), sound.applied, fun declared => ?_,
    fun _ _ unheld => absurd rfl unheld, ?_, fun i => ?_⟩
  · dsimp only at declared
    rw [undeclared] at declared
    cases declared
  · have signals := sound.signals
    rw [guard] at signals
    rw [quiet.count_eq.1]
    exact signals
  · rw [quiet.count_eq.2]
    exact sound.lefts i

theorem Sound.release (sound : Sound g log) (held : g.guard = .held) :
    Sound { g with progress := g.progress.release, guard := .settle } (log ++ []) := by
  rw [List.append_nil]
  refine ⟨sound.outstanding, ?_, ?_, fun none => (by cases none), sound.applied,
    fun declared => ?_, fun _ _ _ _ => Or.inl rfl, ?_, sound.lefts⟩
  · have registered := sound.registered
    simpa [held, WriteProgress.release] using registered
  · simp [WriteProgress.release]
  · exact absurd held (sound.declared declared).2.1
  · have signals := sound.signals
    rw [held] at signals
    exact signals

/-- **Steps keep the account of a group.** -/
theorem Sound.stepped {e : GroupEvent} {out : List GroupOut} (sound : Sound g log)
    (stepped : Stepped g e g' out) : Sound g' (log ++ out) := by
  have quiet : QuietOut [] := fun entry none => absurd none List.not_mem_nil
  cases stepped with
  | refused claimed =>
      exact sound.logged fun entry member => by simp [List.mem_singleton.mp member]
  | claimed unclaimed => exact sound.claim unclaimed
  | chunk held => exact sound.chunk held
  | ended found rests =>
      apply sound.moved found (sameAccount_record _ _ _ _)
      · simp [WriteTicket.left, rests]
      · simp [rests]
      · simp [rests]
      · exact fun _ => Or.inl rfl
      · intro entry member
        rw [Option.mem_toList, Option.map_eq_some_iff] at member
        obtain ⟨count, -, rfl⟩ := member
        simp
  | @dropped index t found rests =>
      apply sound.moved found ⟨rfl, rfl, rfl, rfl⟩ ?_ ?_ ?_ ?_ quiet
      · cases applied : t.applied <;> simp [WriteTicket.left, applied, rests]
      · cases t.applied <;> simp [rests]
      · cases t.applied <;> simp [rests]
      · intro unapplied
        dsimp only at unapplied ⊢
        rw [unapplied]
        exact Or.inl rfl
  | stays found leaves applied =>
      apply sound.moved found ⟨rfl, rfl, rfl, rfl⟩ ?_ ?_ ?_ ?_ quiet
      · simp [WriteTicket.left, leaves]
      · simp [leaves]
      · simp [leaves]
      · intro unapplied
        dsimp only at unapplied
        rw [applied] at unapplied
        cases unapplied
  | leaves found leaves unapplied =>
      apply sound.moved found ⟨rfl, rfl, rfl, rfl⟩ ?_ ?_ ?_ ?_ quiet
      · simp [WriteTicket.left, unapplied]
      · simp [leaves]
      · simp [leaves]
      · exact fun none => by cases none
  | departs found departs => exact (sound.departs found departs).2
  | waits found looks waits => exact ((sound.ticketSettles found looks).1 waits).logged quiet
  | declares found looks settles =>
      exact ((sound.ticketSettles found looks).2 _ settles).logged quiet
  | signals found signals => exact sound.ticketSignals found signals
  | release held => exact sound.release held
  | guardWaits looks waits => exact (sound.guardLooks looks).1 waits
  | guardDeclares looks settles => exact (sound.guardLooks looks).2 _ settles
  | guardSignals signals => exact sound.guardSignals signals

/-! ## The prefix -/

/-- What one step makes of the prefix: where it has been declared it stays, and otherwise the
coverage grows or is declared as it is. -/
theorem prefix_stepped {e : GroupEvent} {out : List GroupOut} (stepped : Stepped g e g' out) :
    (∀ n, g.progress.finalPrefix = some n → g'.progress.finalPrefix = some n) ∧
      (g.progress.finalPrefix = none →
        g'.progress.finalPrefix = none ∧ g.progress.covered.cells ⊆ g'.progress.covered.cells ∨
          g'.progress.finalPrefix = some g.progress.covered.prefixLen) := by
  have same : (∀ n, g.progress.finalPrefix = some n → g.progress.finalPrefix = some n) ∧
      (g.progress.finalPrefix = none →
        g.progress.finalPrefix = none ∧ g.progress.covered.cells ⊆ g.progress.covered.cells ∨
          g.progress.finalPrefix = some g.progress.covered.prefixLen) :=
    ⟨fun n declared => declared, fun undeclared => Or.inl ⟨undeclared, subset_rfl⟩⟩
  have declares : ∀ p, g.progress.settle = some p →
      (∀ n, g.progress.finalPrefix = some n → p.finalPrefix = some n) ∧
        (g.progress.finalPrefix = none →
          p.finalPrefix = none ∧ g.progress.covered.cells ⊆ p.covered.cells ∨
            p.finalPrefix = some g.progress.covered.prefixLen) := by
    intro p settles
    rcases settle_cases g.progress with ⟨waits, -⟩ | ⟨-, -, undeclared, settles'⟩
    · rw [waits] at settles
      cases settles
    · rw [settles'] at settles
      cases settles
      refine ⟨fun n declared => ?_, fun _ => Or.inr rfl⟩
      rw [undeclared] at declared
      cases declared
  cases stepped with
  | @ended index outcome t found rests =>
      have finals := (sameAccount_record g.progress t.offset t.offered outcome).finalPrefix
      refine ⟨fun n declared => finals.trans declared, fun undeclared => Or.inl ⟨?_, ?_⟩⟩
      · exact finals.trans undeclared
      · intro p cell
        dsimp only
        rw [WriteProgress.record]
        split
        · next count accepts =>
            rcases g.progress.covered.cover_cases
                (t.offset.toNat - g.progress.base.toNat) count with
              ⟨-, refused⟩ | ⟨-, c, took, cells⟩
            · rw [refused]
              exact cell
            · rw [took, cells]
              exact Or.inl cell
        · exact cell
  | declares found looks settles => exact declares _ settles
  | guardDeclares looks settles => exact declares _ settles
  | _ => exact same

/-- **The prefix only grows**, and stands still once it has been declared. -/
theorem written_run {es : List GroupEvent} (ran : machine.run g es = some (g', log)) :
    g.progress.written ≤ g'.progress.written ∧
      (g.progress.finalPrefix.isSome = true → g'.progress.written = g.progress.written) := by
  have kept : g.progress.written ≤ g'.progress.written ∧ ∀ n, g.progress.finalPrefix = some n →
      g'.progress.finalPrefix = some n := by
    apply Machine.invariant (P := fun g' => g.progress.written ≤ g'.progress.written ∧
      ∀ n, g.progress.finalPrefix = some n → g'.progress.finalPrefix = some n)
      ⟨le_rfl, fun n declared => declared⟩ ?_ ran
    intro g₁ e g₂ out ⟨grown, stays⟩ stepped
    obtain ⟨declared, undeclared⟩ := prefix_stepped (step_cases stepped)
    refine ⟨le_trans grown ?_, fun n final => declared n (stays n final)⟩
    cases final : g₁.progress.finalPrefix with
    | some n =>
        rw [WriteProgress.written, WriteProgress.written, final, declared n final]
        exact le_rfl
    | none =>
        rcases undeclared final with ⟨final', cells⟩ | final'
        · rw [WriteProgress.written, WriteProgress.written, final, final', Option.getD_none,
            Option.getD_none]
          by_contra shorter
          exact g₂.progress.covered.prefixLen_notMem
            (cells (Coverage.mem_of_lt_prefixLen (not_le.mp shorter)))
        · rw [WriteProgress.written, WriteProgress.written, final, final', Option.getD_none,
            Option.getD_some]
  refine ⟨kept.1, fun declared => ?_⟩
  obtain ⟨n, final⟩ := Option.isSome_iff_exists.mp declared
  rw [WriteProgress.written, WriteProgress.written, final, kept.2 n final]
  rfl

/-- Nobody holds a handle's tickets or its guard any more. -/
structure Released (p : WriteProgress) (g : WriteGroup) : Prop where
  tickets : g.tickets = []
  guard : g.guard ≠ .held
  registered : g.progress.registered = true
  covered : g.progress.covered = p.covered
  final : g.progress.finalPrefix = none ∨ g.progress.finalPrefix = some p.covered.prefixLen

theorem Released.stepped {p : WriteProgress} {e : GroupEvent} {out : List GroupOut}
    (released : Released p g) (stepped : Stepped g e g' out) : Released p g' := by
  obtain ⟨tickets, guard, registered, covered, final⟩ := released
  have nobody : ∀ {index : ℕ} {t : WriteTicket}, ¬ g.tickets[index]? = some t := by
    intro index t found
    rw [tickets] at found
    cases found
  cases stepped with
  | refused claimed => exact ⟨tickets, guard, registered, covered, final⟩
  | claimed unclaimed =>
      rw [registered] at unclaimed
      cases unclaimed
  | chunk held => exact absurd held guard
  | ended found rests => exact absurd found nobody
  | dropped found rests => exact absurd found nobody
  | stays found leaves applied => exact absurd found nobody
  | leaves found leaves unapplied => exact absurd found nobody
  | departs found departs => exact absurd found nobody
  | waits found looks waits => exact absurd found nobody
  | declares found looks settles => exact absurd found nobody
  | signals found signals => exact absurd found nobody
  | release held => exact absurd held guard
  | guardWaits looks waits => exact ⟨tickets, by simp, registered, covered, final⟩
  | guardSignals signals => exact ⟨tickets, by simp, registered, covered, final⟩
  | guardDeclares looks settles =>
      rcases settle_cases g.progress with ⟨waits, -⟩ | ⟨-, -, -, settles'⟩
      · rw [waits] at settles
        cases settles
      · rw [settles'] at settles
        cases settles
        refine ⟨tickets, by simp, registered, covered, Or.inr ?_⟩
        rw [covered]

/-- **A prefix is for good** once the guard has been dropped and no ticket is left. -/
theorem written_of_released {p : WriteProgress} {es : List GroupEvent}
    (registered : p.registered = true) (undeclared : p.finalPrefix = none)
    (ran : machine.run ⟨p.release, [], .settle⟩ es = some (g, log)) :
    g.progress.written = p.written := by
  have released : Released p g := by
    apply Machine.invariant ?_ ?_ ran
    · exact ⟨rfl, by simp, registered, rfl, Or.inl undeclared⟩
    · exact fun g e g' out released stepped => released.stepped (step_cases stepped)
  rw [WriteProgress.written, WriteProgress.written, undeclared, Option.getD_none]
  rcases released.final with final | final <;> rw [final]
  · rw [released.covered]
    rfl
  · rfl

/-- A byte that was offered at its offset and acknowledged. -/
def Landed (log : List GroupOut) (q : ℕ) : Prop :=
  ∃ offset count, .acknowledged offset count ∈ log ∧ offset.toNat ≤ q ∧ q < offset.toNat + count

/-- What is covered was acknowledged, and so is what was declared. -/
structure Recorded (g : WriteGroup) (log : List GroupOut) : Prop where
  covered : ∀ p ∈ g.progress.covered.cells, Landed log (g.progress.base.toNat + p)
  final : ∀ n, g.progress.finalPrefix = some n → ∀ p < n, Landed log (g.progress.base.toNat + p)
  tickets : ∀ t ∈ g.tickets, g.progress.base ≤ t.offset
  untouched : g.guard = .unclaimed → g.progress.covered = .empty
  claimed : .claimed ∈ log → g.guard ≠ .unclaimed

theorem Landed.mono {out : List GroupOut} {q : ℕ} (landed : Landed log q) :
    Landed (log ++ out) q := by
  obtain ⟨offset, count, member, inside⟩ := landed
  exact ⟨offset, count, List.mem_append_left _ member, inside⟩

theorem recorded_new : Recorded new [] := by
  refine ⟨fun p none => ?_, fun n none => (by cases none),
    fun t none => absurd none List.not_mem_nil,
    fun _ => rfl, fun none => absurd none List.not_mem_nil⟩
  change p ∈ Coverage.empty.cells at none
  rw [Coverage.cells_empty] at none
  exact absurd none (Set.notMem_empty p)

/-- Steps that neither record nor claim. -/
theorem Recorded.kept {out : List GroupOut} (recorded : Recorded g log)
    (covered : g'.progress.covered = g.progress.covered) (base : g'.progress.base = g.progress.base)
    (final : ∀ n, g'.progress.finalPrefix = some n →
      g.progress.finalPrefix = some n ∨ n = g.progress.covered.prefixLen)
    (tickets : ∀ t ∈ g'.tickets, g.progress.base ≤ t.offset)
    (guard : g'.guard = .unclaimed → g.guard = .unclaimed) (unclaimed : .claimed ∉ out) :
    Recorded g' (log ++ out) := by
  refine ⟨fun p cell => ?_, fun n declared p below => ?_, fun t member => ?_, fun none => ?_,
    fun member => ?_⟩
  · rw [covered] at cell
    rw [base]
    exact (recorded.covered p cell).mono
  · rw [base]
    rcases final n declared with old | rfl
    · exact (recorded.final n old p below).mono
    · exact (recorded.covered p (Coverage.mem_of_lt_prefixLen below)).mono
  · rw [base]
    exact tickets t member
  · rw [covered]
    exact recorded.untouched (guard none)
  · intro none
    rcases List.mem_append.mp member with old | new
    · exact recorded.claimed old (guard none)
    · exact unclaimed new

/-- Tickets that are moved keep their offsets. -/
theorem Recorded.offsets (recorded : Recorded g log) (found : g.tickets[index]? = some t)
    (same : t'.offset = t.offset) :
    ∀ x ∈ g.tickets.set index t', g.progress.base ≤ x.offset := by
  intro x member
  rcases mem_set_cases member with rfl | old
  · rw [same]
    exact recorded.tickets t (List.mem_of_getElem? found)
  · exact recorded.tickets x old

/-- What an outcome acknowledges of a chunk is recorded at the chunk's own position. -/
theorem Recorded.ended {outcome : Except Error Reply} (recorded : Recorded g log)
    (claimed : g.guard ≠ .unclaimed) (found : g.tickets[index]? = some t) :
    Recorded { g with
      progress := g.progress.record t.offset t.offered outcome
      tickets := g.tickets.set index { t with stage := .leave } }
      (log ++
        ((WriteProgress.accepted t.offered outcome).map (.acknowledged t.offset ·)).toList) := by
  have above := recorded.tickets t (List.mem_of_getElem? found)
  have tickets := @Recorded.offsets g log index t { t with stage := .leave } recorded found rfl
  rw [WriteProgress.record]
  cases accepts : WriteProgress.accepted t.offered outcome with
  | none =>
      exact recorded.kept rfl rfl (fun n declared => Or.inl declared) tickets id List.not_mem_nil
  | some count =>
      rcases g.progress.covered.cover_cases (t.offset.toNat - g.progress.base.toNat) count with
        ⟨-, refused⟩ | ⟨-, c, took, cells⟩
      · dsimp only
        rw [refused]
        exact recorded.kept rfl rfl (fun n declared => Or.inl declared) tickets id (by simp)
      · dsimp only
        rw [took]
        refine ⟨fun p cell => ?_, fun n declared p below => ?_, tickets,
          fun none => absurd none claimed, fun _ => claimed⟩
        · dsimp only at cell
          rw [cells] at cell
          rcases cell with old | new
          · exact (recorded.covered p old).mono
          · refine ⟨t.offset, count, List.mem_append_right _ (by simp), ?_, ?_⟩
            · have upto := new.1
              rw [UInt64.le_iff_toNat_le] at above
              dsimp only
              omega
            · have below := new.2
              rw [UInt64.le_iff_toNat_le] at above
              dsimp only
              omega
        · exact (recorded.final n declared p below).mono

theorem Recorded.stepped {e : GroupEvent} {out : List GroupOut} (recorded : Recorded g log)
    (sound : Sound g log) (above : g.Above e) (stepped : Stepped g e g' out) :
    Recorded g' (log ++ out) := by
  have undeclared : ∀ n, g.progress.finalPrefix = some n →
      g.progress.finalPrefix = some n ∨ n = g.progress.covered.prefixLen := fun n => Or.inl
  have declares : ∀ p, g.progress.settle = some p → p.covered = g.progress.covered ∧
      p.base = g.progress.base ∧ ∀ n, p.finalPrefix = some n →
        g.progress.finalPrefix = some n ∨ n = g.progress.covered.prefixLen := by
    intro p settles
    rcases settle_cases g.progress with ⟨waits, -⟩ | ⟨-, -, -, settles'⟩
    · rw [waits] at settles
      cases settles
    · rw [settles'] at settles
      cases settles
      exact ⟨rfl, rfl, fun n declared => Or.inr (Option.some.inj declared).symm⟩
  cases stepped with
  | refused claimed => exact recorded.kept rfl rfl undeclared recorded.tickets id (by simp)
  | claimed unclaimed =>
      have guard : g.guard = .unclaimed := by
        by_contra claimed
        rw [sound.registered.mpr claimed] at unclaimed
        cases unclaimed
      refine ⟨fun p cell => ?_, fun n declared => ?_, fun t member => ?_,
        fun none => (by cases none), fun _ none => (by cases none)⟩
      · dsimp only at cell
        rw [recorded.untouched guard, Coverage.cells_empty] at cell
        exact absurd cell (Set.notMem_empty p)
      · dsimp only at declared
        exact absurd guard (sound.declared (by rw [declared]; rfl)).1
      · dsimp only at member
        rw [sound.unclaimed guard] at member
        exact absurd member List.not_mem_nil
  | @chunk offset offered held =>
      refine recorded.kept rfl rfl undeclared (fun t member => ?_) id List.not_mem_nil
      rcases List.mem_append.mp member with old | new
      · exact recorded.tickets t old
      · obtain rfl := List.mem_singleton.mp new
        exact above
  | ended found rests =>
      apply recorded.ended ?_ found
      intro none
      rw [sound.unclaimed none] at found
      cases found
  | dropped found rests =>
      exact recorded.kept rfl rfl undeclared (recorded.offsets found rfl) id List.not_mem_nil
  | stays found leaves applied =>
      exact recorded.kept rfl rfl undeclared (recorded.offsets found rfl) id List.not_mem_nil
  | leaves found leaves unapplied =>
      exact recorded.kept rfl rfl undeclared (recorded.offsets found rfl) id List.not_mem_nil
  | departs found departs =>
      exact recorded.kept rfl rfl undeclared (recorded.offsets found rfl) id (by simp)
  | waits found looks waits =>
      exact recorded.kept rfl rfl undeclared (recorded.offsets found rfl) id List.not_mem_nil
  | declares found looks settles =>
      obtain ⟨covered, base, final⟩ := declares _ settles
      exact recorded.kept covered base final (recorded.offsets found rfl) id List.not_mem_nil
  | signals found signals =>
      exact recorded.kept rfl rfl undeclared (recorded.offsets found rfl) id (by simp)
  | release held =>
      exact recorded.kept rfl rfl undeclared recorded.tickets (fun none => by cases none)
        List.not_mem_nil
  | guardWaits looks waits =>
      exact recorded.kept rfl rfl undeclared recorded.tickets (fun none => by cases none)
        List.not_mem_nil
  | guardDeclares looks settles =>
      obtain ⟨covered, base, final⟩ := declares _ settles
      exact recorded.kept covered base final recorded.tickets (fun none => by cases none)
        List.not_mem_nil
  | guardSignals signals =>
      exact recorded.kept rfl rfl undeclared recorded.tickets (fun none => by cases none) (by simp)

end WriteGroup

/-- **A write's progress settles once.** In any order of the steps, chunks leave the group
once each and the count of them never goes below nothing; the signal comes once, after the
guard has gone and every chunk has left, and the prefix, which only grows, stands still from
then on; a handle is claimed once. Where no chunk's offset is below the write's own, the prefix
never passes what was offered and acknowledged. -/
theorem progress_settles_once {es : List GroupEvent} {g : WriteGroup} {log : List GroupOut}
    (above : ∀ v ∈ WriteGroup.machine.visits .new es, v.1.Above v.2)
    (ran : WriteGroup.machine.run .new es = some (g, log)) :
    (∀ index, log.count (.left index) ≤ 1) ∧
      (∀ (index : ℕ) (t : WriteTicket), g.tickets[index]? = some t → t.stage = .depart →
        1 ≤ g.progress.outstanding) ∧
      log.count .signal ≤ 1 ∧
      (.signal ∈ log → g.guard ≠ .unclaimed ∧ g.guard ≠ .held ∧ g.progress.outstanding = 0 ∧
        ∀ t ∈ g.tickets, t.left = true) ∧
      (g.Quiet → log.count .signal = 1 ∧ ∀ index < g.tickets.length, log.count (.left index) = 1) ∧
      (∀ es' g' log', WriteGroup.machine.run g es' = some (g', log') →
        g.progress.written ≤ g'.progress.written ∧
          (.signal ∈ log → g'.progress.written = g.progress.written)) ∧
      (∀ p < g.progress.written, WriteGroup.Landed log (g.progress.base.toNat + p)) ∧
      ∀ base, .claimed ∈ log → g.step (.register base) = some (g, [.refused]) := by
  have kept : (∀ v ∈ WriteGroup.machine.visits .new es, v.1.Above v.2) →
      g.Sound log ∧ g.Recorded log := by
    apply Machine.run_induction (P := fun done g log =>
      (∀ v ∈ done, v.1.Above v.2) → g.Sound log ∧ g.Recorded log)
      (fun _ => ⟨WriteGroup.sound_new, WriteGroup.recorded_new⟩) ?_ ran
    intro done g log e g' out before stepped within
    obtain ⟨sound, recorded⟩ := before fun v member => within v (List.mem_append_left _ member)
    have stepped := WriteGroup.step_cases stepped
    exact ⟨sound.stepped stepped, recorded.stepped sound (within (g, e) (by simp)) stepped⟩
  obtain ⟨sound, recorded⟩ := kept above
  have declared : .signal ∈ log → g.progress.finalPrefix.isSome = true := by
    intro signalled
    have signals := sound.signals
    have some := List.count_pos_iff.mpr signalled
    cases final : g.progress.finalPrefix with
    | some n => rfl
    | none =>
        rw [final, Option.toList_none, List.length_nil] at signals
        omega
  have all : g.progress.outstanding = 0 → ∀ t ∈ g.tickets, t.left = true := by
    intro none t member
    rw [sound.outstanding, List.countP_eq_zero] at none
    simpa using none t member
  have once : g.progress.finalPrefix.toList.length ≤ 1 := by
    cases g.progress.finalPrefix <;> simp
  refine ⟨fun index => ?_, fun index t found stage => (sound.departs found stage).1, ?_,
    fun signalled => ?_, fun quiet => ?_, fun es' g' log' ran' => ?_, fun p below => ?_,
    fun base claimed => ?_⟩
  · rw [sound.lefts index]
    split <;> decide
  · have signals := sound.signals
    omega
  · obtain ⟨claimed, released, none⟩ := sound.declared (declared signalled)
    exact ⟨claimed, released, none, all none⟩
  · obtain ⟨gone, rests⟩ := quiet
    have left : ∀ t ∈ g.tickets, t.left = true := by
      intro t member
      obtain ⟨dropped, rest⟩ := rests t member
      have applied : t.applied = true := by
        by_contra unapplied
        rcases sound.applied t member (Bool.eq_false_iff.mpr unapplied) with leaves | ⟨-, kept⟩
        · rw [rest] at leaves
          cases leaves
        · rw [dropped] at kept
          cases kept
      rw [WriteTicket.left, applied, rest]
      rfl
    have none : g.progress.outstanding = 0 := by
      rw [sound.outstanding, List.countP_eq_zero]
      intro t member
      rw [left t member]
      decide
    have still : ∀ stage, stage ≠ Stage.rest → g.tickets.countP (·.stage = stage) = 0 := by
      intro stage moving
      rw [List.countP_eq_zero]
      intro t member
      rw [(rests t member).2, decide_eq_true_eq]
      exact fun same => moving same.symm
    constructor
    · have signals := sound.signals
      rw [still .signal (by decide), gone] at signals
      cases final : g.progress.finalPrefix with
      | some n =>
          rw [final, Option.toList_some, List.length_singleton] at signals
          simpa using signals
      | none =>
          exfalso
          rcases sound.open_ final (by rw [gone]; decide) (by rw [gone]; decide) none with
            looks | looks
          · rw [gone] at looks
            cases looks
          · rw [still .settle (by decide)] at looks
            exact absurd looks (lt_irrefl 0)
    · intro index below
      rw [sound.lefts index, List.getElem?_eq_getElem below, Option.any_some,
        left _ (List.getElem_mem below), if_pos rfl]
  · obtain ⟨grows, stays⟩ := WriteGroup.written_run ran'
    exact ⟨grows, fun signalled => stays (declared signalled)⟩
  · rw [WriteProgress.written] at below
    cases final : g.progress.finalPrefix with
    | none =>
        rw [final] at below
        exact recorded.covered p (Coverage.mem_of_lt_prefixLen below)
    | some n =>
        rw [final] at below
        exact recorded.final n final p below
  · have registered := sound.registered.mpr (recorded.claimed claimed)
    rw [WriteGroup.step, WriteProgress.register, registered]
    rfl

/-- A chunk of three bytes that is acknowledged, and the guard dropped after it. -/
def threeWritten : List GroupEvent :=
  [.register 7, .chunk 7 3, .ended 0 (.ok (writeReply 3)), .ticket 0, .ticket 0, .ticket 0, .drop 0,
    .release, .guard, .guard]

theorem progress_settles_once_three : ∃ g log,
    WriteGroup.machine.run .new threeWritten = some (g, log) ∧ g.progress.written = 3 ∧
      log.count .signal = 1 ∧ ∀ p < 3, WriteGroup.Landed log (7 + p) := by
  have happened : (WriteGroup.machine.run .new threeWritten).map (fun end_ =>
      (end_.1.progress.written, end_.1.progress.base, decide end_.1.Quiet)) =
        some (3, 7, true) := by
    decide +kernel
  obtain ⟨⟨g, log⟩, ran, same⟩ := Option.map_eq_some_iff.mp happened
  obtain ⟨written, rest⟩ := Prod.mk.inj same
  obtain ⟨base, quiet⟩ := Prod.mk.inj rest
  have settles := @progress_settles_once threeWritten g log (by decide +kernel) ran
  refine ⟨g, log, ran, written, (settles.2.2.2.2.1 (of_decide_eq_true quiet)).1, fun p below => ?_⟩
  have landed := settles.2.2.2.2.2.2.1 p (by rw [written]; exact below)
  rwa [base] at landed

/-- A chunk past 2^64 is put below the write's own offset, and what it acknowledges is counted
from the write's beginning. -/
theorem progress_passes_what_landed : ¬ ∀ (es : List GroupEvent) (g : WriteGroup)
    (log : List GroupOut), WriteGroup.machine.run .new es = some (g, log) →
      ∀ p < g.progress.written, WriteGroup.Landed log (g.progress.base.toNat + p) := by
  intro claimed
  have happened : (WriteGroup.machine.run .new
      [.register 18446744073709551612, .chunk 18446744073709551612 65520, .chunk 65516 65520,
        .ended 1 (.ok (writeReply 100))]).map (fun end_ =>
          (end_.1.progress.written, end_.1.progress.base, end_.2)) =
        some (100, 18446744073709551612, [.claimed, .acknowledged 65516 100]) := by
    decide +kernel
  obtain ⟨⟨g, log⟩, ran, same⟩ := Option.map_eq_some_iff.mp happened
  obtain ⟨written, rest⟩ := Prod.mk.inj same
  obtain ⟨base, only⟩ := Prod.mk.inj rest
  have landed := claimed _ g log ran 0 (by rw [written]; decide)
  dsimp only at base only
  rw [base, only] at landed
  obtain ⟨offset, count, member, upto, below⟩ := landed
  rcases List.mem_cons.mp member with same | member
  · cases same
  · cases List.mem_singleton.mp member
    exact absurd below (by decide)

end Smb1Client
