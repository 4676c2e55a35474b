import Smb1Client.Lib.Trace
import Smb1Client.Rpc.Shares

/-!
The handles of an enumeration's pipe.

`Pipe::reopen` releases the handle it has before it asks for another, and where it is refused
one the pipe goes on holding the handle it released. The caller closes the pipe whatever came of
it, so that handle is closed again.
-/

namespace Smb1Client

open Dialogue

/-! ## What becomes of a handle -/

/-- The handle a request names. -/
def TreeRequest.names : TreeRequest → Option UInt16
  | .close request => some request.fid
  | .read request => some request.fid
  | .write request => some request.fid
  | .pipeTransact fid _ => some fid
  | _ => none

/-- The handle that is granted there. -/
def granted : PipeMoment → Option UInt16
  | .answered (.create _) answer => openedBy answer
  | _ => none

/-- No request names the handle, unless an open granted it before. -/
def LeftAlone (fid : UInt16) (h : List PipeMoment) : Prop :=
  ∀ before request after, h = before ++ .sent request :: after → request.names = some fid →
    ∃ e ∈ before, granted e = some fid

/-- The handle is closed, before it is granted again, and left alone from then on. -/
def ClosedOnce (fid : UInt16) (h : List PipeMoment) : Prop :=
  ∃ before time after, h = before ++ .sent (.close ⟨fid, time⟩) :: after ∧
    (∀ e ∈ before, granted e ≠ some fid ∧ ∀ time, e ≠ .sent (.close ⟨fid, time⟩)) ∧
      LeftAlone fid after

/-- Every grant of the handle is followed by one close of it. -/
def Conserved (fid : UInt16) (h : List PipeMoment) : Prop :=
  ∀ before e after, h = before ++ e :: after → granted e = some fid → ClosedOnce fid after

/-- An open is refused behind one that was granted. -/
def RefusedLater (h : List PipeMoment) : Prop :=
  ∃ before request answer after, h = before ++ .answered (.create request) answer :: after ∧
    openedBy answer = none ∧ ∃ e ∈ before, (granted e).isSome = true

/-- How a handle stands. -/
inductive Hold where
  | never
  | held
  | closed
  | misused
  deriving DecidableEq, Repr

namespace Hold

/-- It is in nobody's hands. -/
def Settled (hold : Hold) : Prop := hold = never ∨ hold = closed

def grant : Hold → Hold
  | never => held
  | closed => held
  | _ => misused

def use : Hold → Hold
  | closed => misused
  | hold => hold

def close : Hold → Hold
  | never => never
  | held => closed
  | _ => misused

/-- What happens to a handle. -/
def next (fid : UInt16) (hold : Hold) (e : PipeMoment) : Hold :=
  if granted e = some fid then hold.grant
  else
    match e with
    | .sent (.close request) => if request.fid = fid then hold.close else hold
    | .sent request => if request.names = some fid then hold.use else hold
    | _ => hold

end Hold

/-- What a history says of a handle. -/
def hold (fid : UInt16) (h : List PipeMoment) : Hold := h.foldl (Hold.next fid) .never

theorem hold_append (fid : UInt16) (h : List PipeMoment) (e : PipeMoment) :
    hold fid (h ++ [e]) = (hold fid h).next fid e := by
  rw [hold, List.foldl_concat]
  rfl

theorem hold_exchange (fid : UInt16) (h : List PipeMoment) (r : TreeRequest) (answer : Answer) :
    hold fid (h ++ [.sent r, .answered r answer]) =
      ((hold fid h).next fid (.sent r)).next fid (.answered r answer) := List.foldl_append

/-! ## What a handle's standing says -/

section Standing

variable {fid : UInt16} {e : PipeMoment} {h : List PipeMoment}

/-- What a happening is to a handle. -/
theorem bearing (fid : UInt16) (e : PipeMoment) :
    (granted e = some fid ∧ (∀ r, e ≠ .sent r) ∧ ∀ s : Hold, s.next fid e = s.grant) ∨
    (∃ time, e = .sent (.close ⟨fid, time⟩) ∧ ∀ s : Hold, s.next fid e = s.close) ∨
    (∃ r, e = .sent r ∧ r.names = some fid ∧ (∀ request, r ≠ .close request) ∧
      ∀ s : Hold, s.next fid e = s.use) ∨
    (granted e ≠ some fid ∧ (∀ r, e = .sent r → r.names ≠ some fid) ∧
      ∀ s : Hold, s.next fid e = s) := by
  cases e with
  | marked point => exact Or.inr (Or.inr (Or.inr ⟨nofun, nofun, fun s => rfl⟩))
  | answered request answer =>
      by_cases grants : granted (.answered request answer) = some fid
      · exact Or.inl ⟨grants, nofun, fun s => if_pos grants⟩
      · exact Or.inr (Or.inr (Or.inr ⟨grants, nofun, fun s => if_neg grants⟩))
  | sent r =>
      refine Or.inr ?_
      by_cases names : r.names = some fid
      · by_cases closes : ∃ request, r = .close request
        · obtain ⟨⟨fid', time⟩, rfl⟩ := closes
          cases names
          refine Or.inl ⟨time, rfl, fun s => ?_⟩
          simp [Hold.next, granted]
        · refine Or.inr (Or.inl ⟨r, rfl, names, fun request same => closes ⟨request, same⟩, ?_⟩)
          intro s
          cases r with
          | close request => exact absurd ⟨request, rfl⟩ closes
          | _ => simp [Hold.next, granted, names]
      · refine Or.inr (Or.inr ⟨nofun, ?_, fun s => ?_⟩)
        · rintro _ ⟨⟩
          exact names
        · cases r with
          | close request =>
              have other : request.fid ≠ fid := fun same => names (congrArg some same)
              simp [Hold.next, granted, other]
          | _ => simp [Hold.next, granted, names]

theorem leftAlone_cons : LeftAlone fid (e :: h) ↔
    (∀ r, e = .sent r → r.names ≠ some fid) ∧ (granted e = some fid ∨ LeftAlone fid h) := by
  constructor
  · intro alone
    refine ⟨fun r same names => ?_, ?_⟩
    · obtain ⟨_, member, -⟩ := alone [] r h (congrArg (· :: h) same) names
      cases member
    · refine or_iff_not_imp_left.mpr fun other before request after split names => ?_
      obtain ⟨e', member, grants⟩ := alone (e :: before) request after
        (congrArg (e :: ·) split) names
      rcases List.mem_cons.mp member with rfl | member
      · exact absurd grants other
      · exact ⟨e', member, grants⟩
  · rintro ⟨here, later⟩ before request after split names
    cases before with
    | nil =>
        obtain ⟨rfl, -⟩ := List.cons.inj split
        exact absurd names (here request rfl)
    | cons first before =>
        obtain ⟨rfl, rest⟩ := List.cons.inj split
        rcases later with grants | alone
        · exact ⟨e, List.mem_cons_self, grants⟩
        · obtain ⟨e', member, grants⟩ := alone before request after rest names
          exact ⟨e', List.mem_cons_of_mem _ member, grants⟩

theorem closedOnce_cons_close {time : UInt32} :
    ClosedOnce fid (.sent (.close ⟨fid, time⟩) :: h) ↔ LeftAlone fid h := by
  constructor
  · rintro ⟨before, time', after, split, untouched, alone⟩
    cases before with
    | nil =>
        obtain ⟨-, rfl⟩ := List.cons.inj split
        exact alone
    | cons first before =>
        obtain ⟨rfl, -⟩ := List.cons.inj split
        exact absurd rfl ((untouched _ List.mem_cons_self).2 time)
  · exact fun alone => ⟨[], time, h, rfl, (fun e member => by cases member), alone⟩

theorem closedOnce_cons (other : ∀ time, e ≠ .sent (.close ⟨fid, time⟩)) :
    ClosedOnce fid (e :: h) ↔ granted e ≠ some fid ∧ ClosedOnce fid h := by
  constructor
  · rintro ⟨before, time, after, split, untouched, alone⟩
    cases before with
    | nil => exact absurd (List.cons.inj split).1 (other time)
    | cons first before =>
        obtain ⟨rfl, rest⟩ := List.cons.inj split
        refine ⟨(untouched e List.mem_cons_self).1, before, time, after, rest, ?_, alone⟩
        exact fun e' member => untouched e' (List.mem_cons_of_mem _ member)
  · rintro ⟨ungranted, before, time, after, rfl, untouched, alone⟩
    refine ⟨e :: before, time, after, rfl, fun e' member => ?_, alone⟩
    rcases List.mem_cons.mp member with rfl | member
    · exact ⟨ungranted, other⟩
    · exact untouched e' member

theorem conserved_cons : Conserved fid (e :: h) ↔
    (granted e = some fid → ClosedOnce fid h) ∧ Conserved fid h := by
  constructor
  · intro conserved
    refine ⟨conserved [] e h rfl, fun before e' after split => ?_⟩
    exact conserved (e :: before) e' after (congrArg (e :: ·) split)
  · rintro ⟨here, later⟩ before e' after split grants
    cases before with
    | nil =>
        obtain ⟨rfl, rfl⟩ := List.cons.inj split
        exact here grants
    | cons first before => exact later before e' after (List.cons.inj split).2 grants

theorem leftAlone_nil : LeftAlone fid [] := by
  intro before request after split
  exact absurd split.symm (List.append_ne_nil_of_right_ne_nil _ (List.cons_ne_nil _ _))

theorem conserved_nil : Conserved fid [] := by
  intro before e after split
  exact absurd split.symm (List.append_ne_nil_of_right_ne_nil _ (List.cons_ne_nil _ _))

theorem not_closedOnce_nil : ¬ ClosedOnce fid [] := by
  rintro ⟨before, time, after, split, -⟩
  exact absurd split.symm (List.append_ne_nil_of_right_ne_nil _ (List.cons_ne_nil _ _))

/-- What a handle's standing at the end says, for each that it may have at the start. -/
theorem settled_foldl : (((h.foldl (Hold.next fid) .never).Settled ↔ Conserved fid h) ∧
      ((h.foldl (Hold.next fid) .held).Settled ↔ ClosedOnce fid h ∧ Conserved fid h)) ∧
    ((h.foldl (Hold.next fid) .closed).Settled ↔ LeftAlone fid h ∧ Conserved fid h) ∧
      ¬ (h.foldl (Hold.next fid) .misused).Settled := by
  induction h with
  | nil =>
      refine ⟨⟨iff_of_true (Or.inl rfl) conserved_nil, ?_⟩, ?_,
        (by rintro (same | same) <;> cases same)⟩
      · refine iff_of_false ?_ fun both => not_closedOnce_nil both.1
        rintro (same | same) <;> cases same
      · exact iff_of_true (Or.inr rfl) ⟨leftAlone_nil, conserved_nil⟩
  | cons e h ih =>
      obtain ⟨⟨never, held⟩, closed, misused⟩ := ih
      simp only [List.foldl_cons, conserved_cons, leftAlone_cons]
      rcases bearing fid e with ⟨grants, unsent, next⟩ | ⟨time, rfl, next⟩ |
        ⟨r, rfl, names, other, next⟩ | ⟨ungranted, unnamed, next⟩
      · simp only [next, Hold.grant, held, closedOnce_cons fun time => unsent _, grants, misused]
        simp [unsent]
      · simp only [next, Hold.close, never, closed, misused, closedOnce_cons_close]
        simp [granted, TreeRequest.names]
      · have uncloses : ∀ time, (Happening.sent r : PipeMoment) ≠ .sent (.close ⟨fid, time⟩) := by
          rintro time ⟨⟩
          exact other _ rfl
        simp only [next, Hold.use, never, held, misused, closedOnce_cons uncloses]
        simp [granted, names]
      · have uncloses : ∀ time, e ≠ .sent (.close ⟨fid, time⟩) := by
          rintro time rfl
          exact unnamed _ rfl rfl
        simp only [next, never, held, closed, closedOnce_cons uncloses]
        simp only [ungranted, misused, ne_eq, not_false_eq_true, true_and, false_or, false_imp_iff,
          and_self]
        tauto

/-- **A handle's ledger**: it is closed once for each grant if and only if it stands settled. -/
theorem settled_iff : (hold fid h).Settled ↔ Conserved fid h := settled_foldl.1.1

end Standing

/-! ## Along an enumeration -/

/-- Nothing is asked of the answers, and nothing of the requests. -/
def unbound : Contract TreeRequest Answer PipeMark where
  allowed _ _ := True
  required _ _ := True

/-- One handle stands so, all others settled, and every open since the first was granted. -/
structure Stands (fid : UInt16) (standing : Hold) (h : List PipeMoment) : Prop where
  own : hold fid h = standing
  others : ∀ other, other ≠ fid → (hold other h).Settled
  opened : ∃ e ∈ h, (granted e).isSome = true
  unrefused : ¬ RefusedLater h

/-- A handle was closed, and the open behind it refused. -/
structure Broken (fid : UInt16) (h : List PipeMoment) : Prop where
  own : hold fid h = .closed
  refused : RefusedLater h

theorem refusedLater_append {h : List PipeMoment} {e : PipeMoment} : RefusedLater (h ++ [e]) ↔
    RefusedLater h ∨ (∃ request answer, e = .answered (.create request) answer ∧
      openedBy answer = none) ∧ ∃ e ∈ h, (granted e).isSome = true := by
  constructor
  · rintro ⟨before, request, answer, after, split, refused, grants⟩
    rcases Trace.split_concat split with ⟨rest, earlier, -⟩ | ⟨rfl, rfl, -⟩
    · exact Or.inl ⟨before, request, answer, rest, earlier, refused, grants⟩
    · exact Or.inr ⟨⟨request, answer, rfl, refused⟩, grants⟩
  · rintro (⟨before, request, answer, after, rfl, refused, grants⟩ |
      ⟨⟨request, answer, rfl, refused⟩,
      grants⟩)
    · exact ⟨before, request, answer, after ++ [e], by simp, refused, grants⟩
    · exact ⟨h, request, answer, [], rfl, refused, grants⟩

variable {n : Negotiated} {turns : ℕ} {server : Text} {h : List PipeMoment} {p : Pipe}
  {fid : UInt16} {standing : Hold}

/-- What is no answer to an open leaves the opens as they are. -/
theorem Stands.append {e : PipeMoment} {s : Hold} (stands : Stands fid standing h)
    (other : ∀ request answer, e ≠ .answered (.create request) answer)
    (next : standing.next fid e = s)
    (elsewhere : ∀ fid', fid' ≠ fid → ∀ s : Hold, s.next fid' e = s) : Stands fid s (h ++ [e]) where
  own := by rw [hold_append, stands.own, next]
  others fid' ne := by
    rw [hold_append, elsewhere fid' ne]
    exact stands.others fid' ne
  opened := by
    obtain ⟨g, member, grants⟩ := stands.opened
    exact ⟨g, List.mem_append_left _ member, grants⟩
  unrefused := by
    rw [refusedLater_append, not_or]
    refine ⟨stands.unrefused, ?_⟩
    rintro ⟨⟨request, answer, same, -⟩, -⟩
    exact other request answer same

theorem next_answered_other {r : TreeRequest} {answer : Answer} {s : Hold}
    (other : ∀ request, r ≠ .create request) : s.next fid (.answered r answer) = s := by
  cases r with
  | create request => exact absurd rfl (other request)
  | _ => rfl

/-- A request that names a handle, and its answer. -/
theorem Stands.exchange {r : TreeRequest} {answer : Answer} {s : Hold}
    (stands : Stands fid standing h) (names : r.names = some fid)
    (next : standing.next fid (.sent r) = s) :
    Stands fid s (h ++ [.sent r, .answered r answer]) := by
  have other : ∀ request, r ≠ .create request := by
    rintro request rfl
    cases names
  have sent : Stands fid s (h ++ [.sent r]) := by
    refine stands.append nofun next fun fid' ne s => ?_
    have unnamed : r.names ≠ some fid' := fun same =>
      ne (Option.some.inj (same.symm.trans names))
    rcases bearing fid' (.sent r) with ⟨grants, -⟩ | ⟨time, same, -⟩ | ⟨_, same, names', -⟩ |
      ⟨-, -, next⟩
    · cases grants
    · cases same
      exact absurd rfl unnamed
    · cases same
      exact absurd names' unnamed
    · exact next s
  have answered : Stands fid s ((h ++ [.sent r]) ++ [.answered r answer]) := by
    refine sent.append ?_ (next_answered_other other) fun fid' _ s => next_answered_other other
    rintro request answer' ⟨⟩
    exact other request rfl
  rwa [List.append_assoc] at answered

/-- A pipe that is held is held on through what it is used for. -/
theorem Stands.uses {r : TreeRequest} (uses : Pipe.Uses fid r) :
    Pipe.Survives unbound (Stands fid .held) r := by
  intro h holding
  refine ⟨True.intro, fun answer _ => ?_⟩
  cases uses with
  | read request on =>
      exact holding.exchange (congrArg some on) (by simp [Hold.next, Hold.use, granted])
  | write request on =>
      exact holding.exchange (congrArg some on) (by simp [Hold.next, Hold.use, granted])
  | pipeTransact data => exact holding.exchange rfl (by simp [Hold.next, Hold.use, granted])

theorem Stands.marked {point : PipeMark} (stands : Stands fid standing h) :
    Stands fid standing (h ++ [.marked point]) :=
  stands.append nofun rfl fun _ _ _ => rfl

/-- The close always encodes, and is sent. -/
theorem keeps_release_of {I : List PipeMoment → Prop}
    (closed : ∀ answer, I (h ++ [.sent (.close ⟨fid, LEAVE_TIME_ALONE⟩),
      .answered (.close ⟨fid, LEAVE_TIME_ALONE⟩) answer])) :
    unbound.Keeps h (Pipe.release n fid) fun h' result => I h' ∧ result = .ok () := by
  rw [Pipe.release, Contract.keeps_bind, Contract.keeps_attempt]
  exact TreeRequest.keeps_put_of_encoded rfl True.intro fun answer _ =>
    Contract.keeps_pure.mpr ⟨closed answer, rfl⟩

/-- The open always encodes: what comes of it is what its answer grants. -/
theorem keeps_openFid_of {name : Text} {I : List PipeMoment → Option UInt16 → Prop}
    (opens : ∀ answer, I (h ++ [.sent (.create (Pipe.createRequest name)),
      .answered (.create (Pipe.createRequest name)) answer]) (openedBy answer)) :
    unbound.Keeps h (Pipe.openFid n name) fun h' result => I h' result.toOption := by
  have replied : unbound.Keeps h ((TreeRequest.create (Pipe.createRequest name)).put n)
      fun h' result => ∃ answer, result = answer.mapError .ofConnection ∧ I h' (openedBy answer) :=
    TreeRequest.keeps_put_of_encoded rfl True.intro fun answer _ => ⟨answer, rfl, opens answer⟩
  rw [Pipe.openFid, TreeRequest.checked, Contract.keeps_bind, Contract.keeps_bind]
  apply replied.mono
  rintro h' result _ ⟨answer, rfl, holds⟩
  cases answer with
  | error gone => exact holds
  | ok reply =>
      dsimp only [Except.mapError]
      rw [openedBy] at holds
      split
      · next refused =>
          rw [if_pos refused] at holds
          exact Contract.keeps_failed.mpr holds
      · next granted =>
          rw [if_neg granted] at holds
          refine Contract.keeps_pure.mpr ?_
          dsimp only
          rw [Contract.keeps_bind, Contract.keeps_ofExcept]
          cases decoded : NtCreateAndxResponse.decode reply.message with
          | error error =>
              rw [decoded] at holds
              exact holds
          | ok response =>
              rw [decoded] at holds
              exact Contract.keeps_pure.mpr holds

theorem Hold.Settled.grant {s : Hold} (settled : s.Settled) : s.grant = .held := by
  rcases settled with rfl | rfl <;> rfl

variable {request : NtCreateAndxRequest} {answer : Answer}

theorem hold_opened {fid' : UInt16} :
    hold fid' (h ++ [.sent (.create request), .answered (.create request) answer]) =
      if openedBy answer = some fid' then (hold fid' h).grant else hold fid' h := by
  have sent : ∀ s : Hold, s.next fid' (.sent (.create request)) = s := fun _ => rfl
  rw [hold_exchange, sent]
  rfl

theorem refusedLater_opened :
    RefusedLater (h ++ [.sent (.create request), .answered (.create request) answer]) ↔
      RefusedLater h ∨ openedBy answer = none ∧ ∃ e ∈ h, (granted e).isSome = true := by
  have split : h ++ [.sent (.create request), .answered (.create request) answer] =
      (h ++ [.sent (.create request)]) ++ [.answered (.create request) answer] := by simp
  have sent : RefusedLater (h ++ [.sent (.create request)]) ↔ RefusedLater h := by
    rw [refusedLater_append, or_iff_left]
    rintro ⟨⟨_, _, same, -⟩, -⟩
    cases same
  rw [split, refusedLater_append, sent]
  refine or_congr_right (and_congr ?_ ?_)
  · constructor
    · rintro ⟨_, _, same, refused⟩
      cases same
      exact refused
    · exact fun refused => ⟨request, answer, rfl, refused⟩
  · constructor
    · rintro ⟨e, member, grants⟩
      rcases List.mem_append.mp member with member | member
      · exact ⟨e, member, grants⟩
      · cases List.mem_singleton.mp member
        cases grants
    · exact fun ⟨e, member, grants⟩ => ⟨e, List.mem_append_left _ member, grants⟩

/-- An open that is granted, with no handle held. -/
theorem stands_of_opened (settled : ∀ fid, (hold fid h).Settled) (unrefused : ¬ RefusedLater h)
    (opens : openedBy answer = some fid) :
    Stands fid .held (h ++ [.sent (.create request), .answered (.create request) answer]) where
  own := by rw [hold_opened, if_pos opens, (settled fid).grant]
  others other ne := by
    rw [hold_opened, if_neg]
    · exact settled other
    · exact fun same => ne (Option.some.inj (same.symm.trans opens))
  opened := by
    refine ⟨.answered (.create request) answer, by simp, ?_⟩
    rw [granted, opens]
    rfl
  unrefused := by
    rw [refusedLater_opened, not_or]
    refine ⟨unrefused, fun refused => ?_⟩
    cases opens.symm.trans refused.1

/-- What an open in the place of a closed pipe leaves. -/
def Reopened (fid : UInt16) (h : List PipeMoment) : Option UInt16 → Prop
  | some fid => Stands fid .held h
  | none => Broken fid h

/-- The pipe that is opened again is held, or the one that was closed is left in its place. -/
theorem keeps_reopen_of (holding : Stands p.fid .held h) :
    unbound.Keeps h (p.reopen n) fun h' result =>
      Reopened p.fid h' (result.toOption.map (·.fid)) := by
  have released : unbound.Keeps h (Pipe.release n p.fid) fun h' result =>
      Stands p.fid .closed h' ∧ result = .ok () :=
    keeps_release_of fun answer => holding.exchange rfl (by simp [Hold.next, Hold.close, granted])
  rw [Pipe.reopen]
  apply released.bind
  · intro h' _ _ closed
    have opened : unbound.Keeps h' (Pipe.openFid n p.name) fun h'' result =>
        Reopened p.fid h'' result.toOption := by
      apply keeps_openFid_of
      intro answer
      have settled : ∀ fid, (hold fid h').Settled := by
        intro fid
        by_cases same : fid = p.fid
        · rw [same, closed.1.own]
          exact Or.inr rfl
        · exact closed.1.others fid same
      cases opens : openedBy answer with
      | some fid => exact stands_of_opened settled closed.1.unrefused opens
      | none =>
          refine ⟨?_, refusedLater_opened.mpr (Or.inr ⟨opens, closed.1.opened⟩)⟩
          rw [hold_opened, if_neg, closed.1.own]
          rw [opens]
          intro gone
          cases gone
    apply opened.bind
    · exact fun h'' fid _ holding => Contract.keeps_pure.mpr holding
    · exact fun h'' error _ broken => broken
  · intro h' error _ kept
    cases kept.2

/-- What a call leaves of its pipe: it is held, or the call failed and left it broken. -/
def Ended {α : Type} (h : List PipeMoment)
    (result : Except ClientError (Pipe × Except ClientError α)) : Prop :=
  ∃ p answer, result = .ok (p, answer) ∧
    (Stands p.fid .held h ∨ Broken p.fid h ∧ ∃ error, answer = .error error)

theorem keeps_call_of {request : Bytes} {callId : UInt32} (holding : Stands p.fid .held h) :
    unbound.Keeps h (p.call n turns request callId) Ended := by
  have second : ∀ {h' : List PipeMoment} {q : Pipe}, Stands q.fid .held h' →
      unbound.Keeps h' (q.secondAttempt n turns request callId) Ended := by
    intro h' q holding
    apply (Pipe.keeps_secondAttempt (fun r uses => Stands.uses uses) holding).mono
    rintro h'' result _ ⟨holding, p', answer, came, on⟩
    refine ⟨p', answer, came, Or.inl ?_⟩
    rwa [on]
  rw [Pipe.call, Contract.keeps_bind, Contract.keeps_note]
  intro _
  dsimp only
  split
  · rw [Contract.keeps_bind, Contract.keeps_attempt]
    apply (Pipe.keeps_transactCall (fun r uses => Stands.uses uses) holding.marked).mono
    intro h' result _ kept
    cases result with
    | ok value =>
        refine Contract.keeps_pure.mpr ⟨_, _, rfl, Or.inl ?_⟩
        rw [kept.2 _ _ rfl]
        exact kept.1
    | error error =>
        have abandoned : Stands (p.abandoned error).fid .held h' := kept.1
        dsimp only
        rw [Contract.keeps_bind, Contract.keeps_attempt]
        apply (keeps_reopen_of abandoned).mono
        intro h'' result _ reopened
        cases result with
        | error error =>
            refine Contract.keeps_pure.mpr ⟨_, _, rfl, Or.inr ⟨?_, _, rfl⟩⟩
            rw [Pipe.fid_bothFailed]
            exact reopened
        | ok q => exact second reopened
  · exact second holding.marked

theorem keeps_rounds_of {left : ℕ} {resume : UInt32} {shares : List Share}
    (holding : Stands p.fid .held h) :
    unbound.Keeps h (Ipc.rounds n turns server left p resume shares) Ended := by
  induction left generalizing h p resume shares with
  | zero => exact Contract.keeps_pure.mpr ⟨_, _, rfl, Or.inl holding⟩
  | succ left ih =>
      rw [Ipc.rounds]
      apply (keeps_call_of holding).bind
      · rintro h' value _ ⟨q, answer, ⟨⟩, holding | ⟨broken, error, rfl⟩⟩
        · dsimp only
          split
          · exact Contract.keeps_pure.mpr ⟨_, _, rfl, Or.inl holding⟩
          · split
            · exact Contract.keeps_pure.mpr ⟨_, _, rfl, Or.inl holding⟩
            · split
              · exact Contract.keeps_pure.mpr ⟨_, _, rfl, Or.inl holding⟩
              · exact ih holding
        · exact Contract.keeps_pure.mpr ⟨_, _, rfl, Or.inr ⟨broken, _, rfl⟩⟩
      · rintro h' error _ ⟨_, _, came, -⟩
        cases came

theorem keeps_enumerate_of (holding : Stands p.fid .held h) :
    unbound.Keeps h (Ipc.enumerate n turns server p) Ended := by
  rw [Ipc.enumerate]
  apply (keeps_call_of holding).bind
  · rintro h' value _ ⟨q, answer, ⟨⟩, holding | ⟨broken, error, rfl⟩⟩
    · dsimp only
      split
      · exact Contract.keeps_pure.mpr ⟨_, _, rfl, Or.inl holding⟩
      · rw [Contract.keeps_bind, Contract.keeps_note]
        exact fun _ => keeps_rounds_of holding.marked
    · exact Contract.keeps_pure.mpr ⟨_, _, rfl, Or.inr ⟨broken, _, rfl⟩⟩
  · rintro h' error _ ⟨_, _, came, -⟩
    cases came

/-- What an enumeration leaves: every handle settled, or one closed twice behind a refused open. -/
def Balanced (h : List PipeMoment) : Prop :=
  (∀ fid, (hold fid h).Settled) ∧ ¬ RefusedLater h ∨
    RefusedLater h ∧ ∃ fid, ¬ (hold fid h).Settled

/-- A history in which nothing was granted yet. -/
structure Ungranted (h : List PipeMoment) : Prop where
  fresh : ∀ fid, hold fid h = .never
  none : ∀ e ∈ h, granted e = none

theorem Ungranted.unrefused (ungranted : Ungranted h) : ¬ RefusedLater h := by
  rintro ⟨before, _, _, after, rfl, -, e, member, grants⟩
  rw [ungranted.none e (List.mem_append_left _ member)] at grants
  cases grants

theorem Ungranted.settled (ungranted : Ungranted h) (fid : UInt16) : (hold fid h).Settled := by
  rw [ungranted.fresh]
  exact Or.inl rfl

/-- The close at the end of an enumeration: of the handle that is held, or again of the one left. -/
theorem balanced_of_close {time : UInt32}
    (ended : Stands fid .held h ∨ Broken fid h) :
    Balanced (h ++ [.sent (.close ⟨fid, time⟩), .answered (.close ⟨fid, time⟩) answer]) := by
  rcases ended with holding | broken
  · have closed : Stands fid .closed (h ++ [.sent (.close ⟨fid, time⟩),
        .answered (.close ⟨fid, time⟩) answer]) :=
      holding.exchange rfl (by simp [Hold.next, Hold.close, granted])
    refine Or.inl ⟨fun fid' => ?_, closed.unrefused⟩
    by_cases same : fid' = fid
    · rw [same, closed.own]
      exact Or.inr rfl
    · exact closed.others fid' same
  · refine Or.inr ⟨?_, fid, ?_⟩
    · obtain ⟨before, request, answer', after, rfl, refused⟩ := broken.refused
      exact ⟨before, request, answer', _, List.append_assoc _ _ _, refused⟩
    · rw [hold_exchange, broken.own, next_answered_other fun _ => by nofun]
      simp [Hold.next, Hold.close, Hold.Settled, granted]

theorem keeps_overSrvsvc_of (ungranted : Ungranted h) :
    unbound.Keeps h (Ipc.overSrvsvc n turns server) fun h' _ => Balanced h' := by
  have opened : unbound.Keeps h (Pipe.openFid n SRVSVC_PIPE) fun h' result =>
      (∀ fid, result.toOption = some fid → Stands fid .held h') ∧
        (result.toOption = none → Balanced h') := by
    apply keeps_openFid_of (I := fun h' opened =>
      (∀ fid, opened = some fid → Stands fid .held h') ∧ (opened = none → Balanced h'))
    intro answer
    refine ⟨fun fid opens => stands_of_opened ungranted.settled ungranted.unrefused opens, ?_⟩
    intro refused
    refine Or.inl ⟨fun fid => ?_, ?_⟩
    · rw [hold_opened, if_neg]
      · exact ungranted.settled fid
      · rw [refused]
        exact nofun
    · rw [refusedLater_opened, not_or]
      refine ⟨ungranted.unrefused, ?_⟩
      rintro ⟨-, e, member, grants⟩
      rw [ungranted.none e member] at grants
      cases grants
  rw [Ipc.overSrvsvc]
  apply opened.bind
  · intro h' fid _ holding
    refine (keeps_enumerate_of ?_).bind ?_ ?_
    · exact holding.1 fid rfl
    · rintro h'' value _ ⟨q, shares, ⟨⟩, ended⟩
      have closed : unbound.Keeps h'' (Pipe.release n q.fid) fun h' result =>
          Balanced h' ∧ result = .ok () := by
        apply keeps_release_of
        intro answer
        exact balanced_of_close (ended.imp_right And.left)
      apply closed.bind
      · exact fun h' _ _ kept => Contract.keeps_ofExcept.mpr kept.1
      · exact fun h' error _ kept => kept.1
    · rintro h'' error _ ⟨_, _, came, -⟩
      cases came
  · exact fun h' error _ kept => kept.2 rfl

/-- RAP names no handle and opens none. -/
theorem Ungranted.rap {parameters data : Bytes} (ungranted : Ungranted h) :
    Ungranted (h ++ [.sent (.rap parameters data), .answered (.rap parameters data) answer]) where
  fresh fid := by
    rw [hold_exchange, ungranted.fresh]
    rfl
  none e member := by
    rcases List.mem_append.mp member with member | member
    · exact ungranted.none e member
    · rcases List.mem_pair.mp member with rfl | rfl <;> rfl

theorem Ungranted.balanced (ungranted : Ungranted h) : Balanced h :=
  Or.inl ⟨ungranted.settled, ungranted.unrefused⟩

theorem keeps_overRap_of (ungranted : Ungranted h) :
    unbound.Keeps h (Ipc.overRap n) fun h' _ => Ungranted h' := by
  have put : unbound.Keeps h ((TreeRequest.rap (Rap.request MAX_DATA_COUNT) []).checked n)
      fun h' _ => Ungranted h' := by
    apply TreeRequest.keeps_checked True.intro
    · exact fun _ _ _ => ungranted.rap
    · rintro h' error (rfl | ⟨answer, rfl⟩)
      · exact ungranted
      · exact ungranted.rap
  rw [Ipc.overRap]
  apply put.bind
  · intro h' reply _ kept
    cases reply.transaction with
    | none => exact Contract.keeps_failed.mpr kept
    | some body => exact Contract.keeps_ofExcept.mpr kept
  · exact fun _ _ _ kept => kept

theorem keeps_listShares :
    unbound.Keeps [] (Ipc.listShares n turns server) fun h _ => Balanced h := by
  have fresh : Ungranted [] := ⟨fun _ => rfl, fun e member => (by cases member)⟩
  rw [Ipc.listShares, Contract.keeps_bind, Contract.keeps_attempt]
  apply (keeps_overRap_of fresh).mono
  intro h' result _ ungranted
  cases result with
  | ok shares => exact Contract.keeps_pure.mpr ungranted.balanced
  | error first =>
      dsimp only
      split
      · exact Contract.keeps_failed.mpr ungranted.balanced
      · rw [Contract.keeps_bind, Contract.keeps_attempt]
        apply (keeps_overSrvsvc_of ungranted).mono
        intro h'' listed _ balanced
        cases listed with
        | ok shares => exact Contract.keeps_pure.mpr balanced
        | error second => exact Contract.keeps_failed.mpr balanced

theorem balanced_of_keeps {α : Type} {d : PipeVerb α} {answers : List Answer}
    {result : Except ClientError α} (keeps : unbound.Keeps [] d fun h _ => Balanced h)
    (ended : d.outcome answers = some result) : Balanced (d.history answers) := by
  have admitted : unbound.Admits [] (d.history answers) :=
    Contract.admits_of_forall fun _ _ _ => True.intro
  exact (keeps.history admitted).2 result ended

/-- **Handles of the pipe** are conserved by an enumeration that came to its end, each closed
once for every grant and left alone then, if and only if no open is refused behind one that was
granted. -/
theorem pipe_handles_conserved_iff {n : Negotiated} {turns : ℕ} {server : Text}
    {answers : List Answer} {result : Except ClientError (List Share)}
    (ended : (Ipc.listShares n turns server).outcome answers = some result) :
    (∀ fid, Conserved fid ((Ipc.listShares n turns server).history answers)) ↔
      ¬ RefusedLater ((Ipc.listShares n turns server).history answers) := by
  have balanced := balanced_of_keeps keeps_listShares ended
  simp only [← settled_iff]
  rcases balanced with ⟨settled, unrefused⟩ | ⟨refused, fid, unsettled⟩
  · exact iff_of_true settled unrefused
  · exact iff_of_false (fun settled => unsettled (settled fid)) (not_not.mpr refused)

/-- Where every open is granted, none is refused behind another. -/
theorem not_refusedLater {h : List PipeMoment} (opens : h.all (fun e =>
    match e with
    | .answered (.create _) answer => (openedBy answer).isSome
    | _ => true) = true) : ¬ RefusedLater h := by
  rintro ⟨before, request, answer, after, rfl, refused, -⟩
  have here := List.all_eq_true.mp opens (.answered (.create request) answer) (by simp)
  dsimp only at here
  rw [refused] at here
  cases here

/-- The answers of an enumeration of two rounds. -/
def enumeratedTwice : List Answer :=
  Ipc.afterRefusal (Ipc.twoRounds Ipc.firstOfTwo Ipc.secondOfTwo)

theorem pipe_handles_conserved_iff_twoRounds :
    (Ipc.listShares ⟨50, 16644, 0⟩ 4 ['s']).outcome enumeratedTwice =
        some (.ok [Ipc.unnamedDisk, Ipc.unnamedDisk]) ∧
      ∀ fid, Conserved fid ((Ipc.listShares ⟨50, 16644, 0⟩ 4 ['s']).history enumeratedTwice) := by
  have ended : (Ipc.listShares ⟨50, 16644, 0⟩ 4 ['s']).outcome enumeratedTwice =
      some (.ok [Ipc.unnamedDisk, Ipc.unnamedDisk]) := by
    decide +kernel
  refine ⟨ended, ?_⟩
  apply (pipe_handles_conserved_iff ended).mpr
  apply not_refusedLater
  decide +kernel

/-- A server that refuses RAP, fails the transaction of the bind, and refuses to open the pipe
again. -/
def refusesReopen : List Answer :=
  [transacted .INVALID_PARAMETER [], pipeOpened 1, transacted .INVALID_PARAMETER [], pipeClosed,
    bareReply Command.NT_CREATE_ANDX .INSUFF_SERVER_RESOURCES,
    bareReply Command.CLOSE .INVALID_HANDLE]

/-- A transaction that fails and an open that is refused then: the handle that was closed before the
open is closed again. -/
theorem closed_handle_is_closed_again : ¬ ∀ (n : Negotiated) (turns : ℕ) (server : Text)
    (answers : List Answer) (result : Except ClientError (List Share)),
      (Ipc.listShares n turns server).outcome answers = some result →
        ∀ fid, Conserved fid ((Ipc.listShares n turns server).history answers) := by
  intro claimed
  have ends : ((Ipc.listShares ⟨50, 16644, 0⟩ 4 ['s']).outcome refusesReopen).isSome = true := by
    decide +kernel
  have misused : hold 1 ((Ipc.listShares ⟨50, 16644, 0⟩ 4 ['s']).history refusesReopen) =
      .misused := by
    decide +kernel
  obtain ⟨result, ended⟩ := Option.isSome_iff_exists.mp ends
  have settled := settled_iff.mpr (claimed ⟨50, 16644, 0⟩ 4 ['s'] refusesReopen result ended 1)
  rw [misused] at settled
  rcases settled with same | same <;> cases same

end Smb1Client
