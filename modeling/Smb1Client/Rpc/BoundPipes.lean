import Smb1Client.Rpc.Pipe

/-!
Which pipe a `NetrShareEnum` request goes to.

The bind is sent once, ahead of the rounds, and the pipe of a call is closed and opened
again where the transact mode fails. In the rounds nothing binds the new pipe, so the
request that is sent a second time goes to a pipe that was never bound.
-/

namespace Smb1Client

open Dialogue

/-! ## What has been done with a pipe -/

/-- How far a pipe is since it was opened. -/
inductive Standing where
  | unopened
  | opened
  | offered
  | bound
  deriving DecidableEq, Repr

/-- The PDU that is being called with, and how far each pipe is. -/
structure Watch where
  calling : Option Bytes
  standing : UInt16 → Standing

/-- The pipe a request carries its PDU to, or a part of it. -/
def TreeRequest.carriedTo : TreeRequest → Option UInt16
  | .pipeTransact fid _ => some fid
  | .write request => some request.fid
  | _ => none

/-- The pipe an answer to an open opens. -/
def openedBy : Answer → Option UInt16
  | .ok reply =>
      if reply.status ≠ .SUCCESS then none
      else (NtCreateAndxResponse.decode reply.message).toOption.map (·.fid)
  | .error _ => none

namespace Watch

def start : Watch := ⟨none, fun _ => .unopened⟩

def put (w : Watch) (fid : UInt16) (standing : Standing) : Watch :=
  { w with standing := Function.update w.standing fid standing }

/-- A pipe is offered the bind it is sent while the call is with it, and is bound where
the answer is accepted. Opening it again starts it over. -/
def next (w : Watch) : PipeMoment → Watch
  | .marked (.calls pdu) => { w with calling := some pdu }
  | .marked (.accepts fid) => if w.standing fid = .offered then w.put fid .bound else w
  | .sent request =>
      match request.carriedTo with
      | some fid =>
          if w.calling = some Ipc.bindPdu ∧ w.standing fid = .opened then w.put fid .offered else w
      | none => w
  | .answered (.create _) answer =>
      match openedBy answer with
      | some fid => w.put fid .opened
      | none => w
  | .answered _ _ => w

@[simp] theorem standing_put (w : Watch) (fid : UInt16) (standing : Standing) :
    (w.put fid standing).standing fid = standing := by
  simp [put]

/-- The call is with the PDU of a `NetrShareEnum` round. -/
def Enumerating (w : Watch) (server : Text) : Prop :=
  ∃ call resume, w.calling = some (Ipc.enumPdu server call resume)

/-- A request is not a bind. -/
theorem enumPdu_ne_bindPdu (server : Text) (call resume : UInt32) :
    Ipc.enumPdu server call resume ≠ Ipc.bindPdu := by
  intro same
  have request : (Ipc.enumPdu server call resume)[2]? = some Pdu.REQUEST := rfl
  have bind : Ipc.bindPdu[2]? = some Pdu.BIND := rfl
  rw [same, bind] at request
  exact absurd request (by decide)

end Watch

/-- What a history says of the pipes. -/
def watch (h : List PipeMoment) : Watch := h.foldl Watch.next .start

theorem watch_append (h : List PipeMoment) (e : PipeMoment) :
    watch (h ++ [e]) = (watch h).next e := by
  rw [watch, List.foldl_concat]
  rfl

theorem watch_exchange (h : List PipeMoment) (r : TreeRequest) (answer : Answer) :
    watch (h ++ [.sent r, .answered r answer]) =
      ((watch h).next (.sent r)).next (.answered r answer) := List.foldl_append

/-- While a round's request is called with, the pipe it is carried to is bound; and no
pipe is opened then. -/
def binding (server : Text) : Contract TreeRequest Answer PipeMark where
  allowed h e := ∀ request answer, e = .answered (.create request) answer →
    (watch h).Enumerating server → openedBy answer = none
  required h r := ∀ fid, r.carriedTo = some fid → (watch h).Enumerating server →
    (watch h).standing fid = .bound

/-! ## Exchanges -/

variable {n : Negotiated} {server : Text} {h : List PipeMoment} {W : Watch → Prop}

/-- Only an open's answer has anything to say of a pipe. -/
theorem next_answered {w : Watch} {r : TreeRequest} {answer : Answer}
    (other : ∀ request, r ≠ .create request) : w.next (.answered r answer) = w := by
  cases r with
  | create request => exact absurd rfl (other request)
  | _ => rfl

/-- A request that carries no PDU and opens nothing. -/
theorem keeps_put_quiet {r : TreeRequest} (carries : r.carriedTo = none)
    (other : ∀ request, r ≠ .create request) (holds : W (watch h)) :
    (binding server).Keeps h (r.put n) fun h' _ => W (watch h') := by
  have same : ∀ answer, watch (h ++ [.sent r, .answered r answer]) = watch h := by
    intro answer
    rw [watch_exchange, next_answered other, Watch.next, carries]
  have required : (binding server).required h r := by
    intro fid carried
    rw [carries] at carried
    cases carried
  apply TreeRequest.keeps_put required
  · intro reply _
    rwa [same]
  · intro h' error shape
    rcases shape with rfl | ⟨gone, rfl⟩
    · exact holds
    · rwa [same]

/-- What is so of the pipes before a PDU is carried to one of them, and after. -/
structure Carries (server : Text) (fid : UInt16) (before after : Watch → Prop) : Prop where
  sends : ∀ w r, r.carriedTo = some fid → before w → after (w.next (.sent r))
  weaker : ∀ w, after w → before w
  required : ∀ w, before w → w.Enumerating server → w.standing fid = .bound

variable {fid : UInt16} {before after : Watch → Prop}

theorem keeps_put_carries {r : TreeRequest} (carries : Carries server fid before after)
    (carried : r.carriedTo = some fid) (holds : before (watch h)) :
    (binding server).Keeps h (r.put n) fun h' result =>
      before (watch h') ∧ ∀ reply, result = .ok reply → after (watch h') := by
  have other : ∀ request, r ≠ .create request := by
    rintro request rfl
    cases carried
  have sent : ∀ answer, after (watch (h ++ [.sent r, .answered r answer])) := by
    intro answer
    rw [watch_exchange, next_answered other]
    exact carries.sends _ r carried holds
  have required : (binding server).required h r := by
    intro fid' carried'
    cases carried.symm.trans carried'
    exact carries.required _ holds
  apply TreeRequest.keeps_put required
  · intro reply _
    exact ⟨carries.weaker _ (sent _), fun _ _ => sent _⟩
  · intro h' error shape
    refine ⟨?_, fun reply came => by cases came⟩
    rcases shape with rfl | ⟨gone, rfl⟩
    · exact holds
    · exact carries.weaker _ (sent _)

/-! ## One call -/

variable {p : Pipe} {turns : ℕ}

/-- Reading a pipe leaves all of them as they are. -/
theorem keeps_fill {collector : Pdu.Collector} (holds : W (watch h)) :
    (binding server).Keeps h (Pipe.fill n turns p collector) fun h' result =>
      W (watch h') ∧ ∀ p' c', result = .ok (p', c') → p'.fid = p.fid := by
  apply Pipe.keeps_fill (I := fun h' => W (watch h'))
  · intro request _ h' holds'
    have quiet : ∀ answer, watch (h' ++ [.sent (.read request), .answered (.read request) answer]) =
        watch h' := by
      intro answer
      rw [watch_exchange, next_answered fun _ => by nofun]
      rfl
    refine ⟨fun fid carried => (by cases carried), fun answer _ => ?_⟩
    dsimp only
    rwa [quiet]
  · exact holds

/-- What is so after the PDU is carried is so after more of it is. -/
theorem Carries.again (carries : Carries server fid before after) :
    Carries server fid after after where
  sends w r carried holds := carries.sends w r carried (carries.weaker w holds)
  weaker _ holds := holds
  required w holds := carries.required w (carries.weaker w holds)

theorem keeps_writeAll {request : Bytes} (carries : Carries server fid before after)
    (on : p.fid = fid) (holds : before (watch h)) :
    (binding server).Keeps h (Pipe.writeAll n turns p request) fun h' result =>
      before (watch h') ∧ ∀ p', result = .ok p' →
        p'.fid = fid ∧ (request ≠ [] → after (watch h')) := by
  induction turns generalizing before h p request with
  | zero => exact Contract.keeps_paused
  | succ turns ih =>
      have failed : ∀ {h' : List PipeMoment} (error : ClientError), before (watch h') →
          before (watch h') ∧ ∀ p', (.error error : Except ClientError Pipe) = .ok p' →
            p'.fid = fid ∧ (request ≠ [] → after (watch h')) :=
        fun error holds => ⟨holds, fun p' came => by cases came⟩
      rw [Pipe.writeAll]
      split
      · next empty =>
          refine Contract.keeps_pure.mpr ⟨holds, fun p' came => ?_⟩
          cases came
          exact ⟨on, fun nonempty => absurd empty nonempty⟩
      · refine (keeps_put_carries carries ?_ holds).bind ?_ ?_
        · exact congrArg some on
        · intro h' reply _ kept
          rw [Contract.keeps_bind, Contract.keeps_ofExcept]
          cases acceptPipeStatus reply.status with
          | error error => exact failed error kept.1
          | ok value =>
              dsimp only
              rw [Contract.keeps_bind, Contract.keeps_ofExcept]
              cases (WriteAndxResponse.decode reply.message).mapError ClientError.ofWire with
              | error error => exact failed error kept.1
              | ok response =>
                  dsimp only
                  split
                  · exact Contract.keeps_failed.mpr (failed _ kept.1)
                  · -- the writes behind the first keep what is so after it
                    refine (ih carries.again ?_ (kept.2 reply rfl)).mono ?_
                    · exact on
                    intro h'' result _ wrote
                    refine ⟨carries.weaker _ wrote.1, fun p' came => ?_⟩
                    exact ⟨(wrote.2 p' came).1, fun _ => wrote.1⟩
        · exact fun h' error _ kept => failed error kept.1

theorem keeps_transactCall {request : Bytes} {collector : Pdu.Collector}
    (carries : Carries server p.fid before after) (holds : before (watch h)) :
    (binding server).Keeps h (Pipe.transactCall n turns p request collector) fun h' result =>
      before (watch h') ∧ ∀ p' c', result = .ok (p', c') →
        p'.fid = p.fid ∧ after (watch h') := by
  have failed : ∀ {h' : List PipeMoment} (error : ClientError), before (watch h') →
      before (watch h') ∧ ∀ p' c', (.error error : Except ClientError (Pipe × Pdu.Collector)) =
        .ok (p', c') → p'.fid = p.fid ∧ after (watch h') :=
    fun error holds => ⟨holds, fun p' c' came => by cases came⟩
  rw [Pipe.transactCall]
  apply (keeps_put_carries carries rfl holds).bind
  · intro h' reply _ kept
    have sent := kept.2 reply rfl
    have filled : ∀ collector, (binding server).Keeps h' (Pipe.fill n turns p collector)
        fun h'' result => before (watch h'') ∧ ∀ p' c', result = .ok (p', c') →
          p'.fid = p.fid ∧ after (watch h'') := by
      intro collector
      apply (keeps_fill sent).mono
      exact fun h'' result _ filled => ⟨carries.weaker _ filled.1, fun p' c' came =>
        ⟨filled.2 p' c' came, filled.1⟩⟩
    rw [Contract.keeps_bind, Contract.keeps_ofExcept]
    cases acceptPipeStatus reply.status with
    | error error => exact failed error kept.1
    | ok value =>
        dsimp only
        cases reply.transaction with
        | none =>
            dsimp only
            rw [Contract.keeps_bind]
            exact Contract.keeps_pure.mpr (filled collector)
        | some body =>
            dsimp only
            rw [Contract.keeps_bind, Contract.keeps_ofExcept]
            cases (collector.feed body.data).mapError pduError with
            | error error => exact failed error kept.1
            | ok collector => exact filled collector
  · exact fun h' error _ kept => failed error kept.1

theorem keeps_secondAttempt {request : Bytes} {call : UInt32}
    (carries : Carries server fid before after) (on : p.fid = fid) (nonempty : request ≠ [])
    (holds : before (watch h)) :
    (binding server).Keeps h (p.secondAttempt n turns request call) fun h' result =>
      ∀ p' answer, result = .ok (p', .ok answer) → p'.fid = fid ∧ after (watch h') := by
  have called : (binding server).Keeps h (p.writeReadCall n turns request (.new call))
      fun h' result => ∀ p' c', result = .ok (p', c') → p'.fid = fid ∧ after (watch h') := by
    rw [Pipe.writeReadCall]
    apply (keeps_writeAll carries on holds).bind
    · intro h' p' _ wrote
      obtain ⟨same, sent⟩ := wrote.2 p' rfl
      apply (keeps_fill (sent nonempty)).mono
      intro h'' result _ filled p'' c'' came
      exact ⟨(filled.2 p'' c'' came).trans same, filled.1⟩
    · exact fun h' error _ _ p' c' came => by cases came
  rw [Pipe.secondAttempt, Contract.keeps_bind, Contract.keeps_attempt]
  apply called.mono
  intro h' result _ kept
  cases result with
  | error second =>
      refine Contract.keeps_pure.mpr fun p' answer came => ?_
      cases came
  | ok value =>
      refine Contract.keeps_pure.mpr fun p' answer came => ?_
      obtain ⟨rfl, -⟩ := Prod.mk.inj (Except.ok.inj came)
      exact kept _ _ rfl

/-- A pipe that is opened is not bound, and is not opened while a round is called. -/
theorem keeps_openFid {name : Text} :
    (binding server).Keeps h (Pipe.openFid n name) fun h' result => ∀ fid, result = .ok fid →
      ¬ (watch h).Enumerating server ∧ watch h' = (watch h).put fid .opened := by
  rw [Pipe.openFid]
  have opened : (binding server).Keeps h
      (TreeRequest.checked n (.create (Pipe.createRequest name))) fun h' result =>
        ∀ reply, result = .ok reply → reply.status = .SUCCESS ∧
          (openedBy (.ok reply) = none ∨ ¬ (watch h).Enumerating server) ∧
            watch h' =
              (watch h).next (.answered (.create (Pipe.createRequest name)) (.ok reply)) := by
    apply TreeRequest.keeps_checked
    · exact fun fid carried => by cases carried
    · intro reply allowed success reply' came
      cases came
      have quiet : watch (h ++ [.sent (.create (Pipe.createRequest name))]) = watch h := by
        rw [watch_append]
        rfl
      have here := allowed _ _ rfl
      rw [quiet] at here
      refine ⟨success, ?_, watch_exchange _ _ _⟩
      by_cases enumerating : (watch h).Enumerating server
      · exact Or.inl (here enumerating)
      · exact Or.inr enumerating
    · exact fun h' error _ reply came => by cases came
  apply opened.bind
  · intro h' reply _ kept
    obtain ⟨success, calm, seen⟩ := kept reply rfl
    rw [Contract.keeps_bind, Contract.keeps_ofExcept]
    cases decoded : NtCreateAndxResponse.decode reply.message with
    | error error =>
        intro fid came
        cases came
    | ok response =>
        have opens : openedBy (.ok reply) = some response.fid := by
          rw [openedBy, if_neg (not_not.mpr success), decoded]
          rfl
        refine Contract.keeps_pure.mpr fun fid came => ?_
        cases came
        rw [opens] at calm
        refine ⟨calm.resolve_left (Option.some_ne_none _), ?_⟩
        rw [seen, Watch.next, opens]
  · exact fun h' error _ _ fid came => by cases came

theorem keeps_release (holds : W (watch h)) :
    (binding server).Keeps h (Pipe.release n fid) fun h' _ => W (watch h') := by
  rw [Pipe.release, Contract.keeps_bind, Contract.keeps_attempt]
  apply (keeps_put_quiet rfl (fun request => by nofun) holds).mono
  intro h' result _ holds'
  exact Contract.keeps_pure.mpr holds'

/-- A pipe that is opened again is not bound any more, and is not while a round is called. -/
theorem keeps_reopen (holds : W (watch h)) :
    (binding server).Keeps h (p.reopen n) fun h' result => ∀ p', result = .ok p' →
      ∃ w, W w ∧ ¬ w.Enumerating server ∧ watch h' = w.put p'.fid .opened := by
  rw [Pipe.reopen]
  apply (keeps_release holds).bind
  · intro h' value _ holds'
    apply keeps_openFid.bind
    · intro h'' fid _ opened
      refine Contract.keeps_pure.mpr fun p' came => ?_
      cases came
      exact ⟨watch h', holds', opened fid rfl⟩
    · exact fun h'' error _ _ p' came => by cases came
  · exact fun h' error _ _ p' came => by cases came

/-- Any call: what is so of its pipe before the PDU is carried there, and of the one opened
in its place, is so after it of the pipe the answer came from. -/
theorem keeps_call {request : Bytes} {call : UInt32} {before after : UInt16 → Watch → Prop}
    (carries : ∀ fid, Carries server fid (before fid) (after fid)) (nonempty : request ≠ [])
    (starts : before p.fid (watch (h ++ [.marked (.calls request)])))
    (reopens : ∀ fid fid' w, before fid w → ¬ w.Enumerating server →
      before fid' (w.put fid' .opened)) :
    (binding server).Keeps h (p.call n turns request call) fun h' result =>
      ∀ p' answer, result = .ok (p', .ok answer) → after p'.fid (watch h') := by
  have second : ∀ {h' : List PipeMoment} {q : Pipe}, before q.fid (watch h') →
      (binding server).Keeps h' (q.secondAttempt n turns request call) fun h'' result =>
        ∀ p' answer, result = .ok (p', .ok answer) → after p'.fid (watch h'') := by
    intro h' q holds
    apply (keeps_secondAttempt (carries q.fid) rfl nonempty holds).mono
    intro h'' result _ kept p' answer came
    obtain ⟨same, sent⟩ := kept p' answer came
    rwa [same]
  rw [Pipe.call, Contract.keeps_bind, Contract.keeps_note]
  intro _
  dsimp only
  split
  · rw [Contract.keeps_bind, Contract.keeps_attempt]
    apply (keeps_transactCall (carries p.fid) starts).mono
    intro h' result _ kept
    cases result with
    | ok value =>
        refine Contract.keeps_pure.mpr fun p' answer came => ?_
        obtain ⟨rfl, -⟩ := Prod.mk.inj (Except.ok.inj came)
        obtain ⟨same, sent⟩ := kept.2 _ _ rfl
        rwa [same]
    | error error =>
        dsimp only
        rw [Contract.keeps_bind, Contract.keeps_attempt]
        apply (keeps_reopen kept.1).mono
        intro h'' result _ opened
        cases result with
        | error error =>
            refine Contract.keeps_pure.mpr fun p' answer came => ?_
            cases came
        | ok q =>
            obtain ⟨w, holds, calm, seen⟩ := opened q rfl
            apply second
            rw [seen]
            exact reopens _ _ _ holds calm
  · exact second starts

/-! ## The enumeration -/

/-- A bind that goes to an opened pipe leaves it offered, also one opened in its place. -/
theorem keeps_call_bind {call : UInt32} (opened : (watch h).standing p.fid = .opened) :
    (binding server).Keeps h (p.call n turns Ipc.bindPdu call) fun h' result =>
      ∀ p' answer, result = .ok (p', .ok answer) → (watch h').standing p'.fid = .offered := by
  let Before (fid : UInt16) (w : Watch) : Prop :=
    w.calling = some Ipc.bindPdu ∧ (w.standing fid = .opened ∨ w.standing fid = .offered)
  let After (fid : UInt16) (w : Watch) : Prop :=
    w.calling = some Ipc.bindPdu ∧ w.standing fid = .offered
  have carries : ∀ fid, Carries server fid (Before fid) (After fid) := by
    intro fid
    refine ⟨?_, fun w after => ⟨after.1, Or.inr after.2⟩, ?_⟩
    · intro w r carried before
      rw [Watch.next, carried]
      dsimp only
      split
      · exact ⟨before.1, w.standing_put fid .offered⟩
      · next no => exact ⟨before.1, before.2.resolve_left fun opened => no ⟨before.1, opened⟩⟩
    · rintro w ⟨calling, -⟩ ⟨call, resume, enumerating⟩
      exact absurd (Option.some.inj (enumerating.symm.trans calling))
        (Watch.enumPdu_ne_bindPdu server call resume)
  have called : (binding server).Keeps h (p.call n turns Ipc.bindPdu call) fun h' result =>
      ∀ p' answer, result = .ok (p', .ok answer) → After p'.fid (watch h') := by
    apply keeps_call carries
    · decide
    · rw [watch_append]
      exact ⟨rfl, Or.inl opened⟩
    · exact fun fid fid' w before _ => ⟨before.1, Or.inl (w.standing_put fid' .opened)⟩
  apply called.mono
  exact fun h' result _ kept p' answer came => (kept p' answer came).2

/-- A round that goes to a bound pipe leaves it bound. -/
theorem keeps_call_enum {call resume callId : UInt32} (bound : (watch h).standing p.fid = .bound) :
    (binding server).Keeps h (p.call n turns (Ipc.enumPdu server call resume) callId)
      fun h' result => ∀ p' answer, result = .ok (p', .ok answer) →
        (watch h').standing p'.fid = .bound := by
  let During (fid : UInt16) (w : Watch) : Prop :=
    w.calling = some (Ipc.enumPdu server call resume) ∧ w.standing fid = .bound
  have carries : ∀ fid, Carries server fid (During fid) (During fid) := by
    refine fun fid => ⟨?_, fun w during => during, fun w during _ => during.2⟩
    intro w r carried during
    rw [Watch.next, carried]
    dsimp only
    rwa [if_neg]
    rintro ⟨-, opened⟩
    rw [during.2] at opened
    cases opened
  have called : (binding server).Keeps h (p.call n turns (Ipc.enumPdu server call resume) callId)
      fun h' result => ∀ p' answer, result = .ok (p', .ok answer) → During p'.fid (watch h') := by
    apply keeps_call carries
    · exact List.cons_ne_nil _ _
    · rw [watch_append]
      exact ⟨rfl, bound⟩
    · exact fun fid fid' w during calm => absurd ⟨call, resume, during.1⟩ calm
  apply called.mono
  exact fun h' result _ kept p' answer came => (kept p' answer came).2

theorem keeps_rounds {left : ℕ} {resume : UInt32} {shares : List Share}
    (bound : (watch h).standing p.fid = .bound) :
    (binding server).Keeps h (Ipc.rounds n turns server left p resume shares)
      fun _ _ => True := by
  induction left generalizing h p resume shares with
  | zero => exact Contract.keeps_pure.mpr True.intro
  | succ left ih =>
      rw [Ipc.rounds]
      apply (keeps_call_enum bound).bind
      · intro h' value _ kept
        obtain ⟨p', answer⟩ := value
        cases answer with
        | error error => exact Contract.keeps_pure.mpr True.intro
        | ok answer =>
            dsimp only
            split
            · exact Contract.keeps_pure.mpr True.intro
            · split
              · exact Contract.keeps_pure.mpr True.intro
              · split
                · exact Contract.keeps_pure.mpr True.intro
                · exact ih (kept p' answer rfl)
      · exact fun _ _ _ _ => True.intro

theorem keeps_enumerate (opened : (watch h).standing p.fid = .opened) :
    (binding server).Keeps h (Ipc.enumerate n turns server p) fun _ _ => True := by
  rw [Ipc.enumerate]
  apply (keeps_call_bind opened).bind
  · intro h' value _ kept
    obtain ⟨p', answer⟩ := value
    cases answer with
    | error error => exact Contract.keeps_pure.mpr True.intro
    | ok answer =>
        dsimp only
        split
        · exact Contract.keeps_pure.mpr True.intro
        · rw [Contract.keeps_bind, Contract.keeps_note]
          intro _
          apply keeps_rounds
          rw [watch_append, Watch.next, if_pos (kept p' answer rfl)]
          exact Watch.standing_put _ _ _
  · exact fun _ _ _ _ => True.intro

theorem keeps_overSrvsvc :
    (binding server).Keeps [] (Ipc.overSrvsvc n turns server) fun _ _ => True := by
  rw [Ipc.overSrvsvc]
  apply keeps_openFid.bind
  · intro h' fid _ opened
    refine (keeps_enumerate ?_).bind ?_ ?_
    · rw [(opened fid rfl).2]
      exact Watch.standing_put _ _ _
    · intro h'' value _ _
      apply (keeps_release (W := fun _ => True) True.intro).bind
      · exact fun _ _ _ _ => Contract.keeps_ofExcept.mpr True.intro
      · exact fun _ _ _ _ => True.intro
    · exact fun _ _ _ _ => True.intro
  · exact fun _ _ _ _ => True.intro

/-- **Requests go to bound pipes**, as long as no pipe is opened while a round is called:
what carries a `NetrShareEnum` request to a pipe is put after a bind was sent there and its
answer accepted, since the pipe was opened. -/
theorem enumeration_reaches_bound_pipes {n : Negotiated} {turns : ℕ} {server : Text}
    {answers : List Answer} (unopened : ∀ before request answer after,
      (Ipc.overSrvsvc n turns server).history answers =
          before ++ .answered (.create request) answer :: after →
        (watch before).Enumerating server → openedBy answer = none) :
    ∀ before request after fid,
      (Ipc.overSrvsvc n turns server).history answers = before ++ .sent request :: after →
        request.carriedTo = some fid → (watch before).Enumerating server →
          (watch before).standing fid = .bound := by
  have admitted : (binding server).Admits []
      ((Ipc.overSrvsvc n turns server).history answers) := by
    apply Contract.admits_of_split
    rintro before e after split request answer rfl enumerating
    exact unopened before request answer after split enumerating
  intro before request after fid split
  exact (keeps_overSrvsvc.history admitted).1 before request after split fid

/-- The answer to an open of a pipe. -/
def pipeOpened (fid : UInt16) : Answer :=
  .ok
    { message :=
        { header := SmbHeader.request Command.NT_CREATE_ANDX
          bytes := .replicate 33 0 ++ (AndX.NONE.write ++ (0 :: (LittleEndian.u16le fid ++
            .replicate 63 0)))
          wordCount := CREATE_RESPONSE_WORDS
          byteCount := 0
          fits := by simp [AndX.length_write, CREATE_RESPONSE_WORDS, HEADER_LEN] }
      transaction := none }

/-- The answer to a transaction. -/
def transacted (status : NtStatus) (data : Bytes) : Answer :=
  .ok
    { message :=
        { header := { SmbHeader.request Command.TRANSACTION with status }
          bytes := .replicate 35 0
          wordCount := 0
          byteCount := 0
          fits := Message.fits_empty }
      transaction := some { setup := [], parameters := [], data } }

/-- A reply without a body, as a server sends where it refuses, or has nothing to say. -/
def bareReply (command : UInt8) (status : NtStatus) : Answer :=
  .ok
    { message :=
        { header := { SmbHeader.request command with status }
          bytes := .replicate 35 0
          wordCount := 0
          byteCount := 0
          fits := Message.fits_empty }
      transaction := none }

def pipeClosed : Answer := bareReply Command.CLOSE .SUCCESS

/-- A bind that is accepted, on NDR32. -/
def bindAccepted : Answer :=
  transacted .SUCCESS
    (Pdu.pdu Pdu.BIND_ACK 0 (.replicate 12 0 ++ [1, 0, 0, 0] ++ .replicate 4 0 ++ Pdu.NDR32))

/-- What happens where pipe 1 is bound and the server then gives these answers. -/
def boundThen (answers : List Answer) : List PipeMoment :=
  (Ipc.overSrvsvc ⟨50, 16644, 0⟩ 4 ['s']).history (pipeOpened 1 :: bindAccepted :: answers)

/-- The round's first request, after a bind on pipe 1. -/
def firstRound : Bytes := Ipc.enumPdu ['s'] 1 0

/-- What happens up to the round's first request. -/
def boundPipe : List PipeMoment :=
  let opening : TreeRequest := .create (Pipe.createRequest SRVSVC_PIPE)
  [.sent opening, .answered opening (pipeOpened 1), .marked (.calls Ipc.bindPdu),
    .sent (.pipeTransact 1 Ipc.bindPdu), .answered (.pipeTransact 1 Ipc.bindPdu) bindAccepted,
    .marked (.accepts 1), .marked (.calls firstRound)]

/-- A round that is put to pipe 1. -/
theorem enumeration_reaches_bound_pipes_one :
    boundThen [] = boundPipe ++ [.sent (.pipeTransact 1 firstRound)] ∧
      ∀ before request after fid, boundThen [] = before ++ .sent request :: after →
        request.carriedTo = some fid → (watch before).Enumerating ['s'] →
          (watch before).standing fid = .bound := by
  have happened : boundThen [] = boundPipe ++ [.sent (.pipeTransact 1 firstRound)] := by
    decide +kernel
  refine ⟨happened, enumeration_reaches_bound_pipes ?_⟩
  intro before request answer after split enumerating
  have split : boundPipe ++ [.sent (.pipeTransact 1 firstRound)] =
      before ++ .answered (.create request) answer :: after := happened.symm.trans split
  rcases before with _ | ⟨first, _ | ⟨second, before⟩⟩
  · cases split
  · obtain ⟨rfl, -⟩ := List.cons.inj split
    obtain ⟨call, resume, calling⟩ := enumerating
    cases calling
  · have later : boundPipe.drop 2 ++ [.sent (.pipeTransact 1 firstRound)] =
        before ++ .answered (.create request) answer :: after :=
      (List.cons.inj (List.cons.inj split).2).2
    have member : Happening.answered (.create request) answer ∈
        before ++ .answered (.create request) answer :: after := by simp
    rw [← later] at member
    simp [boundPipe] at member

/-- The pipe opened in place of pipe 1, once the transaction of the round has failed, and
what the round's request is then written to it with. -/
def unboundPipe : List PipeMoment :=
  let request : TreeRequest := .pipeTransact 1 firstRound
  let opening : TreeRequest := .create (Pipe.createRequest SRVSVC_PIPE)
  let closing : TreeRequest := .close ⟨1, LEAVE_TIME_ALONE⟩
  [.sent request, .answered request (transacted .INVALID_PARAMETER []),
    .sent closing, .answered closing pipeClosed,
    .sent opening, .answered opening (pipeOpened 2)]

def firstRoundWritten : WriteAndxRequest :=
  { fid := 2, offset := 0, writeMode := 0, remaining := 0, data := firstRound }

/-- A transaction that fails for the round and an open that does not: the round's request
is written to a pipe no bind was sent to. -/
theorem enumeration_reaches_an_unbound_pipe : ¬ ∀ (n : Negotiated) (turns : ℕ) (server : Text)
    (answers : List Answer), ∀ before request after fid,
      (Ipc.overSrvsvc n turns server).history answers = before ++ .sent request :: after →
        request.carriedTo = some fid → (watch before).Enumerating server →
          (watch before).standing fid = .bound := by
  intro claimed
  have happened : boundThen [transacted .INVALID_PARAMETER [], pipeClosed, pipeOpened 2] =
      (boundPipe ++ unboundPipe) ++ [.sent (.write firstRoundWritten)] := by
    decide +kernel
  have bound := claimed ⟨50, 16644, 0⟩ 4 ['s']
    [pipeOpened 1, bindAccepted, transacted .INVALID_PARAMETER [], pipeClosed, pipeOpened 2]
    (boundPipe ++ unboundPipe) _ [] 2 happened rfl ⟨1, 0, rfl⟩
  have opened : (watch (boundPipe ++ unboundPipe)).standing 2 = .opened := by
    decide +kernel
  rw [opened] at bound
  cases bound

end Smb1Client
