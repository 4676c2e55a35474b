import Smb1Client.Rpc.BoundPipes

/-!
What a failure of a pipe's transact mode comes to.

`Pipe::call` takes an attempt for failed where it returns an error, and an answer for whole where
its collector says so. The two differ where a read of the pipe brings nothing: the loop that reads
ends well there, with a collector that is not complete.
-/

namespace Smb1Client

open Dialogue

/-- A read of the pipe was answered, and the answer brought nothing. -/
def Starves (h : List PipeMoment) : Prop :=
  ∃ request reply response, .answered (.read request) (.ok reply) ∈ h ∧
    acceptPipeStatus reply.status = .ok () ∧
      ReadAndxResponse.decode reply.message = .ok response ∧ response.data = []

/-- Where nothing is read, no read is starved. -/
theorem not_starves_of_unread {h : List PipeMoment} (unread : h.all (fun e =>
    match e with
    | .answered (.read _) _ => false
    | _ => true) = true) : ¬ Starves h := by
  rintro ⟨request, reply, -, here, -⟩
  cases List.all_eq_true.mp unread _ here

theorem not_starves_nil : ¬ Starves [] := by
  rintro ⟨_, _, _, member, -⟩
  cases member

theorem starves_append {h h' : List PipeMoment} : Starves (h ++ h') ↔ Starves h ∨ Starves h' := by
  constructor
  · rintro ⟨request, reply, response, member, brings⟩
    rcases List.mem_append.mp member with first | second
    · exact Or.inl ⟨request, reply, response, first, brings⟩
    · exact Or.inr ⟨request, reply, response, second, brings⟩
  · rintro (⟨request, reply, response, member, brings⟩ | ⟨request, reply, response, member, brings⟩)
    · exact ⟨request, reply, response, List.mem_append_left _ member, brings⟩
    · exact ⟨request, reply, response, List.mem_append_right _ member, brings⟩

/-- A request that is no read brings nothing that could be missing. -/
theorem not_starves_exchange {r : TreeRequest} {answer : Answer}
    (other : ∀ request, r ≠ .read request) : ¬ Starves [.sent r, .answered r answer] := by
  rintro ⟨request, reply, response, member, -⟩
  rcases List.mem_pair.mp member with same | same
  · cases same
  · cases same
    exact other request rfl

namespace TreeRequest

variable {n : Negotiated} {r : TreeRequest} {answers rest : List Answer}
    {result : Except ClientError Reply}

/-- A request that came to something was not put, or was answered. -/
theorem of_run_put (ran : (r.put n : PipeVerb Reply).run answers = some (result, rest)) :
    (∃ error, result = .error error ∧ rest = answers ∧
        (r.put n : PipeVerb Reply).history answers = []) ∨
      ∃ answer, answers = answer :: rest ∧ result = answer.mapError .ofConnection ∧
        (r.put n : PipeVerb Reply).history answers = [.sent r, .answered r answer] := by
  unfold put at ran ⊢
  cases encoded : r.encodeBody n with
  | error error =>
      rw [encoded] at ran
      cases ran
      exact Or.inl ⟨error, rfl, rfl, rfl⟩
  | ok body =>
      rw [encoded] at ran
      cases answers with
      | nil => cases ran
      | cons answer answers =>
          change (ofExcept _ : PipeVerb Reply).run answers = _ at ran
          rw [run_ofExcept] at ran
          cases ran
          refine Or.inr ⟨answer, rfl, rfl, ?_⟩
          change .sent r :: .answered r answer :: (ofExcept _ : PipeVerb Reply).history rest = _
          rw [history_ofExcept]

theorem not_starves_put (other : ∀ request, r ≠ .read request) :
    ¬ Starves ((r.put n : PipeVerb Reply).history answers) := by
  unfold put
  split
  · exact not_starves_nil
  · cases answers with
    | nil =>
        rintro ⟨_, _, _, member, -⟩
        cases List.mem_singleton.mp member
    | cons answer answers =>
        change ¬ Starves ([.sent r, .answered r answer] ++
          (ofExcept _ : PipeVerb Reply).history answers)
        rw [history_ofExcept, List.append_nil]
        exact not_starves_exchange other

/-- A request that failed brought no reply. -/
theorem not_starves_failed {error : ClientError}
    (ran : (r.put n : PipeVerb Reply).run answers = some (.error error, rest)) :
    ¬ Starves ((r.put n : PipeVerb Reply).history answers) := by
  rcases of_run_put ran with ⟨_, -, -, happened⟩ | ⟨answer, -, failed, happened⟩
  · rw [happened]
    exact not_starves_nil
  · rw [happened]
    rintro ⟨request, reply, response, member, -⟩
    rcases List.mem_pair.mp member with same | same
    · cases same
    · cases same
      cases failed

theorem history_put_of_ok {reply : Reply}
    (ran : (r.put n : PipeVerb Reply).run answers = some (.ok reply, rest)) :
    (r.put n : PipeVerb Reply).history answers = [.sent r, .answered r (.ok reply)] := by
  rcases of_run_put ran with ⟨_, failed, -, -⟩ | ⟨answer, -, came, happened⟩
  · cases failed
  · cases answer with
    | error gone => cases came
    | ok reply' =>
        cases came
        exact happened

end TreeRequest

theorem starves_read_iff {request : ReadAndxRequest} {reply : Reply} :
    Starves [.sent (.read request), .answered (.read request) (.ok reply)] ↔
      acceptPipeStatus reply.status = .ok () ∧
        ∃ response, ReadAndxResponse.decode reply.message = .ok response ∧ response.data = [] := by
  constructor
  · rintro ⟨_, _, response, member, accepted, brings⟩
    rcases List.mem_pair.mp member with same | same
    · cases same
    · cases same
      exact ⟨accepted, response, brings⟩
  · rintro ⟨accepted, response, brings⟩
    exact ⟨request, reply, response, by simp, accepted, brings⟩

/-! ## Collectors -/

namespace Pdu.Collector

/-- A collector that is complete has taken a PDU. -/
def Opened (c : Collector) : Prop := c.complete = true → c.ptype.isSome = true

theorem opened_new (callId : UInt32) : (new callId).Opened := fun complete => by cases complete

theorem opened_accept {c c' : Collector} {fragment : Bytes} (opened : c.Opened)
    (accepted : c.accept fragment = .ok c') : c'.Opened := by
  rcases of_accept accepted with rfl | ⟨_, _, _, _, rfl⟩
  · exact opened
  · exact fun _ => rfl

theorem opened_drain {turns : ℕ} {c c' : Collector} (opened : c.Opened)
    (drained : drain turns c = .ok c') : c'.Opened := by
  induction turns generalizing c with
  | zero =>
      cases drained
      exact opened
  | succ turns ih =>
      rw [drain] at drained
      cases taken : next c.pending with
      | error error =>
          rw [taken] at drained
          cases drained
      | ok front =>
          rw [taken] at drained
          cases front with
          | none =>
              cases drained
              exact opened
          | some front =>
              obtain ⟨fragment, pending⟩ := front
              simp only [Bind.bind, Except.bind] at drained
              cases accepted : ({ c with pending } : Collector).accept fragment with
              | error error =>
                  rw [accepted] at drained
                  cases drained
              | ok next =>
                  rw [accepted] at drained
                  have kept : ({ c with pending } : Collector).Opened := opened
                  exact ih (opened_accept kept accepted) drained

theorem opened_feed {c c' : Collector} {bytes : Bytes} (opened : c.Opened)
    (fed : c.feed bytes = .ok c') : c'.Opened := by
  have kept : ({ c with pending := c.pending ++ bytes } : Collector).Opened := opened
  exact opened_drain kept fed

/-- Only a complete collector gives an answer. -/
theorem finish_isOk {c : Collector} (opened : c.Opened) :
    (∃ error, c.finish = .error error) ↔ c.complete = false := by
  rw [finish]
  cases typed : c.ptype with
  | none =>
      refine ⟨fun _ => ?_, fun _ => ⟨_, rfl⟩⟩
      by_contra complete
      have some := opened (Bool.eq_true_of_not_eq_false complete)
      rw [typed] at some
      cases some
  | some ptype =>
      dsimp only
      cases complete : c.complete with
      | true =>
          rw [if_pos rfl]
          refine ⟨fun ⟨error, came⟩ => ?_, fun no => absurd no Bool.true_eq_false.mp⟩
          cases came
      | false =>
          rw [if_neg Bool.false_ne_true]
          exact ⟨fun _ => rfl, fun _ => ⟨_, rfl⟩⟩

end Pdu.Collector

/-! ## Reading and writing the pipe -/

namespace Pipe

variable {n : Negotiated} {turns : ℕ} {p : Pipe} {answers rest left : List Answer}

/-- An attempt ended well, with a collector that has no answer. -/
def Short (result : Except ClientError (Pipe × Pdu.Collector)) : Prop :=
  ∃ p collector error, result = .ok (p, collector) ∧ collector.finish = .error error

theorem not_short_error (error : ClientError) : ¬ Short (.error error) := by
  rintro ⟨_, _, _, came, -⟩
  cases came

/-- What a reply to a read makes of the pipe and the collector, or nothing where it brings
nothing. -/
def taken (p : Pipe) (collector : Pdu.Collector) (reply : Reply) :
    Except ClientError (Option (Pipe × Pdu.Collector)) := do
  acceptPipeStatus reply.status
  let response ← (ReadAndxResponse.decode reply.message).mapError .ofWire
  if response.data = [] then return none
  else
    let p := { p with offset := p.offset + UInt64.ofNat response.data.length }
    let collector ← (collector.feed response.data).mapError pduError
    return some (p, collector)

/-- The read the pipe is read with. -/
def readRequest (n : Negotiated) (p : Pipe) : TreeRequest :=
  .read { fid := p.fid, offset := p.offset, maxCount := transferSize n, minCount := 0
          remaining := 0 }

theorem fill_succ {collector : Pdu.Collector} : fill n (turns + 1) p collector =
    if collector.complete then return (p, collector)
    else (do
      let reply ← (readRequest n p).put n
      match p.taken collector reply with
      | .error error => .failed error
      | .ok none => return (p, collector)
      | .ok (some (p, collector)) => fill n turns p collector) := by
  rw [fill]
  refine if_congr Iff.rfl rfl (congrArg _ (funext fun reply => ?_))
  rw [taken]
  cases acceptPipeStatus reply.status with
  | error error => rfl
  | ok value =>
      cases (ReadAndxResponse.decode reply.message).mapError ClientError.ofWire with
      | error error => rfl
      | ok response =>
          by_cases empty : response.data = []
          · simp only [Bind.bind, Except.bind, Dialogue.ofExcept, Dialogue.bind, if_pos empty]
            rfl
          · simp only [Bind.bind, Except.bind, Dialogue.ofExcept, Dialogue.bind, if_neg empty]
            cases (collector.feed response.data).mapError pduError <;> rfl

theorem taken_eq_none_iff {collector : Pdu.Collector} {reply : Reply} :
    p.taken collector reply = .ok none ↔ acceptPipeStatus reply.status = .ok () ∧
      ∃ response, ReadAndxResponse.decode reply.message = .ok response ∧ response.data = [] := by
  rw [taken]
  cases acceptPipeStatus reply.status with
  | error error => exact iff_of_false nofun fun ⟨came, _⟩ => by cases came
  | ok value =>
      cases ReadAndxResponse.decode reply.message with
      | error error => exact iff_of_false nofun fun ⟨_, _, came, _⟩ => by cases came
      | ok response =>
          by_cases empty : response.data = []
          · simp only [Bind.bind, Except.bind, Except.mapError, if_pos empty]
            exact iff_of_true rfl ⟨True.intro, response, rfl, empty⟩
          · simp only [Bind.bind, Except.bind, Except.mapError, if_neg empty]
            refine iff_of_false ?_ fun ⟨_, response', came, nothing⟩ => ?_
            · cases collector.feed response.data <;> exact nofun
            · cases came
              exact empty nothing

theorem opened_taken {p' : Pipe} {collector collector' : Pdu.Collector} {reply : Reply}
    (opened : collector.Opened) (takes : p.taken collector reply = .ok (some (p', collector'))) :
    collector'.Opened := by
  rw [taken] at takes
  cases accepted : acceptPipeStatus reply.status with
  | error error =>
      rw [accepted] at takes
      cases takes
  | ok value =>
      rw [accepted] at takes
      cases decoded : ReadAndxResponse.decode reply.message with
      | error error =>
          rw [decoded] at takes
          cases takes
      | ok response =>
          rw [decoded] at takes
          simp only [Bind.bind, Except.bind, Except.mapError] at takes
          split at takes
          · cases takes
          · cases fed : collector.feed response.data with
            | error error =>
                rw [fed] at takes
                cases takes
            | ok next =>
                rw [fed] at takes
                cases takes
                exact Pdu.Collector.opened_feed opened fed

/-- **What reading the pipe comes to**: it ends short exactly where a read brings nothing. -/
theorem short_fill_iff {collector : Pdu.Collector} (opened : collector.Opened)
    {result : Except ClientError (Pipe × Pdu.Collector)}
    (ran : (fill n turns p collector).run answers = some (result, rest)) :
    Short result ↔ Starves ((fill n turns p collector).history answers) := by
  induction turns generalizing p collector answers with
  | zero => cases ran
  | succ turns ih =>
      rw [fill_succ] at ran ⊢
      by_cases complete : collector.complete = true
      · rw [if_pos complete] at ran ⊢
        cases ran
        refine ⟨?_, fun starves => absurd starves not_starves_nil⟩
        rintro ⟨_, _, error, same, failed⟩
        cases same
        have short := (Pdu.Collector.finish_isOk opened).mp ⟨error, failed⟩
        exact absurd (complete.symm.trans short) Bool.true_eq_false.mp
      rw [if_neg complete] at ran ⊢
      rcases of_run_bind ran with ⟨error, failed, rfl⟩ | ⟨reply, rest', replied, ran⟩
      · rw [(bind_of_error failed).2]
        exact iff_of_false (not_short_error error) (TreeRequest.not_starves_failed failed)
      rw [(bind_of_ok replied).2, TreeRequest.history_put_of_ok replied, starves_append,
        readRequest, starves_read_iff, ← @taken_eq_none_iff p collector]
      cases takes : p.taken collector reply with
      | error error =>
          rw [takes] at ran
          cases ran
          exact iff_of_false (not_short_error error) (not_or.mpr ⟨nofun, not_starves_nil⟩)
      | ok next =>
          rw [takes] at ran
          cases next with
          | none =>
              cases ran
              have short : collector.complete = false := Bool.eq_false_of_not_eq_true complete
              obtain ⟨error, failed⟩ := (Pdu.Collector.finish_isOk opened).mpr short
              exact iff_of_true ⟨_, _, error, rfl, failed⟩ (Or.inl rfl)
          | some next =>
              obtain ⟨p', collector'⟩ := next
              rw [or_iff_right nofun]
              exact ih (opened_taken opened takes) ran

/-- Writing to the pipe reads nothing from it. -/
theorem not_starves_writeAll {request : Bytes} {result : Except ClientError Pipe}
    (ran : (writeAll n turns p request).run answers = some (result, rest)) :
    ¬ Starves ((writeAll n turns p request).history answers) := by
  induction turns generalizing p request answers with
  | zero => cases ran
  | succ turns ih =>
      rw [writeAll] at ran ⊢
      by_cases done : request = []
      · rw [if_pos done]
        exact not_starves_nil
      rw [if_neg done] at ran ⊢
      rcases of_run_bind ran with ⟨error, failed, rfl⟩ | ⟨reply, rest', replied, ran⟩
      · rw [(bind_of_error failed).2]
        exact TreeRequest.not_starves_put (by intro _ same; cases same)
      rw [(bind_of_ok replied).2, starves_append]
      refine not_or.mpr ⟨TreeRequest.not_starves_put (by intro _ same; cases same), ?_⟩
      cases accepted : acceptPipeStatus reply.status with
      | error error => exact not_starves_nil
      | ok value =>
          rw [accepted] at ran
          cases decoded : WriteAndxResponse.decode reply.message with
          | error error => exact not_starves_nil
          | ok response =>
              rw [decoded] at ran
              change ¬ Starves ((if response.count = 0 then _ else _ : PipeVerb Pipe).history _)
              change (if response.count = 0 then _ else _ : PipeVerb Pipe).run _ = _ at ran
              split
              · exact not_starves_nil
              · next counted =>
                  rw [if_neg counted] at ran
                  exact ih ran

/-- **What an attempt comes to**: it ends short exactly where a read brings nothing. -/
theorem short_transactCall_iff {request : Bytes} {callId : UInt32}
    {result : Except ClientError (Pipe × Pdu.Collector)}
    (ran : (transactCall n turns p request (.new callId)).run answers = some (result, rest)) :
    Short result ↔
      Starves ((transactCall n turns p request (.new callId)).history answers) := by
  have opened := Pdu.Collector.opened_new callId
  rw [transactCall] at ran ⊢
  rcases of_run_bind ran with ⟨error, failed, rfl⟩ | ⟨reply, rest', replied, ran⟩
  · rw [(bind_of_error failed).2]
    exact iff_of_false (not_short_error error) (TreeRequest.not_starves_failed failed)
  rw [(bind_of_ok replied).2, starves_append,
    or_iff_right (TreeRequest.not_starves_put (by intro _ same; cases same))]
  cases accepted : acceptPipeStatus reply.status with
  | error error =>
      rw [accepted] at ran
      cases ran
      exact iff_of_false (not_short_error error) not_starves_nil
  | ok value =>
      rw [accepted] at ran
      cases body : reply.transaction with
      | none =>
          rw [body] at ran
          exact short_fill_iff opened ran
      | some block =>
          rw [body] at ran
          cases fed : (Pdu.Collector.new callId).feed block.data with
          | error error =>
              simp only [fed] at ran ⊢
              cases ran
              exact iff_of_false (not_short_error _) not_starves_nil
          | ok collector =>
              simp only [fed] at ran ⊢
              exact short_fill_iff (Pdu.Collector.opened_feed opened fed) ran

theorem short_writeReadCall_iff {request : Bytes} {callId : UInt32}
    {result : Except ClientError (Pipe × Pdu.Collector)}
    (ran : (writeReadCall n turns p request (.new callId)).run answers = some (result, rest)) :
    Short result ↔
      Starves ((writeReadCall n turns p request (.new callId)).history answers) := by
  rw [writeReadCall] at ran ⊢
  rcases of_run_bind ran with ⟨error, failed, rfl⟩ | ⟨p', rest', wrote, ran⟩
  · rw [(bind_of_error failed).2]
    exact iff_of_false (not_short_error error) (not_starves_writeAll failed)
  · rw [(bind_of_ok wrote).2, starves_append, or_iff_right (not_starves_writeAll wrote)]
    exact short_fill_iff (Pdu.Collector.opened_new callId) ran

/-! ## One call -/

variable {request : Bytes} {callId : UInt32}

/-- The answer an attempt collected. -/
def answerOf (attempt : PipeVerb (Pipe × Pdu.Collector)) : PipeVerb Pdu.Answer := do
  let (_, collector) ← attempt
  .ofExcept (collector.finish.mapError pduError)

/-- The transact attempt of a call, up to its answer. -/
def transactAttempt (n : Negotiated) (turns : ℕ) (p : Pipe) (request : Bytes) (callId : UInt32) :
    PipeVerb Pdu.Answer :=
  answerOf (transactCall n turns p request (.new callId))

/-- The write/read attempt for the same request, on the pipe opened again. -/
def fallback (n : Negotiated) (turns : ℕ) (p : Pipe) (request : Bytes) (callId : UInt32) :
    PipeVerb Pdu.Answer := do
  let p ← reopen n p
  answerOf (writeReadCall n turns p request (.new callId))

/-- The pipe once the transact mode is abandoned. -/
def abandoned (p : Pipe) (failure : ClientError) : Pipe :=
  { p with transact := false, transactFailure := some failure }

/-- What a call in the transact mode is to do: hand out the answer of that attempt, and where
there is none go on with the other mode, and report both failures. -/
structure FallsThrough (n : Negotiated) (turns : ℕ) (p : Pipe) (request : Bytes)
    (callId : UInt32) (answers : List Answer) : Prop where
  answered : ∀ answer rest,
    (transactAttempt n turns p request callId).run answers = some (.ok answer, rest) →
      ∃ p', (call n turns p request callId).run answers = some (.ok (p', .ok answer), rest)
  goesOn : ∀ failure rest,
    (transactAttempt n turns p request callId).run answers = some (.error failure, rest) →
      (call n turns p request callId).history answers = .marked (.calls request) ::
        ((transactAttempt n turns p request callId).history answers ++
          (fallback n turns (p.abandoned failure) request callId).history rest)
  reported : ∀ failure rest result left,
    (transactAttempt n turns p request callId).run answers = some (.error failure, rest) →
      (fallback n turns (p.abandoned failure) request callId).run rest = some (result, left) →
        ∃ p', (call n turns p request callId).run answers =
          some (.ok (p', result.mapError (.bothAttemptsFailed
            "the DCE/RPC exchange on the named pipe" failure)), left)

/-- An attempt and its answer put the same requests. -/
theorem history_answerOf (attempt : PipeVerb (Pipe × Pdu.Collector)) :
    (answerOf attempt).history answers = attempt.history answers := by
  cases ran : attempt.run answers with
  | none => exact (bind_of_none ran).2
  | some ended =>
      obtain ⟨_ | ⟨p', collector⟩, rest⟩ := ended
      · exact (bind_of_error ran).2
      · rw [answerOf, (bind_of_ok ran).2, history_ofExcept, List.append_nil]

/-- The answer of an attempt that ended. -/
theorem run_answerOf {attempt : PipeVerb (Pipe × Pdu.Collector)}
    {result : Except ClientError (Pipe × Pdu.Collector)}
    (ran : attempt.run answers = some (result, rest)) :
    (answerOf attempt).run answers =
      some (result.bind fun p => p.2.finish.mapError pduError, rest) := by
  cases result with
  | error error => exact (bind_of_error ran).1
  | ok value =>
      rw [answerOf, (bind_of_ok ran).1, run_ofExcept]
      rfl

/-- What a call does once the transact mode is abandoned. -/
def afterAbandoned (n : Negotiated) (turns : ℕ) (p : Pipe) (request : Bytes) (callId : UInt32) :
    PipeVerb (Pipe × Except ClientError Pdu.Answer) := do
  match ← (reopen n p).attempt with
  | .error error =>
      let (p, failure) := p.bothFailed error
      return (p, .error failure)
  | .ok p => secondAttempt n turns p request callId

theorem call_of_transact (transact : p.transact = true) :
    call n turns p request callId = (do
      .note (.calls request)
      match ← (transactCall n turns p request (.new callId)).attempt with
      | .ok (p, collector) => return (p, collector.finish.mapError pduError)
      | .error failure => afterAbandoned n turns (p.abandoned failure) request callId) := by
  rw [call, if_pos transact]
  rfl

theorem history_secondAttempt :
    (secondAttempt n turns p request callId).history answers =
      (writeReadCall n turns p request (.new callId)).history answers := by
  rw [secondAttempt]
  cases ran : (writeReadCall n turns p request (.new callId)).run answers with
  | none => exact (bind_of_attempt_none ran).2
  | some ended =>
      obtain ⟨result, rest⟩ := ended
      rw [(bind_of_attempt ran).2]
      cases result <;> exact List.append_nil _

/-- The write/read mode is attempted for the same request, on the pipe opened again. -/
theorem history_afterAbandoned :
    (afterAbandoned n turns p request callId).history answers =
      (fallback n turns p request callId).history answers := by
  rw [afterAbandoned, fallback]
  cases ran : (reopen n p).run answers with
  | none => rw [(bind_of_attempt_none ran).2, (bind_of_none ran).2]
  | some ended =>
      obtain ⟨_ | p', rest⟩ := ended
      · rw [(bind_of_attempt ran).2, (bind_of_error ran).2]
        exact List.append_nil _
      · rw [(bind_of_attempt ran).2, (bind_of_ok ran).2, history_answerOf]
        exact congrArg _ history_secondAttempt

/-- A program all of whose parts read nothing reads nothing. -/
theorem not_starves_bind {α β : Type} {d : PipeVerb α} {f : α → PipeVerb β}
    (first : ¬ Starves (d.history answers))
    (later : ∀ value rest, d.run answers = some (.ok value, rest) →
      ¬ Starves ((f value).history rest)) : ¬ Starves ((d >>= f).history answers) := by
  cases ran : d.run answers with
  | none => rwa [(bind_of_none ran).2]
  | some ended =>
      obtain ⟨_ | value, rest⟩ := ended
      · rwa [(bind_of_error ran).2]
      · rw [(bind_of_ok ran).2, starves_append]
        exact not_or.mpr ⟨first, later value rest ran⟩

theorem not_starves_reopen : ¬ Starves ((reopen n p).history answers) := by
  have pure_ : ∀ {α : Type} {value : α} {rest : List Answer},
      ¬ Starves ((pure value : PipeVerb α).history rest) := not_starves_nil
  rw [reopen]
  refine not_starves_bind (not_starves_bind ?_ fun _ _ _ => pure_) fun _ _ _ =>
    not_starves_bind (not_starves_bind (not_starves_bind ?_ fun reply rest _ => ?_)
      fun reply rest _ => not_starves_bind ?_ fun _ _ _ => pure_) fun _ _ _ => pure_
  · rw [history_attempt]
    exact TreeRequest.not_starves_put (by intro _ same; cases same)
  · exact TreeRequest.not_starves_put (by intro _ same; cases same)
  · split
    · exact not_starves_nil
    · exact pure_
  · rw [history_ofExcept]
    exact not_starves_nil

theorem bothFailed_of_some {first second : ClientError} (failure : p.transactFailure = some first) :
    p.bothFailed second = ({ p with transactFailure := none },
      .bothAttemptsFailed "the DCE/RPC exchange on the named pipe" first second) := by
  rw [bothFailed, failure]

theorem transactFailure_reopen {p' : Pipe}
    (ran : (reopen n p).run answers = some (.ok p', rest)) :
    p'.transactFailure = p.transactFailure := by
  rw [reopen] at ran
  rcases of_run_bind ran with ⟨_, -, came⟩ | ⟨_, _, -, ran⟩
  · cases came
  · rcases of_run_bind ran with ⟨_, -, came⟩ | ⟨fid, _, -, ran⟩
    · cases came
    · cases ran
      rfl

/-- **What a call comes to once the transact mode is abandoned**: what the other mode comes to, a
failure being reported beside the first one, unless a read brought nothing. -/
theorem run_afterAbandoned {first : ClientError} (failure : p.transactFailure = some first)
    {ended : Except ClientError (Pipe × Except ClientError Pdu.Answer)}
    (ran : (afterAbandoned n turns p request callId).run answers = some (ended, left)) :
    ∃ p' result, (fallback n turns p request callId).run answers = some (result, left) ∧
      (¬ Starves ((fallback n turns p request callId).history answers) →
        ended = .ok (p', result.mapError (.bothAttemptsFailed
          "the DCE/RPC exchange on the named pipe" first))) ∧
      (Starves ((fallback n turns p request callId).history answers) →
        ∃ error, result = .error (pduError error) ∧
          ended = .ok (p', .error (pduError error))) := by
  rw [afterAbandoned] at ran
  rw [fallback]
  cases opens : (reopen n p).run answers with
  | none => cases (bind_of_attempt_none opens).1.symm.trans ran
  | some opened =>
      obtain ⟨error | p₂, rest⟩ := opened
      · rw [(bind_of_attempt opens).1] at ran
        change some (Except.ok ((p.bothFailed error).1, Except.error (p.bothFailed error).2),
          rest) = _ at ran
        rw [bothFailed_of_some failure] at ran
        cases ran
        rw [(bind_of_error opens).1, (bind_of_error opens).2]
        exact ⟨_, _, rfl, fun _ => rfl, fun starves => absurd starves not_starves_reopen⟩
      · rw [(bind_of_attempt opens).1] at ran
        rw [(bind_of_ok opens).1, (bind_of_ok opens).2, starves_append,
          or_iff_right not_starves_reopen, history_answerOf]
        have kept := (transactFailure_reopen opens).trans failure
        change (secondAttempt n turns p₂ request callId).run rest = _ at ran
        rw [secondAttempt] at ran
        cases called : (writeReadCall n turns p₂ request (.new callId)).run rest with
        | none => cases (bind_of_attempt_none called).1.symm.trans ran
        | some result =>
            obtain ⟨second | ⟨p₃, collector⟩, rest'⟩ := result
            · rw [(bind_of_attempt called).1] at ran
              change some (Except.ok ((p₂.bothFailed second).1,
                Except.error (p₂.bothFailed second).2), rest') = _ at ran
              rw [bothFailed_of_some kept] at ran
              cases ran
              rw [run_answerOf called, ← short_writeReadCall_iff called]
              exact ⟨_, _, rfl, fun _ => rfl, fun short => absurd short (not_short_error _)⟩
            · rw [(bind_of_attempt called).1] at ran
              cases ran
              rw [run_answerOf called, ← short_writeReadCall_iff called]
              cases finished : collector.finish with
              | error error =>
                  refine ⟨p₃, _, rfl,
                    fun whole => absurd ⟨p₃, collector, error, rfl, finished⟩ whole,
                    fun _ => ⟨error, ?_, ?_⟩⟩
                  · rw [Except.bind, finished]
                    rfl
                  · rfl
              | ok answer =>
                  refine ⟨p₃, _, rfl, fun _ => ?_, ?_⟩
                  · rw [Except.bind, finished]
                    rfl
                  · rintro ⟨_, _, error, same, failed⟩
                    cases same
                    cases finished.symm.trans failed

/-- The pipe is closed before it is opened again, whatever comes of it. -/
theorem history_fallback_ne_nil : (fallback n turns p request callId).history answers ≠ [] := by
  have closes : (TreeRequest.put n (.close ⟨p.fid, LEAVE_TIME_ALONE⟩) :
      PipeVerb Reply).history answers ≠ [] := by
    cases answers <;> exact List.cons_ne_nil _ _
  have opens : (TreeRequest.put n (.close ⟨p.fid, LEAVE_TIME_ALONE⟩) :
      PipeVerb Reply).history answers <+: (release n p.fid).history answers := by
    rw [← history_attempt]
    exact history_prefix_bind
  have begins : (TreeRequest.put n (.close ⟨p.fid, LEAVE_TIME_ALONE⟩) :
      PipeVerb Reply).history answers <+: (fallback n turns p request callId).history answers := by
    rw [fallback, reopen]
    exact (opens.trans history_prefix_bind).trans history_prefix_bind
  exact fun none => closes (List.prefix_nil.mp (none ▸ begins))

theorem starves_marked {point : PipeMark} {h : List PipeMoment} :
    Starves (.marked point :: h) ↔ Starves h := by
  rw [← List.singleton_append, starves_append, or_iff_right]
  rintro ⟨_, _, _, member, -⟩
  cases List.mem_singleton.mp member

/-- **Calls in the transact mode** that come to an end fall through from that mode to the other,
and report both failures, if and only if no read of the pipe is answered with nothing. -/
theorem falls_through_iff {ended : Except ClientError (Pipe × Except ClientError Pdu.Answer)}
    (transact : p.transact = true)
    (ran : (call n turns p request callId).run answers = some (ended, left)) :
    FallsThrough n turns p request callId answers ↔
      ¬ Starves ((call n turns p request callId).history answers) := by
  cases first : (transactCall n turns p request (.new callId)).run answers with
  | none =>
      rw [call_of_transact transact, bind_note.1] at ran
      cases (bind_of_attempt_none first).1.symm.trans ran
  | some attempted =>
      obtain ⟨result, rest⟩ := attempted
      have puts : (transactAttempt n turns p request callId).history answers =
          (transactCall n turns p request (.new callId)).history answers := history_answerOf _
      have short := short_transactCall_iff first
      cases result with
      | error failure =>
          have ends : (call n turns p request callId).run answers =
              (afterAbandoned n turns (p.abandoned failure) request callId).run rest := by
            rw [call_of_transact transact, bind_note.1]
            exact (bind_of_attempt first).1
          have happens : (call n turns p request callId).history answers =
              .marked (.calls request) ::
                ((transactCall n turns p request (.new callId)).history answers ++
                  (fallback n turns (p.abandoned failure) request callId).history rest) := by
            rw [call_of_transact transact, bind_note.2, ← history_afterAbandoned]
            exact congrArg _ (bind_of_attempt first).2
          have attempt : (transactAttempt n turns p request callId).run answers =
              some (.error failure, rest) := run_answerOf first
          obtain ⟨p', result, came, whole, starved⟩ := run_afterAbandoned rfl (ends.symm.trans ran)
          rw [happens, starves_marked, starves_append, ← short,
            or_iff_right (not_short_error failure)]
          constructor
          · intro falls starves
            obtain ⟨error, rfl, rfl⟩ := starved starves
            obtain ⟨_, reported⟩ := falls.reported failure rest _ left attempt came
            cases ran.symm.trans reported
          · intro brings
            refine ⟨fun answer rest' answered => ?_, fun failure' rest' failed => ?_,
              fun failure' rest' result' left' failed ended' => ?_⟩
            · cases attempt.symm.trans answered
            · cases attempt.symm.trans failed
              rw [happens, puts]
            · cases attempt.symm.trans failed
              cases came.symm.trans ended'
              exact ⟨p', ran.trans (by rw [whole brings])⟩
      | ok value =>
          obtain ⟨p₁, collector⟩ := value
          have ends : (call n turns p request callId).run answers =
              some (.ok (p₁, collector.finish.mapError pduError), rest) := by
            rw [call_of_transact transact, bind_note.1]
            exact (bind_of_attempt first).1
          have happens : (call n turns p request callId).history answers =
              .marked (.calls request) ::
                (transactCall n turns p request (.new callId)).history answers := by
            rw [call_of_transact transact, bind_note.2]
            exact congrArg _ ((bind_of_attempt first).2.trans (List.append_nil _))
          have attempt : (transactAttempt n turns p request callId).run answers =
              some (collector.finish.mapError pduError, rest) := run_answerOf first
          rw [happens, starves_marked, ← short]
          constructor
          · rintro falls ⟨_, _, error, same, failed⟩
            cases same
            rw [failed] at attempt
            have goes := falls.goesOn _ rest attempt
            rw [happens, puts] at goes
            have nothing := List.append_right_eq_self.mp (List.cons.inj goes).2.symm
            exact history_fallback_ne_nil nothing
          · intro whole
            cases finished : collector.finish with
            | error error => exact absurd ⟨p₁, collector, error, rfl, finished⟩ whole
            | ok answer =>
                rw [finished] at attempt ends
                refine ⟨fun answer' rest' answered => ?_, fun failure rest' failed => ?_,
                  fun failure rest' result' left' failed _ => ?_⟩
                · cases attempt.symm.trans answered
                  exact ⟨p₁, ends⟩
                · cases attempt.symm.trans failed
                · cases attempt.symm.trans failed

/-- Pipe 1 as it is opened. -/
def opened : Pipe :=
  { fid := 1, offset := 0, transact := true, transactFailure := none, name := SRVSVC_PIPE }

/-- A bind whose transaction is refused, and then its write on the pipe that is opened in place of
the first. -/
def refusedTwice : List Answer :=
  [transacted .INVALID_PARAMETER [], pipeClosed, pipeOpened 2,
    bareReply Command.WRITE_ANDX .INVALID_PARAMETER]

/-- Both modes are attempted, and both of their failures returned. -/
theorem falls_through_iff_bind :
    FallsThrough ⟨50, 16644, 0⟩ 4 opened Ipc.bindPdu 0 refusedTwice := by
  have ends : ((call ⟨50, 16644, 0⟩ 4 opened Ipc.bindPdu 0).run refusedTwice).isSome = true := by
    decide +kernel
  obtain ⟨⟨ended, left⟩, ran⟩ := Option.isSome_iff_exists.mp ends
  refine (falls_through_iff rfl ran).mpr (not_starves_of_unread ?_)
  decide +kernel

/-- A read of the pipe that succeeds and brings nothing. -/
def nothingRead : Answer :=
  .ok
    { message :=
        { header := SmbHeader.request Command.READ_ANDX
          bytes := .replicate 33 0 ++ (AndX.NONE.write ++ .replicate 22 0)
          wordCount := READ_WORDS
          byteCount := 0
          fits := by simp [AndX.length_write, READ_WORDS, HEADER_LEN] }
      transaction := none }

/-- A transaction whose reply holds none of the answer and a pipe that has none of it either:
the call fails with that alone, and the other mode is not attempted. -/
theorem starved_transact_returns_alone : ¬ ∀ (n : Negotiated) (turns : ℕ) (p : Pipe)
    (request : Bytes) (callId : UInt32) (answers : List Answer)
    (ended : Except ClientError (Pipe × Except ClientError Pdu.Answer)) (left : List Answer),
      p.transact = true → (call n turns p request callId).run answers = some (ended, left) →
        FallsThrough n turns p request callId answers := by
  intro claimed
  have ends : ((call ⟨50, 16644, 0⟩ 4 opened Ipc.bindPdu 0).run
      [transacted .BUFFER_OVERFLOW [], nothingRead]).isSome = true := by
    decide +kernel
  have attempt : ((transactAttempt ⟨50, 16644, 0⟩ 4 opened Ipc.bindPdu 0).run
      [transacted .BUFFER_OVERFLOW [], nothingRead]) =
        some (.error (pduError (.noLastFragment 0)), []) := by
    decide +kernel
  have same : (call ⟨50, 16644, 0⟩ 4 opened Ipc.bindPdu 0).history
      [transacted .BUFFER_OVERFLOW [], nothingRead] = .marked (.calls Ipc.bindPdu) ::
        (transactAttempt ⟨50, 16644, 0⟩ 4 opened Ipc.bindPdu 0).history
          [transacted .BUFFER_OVERFLOW [], nothingRead] := by
    decide +kernel
  obtain ⟨⟨ended, left⟩, ran⟩ := Option.isSome_iff_exists.mp ends
  have goes := (claimed _ _ _ _ _ _ ended left rfl ran).goesOn _ _ attempt
  rw [same] at goes
  exact history_fallback_ne_nil (List.append_right_eq_self.mp (List.cons.inj goes).2.symm)

end Pipe

end Smb1Client
