import Smb1Client.Lib.Trace
import Smb1Client.Resource.Progress
import Smb1Client.Resource.Spans

/-!
`Handle::write_span`: the loop underneath every write.

A reply reaches two accounts of a write: the actor applies it to the `WriteProgress` when it
comes, and the loop settles the chunk when it gets to it. A chunk that fails stops the loop
issuing, and what is on the wire is waited for before the call fails.
-/

namespace Smb1Client

open Tiling Trace

/-- `WriteMode` on every write. -/
def WRITE_MODE : UInt16 := 0

/-- A call of `write_span`: the connection and the file, and what is to be written. -/
structure WriteCall where
  n : Negotiated
  fid : UInt16
  offset : UInt64
  depth : ℕ
  data : Bytes

/-- A chunk on the wire, and where in the caller's span it belongs; with what it came to, where
the loop has not got to it yet. -/
structure WriteChunk where
  start : ℕ
  length : ℕ
  large : Bool
  request : WriteAndxRequest
  outcome : Option (Except Error Reply)

def WriteChunk.span (c : WriteChunk) : ℕ × ℕ := (c.start, c.length)

/-- What is left of a chunk: all of it, until a reply has taken some. -/
def WriteChunk.left (c : WriteChunk) : ℕ × ℕ :=
  match c.outcome.bind (WriteProgress.accepted c.length) with
  | none => (c.start, c.length)
  | some count => (c.start + count, c.length - count)

/-- The state of the loop, with the connection's small-buffer flag and the write's progress. -/
structure WriteSpan where
  downgraded : Bool
  issued : List WriteChunk
  spans : Spans
  failure : Option ClientError
  progress : WriteProgress
  result : Option (Except ClientError Unit)

inductive WriteEvent where
  | downgrade
  | issue (between : Bool)
  | reply (index : ℕ) (outcome : Except Error Reply)
  | answer (index : ℕ)
  | finish

/-- What a write does: a request it puts, what a reply acknowledges of one, and a span that is
put back for its size. -/
inductive WriteOut where
  | asks (request : WriteAndxRequest)
  | acknowledged (request : WriteAndxRequest) (count : ℕ)
  | putBack (start length : ℕ)
  deriving DecidableEq

/-- The request of a chunk. The offset is added up modulo 2^64. -/
def WriteCall.request (call : WriteCall) (start length : ℕ) : WriteAndxRequest where
  fid := call.fid
  offset := call.offset + UInt64.ofNat start
  writeMode := WRITE_MODE
  remaining := 0
  data := (call.data.drop start).take length

namespace WriteSpan

/-- Nothing to write is written as it is. -/
def start (downgraded : Bool) (progress : WriteProgress) (data : Bytes) : WriteSpan where
  downgraded
  issued := []
  spans := .start
  failure := none
  progress
  result := if data = [] then some (.ok ()) else none

/-- The next span to issue, of the chunk size there is now; none any more after a failure. -/
def nextSpan (call : WriteCall) (s : WriteSpan) : Option ((ℕ × ℕ) × Spans) :=
  if s.failure = none ∧ s.issued.length < call.depth then
    s.spans.take (max (call.n.writeChunkSize s.downgraded) 1) call.data.length true
  else none

/-- The first failure is the one that is reported. -/
def fail (s : WriteSpan) (error : ClientError) : WriteSpan :=
  { s with failure := s.failure.or (some error) }

/-- What a chunk's answer leaves to issue again. -/
def acknowledge (s : WriteSpan) (c : WriteChunk) : Except Error Reply → WriteSpan × List WriteOut
  | .error error => (s.fail (.ofConnection error), [])
  | .ok reply =>
      let refused := refusesTheSize reply.status
      let s := { s with downgraded := s.downgraded || refused }
      if refused && c.large then
        ({ s with spans := s.spans.push c.start c.length }, [.putBack c.start c.length])
      else if reply.status ≠ .SUCCESS then (s.fail (.refused reply.status), [])
      else
        match WriteAndxResponse.decode reply.message with
        | .error error => (s.fail (.ofWire error), [])
        | .ok response =>
            let acknowledged := min response.count.toNat c.length
            if acknowledged = 0 then
              (s.fail (.protocol (.write (.noProgress c.start c.length))), [])
            else
              ({ s with
                spans :=
                  if acknowledged < c.length then
                    s.spans.push (c.start + acknowledged) (c.length - acknowledged)
                  else s.spans }, [])

/-- What the call comes to once everything is answered. -/
def conclude (s : WriteSpan) : Except ClientError Unit :=
  match s.failure with
  | none => .ok ()
  | some source => .error (.writePartial (UInt64.ofNat s.progress.written) source)

def step (call : WriteCall) (s : WriteSpan) : WriteEvent → Option (WriteSpan × List WriteOut)
  | .downgrade => if s.downgraded then none else some ({ s with downgraded := true }, [])
  | .issue between =>
      if s.result.isSome then none
      else
        (s.nextSpan call).map fun (span, spans) =>
          let downgraded := s.downgraded || between
          let request := call.request span.1 span.2
          ({ s with downgraded, spans
                    progress := s.progress.chunk
                    issued := s.issued ++ [⟨span.1, span.2, !downgraded, request, none⟩] },
            [.asks request])
  | .reply index outcome =>
      match s.issued[index]? with
      | none => none
      | some c =>
          if c.outcome.isSome then none
          else
            some ({ s with
              progress := s.progress.ended c.request.offset c.length outcome
              issued := s.issued.set index { c with outcome := some outcome } },
              ((WriteProgress.accepted c.length outcome).map (.acknowledged c.request ·)).toList)
  | .answer index =>
      if s.result.isSome ∨ (s.nextSpan call).isSome then none
      else
        match s.issued[index]? with
        | none => none
        | some c =>
            c.outcome.map fun outcome =>
              { s with issued := s.issued.eraseIdx index }.acknowledge c outcome
  | .finish =>
      if s.result.isSome ∨ (s.nextSpan call).isSome ∨ s.issued ≠ [] then none
      else
        some ({ s with result := some s.conclude }, [])

/-- A call of `write_span`. -/
def machine (call : WriteCall) : Machine WriteSpan WriteEvent WriteOut where
  step := step call

variable {call : WriteCall} {s s' : WriteSpan} {c : WriteChunk} {log : List WriteOut} {p : ℕ}

/-! ## What a step does -/

/-- What an answer makes of the loop: a size refused for the first time is put back, what was
taken of a chunk leaves its remainder, and anything else fails the call. -/
inductive Settled (s : WriteSpan) (c : WriteChunk) (outcome : Except Error Reply) :
    WriteSpan → List WriteOut → Prop
  | refused (large : c.large = true) (nothing : WriteProgress.accepted c.length outcome = none) :
      Settled s c outcome { s with downgraded := true, spans := s.spans.push c.start c.length }
        [.putBack c.start c.length]
  | taken {count : ℕ} (took : WriteProgress.accepted c.length outcome = some count)
      (some : 1 ≤ count) (within : count ≤ c.length) :
      Settled s c outcome
        { s with
          spans :=
            if count < c.length then s.spans.push (c.start + count) (c.length - count)
            else s.spans } []
  | failed (downgraded : Bool) (error : ClientError)
      (keeps : s.downgraded = true → downgraded = true)
      (nothing : WriteProgress.accepted c.length outcome = none) :
      Settled s c outcome { s with downgraded, failure := s.failure.or (some error) } []

theorem acknowledge_settled (some : 1 ≤ c.length) (outcome : Except Error Reply) :
    Settled s c outcome (s.acknowledge c outcome).1 (s.acknowledge c outcome).2 := by
  cases outcome with
  | error error => exact Settled.failed s.downgraded _ id rfl
  | ok reply =>
      rw [acknowledge]
      dsimp only
      by_cases success : reply.status = .SUCCESS
      · have accepts : refusesTheSize reply.status = false := by rw [success]; decide
        rw [accepts, Bool.or_false, Bool.false_and, if_neg Bool.false_ne_true,
          if_neg (not_not.mpr success)]
        have acknowledged : reply.acknowledged =
            (WriteAndxResponse.decode reply.message).toOption.map (·.count.toNat) :=
          if_neg (not_not.mpr success)
        cases decoded : WriteAndxResponse.decode reply.message with
        | error error =>
            refine Settled.failed s.downgraded _ id ?_
            rw [WriteProgress.accepted, acknowledged, decoded]
            rfl
        | ok response =>
            rw [decoded] at acknowledged
            dsimp only
            split
            · next zero =>
                refine Settled.failed s.downgraded _ id ?_
                rw [WriteProgress.accepted, acknowledged]
                exact if_neg (by dsimp only; omega)
            · next positive =>
                refine Settled.taken ?_ (by omega) (min_le_right _ _)
                rw [WriteProgress.accepted, acknowledged]
                exact if_pos (by dsimp only; omega)
      · have nothing : WriteProgress.accepted c.length (.ok reply) = none := by
          rw [WriteProgress.accepted, Reply.acknowledged, if_pos success]
        split
        · next both =>
            obtain ⟨refuses, large⟩ := Bool.and_eq_true_iff.mp both
            rw [refuses, Bool.or_true]
            exact Settled.refused large nothing
        · refine Settled.failed _ _ (fun downgraded => ?_) nothing
          rw [downgraded, Bool.true_or]

/-- What a step does. -/
inductive Stepped (call : WriteCall) (s : WriteSpan) :
    WriteEvent → WriteSpan → List WriteOut → Prop
  | downgrade (large : s.downgraded = false) :
      Stepped call s .downgrade { s with downgraded := true } []
  | issue {between : Bool} {span : ℕ × ℕ} {spans : Spans} (running : s.result = none)
      (sound : s.failure = none) (room : s.issued.length < call.depth)
      (took : s.spans.take (max (call.n.writeChunkSize s.downgraded) 1) call.data.length true =
        some (span, spans)) :
      Stepped call s (.issue between)
        { s with
          downgraded := s.downgraded || between
          spans
          progress := s.progress.chunk
          issued := s.issued ++ [⟨span.1, span.2, !(s.downgraded || between),
            call.request span.1 span.2, none⟩] }
        [.asks (call.request span.1 span.2)]
  | reply {index : ℕ} {outcome : Except Error Reply} {c : WriteChunk}
      (found : s.issued[index]? = some c) (waits : c.outcome = none) :
      Stepped call s (.reply index outcome)
        { s with
          progress := s.progress.ended c.request.offset c.length outcome
          issued := s.issued.set index { c with outcome := some outcome } }
        ((WriteProgress.accepted c.length outcome).map (.acknowledged c.request ·)).toList
  | answer {index : ℕ} {outcome : Except Error Reply} {c : WriteChunk} (running : s.result = none)
      (full : s.nextSpan call = none) (found : s.issued[index]? = some c)
      (came : c.outcome = some outcome) :
      Stepped call s (.answer index)
        ({ s with issued := s.issued.eraseIdx index }.acknowledge c outcome).1
        ({ s with issued := s.issued.eraseIdx index }.acknowledge c outcome).2
  | finish (running : s.result = none) (full : s.nextSpan call = none) (drained : s.issued = []) :
      Stepped call s .finish
        { s with result := some s.conclude } []

theorem step_cases {e : WriteEvent} {out : List WriteOut}
    (stepped : step call s e = some (s', out)) : Stepped call s e s' out := by
  cases e with
  | downgrade =>
      rw [step] at stepped
      split at stepped <;> cases stepped
      next large => exact Stepped.downgrade (Bool.eq_false_iff.mpr large)
  | issue between =>
      rw [step] at stepped
      split at stepped
      · cases stepped
      · next running =>
          obtain ⟨⟨span, spans⟩, next, same⟩ := Option.map_eq_some_iff.mp stepped
          cases same
          rw [nextSpan] at next
          split at next
          · next room =>
              exact Stepped.issue (Option.not_isSome_iff_eq_none.mp running) room.1 room.2 next
          · cases next
  | reply index outcome =>
      rw [step] at stepped
      split at stepped
      · cases stepped
      · next c found =>
          split at stepped <;> cases stepped
          next waits => exact Stepped.reply found (Option.not_isSome_iff_eq_none.mp waits)
  | answer index =>
      rw [step] at stepped
      split at stepped
      · cases stepped
      · next waits =>
          obtain ⟨running, full⟩ := not_or.mp waits
          split at stepped
          · cases stepped
          · next c found =>
              obtain ⟨outcome, came, same⟩ := Option.map_eq_some_iff.mp stepped
              have settled : _ = s' := congrArg Prod.fst same
              have said : _ = out := congrArg Prod.snd same
              subst settled said
              exact Stepped.answer (Option.not_isSome_iff_eq_none.mp running)
                (Option.not_isSome_iff_eq_none.mp full) found came
  | finish =>
      rw [step] at stepped
      split at stepped <;> cases stepped
      next done =>
        obtain ⟨running, rest⟩ := not_or.mp done
        obtain ⟨full, empty⟩ := not_or.mp rest
        exact Stepped.finish (Option.not_isSome_iff_eq_none.mp running)
          (Option.not_isSome_iff_eq_none.mp full) (not_not.mp empty)

/-- An answer leaves the flag set, a failure as it is and the other chunks where they are. -/
theorem acknowledge_keeps (outcome : Except Error Reply) :
    (s.acknowledge c outcome).1.issued = s.issued ∧
      (s.downgraded = true → (s.acknowledge c outcome).1.downgraded = true) ∧
      ∀ error, s.failure = some error → (s.acknowledge c outcome).1.failure = some error := by
  cases outcome with
  | error error => exact ⟨rfl, id, fun error failed => by rw [acknowledge, fail, failed]; rfl⟩
  | ok reply =>
      have set : ∀ refused, s.downgraded = true → (s.downgraded || refused) = true :=
        fun refused small => by rw [small, Bool.true_or]
      have kept : ∀ (new : ClientError) error, s.failure = some error →
          s.failure.or (some new) = some error := fun new error failed => by rw [failed]; rfl
      rw [acknowledge]
      dsimp only
      split
      · exact ⟨rfl, set _, fun error failed => failed⟩
      · split
        · exact ⟨rfl, set _, kept _⟩
        · split
          · exact ⟨rfl, set _, kept _⟩
          · split
            · exact ⟨rfl, set _, kept _⟩
            · exact ⟨rfl, set _, fun error failed => failed⟩

/-! ## The account of a write -/

/-- What the replies so far acknowledged, and of which request. -/
def acks (log : List WriteOut) : List (WriteAndxRequest × ℕ) :=
  log.filterMap fun
    | .acknowledged request count => some (request, count)
    | _ => none

/-- How often a byte of the file has been acknowledged. -/
def landed (q : ℕ) (acks : List (WriteAndxRequest × ℕ)) : ℕ :=
  held q (acks.map fun ack => (ack.1.offset.toNat, ack.2))

@[simp] theorem acks_append (log log' : List WriteOut) :
    acks (log ++ log') = acks log ++ acks log' :=
  List.filterMap_append

@[simp] theorem landed_append (q : ℕ) (acks acks' : List (WriteAndxRequest × ℕ)) :
    landed q (acks ++ acks') = landed q acks + landed q acks' := by
  rw [landed, List.map_append, held_append]
  rfl

/-- What is left of the chunks on the wire. -/
def leftovers (s : WriteSpan) : List (ℕ × ℕ) := s.issued.map WriteChunk.left

/-- How many spans still to be acknowledged hold a position. -/
def toCome (call : WriteCall) (s : WriteSpan) (p : ℕ) : ℕ :=
  held p (s.spans.unasked call.data.length) + held p s.leftovers

/-- A request that was put for a part of the data. -/
def Asked (call : WriteCall) (request : WriteAndxRequest) (length : ℕ) : Prop :=
  ∃ start, request = call.request start length ∧ start + length ≤ call.data.length ∧
    call.offset.toNat + start < 2 ^ 64

/-- A position has been acknowledged once, or is in one span still to be acknowledged, and in
none of these only after a failure; and what is on the wire carries its own span. -/
structure Accounted (call : WriteCall) (s : WriteSpan) (log : List WriteOut) : Prop where
  spans : s.spans.Within call.data.length
  issued : ∀ c ∈ s.issued, 1 ≤ c.length ∧ c.start + c.length ≤ s.spans.next ∧
    c.request = call.request c.start c.length ∧ call.offset.toNat + c.start < 2 ^ 64
  most : ∀ p, landed (call.offset.toNat + p) (acks log) + s.toCome call p ≤
    holds p 0 call.data.length
  all : s.failure = none → ∀ p, landed (call.offset.toNat + p) (acks log) + s.toCome call p =
    holds p 0 call.data.length
  acks : ∀ ack ∈ acks log, ∃ length, Asked call ack.1 length ∧ ack.2 ≤ length

/-- No chunk is issued past 2^64. -/
def Low (call : WriteCall) (s : WriteSpan) : WriteEvent → Prop
  | .issue _ => ∀ next ∈ s.nextSpan call, call.offset.toNat + next.1.1 < 2 ^ 64
  | _ => True

instance (call : WriteCall) (s : WriteSpan) (e : WriteEvent) : Decidable (s.Low call e) := by
  cases e <;> unfold Low <;> infer_instance

theorem request_offset {start length : ℕ} (low : call.offset.toNat + start < 2 ^ 64) :
    (call.request start length).offset.toNat = call.offset.toNat + start := by
  change (call.offset + UInt64.ofNat start).toNat = _
  rw [UInt64.toNat_add, UInt64.toNat_ofNat', Nat.add_mod_mod, Nat.mod_eq_of_lt low]

theorem left_of_waits (waits : c.outcome = none) : c.left = c.span := by
  rw [WriteChunk.left, waits]
  rfl

theorem left_of_came {outcome : Except Error Reply} (came : c.outcome = some outcome) :
    c.left = match WriteProgress.accepted c.length outcome with
      | none => c.span
      | some count => (c.start + count, c.length - count) := by
  rw [WriteChunk.left, came, Option.bind_some]
  cases WriteProgress.accepted c.length outcome <;> rfl

theorem accepted_le {length count : ℕ} {outcome : Except Error Reply}
    (took : WriteProgress.accepted length outcome = some count) : count ≤ length := by
  cases outcome with
  | error error => cases took
  | ok reply =>
      rw [WriteProgress.accepted] at took
      split at took
      · split at took <;> cases took
        exact min_le_right _ _
      · cases took

theorem accounted_start {downgraded : Bool} {progress : WriteProgress} :
    Accounted call (start downgraded progress call.data) [] := by
  have whole : ∀ p, landed (call.offset.toNat + p) (acks []) +
      toCome call (start downgraded progress call.data) p = holds p 0 call.data.length := by
    intro p
    simp [landed, acks, toCome, leftovers, start, Spans.start, Spans.unasked]
  exact ⟨Spans.within_start, fun c none => absurd none List.not_mem_nil,
    fun p => le_of_eq (whole p), fun _ => whole, fun ack none => absurd none List.not_mem_nil⟩

/-- A chunk taken off the wire leaves what was left of it. -/
theorem toCome_eraseIdx {index : ℕ} (found : s.issued[index]? = some c) :
    s.toCome call p = holds p c.left.1 c.left.2 +
      toCome call { s with issued := s.issued.eraseIdx index } p := by
  have left : s.leftovers[index]? = some c.left := by
    rw [leftovers, List.getElem?_map, found]
    rfl
  have rest : leftovers { s with issued := s.issued.eraseIdx index } =
      s.leftovers.eraseIdx index := by
    rw [leftovers, leftovers, List.eraseIdx_map]
  rw [toCome, toCome, rest, held_eraseIdx left]
  dsimp only
  omega

theorem toCome_push {start length : ℕ} {downgraded : Bool} :
    toCome call { s with downgraded, spans := s.spans.push start length } p =
      holds p start length + s.toCome call p := by
  simp only [toCome, leftovers, Spans.unasked, Spans.push, held_cons]
  omega

theorem toCome_issue {between : Bool} {span : ℕ × ℕ} {spans : Spans} {request : WriteAndxRequest}
    {progress : WriteProgress}
    (taken : s.spans.Taken (max (call.n.writeChunkSize s.downgraded) 1) call.data.length span
      spans) :
    toCome call { s with
      downgraded := s.downgraded || between
      spans
      progress
      issued := s.issued ++ [⟨span.1, span.2, !(s.downgraded || between), request, none⟩] } p =
      s.toCome call p := by
  have apart := taken.held p
  have left :
      WriteChunk.left ⟨span.1, span.2, !(s.downgraded || between), request, none⟩ = span := rfl
  simp only [toCome, leftovers, List.map_append, held_append, List.map_cons, List.map_nil,
    held_cons, held_nil, left]
  omega

theorem Accounted.taken {span : ℕ × ℕ} {spans : Spans} (accounted : Accounted call s log)
    (took : s.spans.take (max (call.n.writeChunkSize s.downgraded) 1) call.data.length true =
      some (span, spans)) :
    s.spans.Taken (max (call.n.writeChunkSize s.downgraded) 1) call.data.length span spans :=
  Spans.take_spec (le_max_right _ _) accounted.spans took

theorem Accounted.issue {between : Bool} {span : ℕ × ℕ} {spans : Spans}
    (accounted : Accounted call s log) (low : call.offset.toNat + span.1 < 2 ^ 64)
    (taken : s.spans.Taken (max (call.n.writeChunkSize s.downgraded) 1) call.data.length span
      spans) :
    Accounted call { s with
      downgraded := s.downgraded || between
      spans
      progress := s.progress.chunk
      issued := s.issued ++ [⟨span.1, span.2, !(s.downgraded || between),
        call.request span.1 span.2, none⟩] }
      (log ++ [.asks (call.request span.1 span.2)]) := by
  have acks' : WriteSpan.acks (log ++ [.asks (call.request span.1 span.2)]) =
      WriteSpan.acks log := by
    rw [acks_append]
    exact List.append_nil _
  refine ⟨taken.within, fun c member => ?_, fun p => ?_, fun sound p => ?_, fun ack member => ?_⟩
  · rcases List.mem_append.mp member with before | new
    · obtain ⟨some, inside, request⟩ := accounted.issued c before
      exact ⟨some, le_trans inside taken.next, request⟩
    · obtain rfl := List.mem_singleton.mp new
      exact ⟨taken.some, taken.inside, rfl, low⟩
  · rw [acks', toCome_issue taken]
    exact accounted.most p
  · rw [acks', toCome_issue taken]
    exact accounted.all sound p
  · rw [acks'] at member
    exact accounted.acks ack member

/-- A reply's bytes move from what is left of the chunk to what has been acknowledged. -/
theorem Accounted.reply {index : ℕ} {outcome : Except Error Reply} {progress : WriteProgress}
    (accounted : Accounted call s log) (found : s.issued[index]? = some c)
    (waits : c.outcome = none) :
    Accounted call { s with
      progress
      issued := s.issued.set index { c with outcome := some outcome } }
      (log ++ ((WriteProgress.accepted c.length outcome).map
        (.acknowledged c.request ·)).toList) := by
  let c' : WriteChunk := { c with outcome := some outcome }
  obtain ⟨positive, inside, request, low⟩ := accounted.issued c (List.mem_of_getElem? found)
  have next := accounted.spans.next
  have left : s.leftovers[index]? = some c.span := by
    rw [leftovers, List.getElem?_map, found, ← left_of_waits waits]
    rfl
  have rest : leftovers { s with progress, issued := s.issued.set index c' } =
      s.leftovers.set index c'.left := by
    rw [leftovers, leftovers, List.map_set]
  have moved := fun p => @held_set p c.span s.leftovers index left c'.left
  have came : c'.left = match WriteProgress.accepted c.length outcome with
      | none => c.span
      | some count => (c.start + count, c.length - count) := left_of_came rfl
  have same : ∀ p, landed (call.offset.toNat + p) (WriteSpan.acks (log ++
      ((WriteProgress.accepted c.length outcome).map (.acknowledged c.request ·)).toList)) +
        toCome call { s with progress, issued := s.issued.set index c' } p =
      landed (call.offset.toNat + p) (WriteSpan.acks log) + s.toCome call p := by
    intro p
    have moved := moved p
    rw [toCome, toCome, rest, acks_append, landed_append]
    cases took : WriteProgress.accepted c.length outcome with
    | none =>
        rw [took] at came
        dsimp only at came
        have nothing : landed (call.offset.toNat + p) (WriteSpan.acks []) = 0 := rfl
        rw [came] at moved ⊢
        rw [Option.map_none, Option.toList_none, nothing]
        dsimp only
        omega
    | some count =>
        rw [took] at came
        dsimp only at came
        have within := accepted_le took
        have apart : c.length = count + (c.length - count) := by omega
        have cut := @holds_add p c.start count (c.length - count)
        rw [← apart] at cut
        have new : landed (call.offset.toNat + p)
            (WriteSpan.acks [.acknowledged c.request count]) = holds p c.start count := by
          change holds _ c.request.offset.toNat count + 0 = _
          rw [request, request_offset low, holds_shift, Nat.add_zero]
        rw [came] at moved ⊢
        rw [Option.map_some, Option.toList_some, new]
        simp only [WriteChunk.span] at moved
        dsimp only
        omega
  refine ⟨accounted.spans, fun x member => ?_, fun p => ?_, fun sound p => ?_, fun ack member => ?_⟩
  · rcases List.mem_or_eq_of_mem_set member with old | rfl
    · exact accounted.issued x old
    · exact ⟨positive, inside, request, low⟩
  · rw [same]
    exact accounted.most p
  · rw [same]
    exact accounted.all sound p
  · rw [acks_append] at member
    rcases List.mem_append.mp member with old | new
    · exact accounted.acks ack old
    · cases took : WriteProgress.accepted c.length outcome with
      | none =>
          rw [took] at new
          exact absurd new List.not_mem_nil
      | some count =>
          rw [took] at new
          obtain rfl := List.mem_singleton.mp new
          exact ⟨c.length, ⟨c.start, request, by omega, low⟩, accepted_le took⟩

/-- What is left of a chunk is put back, or given up with the call. -/
theorem Accounted.answer {index : ℕ} {outcome : Except Error Reply} {out : List WriteOut}
    (accounted : Accounted call s log) (found : s.issued[index]? = some c)
    (came : c.outcome = some outcome)
    (settled : Settled { s with issued := s.issued.eraseIdx index } c outcome s' out) :
    Accounted call s' (log ++ out) := by
  obtain ⟨some, inside, request, low⟩ := accounted.issued c (List.mem_of_getElem? found)
  have before := fun p => @toCome_eraseIdx call s c p index found
  have left := left_of_came came
  have rest : ∀ x ∈ s.issued.eraseIdx index, x ∈ s.issued := fun x => List.mem_of_mem_eraseIdx
  cases settled with
  | refused large nothing =>
      have acks' : WriteSpan.acks (log ++ [.putBack c.start c.length]) = WriteSpan.acks log := by
        rw [acks_append]
        exact List.append_nil _
      rw [nothing] at left
      have same : ∀ p, toCome call { s with
          issued := s.issued.eraseIdx index
          downgraded := true
          spans := s.spans.push c.start c.length } p = s.toCome call p := by
        intro p
        rw [before p, left]
        exact @toCome_push call { s with issued := s.issued.eraseIdx index } p _ _ true
      refine ⟨accounted.spans.push some inside, fun x member => accounted.issued x (rest x member),
        fun p => ?_, fun sound p => ?_, fun ack member => ?_⟩
      · rw [acks', same]
        exact accounted.most p
      · rw [acks', same]
        exact accounted.all sound p
      · rw [acks'] at member
        exact accounted.acks ack member
  | @taken count took positive within =>
      rw [List.append_nil]
      rw [took] at left
      have same : ∀ p, toCome call { s with
          issued := s.issued.eraseIdx index
          spans :=
            if count < c.length then s.spans.push (c.start + count) (c.length - count)
            else s.spans } p = s.toCome call p := by
        intro p
        rw [before p, left]
        split
        · exact @toCome_push call { s with issued := s.issued.eraseIdx index } p _ _ s.downgraded
        · next all =>
            have none : c.length - count = 0 := by omega
            dsimp only
            rw [none, holds_zero, Nat.zero_add]
      refine ⟨?_, fun x member => ?_, fun p => ?_, fun sound p => ?_, accounted.acks⟩
      · dsimp only
        split
        · exact accounted.spans.push (by omega) (by omega)
        · exact accounted.spans
      · have old := accounted.issued x (rest x member)
        dsimp only
        split <;> exact old
      · rw [same]
        exact accounted.most p
      · rw [same]
        exact accounted.all sound p
  | failed downgraded error keeps nothing =>
      rw [List.append_nil]
      refine ⟨accounted.spans, fun x member => accounted.issued x (rest x member), fun p => ?_,
        fun sound => ?_, accounted.acks⟩
      · have most := accounted.most p
        rw [before p] at most
        exact le_trans (Nat.add_le_add_left (Nat.le_add_left _ _) _) most
      · dsimp only at sound
        cases failure : s.failure with
        | none =>
            rw [failure] at sound
            cases sound
        | some first =>
            rw [failure] at sound
            cases sound

/-- **Steps keep the account of a write.** -/
theorem Accounted.stepped {e : WriteEvent} {out : List WriteOut} (accounted : Accounted call s log)
    (low : s.Low call e) (stepped : Stepped call s e s' out) : Accounted call s' (log ++ out) := by
  cases stepped with
  | downgrade large =>
      rw [List.append_nil]
      exact ⟨accounted.spans, accounted.issued, accounted.most, accounted.all, accounted.acks⟩
  | @issue between span spans running sound room took =>
      apply accounted.issue ?_ (accounted.taken took)
      apply low (span, spans)
      rw [nextSpan, if_pos ⟨sound, room⟩]
      exact took
  | reply found waits => exact accounted.reply found waits
  | @answer index outcome c running full found came =>
      have some := (accounted.issued c (List.mem_of_getElem? found)).1
      exact accounted.answer found came (acknowledge_settled some outcome)
  | finish running full drained =>
      rw [List.append_nil]
      exact ⟨accounted.spans, accounted.issued, accounted.most, accounted.all, accounted.acks⟩

/-- A span that ends below 2^64 is issued below it. -/
theorem Accounted.low (accounted : Accounted call s log)
    (fits : call.offset.toNat + call.data.length ≤ 2 ^ 64) (e : WriteEvent) : s.Low call e := by
  cases e with
  | issue between =>
      rintro ⟨span, spans⟩ took
      rw [Option.mem_def, nextSpan] at took
      split at took
      · have taken := accounted.taken took
        have some := taken.some
        have inside := taken.inside
        have next := taken.within.next
        dsimp only
        omega
      · cases took
  | _ => trivial

theorem Settled.asks {outcome : Except Error Reply} {out : List WriteOut}
    {request : WriteAndxRequest} (settled : Settled s c outcome s' out) : .asks request ∉ out := by
  cases settled <;> simp

/-- What a step puts is for a part of the data. -/
theorem Accounted.asks {e : WriteEvent} {out : List WriteOut} {request : WriteAndxRequest}
    (accounted : Accounted call s log) (low : s.Low call e) (stepped : Stepped call s e s' out)
    (asks : .asks request ∈ out) : ∃ length, Asked call request length := by
  cases stepped with
  | downgrade large => exact absurd asks List.not_mem_nil
  | @issue between span spans running sound room took =>
      cases List.mem_singleton.mp asks
      have taken := accounted.taken took
      refine ⟨span.2, span.1, rfl, le_trans taken.inside taken.within.next, ?_⟩
      apply low (span, spans)
      rw [nextSpan, if_pos ⟨sound, room⟩]
      exact took
  | @reply index outcome c found waits =>
      cases took : WriteProgress.accepted c.length outcome <;> rw [took] at asks <;> simp at asks
  | @answer index outcome c running full found came =>
      have some := (accounted.issued c (List.mem_of_getElem? found)).1
      exact absurd asks (acknowledge_settled some outcome).asks
  | finish running full drained => exact absurd asks List.not_mem_nil

/-- What is acknowledged is behind the write's own offset. -/
theorem Accounted.landed_below {q : ℕ} (accounted : Accounted call s log)
    (below : q < call.offset.toNat) : landed q (WriteSpan.acks log) = 0 := by
  by_contra some
  obtain ⟨span, member, upto, -⟩ := held_pos_iff.mp (Nat.pos_of_ne_zero some)
  obtain ⟨ack, acked, rfl⟩ := List.mem_map.mp member
  obtain ⟨length, ⟨start, request, -, low⟩, -⟩ := accounted.acks ack acked
  dsimp only at upto
  rw [request, request_offset low] at upto
  omega

/-- A call that is over has nothing left on the wire, and what it comes to is read off its
failure; where there was none, nothing is left to be asked for. -/
def Finished (call : WriteCall) (s : WriteSpan) : Prop :=
  ∀ result, s.result = some result → s.issued = [] ∧ result = s.conclude ∧
    (s.failure = none → s.spans.queue = [] ∧ call.data.length ≤ s.spans.next)

theorem finished_start {downgraded : Bool} {progress : WriteProgress} :
    Finished call (start downgraded progress call.data) := by
  intro result came
  rw [start] at came
  dsimp only at came
  split at came
  · next empty =>
      cases came
      exact ⟨rfl, rfl, fun _ => ⟨rfl, by rw [empty]; exact Nat.zero_le _⟩⟩
  · cases came

theorem finished_of_running (running : s.result = none) : Finished call s := by
  intro result came
  rw [running] at came
  cases came

theorem Settled.result_eq {outcome : Except Error Reply} {out : List WriteOut}
    (settled : Settled s c outcome s' out) : s'.result = s.result := by
  cases settled <;> rfl

theorem Finished.stepped {e : WriteEvent} {out : List WriteOut} (finished : Finished call s)
    (accounted : Accounted call s log) (deep : 1 ≤ call.depth)
    (stepped : Stepped call s e s' out) : Finished call s' := by
  cases stepped with
  | downgrade large => exact finished
  | issue running sound room took => exact finished_of_running running
  | reply found waits =>
      intro result came
      obtain ⟨drained, -⟩ := finished result came
      rw [drained] at found
      cases found
  | @answer index outcome c running full found came =>
      have some := (accounted.issued c (List.mem_of_getElem? found)).1
      apply finished_of_running
      rw [(acknowledge_settled some outcome).result_eq]
      exact running
  | finish running full drained =>
      intro result came
      cases came
      refine ⟨drained, rfl, fun sound => ?_⟩
      rw [nextSpan, if_pos ⟨sound, by rw [drained]; exact deep⟩, Spans.take_eq_none_iff] at full
      exact ⟨full.1, full.2 rfl⟩

end WriteSpan

end Smb1Client
