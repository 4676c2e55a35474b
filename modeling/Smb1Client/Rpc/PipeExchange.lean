import Smb1Client.Connection.ChunkSize
import Smb1Client.Rpc.FallThrough
import Smb1Client.Rpc.PduFragments

/-!
The two loops of a pipe exchange, and that they end.

A write that is let go on with acknowledges a byte at least. A read that is let go on with brings
one at least, and what the caps of the collector leave it to bring bounds how often.
-/

namespace Smb1Client

open Dialogue
open Pdu (PDU_CAP Collector)

namespace Pipe

variable {n : Negotiated} {turns : ℕ} {p p' : Pipe} {request : Bytes} {collector : Collector}
  {answers rest : List Answer}

theorem transferSize_pos (admitted : n.Admitted) : 1 ≤ (transferSize n).toNat := by
  have buffered := Negotiated.buffered_pos admitted
  rw [Negotiated.buffered] at buffered
  rw [transferSize, UInt32.toNat_min]
  exact le_min buffered (by decide)

/-! ## Writing -/

/-- The write the rest of a request is begun with. -/
def writeRequest (n : Negotiated) (p : Pipe) (request : Bytes) : WriteAndxRequest where
  fid := p.fid
  offset := p.offset
  writeMode := 0
  remaining := 0
  data := request.take (transferSize n).toNat

/-- How much of what it was offered a reply to a write acknowledges. -/
def progressed (offered : Bytes) (reply : Reply) : Except ClientError ℕ := do
  acceptPipeStatus reply.status
  let response ← (WriteAndxResponse.decode reply.message).mapError .ofWire
  if response.count = 0 then
    .error (.ofWire (.truncated "the pipe write acknowledgement" offered.length 0))
  else return min response.count.toNat offered.length

theorem writeAll_succ : writeAll n (turns + 1) p request =
    if request = [] then return p
    else (do
      let reply ← TreeRequest.put n (.write (writeRequest n p request))
      match progressed (writeRequest n p request).data reply with
      | .error error => .failed error
      | .ok count =>
          writeAll n turns { p with offset := p.offset + UInt64.ofNat count }
            (request.drop count)) := by
  rw [writeAll]
  refine if_congr Iff.rfl rfl ?_
  change (TreeRequest.put n (.write (writeRequest n p request)) >>= _ : PipeVerb Pipe) = _
  refine congrArg _ (funext fun reply => ?_)
  rw [progressed]
  cases acceptPipeStatus reply.status with
  | error error => rfl
  | ok value =>
      cases (WriteAndxResponse.decode reply.message).mapError ClientError.ofWire with
      | error error => rfl
      | ok response =>
          by_cases nothing : response.count = 0
          · simp only [Bind.bind, Except.bind, Dialogue.ofExcept, Dialogue.bind, if_pos nothing]
            rfl
          · simp only [Bind.bind, Except.bind, Dialogue.ofExcept, Dialogue.bind, if_neg nothing]
            rfl

/-- A write that is gone on with acknowledged a byte, of those it offered. -/
theorem of_progressed {offered : Bytes} {reply : Reply} {count : ℕ} (some : offered ≠ [])
    (went : progressed offered reply = .ok count) :
    1 ≤ count ∧ count ≤ offered.length ∧ ∃ response,
      WriteAndxResponse.decode reply.message = .ok response ∧
        offered.take response.count.toNat = offered.take count := by
  rw [progressed] at went
  cases accepted : acceptPipeStatus reply.status with
  | error error =>
      rw [accepted] at went
      cases went
  | ok value =>
      rw [accepted] at went
      cases decoded : WriteAndxResponse.decode reply.message with
      | error error =>
          rw [decoded] at went
          cases went
      | ok response =>
          rw [decoded] at went
          simp only [Bind.bind, Except.bind, Except.mapError] at went
          split at went
          · cases went
          · next counted =>
              cases went
              have positive : 0 < response.count.toNat := by
                rw [Nat.pos_iff_ne_zero]
                exact fun zero => counted (UInt32.toNat_inj.mp zero)
              refine ⟨le_min positive (List.length_pos_of_ne_nil some), min_le_right _ _, response,
                rfl, ?_⟩
              rw [List.take_eq_take_min]

/-- What a happening acknowledges of a write: the offset of its first byte, and its bytes. -/
def acknowledgedPart : PipeMoment → Option (UInt64 × Bytes)
  | .answered (.write request) (.ok reply) =>
      (WriteAndxResponse.decode reply.message).toOption.map fun response =>
        (request.offset, request.data.take response.count.toNat)
  | _ => none

/-- Parts of a stream one behind the other, from an offset on. -/
def Consecutive (offset : UInt64) : List (UInt64 × Bytes) → Prop
  | [] => True
  | (first, part) :: parts => first = offset ∧ part ≠ [] ∧
      Consecutive (offset + UInt64.ofNat part.length) parts

/-- Parts that are acknowledged are a request, each byte of it once and in order. -/
structure Carries (p : Pipe) (request : Bytes) (parts : List (UInt64 × Bytes)) : Prop where
  bytes : (parts.map (·.2)).flatten = request
  offsets : Consecutive p.offset parts

/-- A request that was written was acknowledged part by part. -/
theorem carries_of_writeAll (admitted : n.Admitted)
    (ran : (writeAll n turns p request).run answers = some (.ok p', rest)) :
    Carries p request
      (((writeAll n turns p request).history answers).filterMap acknowledgedPart) := by
  induction turns generalizing p request answers with
  | zero => cases ran
  | succ turns ih =>
      rw [writeAll_succ] at ran ⊢
      by_cases done : request = []
      · rw [if_pos done] at ran ⊢
        exact ⟨done.symm, True.intro⟩
      rw [if_neg done] at ran ⊢
      rcases of_run_bind ran with ⟨error, -, failed⟩ | ⟨reply, rest', replied, ran⟩
      · cases failed
      rw [(bind_of_ok replied).2, TreeRequest.history_put_of_ok replied, List.filterMap_append]
      cases went : progressed (writeRequest n p request).data reply with
      | error error =>
          rw [went] at ran
          cases ran
      | ok count =>
          rw [went] at ran
          have offered : (writeRequest n p request).data ≠ [] := by
            rw [writeRequest, Ne, List.take_eq_nil_iff]
            exact not_or.mpr ⟨Nat.pos_iff_ne_zero.mp (transferSize_pos admitted), done⟩
          obtain ⟨positive, within, response, decoded, taken⟩ := of_progressed offered went
          have short : count ≤ request.length := within.trans (List.length_take_le' _ _)
          have part : (writeRequest n p request).data.take response.count.toNat =
              request.take count := by
            rw [taken, writeRequest, List.take_take, min_eq_left]
            exact within.trans (List.length_take_le _ _)
          have here : [Happening.sent (.write (writeRequest n p request)),
              .answered (.write (writeRequest n p request)) (.ok reply)].filterMap
                acknowledgedPart =
                [(p.offset, request.take count)] := by
            rw [← part]
            simp only [List.filterMap_cons, List.filterMap_nil, acknowledgedPart, decoded]
            rfl
          have later := ih ran
          have length : (request.take count).length = count := List.length_take_of_le short
          rw [here]
          refine ⟨?_, rfl, ?_, ?_⟩
          · rw [List.singleton_append, List.map_cons, List.flatten_cons, later.bytes]
            exact List.take_append_drop _ _
          · rw [Ne, List.take_eq_nil_iff]
            exact not_or.mpr ⟨Nat.pos_iff_ne_zero.mp positive, done⟩
          · rw [length]
            exact later.offsets

/-- A request takes no more writes than it has bytes. -/
theorem ends_writeAll (admitted : n.Admitted) (enough : request.length < turns) :
    (writeAll n turns p request).Ends request.length := by
  induction turns generalizing p request with
  | zero => exact absurd enough (Nat.not_lt_zero _)
  | succ turns ih =>
      rw [writeAll_succ]
      by_cases done : request = []
      · rw [if_pos done]
        trivial
      rw [if_neg done]
      have some : 1 ≤ request.length := List.length_pos_of_ne_nil done
      have offered : (writeRequest n p request).data ≠ [] := by
        rw [writeRequest, Ne, List.take_eq_nil_iff]
        exact not_or.mpr ⟨Nat.pos_iff_ne_zero.mp (transferSize_pos admitted), done⟩
      have ends : (TreeRequest.put n (.write (writeRequest n p request)) >>= fun reply =>
          match progressed (writeRequest n p request).data reply with
          | .error error => .failed error
          | .ok count => writeAll n turns { p with offset := p.offset + UInt64.ofNat count }
              (request.drop count) : PipeVerb Pipe).Ends (1 + (request.length - 1)) := by
        apply (TreeRequest.ends_put n _).bind
        intro reply
        cases went : progressed (writeRequest n p request).data reply with
        | error error => trivial
        | ok count =>
            obtain ⟨positive, -⟩ := of_progressed offered went
            have fewer : (request.drop count).length ≤ request.length - 1 := by
              rw [List.length_drop]
              omega
            exact (ih (by omega)).mono fewer
      rwa [Nat.add_sub_cancel' some] at ends

/-! ## Reading -/

/-- The most reads that one reply takes: the bytes of the PDUs that are counted and of one that is
not there yet, and the read that shows it is. -/
def MAX_READS : ℕ := 65535 * (PDU_CAP + 1) + 1

/-- What a collector that is not complete has read: within the caps, and short of a PDU. -/
structure Counts (c : Collector) : Prop where
  few : c.pdus ≤ PDU_CAP
  holds : c.Holds

/-- The bytes a collector has read, as far as they are bounded. -/
def spent (c : Collector) : ℕ := 65535 * c.pdus + c.pending.length

theorem Counts.spent_le (counts : Counts collector) : spent collector ≤ 65535 * (PDU_CAP + 1) := by
  have few := counts.few
  have pending := counts.holds.pending_lt
  rw [spent]
  omega

theorem counts_new (callId : UInt32) : Counts (.new callId) :=
  ⟨Nat.zero_le _, Collector.holds_new callId⟩

/-- A chunk that leaves a collector incomplete was read by it. -/
theorem Counts.feed {chunk : Bytes} {c' : Collector} (counts : Counts collector)
    (fed : collector.feed chunk = .ok c') : c'.Holds ∧ (collector.complete = false →
      c'.complete = false → Counts c' ∧ spent collector + chunk.length ≤ spent c') := by
  have holds := counts.holds.feed fed
  refine ⟨holds, fun running running' => ?_⟩
  rw [Collector.feed_eq_settle] at fed
  obtain ⟨result, reads⟩ := Framing.Reads.total Pdu.pduStream Collector.collecting collector
    (collector.pending ++ chunk)
  rw [Collector.settle_of_reads reads] at fed
  cases result with
  | error error => cases fed
  | ok left =>
      obtain ⟨c, rest⟩ := left
      obtain ⟨read, few⟩ := Collector.spent_of_reads counts.few reads
      cases complete : c.complete with
      | true =>
          obtain ⟨passed, behind⟩ := Framing.Reads.total Pdu.pduStream Pdu.passing () rest
          change ({ c with pending := rest } : Collector).settle = _ at fed
          rw [Collector.settle_of_passing complete behind] at fed
          cases passed with
          | error error => cases fed
          | ok left =>
              cases fed
              cases running'.symm.trans complete
      | false =>
          change ({ c with pending := rest } : Collector).settle = _ at fed
          rw [Collector.settle_of_none (c := { c with pending := rest }) (reads.starves complete)]
            at fed
          cases fed
          rw [List.length_append] at read
          refine ⟨⟨few, holds⟩, ?_⟩
          rw [spent, spent]
          dsimp only
          omega

/-- A read that is gone on with feeds the collector what it brought, which is something. -/
theorem of_taken {reply : Reply} {c' : Collector}
    (takes : p.taken collector reply = .ok (some (p', c'))) :
    ∃ data, data ≠ [] ∧ collector.feed data = .ok c' := by
  rw [taken] at takes
  cases accepted : acceptPipeStatus reply.status with
  | error error =>
      rw [accepted] at takes
      cases takes
  | ok value =>
      rw [accepted] at takes
      cases decoded : ReadAndxResponse.decode reply.message with
      | error error =>
          rw [decoded] at takes
          cases takes
      | ok response =>
          rw [decoded] at takes
          simp only [Bind.bind, Except.bind, Except.mapError] at takes
          split at takes
          · cases takes
          · next some =>
              cases fed : collector.feed response.data with
              | error error =>
                  rw [fed] at takes
                  cases takes
              | ok next =>
                  rw [fed] at takes
                  cases takes
                  exact ⟨response.data, some, fed⟩

theorem ends_fill_of_complete {k : ℕ} (complete : collector.complete = true) (enough : 1 ≤ turns) :
    (fill n turns p collector).Ends k := by
  cases turns with
  | zero => cases enough
  | succ turns =>
      rw [fill_succ, if_pos complete]
      trivial

/-- A reply takes no more reads than the caps leave bytes to be read. -/
theorem ends_fill {k : ℕ} (counts : Counts collector)
    (left : MAX_READS ≤ spent collector + k) (enough : k < turns) :
    (fill n turns p collector).Ends k := by
  induction turns generalizing p collector k with
  | zero => exact absurd enough (Nat.not_lt_zero _)
  | succ turns ih =>
      by_cases complete : collector.complete = true
      · exact ends_fill_of_complete complete (Nat.succ_pos turns)
      have running := Bool.eq_false_of_not_eq_true complete
      have spent_le := counts.spent_le
      have positive : 1 ≤ k := by
        have beyond : spent collector < MAX_READS := Nat.lt_succ_of_le spent_le
        omega
      rw [fill_succ, if_neg complete, ← Nat.add_sub_cancel' positive]
      apply (TreeRequest.ends_put n _).bind
      intro reply
      cases takes : p.taken collector reply with
      | error error => trivial
      | ok next =>
          cases next with
          | none => trivial
          | some next =>
              obtain ⟨p', c'⟩ := next
              obtain ⟨data, some, fed⟩ := of_taken takes
              have brought : 1 ≤ data.length := List.length_pos_of_ne_nil some
              obtain ⟨-, kept⟩ := counts.feed fed
              cases complete' : c'.complete with
              | true => exact ends_fill_of_complete complete' (by omega)
              | false =>
                  obtain ⟨counts', more⟩ := kept running complete'
                  apply ih counts'
                  · omega
                  · omega

/-- **The exchange ends, and sends its request whole.** A request of any length is written in no
more writes than it has bytes, and where the writes end well what they acknowledged is the request
from its first byte to its last. A reply is read in no more reads than its caps allow bytes, and
where the reads end well it is complete, or one of them brought nothing. -/
theorem exchange_ends (admitted : n.Admitted) (enough : request.length < turns) :
    (writeAll n turns p request).Ends request.length ∧
      (∀ answers p' rest, (writeAll n turns p request).run answers = some (.ok p', rest) →
        Carries p request
          (((writeAll n turns p request).history answers).filterMap acknowledgedPart)) ∧
      ∀ (callId : UInt32) (chunk : Bytes) (collector : Collector) (turns : ℕ),
        (Collector.new callId).feed chunk = .ok collector → MAX_READS < turns →
          (fill n turns p collector).Ends MAX_READS ∧
            ∀ answers p' c' rest,
              (fill n turns p collector).run answers = some (.ok (p', c'), rest) →
              c'.complete = true ∨ Starves ((fill n turns p collector).history answers) := by
  refine ⟨ends_writeAll admitted enough, fun answers p' rest => carries_of_writeAll admitted,
    fun callId chunk collector turns fed enough => ⟨?_, fun answers p' c' rest ran => ?_⟩⟩
  · obtain ⟨-, kept⟩ := (counts_new callId).feed fed
    cases complete : collector.complete with
    | true => exact ends_fill_of_complete complete (Nat.one_le_of_lt enough)
    | false => exact ends_fill (kept rfl complete).1 (Nat.le_add_left _ _) enough
  · have opened := Collector.opened_feed (Collector.opened_new callId) fed
    cases complete : c'.complete with
    | true => exact Or.inl rfl
    | false =>
        right
        apply (short_fill_iff opened ran).mp
        refine ⟨p', c', .noLastFragment c'.pdus, rfl, ?_⟩
        rw [Collector.finish, complete]
        cases c'.ptype <;> rfl

/-- A pipe that is read and written. -/
def readAndWritten : Pipe where
  fid := 5
  offset := 0
  transact := false
  transactFailure := none
  name := SRVSVC_PIPE

theorem exchange_ends_threeBytes : (writeAll ⟨50, 16644, 0⟩ 4 readAndWritten [7, 8, 9]).Ends 3 :=
  And.left (exchange_ends (by decide) (by decide))

end Pipe

end Smb1Client
