import Smb1Client.Lib.Peer
import Smb1Client.Rpc.PduFragments
import Smb1Client.Rpc.PipeExchange
import Smb1Client.Rpc.Shares
import Smb1Client.Rpc.ShareStubs

/-!
A server of the `srvsvc` pipe, and exchanges with it.

The server carries a PDU and its answer by a transaction or by writes and reads, and cuts the
answer as it likes: into fragments, and the fragments into what each read brings. A client's
exchange comes to the answer the cuts were made from.
-/

namespace Smb1Client

open Dialogue

namespace Pdu

open Framing LittleEndian

/-! ## PDUs of one piece -/

variable {ptype : UInt8} {callId : UInt32} {body front back : Bytes}

theorem length_pdu (ptype : UInt8) (callId : UInt32) (body : Bytes) :
    (pdu ptype callId body).length = HEADER_LEN + body.length := by
  simp only [pdu, List.length_append, length_u16le, length_u32le]
  rfl

theorem next_pdu (short : HEADER_LEN + body.length < 2 ^ 16) :
    next (pdu ptype callId body) = .ok (some (pdu ptype callId body, [])) := by
  have front : pdu ptype callId body = ([VERSION.1, VERSION.2, ptype,
      PFC_FIRST_FRAG ||| PFC_LAST_FRAG] ++ DATA_REPRESENTATION) ++
        (u16le (UInt16.ofNat (HEADER_LEN + body.length)) ++ (u16le 0 ++ u32le callId ++ body)) := by
    simp only [pdu, List.append_assoc]
  have declared : (pdu ptype callId body).length =
      decode (((pdu ptype callId body).drop 8).take 2) := by
    have eight : ([VERSION.1, VERSION.2, ptype, PFC_FIRST_FRAG ||| PFC_LAST_FRAG] ++
        DATA_REPRESENTATION).length = 8 := rfl
    have two := length_u16le (UInt16.ofNat (HEADER_LEN + body.length))
    rw [length_pdu, front, ← eight, List.drop_left, ← two, List.take_left, decode_u16le,
      UInt16.toNat_ofNat']
    exact (Nat.mod_eq_of_lt short).symm
  have header : HEADER_LEN ≤ (pdu ptype callId body).length := by
    rw [length_pdu]
    exact Nat.le_add_right _ _
  have alone := next_of_length header declared []
  rwa [List.append_nil] at alone

theorem parse_pdu (ptype : UInt8) (callId : UInt32) (body : Bytes) :
    Header.parse (pdu ptype callId body) =
      .ok ⟨ptype, PFC_FIRST_FRAG ||| PFC_LAST_FRAG, callId⟩ := by
  have front : (pdu ptype callId body).take HEADER_LEN = u8le VERSION.1 ++ (u8le VERSION.2 ++
      (u8le ptype ++ (u8le (PFC_FIRST_FRAG ||| PFC_LAST_FRAG) ++ (DATA_REPRESENTATION ++
        (u16le (UInt16.ofNat (HEADER_LEN + body.length)) ++
          (u16le 0 ++ (u32le callId ++ []))))))) := by
    have bytes : ∀ x : UInt8, u8le x = [x] := by
      intro x
      simp [u8le, LittleEndian.encode]
    have split : pdu ptype callId body = (u8le VERSION.1 ++ (u8le VERSION.2 ++
        (u8le ptype ++ (u8le (PFC_FIRST_FRAG ||| PFC_LAST_FRAG) ++ (DATA_REPRESENTATION ++
          (u16le (UInt16.ofNat (HEADER_LEN + body.length)) ++
            (u16le 0 ++ (u32le callId ++ [])))))))) ++
            body := by
      simp only [pdu, bytes, List.append_assoc, List.append_nil]
      rfl
    rw [split, List.take_left']
    simp only [List.length_append, length_u8le, length_u16le, length_u32le]
    rfl
  have four : DATA_REPRESENTATION.length = 4 := rfl
  have read : Header.read ((pdu ptype callId body).take HEADER_LEN) =
      some ((VERSION.1 :: VERSION.2 :: DATA_REPRESENTATION,
        ⟨ptype, PFC_FIRST_FRAG ||| PFC_LAST_FRAG, callId⟩), []) := by
    rw [front]
    simp only [Header.read]
    rw [Reader.u8_bind, Reader.u8_bind, Reader.u8_bind, Reader.u8_bind, ← four, Reader.take_bind,
      Reader.u16_bind, Reader.u16_bind, Reader.u32_bind]
    rfl
  rw [Header.parse, read]
  rfl

namespace Collector

variable {c : Collector} {waiting chunk rest : Bytes} {answer : Answer}

/-- A collector that is not complete, and that what is still to come makes complete. -/
structure Awaits (c : Collector) (waiting : Bytes) (answer : Answer) : Prop where
  running : c.complete = false
  unfinished : next c.pending = .ok none
  comes : ∃ c', Reads pduStream collecting c (c.pending ++ waiting) (.ok (c', [])) ∧
    c'.complete = true ∧ c'.finish = .ok answer

theorem Awaits.ne_nil (awaits : c.Awaits waiting answer) : waiting ≠ [] := by
  rintro rfl
  obtain ⟨c', reads, complete, -⟩ := awaits.comes
  rw [List.append_nil] at reads
  have same := Except.ok.inj (reads.functional (.starved awaits.running awaits.unfinished))
  obtain ⟨rfl, -⟩ := Prod.mk.inj same
  exact absurd (awaits.running.symm.trans complete) Bool.noConfusion

/-- What is pending is nothing to what a stream comes to. -/
theorem reads_withPending {result : Except PduError (Collector × Bytes)}
    (reads : Reads pduStream collecting c waiting result) (pending : Bytes) :
    Reads pduStream collecting { c with pending } waiting
      (result.map fun left => ({ left.1 with pending }, left.2)) := by
  induction reads with
  | done done => exact .done done
  | starved running split => exact .starved running split
  | garbled running split => exact .garbled running split
  | @refused c _ _ frame _ running split refused =>
      refine .refused running split ?_
      change ({ c with pending } : Collector).accept frame = _
      rw [accept_withPending, show c.accept frame = _ from refused]
      rfl
  | @took c c' _ _ frame _ running split accepted _ ih =>
      have accepted' : ({ c with pending } : Collector).accept frame = .ok { c' with pending } := by
        rw [accept_withPending, show c.accept frame = _ from accepted]
        rfl
      exact .took running split accepted' ih

/-- What a chunk of it makes of a collector: it is complete, and there is nothing more to come,
or it awaits the rest. -/
theorem Awaits.feed (awaits : c.Awaits (chunk ++ rest) answer) :
    ∃ c', c.feed chunk = .ok c' ∧
      (rest = [] ∧ c'.complete = true ∧ c'.finish = .ok answer ∨ c'.Awaits rest answer) := by
  obtain ⟨final, reads, complete, finishes⟩ := awaits.comes
  rw [← List.append_assoc] at reads
  obtain ⟨result, first⟩ := Reads.total pduStream collecting c (c.pending ++ chunk)
  have settled := settle_of_reads first
  rw [feed_eq_settle, settled]
  cases result with
  | error error => cases reads.functional (first.append_error rest)
  | ok left =>
      obtain ⟨c₁, left⟩ := left
      cases whole : c₁.complete with
      | true =>
          have passed : Reads pduStream collecting c (c.pending ++ chunk ++ rest)
              (.ok (c₁, left ++ rest)) := first.append (.done whole)
          have same := Except.ok.inj (reads.functional passed)
          obtain ⟨rfl, rest'⟩ := Prod.mk.inj same
          obtain ⟨rfl, rfl⟩ := List.append_eq_nil_iff.mp rest'.symm
          have stops : next ([] : Bytes) = .ok none := rfl
          refine ⟨_, settle_of_none (c := { final with pending := [] }) stops, Or.inl ⟨rfl, ?_⟩⟩
          exact ⟨complete, finishes⟩
      | false =>
          have starves := first.starves whole
          refine ⟨_, settle_of_none (c := { c₁ with pending := left }) starves, Or.inr ?_⟩
          obtain ⟨after, later⟩ := Reads.total pduStream collecting c₁ (left ++ rest)
          obtain rfl := reads.functional (first.append later)
          exact ⟨whole, starves, _, reads_withPending later left, complete, finishes⟩

/-- The fragments of a stub, to the last of them. -/
theorem awaits_fragments {fragments : List Fragment} {stub : Bytes} (callId : UInt32)
    (divides : Divides fragments stub) (fits : stub.length ≤ STUB_CAP)
    (few : fragments.length ≤ PDU_CAP) :
    (new callId).Awaits (encodeAll callId fragments) ⟨RESPONSE, stub⟩ := by
  obtain ⟨pieces, valid, ⟨f, opening, first⟩, closes, within⟩ := divides
  have expects : ∀ f ∈ fragments.head?, (new callId).Expects callId f := by
    intro f' same
    cases Option.mem_unique opening same
    exact ⟨rfl, rfl, Or.inr ⟨rfl, first⟩⟩
  have room : (new callId).payload.length + (stubOf fragments).length ≤ STUB_CAP := by
    rw [pieces, new, List.length_nil, Nat.zero_add]
    exact fits
  have reads := reads_fragments fragments valid closes within expects room
  rw [if_pos (by rw [new, Nat.zero_add]; exact few)] at reads
  refine ⟨rfl, rfl, _, reads, rfl, ?_⟩
  rw [← pieces]
  rfl

/-- A bind is answered in one PDU. -/
theorem awaits_pdu {body : Bytes} (callId : UInt32) (short : HEADER_LEN + body.length < 2 ^ 16) :
    (new callId).Awaits (pdu BIND_ACK callId body) ⟨BIND_ACK, body⟩ := by
  have accepted : (new callId).accept (pdu BIND_ACK callId body) =
      .ok { new callId with
        ptype := some BIND_ACK, pdus := 1, payload := body, complete := true } := by
    have start : HEADER_LEN +
        (⟨BIND_ACK, PFC_FIRST_FRAG ||| PFC_LAST_FRAG, callId⟩ : Header).prologue =
        HEADER_LEN := rfl
    have payload : (pdu BIND_ACK callId body).drop HEADER_LEN = body := by
      rw [pdu, List.drop_left']
      simp only [List.length_append, length_u16le, length_u32le]
      rfl
    have cap : 2 ^ 16 ≤ STUB_CAP := by decide
    have typed : (new callId).opened ⟨BIND_ACK, PFC_FIRST_FRAG ||| PFC_LAST_FRAG, callId⟩ =
        .ok BIND_ACK :=
      if_neg (by decide : (PFC_FIRST_FRAG ||| PFC_LAST_FRAG) &&& PFC_FIRST_FRAG ≠ 0)
    rw [accept, show (new callId).complete = false from rfl, if_neg Bool.false_ne_true, parse_pdu]
    change (if callId ≠ (new callId).callId then _ else _) = _
    rw [if_neg (not_not.mpr (show callId = (new callId).callId from rfl))]
    change (if BIND_ACK = FAULT then _ else _) = _
    rw [if_neg (by decide), typed]
    simp only [Bind.bind, Except.bind]
    have few : ¬ (new callId).pdus + 1 > PDU_CAP := by
      rw [show (new callId).pdus + 1 = 1 from rfl]
      decide
    rw [if_neg few, start, payload, length_pdu, if_neg (by omega)]
    rw [show (new callId).payload ++ body = body from rfl, if_neg (by omega)]
    have last :
        decide ((PFC_FIRST_FRAG ||| PFC_LAST_FRAG) &&& PFC_LAST_FRAG ≠ 0) = true := by decide
    exact congrArg (fun complete => Except.ok (Collector.mk _ _ _ _ _ complete)) last
  exact ⟨rfl, rfl, _, .took rfl (next_pdu short) accepted (.done rfl), rfl, rfl⟩

end Collector

end Pdu

/-! ## A server -/

/-- A server's end of a pipe: what has come of a request that is not whole yet, and what is still
to be read of an answer. -/
structure PipeEnd where
  fid : UInt16
  received : Bytes
  waiting : Bytes

/-- What is behind a pipe: which answers it has for a PDU, and what each leaves of it. -/
structure PipeService (σ : Type) where
  transacts : Bool
  replies : σ → Bytes → Bytes → σ → Prop
  fresh : σ → σ

structure PipeServer (σ : Type) where
  pipe : Option PipeEnd
  service : σ

namespace PipeService

variable {σ : Type} (svc : PipeService σ)

/-- The two statuses that answer on a pipe. -/
def GoesThrough (reply : Reply) : Prop := reply.status = .SUCCESS ∨ reply.status = .BUFFER_OVERFLOW

/-- The one pipe is opened. -/
inductive Opens (s : PipeServer σ) (reply : Reply) (s' : PipeServer σ) : Prop
  | granted {response : NtCreateAndxResponse} (closed : s.pipe = none)
      (success : reply.status = .SUCCESS)
      (decoded : NtCreateAndxResponse.decode reply.message = .ok response)
      (becomes : s' = ⟨some ⟨response.fid, [], []⟩, svc.fresh s.service⟩)
  | again (held : s.pipe.isSome = true)

inductive Closes (s : PipeServer σ) (fid : UInt16) (s' : PipeServer σ) : Prop
  | closed {e : PipeEnd} (held : s.pipe = some e) (same : e.fid = fid)
      (becomes : s' = ⟨none, s.service⟩)
  | unknown (unknown : ∀ e, s.pipe = some e → e.fid ≠ fid) (still : s' = s)

/-- A transaction brings the front of the answer, which may be all of it. -/
inductive Transacts (s : PipeServer σ) (fid : UInt16) (data : Bytes) (reply : Reply)
    (s' : PipeServer σ) : Prop
  | answered {front rest : Bytes} {body : TransactionBody} {service : σ}
      (carries : svc.transacts = true) (held : s.pipe = some ⟨fid, [], []⟩)
      (replies : svc.replies s.service data (front ++ rest) service) (status : GoesThrough reply)
      (transaction : reply.transaction = some body) (brings : body.data = front)
      (becomes : s' = ⟨some ⟨fid, [], rest⟩, service⟩)
  | refused (carries : svc.transacts = false) (status : ¬ GoesThrough reply) (still : s' = s)
  | amiss (carries : svc.transacts = true) (amiss : s.pipe ≠ some ⟨fid, [], []⟩)

/-- A read brings some of what waits. -/
inductive ReadsOut (s : PipeServer σ) (r : ReadAndxRequest) (reply : Reply) (s' : PipeServer σ) :
    Prop
  | brings {received chunk rest : Bytes} {response : ReadAndxResponse}
      (held : s.pipe = some ⟨r.fid, received, chunk ++ rest⟩) (filled : chunk ≠ [])
      (room : chunk.length ≤ r.maxCount.toNat) (status : GoesThrough reply)
      (decoded : ReadAndxResponse.decode reply.message = .ok response)
      (data : response.data = chunk) (becomes : s' = ⟨some ⟨r.fid, received, rest⟩, s.service⟩)
  | amiss (amiss : ∀ received waiting, s.pipe = some ⟨r.fid, received, waiting⟩ → waiting = [])

/-- A write is taken in part or whole, and answered once the PDU is whole. -/
inductive TakesIn (s : PipeServer σ) (r : WriteAndxRequest) (reply : Reply)
    (s' : PipeServer σ) : Prop
  | part {received : Bytes} {response : WriteAndxResponse}
      (held : s.pipe = some ⟨r.fid, received, []⟩) (status : GoesThrough reply)
      (decoded : WriteAndxResponse.decode reply.message = .ok response)
      (count : 1 ≤ response.count.toNat ∧ response.count.toNat ≤ r.data.length)
      (short : Pdu.next (received ++ r.data.take response.count.toNat) = .ok none)
      (becomes : s' = ⟨some ⟨r.fid, received ++ r.data.take response.count.toNat, []⟩, s.service⟩)
  | whole {received stream : Bytes} {response : WriteAndxResponse} {service : σ}
      (held : s.pipe = some ⟨r.fid, received, []⟩) (status : GoesThrough reply)
      (decoded : WriteAndxResponse.decode reply.message = .ok response)
      (count : 1 ≤ response.count.toNat ∧ response.count.toNat ≤ r.data.length)
      (whole : Pdu.next (received ++ r.data.take response.count.toNat) =
        .ok (some (received ++ r.data.take response.count.toNat, [])))
      (replies : svc.replies s.service
        (received ++ r.data.take response.count.toNat) stream service)
      (becomes : s' = ⟨some ⟨r.fid, [], stream⟩, service⟩)
  | amiss (amiss : r.data = [] ∨ ∀ received, s.pipe ≠ some ⟨r.fid, received, []⟩)

/-- What the server answers. RAP it refuses, and of what is put on no pipe it says anything. -/
def Serves : Peer (PipeServer σ) TreeRequest Answer := fun s request answer s' =>
  ∃ reply, answer = .ok reply ∧
    match request with
    | .create _ => svc.Opens s reply s'
    | .close r => Closes s r.fid s'
    | .pipeTransact fid data => svc.Transacts s fid data reply s'
    | .read r => ReadsOut s r reply s'
    | .write r => svc.TakesIn s r reply s'
    | .rap _ _ => reply.status ≠ .SUCCESS ∧ Ipc.isFatal (.refused reply.status) = false ∧ s' = s
    | _ => True

end PipeService

/-! ## Exchanges -/

namespace Pipe

open PipeService (GoesThrough)

variable {σ : Type} {svc : PipeService σ} {n : Negotiated} {s : PipeServer σ} {p : Pipe}
  {c : Pdu.Collector} {turns : ℕ} {answer : Pdu.Answer} {received waiting : Bytes}

theorem acceptPipeStatus_iff {status : NtStatus} :
    acceptPipeStatus status = .ok () ↔ status = .SUCCESS ∨ status = .BUFFER_OVERFLOW := by
  rw [acceptPipeStatus]
  split
  · next fine => exact iff_of_true rfl fine
  · next refused => exact iff_of_false (fun same => by cases same) refused

theorem meets_put {r : TreeRequest}
    {post : PipeServer σ → Except ClientError Reply → Prop}
    (encodes : ∃ body, r.encodeBody n = .ok body)
    (served : ∀ reply s', svc.Serves s r (.ok reply) s' → post s' (.ok reply)) :
    Meets svc.Serves s (r.put n : PipeVerb Reply) post := by
  obtain ⟨body, encoded⟩ := encodes
  rw [TreeRequest.put, encoded]
  refine meets_ask.mpr fun answer s' given => meets_ofExcept.mpr ?_
  obtain ⟨reply, rfl, -⟩ := id given
  exact served reply s' given

/-- The pipe but for how far it has been read and written. -/
def Continues (p p' : Pipe) : Prop := ∃ offset, p' = { p with offset }

theorem continues_refl (p : Pipe) : Continues p p := ⟨p.offset, rfl⟩

theorem Continues.fid {p p' : Pipe} (continues : Continues p p') : p'.fid = p.fid := by
  obtain ⟨offset, rfl⟩ := continues
  rfl

theorem Continues.trans {p p' p'' : Pipe} (first : Continues p p') (later : Continues p' p'') :
    Continues p p'' := by
  obtain ⟨offset, rfl⟩ := first
  obtain ⟨offset', rfl⟩ := later
  exact ⟨offset', rfl⟩

theorem fill_of_complete (complete : c.complete = true) (enough : 1 ≤ turns) :
    fill n turns p c = pure (p, c) := by
  obtain ⟨turns, rfl⟩ := Nat.exists_eq_add_of_le' enough
  rw [fill_succ, if_pos complete]

/-- What waits is read, in however many reads it takes. -/
theorem meets_fill (held : s.pipe = some ⟨p.fid, received, waiting⟩)
    (awaits : c.Awaits waiting answer) (enough : waiting.length < turns) :
    Meets svc.Serves s (fill n turns p c) (Returns fun out s' => out.2.finish = .ok answer ∧
      Continues p out.1 ∧ s' = ⟨some ⟨p.fid, received, []⟩, s.service⟩) := by
  induction turns generalizing s p c waiting with
  | zero => omega
  | succ turns ih =>
      rw [fill_succ, awaits.running, if_neg Bool.false_ne_true, meets_bind]
      apply meets_put ⟨_, rfl⟩
      rintro reply s' ⟨_, ⟨⟩, reads⟩
      cases reads with
      | amiss amiss => exact absurd (amiss _ _ held) awaits.ne_nil
      | @brings _ chunk rest response held' filled room status decoded data becomes =>
          obtain ⟨-, rfl, rfl⟩ := PipeEnd.mk.inj (Option.some.inj (held.symm.trans held'))
          subst becomes
          obtain ⟨c', fed, next⟩ := awaits.feed
          have took : p.taken c reply = .ok (some
              ({ p with offset := p.offset + UInt64.ofNat chunk.length }, c')) := by
            rw [taken, acceptPipeStatus_iff.mpr status, decoded]
            simp only [Bind.bind, Except.bind, Except.mapError, data]
            rw [if_neg filled, fed]
            rfl
          dsimp only
          rw [took]
          dsimp only
          have shorter : rest.length < turns := by
            have brought := List.length_pos_of_ne_nil filled
            rw [List.length_append] at enough
            omega
          rcases next with ⟨rfl, complete, finishes⟩ | awaits'
          · rw [fill_of_complete complete (by omega)]
            exact meets_pure.mpr ⟨_, rfl, finishes, ⟨_, rfl⟩, rfl⟩
          · apply (ih (s := ⟨some ⟨p.fid, _, rest⟩, s.service⟩)
              (p := { p with offset := p.offset + UInt64.ofNat chunk.length }) rfl awaits'
              shorter).mono
            rintro s'' result ⟨out, rfl, finishes, continues, becomes⟩
            exact ⟨out, rfl, finishes, Continues.trans ⟨_, rfl⟩ continues, becomes⟩

/-- What a PDU comes to when it is served. -/
def Replied (svc : PipeService σ) (service : σ) (fid : UInt16) (request : Bytes)
    (s' : PipeServer σ) : Prop :=
  ∃ stream service', svc.replies service request stream service' ∧
    s' = ⟨some ⟨fid, [], stream⟩, service'⟩

/-- A PDU is written, in however many writes it takes. -/
theorem meets_writeAll {request left : Bytes} (admitted : n.Admitted)
    (held : s.pipe = some ⟨p.fid, received, []⟩) (parts : request = received ++ left)
    (more : left ≠ []) (whole : Pdu.next request = .ok (some (request, [])))
    (enough : left.length < turns) :
    Meets svc.Serves s (writeAll n turns p left) (Returns fun p' s' =>
      Continues p p' ∧ Replied svc s.service p.fid request s') := by
  induction turns generalizing s p received left with
  | zero => omega
  | succ turns ih =>
      rw [writeAll_succ, if_neg more, meets_bind]
      apply meets_put ⟨_, rfl⟩
      rintro reply s' ⟨_, ⟨⟩, takes⟩
      have offered : (writeRequest n p left).data = left.take (transferSize n).toNat := rfl
      have length := List.length_take (i := (transferSize n).toNat) (l := left)
      have positive := transferSize_pos admitted
      have some' := List.length_pos_of_ne_nil more
      -- what a write acknowledges of what it offered is the front of what is left
      have front : ∀ {response : WriteAndxResponse},
          (response.count.toNat ≤ (writeRequest n p left).data.length) →
            (writeRequest n p left).data.take response.count.toNat =
              left.take response.count.toNat := by
        intro response within
        rw [offered] at within ⊢
        rw [List.take_take, Nat.min_eq_left (by omega)]
      have progress : ∀ {response : WriteAndxResponse}, GoesThrough reply →
          WriteAndxResponse.decode reply.message = .ok response →
            (1 ≤ response.count.toNat ∧
              response.count.toNat ≤ (writeRequest n p left).data.length) →
              progressed (writeRequest n p left).data reply = .ok response.count.toNat := by
        intro response status decoded count
        have counted : response.count ≠ 0 := fun zero => by
          rw [zero] at count
          exact absurd count.1 (by decide)
        rw [progressed, acceptPipeStatus_iff.mpr status, decoded]
        simp only [Bind.bind, Except.bind, Except.mapError]
        rw [if_neg counted, Nat.min_eq_left count.2]
        rfl
      cases takes with
      | amiss amiss =>
          rcases amiss with none | other
          · rw [offered] at none
            have empty := congrArg List.length none
            rw [length, List.length_nil] at empty
            omega
          · exact absurd held (other received)
      | @part received' response held' status decoded count short becomes =>
          obtain ⟨-, rfl, -⟩ := PipeEnd.mk.inj (Option.some.inj (held.symm.trans held'))
          subst becomes
          rw [front count.2] at short
          dsimp only
          rw [progress status decoded count]
          dsimp only
          have parts' : request = (received ++ left.take response.count.toNat) ++
              left.drop response.count.toNat := by
            rw [List.append_assoc, List.take_append_drop, parts]
          have more' : left.drop response.count.toNat ≠ [] := by
            intro none
            rw [none, List.append_nil] at parts'
            rw [parts', short] at whole
            cases whole
          have shorter : (left.drop response.count.toNat).length < turns := by
            rw [List.length_drop]
            omega
          rw [front count.2]
          apply (ih (s := ⟨some ⟨p.fid, received ++ left.take response.count.toNat, []⟩, s.service⟩)
            (p := { p with offset := p.offset + UInt64.ofNat response.count.toNat })
            rfl parts' more' shorter).mono
          rintro s'' result ⟨p', rfl, continues, replied⟩
          exact ⟨p', rfl, Continues.trans ⟨_, rfl⟩ continues, replied⟩
      | @whole received' stream response service held' status decoded count whole' replies
          becomes =>
          obtain ⟨-, rfl, -⟩ := PipeEnd.mk.inj (Option.some.inj (held.symm.trans held'))
          subst becomes
          rw [front count.2] at whole' replies
          dsimp only
          rw [progress status decoded count]
          dsimp only
          have parts' : request = (received ++ left.take response.count.toNat) ++
              left.drop response.count.toNat := by
            rw [List.append_assoc, List.take_append_drop, parts]
          have same := (Pdu.next_append (left.drop response.count.toNat) whole').symm.trans
            (parts' ▸ whole)
          simp only [Except.ok.injEq, Option.some.injEq, Prod.mk.injEq, List.nil_append] at same
          rw [same.2]
          rw [same.2, List.append_nil] at parts'
          obtain ⟨turns, rfl⟩ := Nat.exists_eq_add_of_le' (show 1 ≤ turns by omega)
          rw [writeAll_succ, if_pos rfl]
          refine meets_pure.mpr ⟨_, rfl, ⟨_, rfl⟩, stream, service, ?_, rfl⟩
          rw [parts']
          exact replies

/-! ## Calls -/

/-- The server stands ready for a call on the pipe. -/
def AtRest (s : PipeServer σ) (p : Pipe) : Prop := s.pipe = some ⟨p.fid, [], []⟩

/-- What a call comes to: an answer this good, on a pipe that stands ready again. -/
def Called (svc : PipeService σ) (good : Pdu.Answer → σ → Prop) (s' : PipeServer σ)
    (out : Pipe × Except ClientError Pdu.Answer) : Prop :=
  ∃ answer, out.2 = .ok answer ∧ good answer s'.service ∧ AtRest s' out.1 ∧
    (out.1.transact = true → svc.transacts = true)

/-- Every answer the server may have for a PDU is one that a collector takes, and this good. -/
def Answerable (svc : PipeService σ) (service : σ) (callId : UInt32) (request : Bytes)
    (turns : ℕ) (good : Pdu.Answer → σ → Prop) : Prop :=
  ∀ stream service', svc.replies service request stream service' →
    ∃ answer, (Pdu.Collector.new callId).Awaits stream answer ∧ stream.length < turns ∧
      good answer service'

variable {request : Bytes} {callId : UInt32} {good : Pdu.Answer → σ → Prop}

theorem meets_secondAttempt (admitted : n.Admitted) (stands : AtRest s p)
    (carries : p.transact = true → svc.transacts = true)
    (whole : Pdu.next request = .ok (some (request, []))) (some' : request ≠ [])
    (enough : request.length < turns)
    (answerable : Answerable svc s.service callId request turns good) :
    Meets svc.Serves s (secondAttempt n turns p request callId)
      (Returns fun out s' => Called svc good s' out) := by
  rw [secondAttempt, meets_bind, meets_attempt, writeReadCall, meets_bind]
  have parts : request = [] ++ request := rfl
  apply (meets_writeAll admitted stands parts some' whole enough).mono
  rintro s₁ result ⟨p', rfl, continues, stream, service, replies, rfl⟩
  obtain ⟨answer, awaits, short, fine⟩ := answerable stream service replies
  dsimp only
  apply (meets_fill (p := p') (by rw [continues.fid]) awaits short).mono
  rintro s₂ result ⟨⟨p'', c'⟩, rfl, finishes, continues', rfl⟩
  dsimp only at finishes continues' ⊢
  rw [finishes]
  obtain ⟨offset, rfl⟩ := continues.trans continues'
  refine meets_pure.mpr ⟨_, rfl, answer, rfl, fine, ?_, carries⟩
  rw [AtRest, continues.fid]

theorem meets_transactCall (stands : AtRest s p) (carries : svc.transacts = true)
    (encodes : ∃ body, (TreeRequest.pipeTransact p.fid request).encodeBody n = .ok body)
    (answerable : Answerable svc s.service callId request turns good) :
    Meets svc.Serves s (transactCall n turns p request (.new callId))
      (Returns fun out s' => ∃ answer, out.2.finish = .ok answer ∧ good answer s'.service ∧
        Continues p out.1 ∧ AtRest s' p) := by
  rw [transactCall, meets_bind]
  apply meets_put encodes
  rintro reply s' ⟨_, ⟨⟩, transacts⟩
  cases transacts with
  | refused refuses => cases carries.symm.trans refuses
  | amiss _ amiss => exact absurd stands amiss
  | @answered front rest body service _ held replies status transaction brings becomes =>
      subst becomes
      obtain ⟨answer, awaits, short, fine⟩ := answerable _ _ replies
      obtain ⟨c', fed, next⟩ := awaits.feed
      have shorter : rest.length < turns := by
        rw [List.length_append] at short
        omega
      dsimp only
      rw [meets_bind, meets_ofExcept, acceptPipeStatus_iff.mpr status]
      dsimp only
      rw [transaction]
      dsimp only
      rw [meets_bind, meets_ofExcept, brings, fed]
      simp only [Except.mapError]
      rcases next with ⟨rfl, complete, finishes⟩ | awaits'
      · rw [fill_of_complete complete (by omega)]
        exact meets_pure.mpr ⟨_, rfl, answer, finishes, fine, continues_refl p, rfl⟩
      · apply (meets_fill (p := p) rfl awaits' shorter).mono
        rintro s'' result ⟨out, rfl, finishes, continues, rfl⟩
        exact ⟨out, rfl, answer, finishes, fine, continues, rfl⟩

theorem raises_transactCall (carries : svc.transacts = false)
    (encodes : ∃ body, (TreeRequest.pipeTransact p.fid request).encodeBody n = .ok body) :
    Meets svc.Serves s (transactCall n turns p request (.new callId))
      (Raises fun _ s' => s' = s) := by
  rw [transactCall, meets_bind]
  apply meets_put encodes
  rintro reply s' ⟨_, ⟨⟩, transacts⟩
  cases transacts with
  | answered carries' => cases carries.symm.trans carries'
  | amiss carries' => cases carries.symm.trans carries'
  | refused _ status still =>
      subst still
      dsimp only
      have refused : acceptPipeStatus reply.status = .error (.refused reply.status) := if_neg status
      rw [meets_bind, meets_ofExcept, refused]
      exact ⟨_, rfl, rfl⟩

theorem meets_release (stands : AtRest s p) :
    Meets svc.Serves s (release n p.fid)
      (Returns fun _ s' => s' = ⟨none, s.service⟩) := by
  rw [release, meets_bind, meets_attempt]
  apply meets_put ⟨_, rfl⟩
  rintro reply s' ⟨_, ⟨⟩, closes⟩
  refine meets_pure.mpr ⟨(), rfl, ?_⟩
  cases closes with
  | closed _ _ becomes => exact becomes
  | unknown unknown => exact absurd rfl (unknown _ stands)

theorem meets_openFid {name : Text} (closed : s.pipe = none) :
    Meets svc.Serves s (openFid n name)
      (Returns fun fid s' => s' = ⟨some ⟨fid, [], []⟩, svc.fresh s.service⟩) := by
  rw [openFid, TreeRequest.checked, meets_bind, meets_bind]
  apply meets_put ⟨_, rfl⟩
  rintro reply s' ⟨_, ⟨⟩, opens⟩
  cases opens with
  | again held =>
      rw [closed] at held
      cases held
  | granted _ success decoded becomes =>
      dsimp only
      rw [if_neg (not_not.mpr success)]
      refine meets_pure.mpr ?_
      dsimp only
      rw [meets_bind, meets_ofExcept, decoded]
      exact meets_pure.mpr ⟨_, rfl, becomes⟩

/-- **A call comes to the server's answer**, by a transaction or by writes and reads. Where the
server carries no transactions, the first call comes to it on a pipe that is opened again. -/
theorem meets_call (admitted : n.Admitted) (stands : AtRest s p)
    (mode : p.transact = true → svc.transacts = false → svc.fresh s.service = s.service)
    (encodes : ∀ fid, ∃ body, (TreeRequest.pipeTransact fid request).encodeBody n = .ok body)
    (whole : Pdu.next request = .ok (some (request, []))) (some' : request ≠ [])
    (enough : request.length < turns)
    (answerable : Answerable svc s.service callId request turns good) :
    Meets svc.Serves s (p.call n turns request callId)
      (Returns fun out s' => Called svc good s' out) := by
  rw [call, meets_note_bind]
  dsimp only
  cases transact : p.transact with
  | false =>
      rw [if_neg Bool.false_ne_true]
      apply meets_secondAttempt admitted stands _ whole some' enough answerable
      rw [transact]
      exact fun other => absurd other Bool.false_ne_true
  | true =>
      rw [if_pos rfl, meets_bind, meets_attempt]
      cases carries : svc.transacts with
      | true =>
          apply (meets_transactCall stands carries (encodes _) answerable).mono
          rintro s' result ⟨⟨p', c'⟩, rfl, answer, finishes, fine, continues, stands'⟩
          dsimp only at finishes ⊢
          rw [finishes]
          refine meets_pure.mpr ⟨_, rfl, answer, rfl, fine, ?_, fun _ => carries⟩
          rw [AtRest, continues.fid]
          exact stands'
      | false =>
          apply (raises_transactCall carries (encodes _)).mono
          rintro s' result ⟨error, rfl, rfl⟩
          dsimp only
          rw [meets_bind, meets_attempt, reopen]
          apply (meets_release (p := { p with transact := false, transactFailure := some error })
            stands).bind
          rintro _ s₁ rfl
          apply (meets_openFid rfl).bind
          rintro fid s₂ rfl
          refine meets_pure.mpr ?_
          dsimp only
          rw [mode transact carries]
          exact meets_secondAttempt (s := ⟨some ⟨fid, [], []⟩, s'.service⟩) admitted rfl
            (fun other => absurd other Bool.false_ne_true) whole some' enough answerable

end Pipe

end Smb1Client
