import Smb1Client.Rpc.PipeServer
import Smb1Client.Wire.TransactionRead

/-!
A server that enumerates its shares over `srvsvc`, and what `list_shares` makes of it.

The server marshals its shares in rounds of its choice, each behind the resume handle of the
one before. What a caller is given is the server's shares, however they were divided.
-/

namespace Smb1Client

open Dialogue

/-- A server's side of an enumeration: whether the interface is bound on the pipe, and the
shares that are still to be listed, behind which handle and after how many rounds. -/
structure ShareDesk where
  bound : Bool
  left : List Srvsvc.ShareInfo1
  handle : UInt32
  round : ℕ

/-- What a server of shares replies to a PDU. -/
inductive ShareReplies (name : Text) (desk : ShareDesk) (pdu : Bytes) :
    Bytes → ShareDesk → Prop
  | accepts {body : Bytes} (asked : pdu = Ipc.bindPdu)
      (accepted : Pdu.bindAck ⟨Pdu.BIND_ACK, body⟩ = .ok ())
      (short : Pdu.HEADER_LEN + body.length < 2 ^ 16) :
      ShareReplies name desk pdu (Pdu.pdu Pdu.BIND_ACK 0 body) { desk with bound := true }
  | lists {call : UInt32} {reply : Srvsvc.Reply} {rest : List Srvsvc.ShareInfo1}
      {fragments : List Pdu.Fragment} (bound : desk.bound = true)
      (asked : pdu = Ipc.enumPdu name call desk.handle) (listed : desk.left = reply.infos ++ rest)
      (more : reply.more = true ↔ rest ≠ []) (some : reply.more = true → reply.infos ≠ [])
      (few : reply.more = true → desk.round + 1 < MAX_ROUNDS) (countable : reply.Countable)
      (divides : Pdu.Divides fragments reply.stub) (fits : reply.stub.length ≤ Pdu.STUB_CAP)
      (pdus : fragments.length ≤ Pdu.PDU_CAP) :
      ShareReplies name desk pdu (Pdu.encodeAll call fragments)
        { desk with left := rest, handle := reply.resume, round := desk.round + 1 }

/-- A server of shares, by transactions or not. A pipe that is opened is not bound. -/
def shareService (name : Text) (transacts : Bool) : PipeService ShareDesk where
  transacts
  replies := ShareReplies name
  fresh desk := { desk with bound := false }

/-! ## The PDUs of an enumeration -/

namespace Ipc

variable {name : Text} {call call' resume resume' : UInt32}

theorem length_request (name : Text) (resume : UInt32) :
    (Srvsvc.request name resume).length = (Srvsvc.request name 0).length := by
  simp only [Srvsvc.request, List.foldl_cons, List.foldl_nil, Ndr.length_putU32]

theorem length_enumPdu (name : Text) (call resume : UInt32) :
    (enumPdu name call resume).length = (enumPdu name 0 0).length := by
  have stub := length_request name resume
  simp only [enumPdu, Pdu.request, Pdu.length_pdu, List.length_append,
    LittleEndian.length_u32le, LittleEndian.length_u16le, stub]

/-- The request of a round fits a message and a PDU. -/
def Fits (n : Negotiated) (name : Text) : Prop :=
  (enumPdu name 0 0).length + 84 ≤ min n.maxBufferSize.toNat 65535

instance (n : Negotiated) (name : Text) : Decidable (Fits n name) :=
  inferInstanceAs (Decidable (_ ≤ _))

theorem Fits.whole {n : Negotiated} (fits : Fits n name) (call resume : UInt32) :
    Pdu.next (enumPdu name call resume) = .ok (some (enumPdu name call resume, [])) := by
  have length := length_enumPdu name call resume
  have short := fits.trans (Nat.min_le_right _ _)
  have apart := Pdu.length_pdu Pdu.REQUEST call (LittleEndian.u32le
    (UInt32.ofNat (Srvsvc.request name resume).length) ++
      LittleEndian.u16le Pdu.INTERFACE_CONTEXT ++
      LittleEndian.u16le Srvsvc.OPNUM ++ Srvsvc.request name resume)
  apply Pdu.next_pdu
  change (enumPdu name call resume).length = _ at apart
  omega

theorem ne_nil_of_whole {pdu : Bytes} (whole : Pdu.next pdu = .ok (some (pdu, []))) : pdu ≠ [] := by
  rintro rfl
  cases whole

/-- The call and the handle are read off a round's request. -/
theorem enumPdu_inj (same : enumPdu name call resume = enumPdu name call' resume') :
    call = call' ∧ resume = resume' := by
  have ends : ∀ call resume, ∃ front,
      enumPdu name call resume = front ++ LittleEndian.u32le resume := by
    intro call resume
    simp only [enumPdu, Pdu.request, Pdu.pdu, Srvsvc.request, List.foldl_cons, List.foldl_nil]
    rw [Ndr.putU32, ← List.append_assoc, ← List.append_assoc]
    exact ⟨_, rfl⟩
  constructor
  · have parsed := congrArg Pdu.Header.parse same
    rw [enumPdu, enumPdu, Pdu.request, Pdu.request, Pdu.parse_pdu, Pdu.parse_pdu] at parsed
    exact congrArg Pdu.Header.callId (Except.ok.inj parsed)
  · obtain ⟨front, first⟩ := ends call resume
    obtain ⟨front', second⟩ := ends call' resume'
    rw [first, second] at same
    have last := (List.append_inj' same (by simp only [LittleEndian.length_u32le])).2
    have value := congrArg LittleEndian.decode last
    rw [LittleEndian.decode_u32le, LittleEndian.decode_u32le] at value
    exact UInt32.toNat_inj.mp value

theorem bindPdu_ne_enumPdu : bindPdu ≠ enumPdu name call resume := by
  intro same
  have parsed := congrArg Pdu.Header.parse same
  rw [bindPdu, enumPdu, Pdu.bind, Pdu.request, Pdu.parse_pdu, Pdu.parse_pdu] at parsed
  have types := congrArg Pdu.Header.ptype (Except.ok.inj parsed)
  exact absurd types (by decide : Pdu.BIND ≠ Pdu.REQUEST)

theorem encodes_pipeTransact {n : Negotiated} {data : Bytes}
    (short : data.length + 84 ≤ n.maxBufferSize.toNat) (fid : UInt16) :
    ∃ body, (TreeRequest.pipeTransact fid data).encodeBody n = .ok body := by
  have built := TransactionRequest.Built.pipeTransact fid data
  have offset := TransactionRequest.dataOffset_le (.pipeTransact fid data)
  have start : (TransactionRequest.pipeTransact fid data).areaStart = 67 := rfl
  have named : (TransactionRequest.pipeTransact fid data).nameBytes.length = 15 := by
    change (0 :: utf16z PIPE_TRANSACT_NAME).length = 15
    decide
  have none : (TransactionRequest.pipeTransact fid data).parameters.length = 0 := rfl
  have block : (TransactionRequest.pipeTransact fid data).data.length = data.length := rfl
  rw [TreeRequest.encodeBody, transactionBody, built.checkLimits (by omega), built.encodeBody]
  exact ⟨_, rfl⟩

/-! ## Enumerations -/

open Pipe (AtRest Answerable)

variable {n : Negotiated} {turns : ℕ} {transacts : Bool} {desk : ShareDesk}
  {s : PipeServer ShareDesk} {p : Pipe}

theorem length_encodeAll {fragments : List Pdu.Fragment} (valid : ∀ f ∈ fragments, f.Valid)
    (call : UInt32) : (Pdu.encodeAll call fragments).length ≤ 65535 * fragments.length := by
  induction fragments with
  | nil => exact Nat.zero_le _
  | cons f fragments ih =>
      have here := valid f List.mem_cons_self
      have fits := here.fits
      have length := here.length_encode call
      have later := ih fun f member => valid f (List.mem_cons_of_mem _ member)
      change (f.encode call ++ Pdu.encodeAll call fragments).length ≤ _
      rw [List.length_append, List.length_cons, length]
      omega

theorem response_of_stub {reply : Srvsvc.Reply} (countable : reply.Countable) :
    Srvsvc.response reply.stub = .ok reply.page := by
  have read := (Srvsvc.Reply.exhausts_readPage countable).reads (rfl : Ndr.aligned 0 = _)
    (List.prefix_refl reply.stub)
  rw [Srvsvc.response, read]
  rfl

/-- A bind is accepted. -/
theorem answerable_bind (enough : Pipe.MAX_READS < turns) :
    Answerable (shareService name transacts) desk 0 bindPdu turns fun answer desk' =>
      Pdu.bindAck answer = .ok () ∧ desk' = { desk with bound := true } := by
  intro stream desk' replies
  cases replies with
  | lists _ asked => exact absurd asked bindPdu_ne_enumPdu
  | @accepts body _ accepted short =>
      refine ⟨_, Pdu.Collector.awaits_pdu 0 short, ?_, accepted, rfl⟩
      rw [Pdu.length_pdu]
      have many : 2 ^ 16 ≤ Pipe.MAX_READS := by decide
      omega

/-- What a round's answer lists of the shares that were left. -/
def Listed (desk : ShareDesk) (answer : Pdu.Answer) (desk' : ShareDesk) : Prop :=
  ∃ (reply : Srvsvc.Reply) (rest : List Srvsvc.ShareInfo1),
    answer = ⟨Pdu.RESPONSE, reply.stub⟩ ∧ reply.Countable ∧ desk.left = reply.infos ++ rest ∧
      (reply.more = true ↔ rest ≠ []) ∧ (reply.more = true → reply.infos ≠ []) ∧
      (reply.more = true → desk.round + 1 < MAX_ROUNDS) ∧
      desk' = { desk with left := rest, handle := reply.resume, round := desk.round + 1 }

theorem answerable_enum (enough : Pipe.MAX_READS < turns) :
    Answerable (shareService name transacts) desk call (enumPdu name call desk.handle) turns
      (Listed desk) := by
  intro stream desk' replies
  cases replies with
  | accepts asked => exact absurd asked.symm bindPdu_ne_enumPdu
  | @lists call' reply rest fragments bound asked listed more some few countable divides fits
      pdus =>
      obtain ⟨rfl, -⟩ := enumPdu_inj asked
      refine ⟨_, Pdu.Collector.awaits_fragments call divides fits pdus, ?_, reply, rest, rfl,
        countable, listed, more, some, few, rfl⟩
      have length := length_encodeAll divides.valid call
      have cap := Nat.mul_le_mul_left 65535 pdus
      have reads : 65535 * Pdu.PDU_CAP < Pipe.MAX_READS := by decide
      omega

/-- The rounds that are left bring the shares that are left. -/
theorem meets_rounds {k : ℕ} {shares : List Share} (admitted : n.Admitted) (fits : Fits n name)
    (enough : Pipe.MAX_READS < turns) (stands : AtRest s p)
    (carries : p.transact = true → transacts = true)
    (left : k + s.service.round = MAX_ROUNDS) (more : 1 ≤ k) :
    Meets (shareService name transacts).Serves s (rounds n turns name k p s.service.handle shares)
      (Returns fun out s' =>
        out.2 = .ok (shares ++ s.service.left.map Srvsvc.ShareInfo1.share) ∧ AtRest s' out.1) := by
  induction k generalizing s p shares with
  | zero => omega
  | succ k ih =>
      have length := length_enumPdu name (UInt32.ofNat (MAX_ROUNDS - (k + 1)) + 1) s.service.handle
      have room := fits.trans (Nat.min_le_left _ _)
      have short := fits.trans (Nat.min_le_right _ _)
      have reads : 65535 ≤ Pipe.MAX_READS := by decide
      rw [rounds]
      dsimp only
      have whole := fits.whole (UInt32.ofNat (MAX_ROUNDS - (k + 1)) + 1) s.service.handle
      apply (Pipe.meets_call admitted stands (fun on off => by cases (carries on).symm.trans off)
        (encodes_pipeTransact (by omega)) whole (ne_nil_of_whole whole) (by omega)
        (answerable_enum enough)).bind
      rintro ⟨p', answer⟩ s' ⟨_, rfl, listed, stands', carries'⟩
      obtain ⟨reply, rest, rfl, countable, listed, ends, filled, few, becomes⟩ := listed
      have page : Srvsvc.response reply.stub = .ok reply.page := response_of_stub countable
      have stub : Pdu.response ⟨Pdu.RESPONSE, reply.stub⟩ = .ok reply.stub := rfl
      simp only [Bind.bind, Except.bind, Except.mapError, stub, page]
      cases goes : reply.more with
      | false =>
          have none : rest = [] := by
            by_contra some'
            cases goes.symm.trans (ends.mpr some')
          rw [if_pos (show reply.page.more = false from goes)]
          refine meets_pure.mpr ⟨_, rfl, ?_, stands'⟩
          rw [listed, none, List.append_nil]
          rfl
      | true =>
          rw [if_neg (show ¬ reply.page.more = false by
              rw [show reply.page.more = true from goes]; decide),
            if_neg (show ¬ reply.page.shares = [] from
              fun none => filled goes (List.map_eq_nil_iff.mp none))]
          have later := few goes
          have handle : s'.service.handle = reply.page.resume := by
            rw [becomes]
            rfl
          have round : s'.service.round = s.service.round + 1 := by rw [becomes]
          rw [← handle]
          apply (ih (s := s') stands' carries' (by omega) (by omega)).mono
          rintro s'' result ⟨out, rfl, came, stands''⟩
          refine ⟨out, rfl, ?_, stands''⟩
          rw [came, becomes, listed, List.map_append, List.append_assoc]
          rfl

/-- The pipe of an enumeration, as it is opened. -/
def opening (fid : UInt16) : Pipe where
  fid
  offset := 0
  transact := true
  transactFailure := none
  name := SRVSVC_PIPE

theorem meets_enumerate {fid : UInt16} {infos : List Srvsvc.ShareInfo1} (admitted : n.Admitted)
    (fits : Fits n name) (enough : Pipe.MAX_READS < turns) :
    Meets (shareService name transacts).Serves ⟨some ⟨fid, [], []⟩, ⟨false, infos, 0, 0⟩⟩
      (enumerate n turns name (opening fid))
      (Returns fun out s' =>
        out.2 = .ok (infos.map Srvsvc.ShareInfo1.share) ∧ AtRest s' out.1) := by
  have whole : Pdu.next bindPdu = .ok (some (bindPdu, [])) := Pdu.next_pdu (by decide)
  have length : bindPdu.length = 116 := by decide
  have buffer : MIN_BUFFER_SIZE ≤ n.maxBufferSize.toNat := admitted
  have least : 200 ≤ MIN_BUFFER_SIZE := by decide
  have reads : 116 ≤ Pipe.MAX_READS := by decide
  rw [enumerate]
  apply (Pipe.meets_call (s := ⟨some ⟨fid, [], []⟩, ⟨false, infos, 0, 0⟩⟩) (p := opening fid)
    admitted rfl (fun _ _ => rfl) (encodes_pipeTransact (by omega)) whole (ne_nil_of_whole whole)
      (by omega)
    (answerable_bind enough)).bind
  rintro ⟨p, answer⟩ s' ⟨answer', rfl, ⟨accepted, becomes⟩, stands, carries⟩
  simp only [Bind.bind, Except.bind, accepted, Except.mapError]
  change Meets _ _ (Dialogue.note _ >>= _) _
  rw [meets_note_bind]
  have start : s'.service.handle = 0 := by rw [becomes]
  have least' : 1 ≤ MAX_ROUNDS := by decide
  rw [← start]
  apply (meets_rounds admitted fits enough stands carries (by rw [becomes]; rfl) least').mono
  rintro s'' result ⟨out, rfl, came, stands'⟩
  refine ⟨out, rfl, ?_, stands'⟩
  rw [came, becomes]
  rfl

theorem meets_overSrvsvc {infos : List Srvsvc.ShareInfo1} (admitted : n.Admitted)
    (fits : Fits n name) (enough : Pipe.MAX_READS < turns) :
    Meets (shareService name transacts).Serves ⟨none, ⟨false, infos, 0, 0⟩⟩
      (overSrvsvc n turns name)
      (Returns fun shares s' => shares = infos.map Srvsvc.ShareInfo1.share ∧ s'.pipe = none) := by
  rw [overSrvsvc]
  apply (Pipe.meets_openFid rfl).bind
  rintro fid s₁ rfl
  apply (meets_enumerate admitted fits enough).bind
  rintro ⟨p, result⟩ s₂ ⟨came, stands⟩
  dsimp only at came ⊢
  apply (Pipe.meets_release stands).bind
  rintro _ s₃ rfl
  rw [came]
  exact meets_pure.mpr ⟨_, rfl, rfl, rfl⟩

/-- A server that refuses RAP is no reason to stop. -/
theorem raises_overRap {svc : PipeService ShareDesk} (admitted : n.Admitted) :
    Meets svc.Serves s (overRap n)
      (Raises fun error s' => isFatal error = false ∧ s' = s) := by
  have encodes : ∃ body, (TreeRequest.rap (Rap.request MAX_DATA_COUNT) []).encodeBody n =
      .ok body := by
    have built := TransactionRequest.Built.rap (Rap.request MAX_DATA_COUNT) []
    have offset := TransactionRequest.dataOffset_le (.rap (Rap.request MAX_DATA_COUNT) [])
    have start : (TransactionRequest.rap (Rap.request MAX_DATA_COUNT) []).areaStart = 63 := rfl
    have named : (TransactionRequest.rap (Rap.request MAX_DATA_COUNT) []).nameBytes.length =
        27 := by
      change (0 :: utf16z PIPE_LANMAN).length = 27
      decide
    have block : (TransactionRequest.rap (Rap.request MAX_DATA_COUNT) []).parameters.length =
        (Rap.request MAX_DATA_COUNT).length := rfl
    have short : (Rap.request MAX_DATA_COUNT).length ≤ 100 := by decide
    have none : (TransactionRequest.rap (Rap.request MAX_DATA_COUNT) []).data.length = 0 := rfl
    have buffer : MIN_BUFFER_SIZE ≤ n.maxBufferSize.toNat := admitted
    have least : 200 ≤ MIN_BUFFER_SIZE := by decide
    rw [TreeRequest.encodeBody, transactionBody, built.checkLimits (by omega), built.encodeBody]
    exact ⟨_, rfl⟩
  rw [overRap, TreeRequest.checked, meets_bind, meets_bind]
  apply Pipe.meets_put encodes
  rintro reply s' ⟨_, ⟨⟩, refused, going, still⟩
  dsimp only
  rw [if_pos refused]
  exact meets_failed.mpr ⟨_, rfl, going, still⟩

theorem meets_listShares {infos : List Srvsvc.ShareInfo1} (admitted : n.Admitted)
    (fits : Fits n name) (enough : Pipe.MAX_READS < turns) :
    Meets (shareService name transacts).Serves ⟨none, ⟨false, infos, 0, 0⟩⟩
      (listShares n turns name)
      (Returns fun shares s' => shares = infos.map Srvsvc.ShareInfo1.share ∧ s'.pipe = none) := by
  rw [listShares, meets_bind, meets_attempt]
  apply (raises_overRap admitted).mono
  rintro s₁ result ⟨error, rfl, going, rfl⟩
  dsimp only
  rw [going, if_neg Bool.false_ne_true, meets_bind, meets_attempt]
  apply (meets_overSrvsvc admitted fits enough).mono
  rintro s₂ result ⟨shares, rfl, came, closed⟩
  exact meets_pure.mpr ⟨_, rfl, came, closed⟩

/-- **The shares that are listed are the server's.** Whether a server takes transactions or
writes and reads, and however it divides its shares into rounds, a round's stub into fragments
and their bytes into what each read brings, the caller is given its shares in their order, and
no pipe is left open. -/
theorem listShares_lists {infos : List Srvsvc.ShareInfo1} {answers : List Answer}
    {s' : PipeServer ShareDesk} (admitted : n.Admitted) (fits : Fits n name)
    (enough : Pipe.MAX_READS < turns) :
    Served (shareService name transacts).Serves ⟨none, ⟨false, infos, 0, 0⟩⟩
      (listShares n turns name) answers s' →
    (∃ request, (listShares n turns name).asks answers = some request) ∨
      (listShares n turns name).outcome answers =
          some (.ok (infos.map Srvsvc.ShareInfo1.share)) ∧
        s'.pipe = none := by
  have meets := @meets_listShares name n turns transacts infos admitted fits enough
  -- what the program is does not matter from here on
  generalize listShares n turns name = program at meets ⊢
  intro served
  rcases meets.served served with asks | ⟨result, came, shares, rfl, rfl, closed⟩
  · exact Or.inl asks
  · exact Or.inr ⟨came, closed⟩

/-- A share without a name. -/
def unnamedInfo : Srvsvc.ShareInfo1 := ⟨none, 0, none⟩

theorem referent_one : (1 : UInt32) ≠ 0 := by decide

theorem unnamedInfo_counted : [unnamedInfo].length ≤ (1 : UInt32).toNat := le_rfl

/-- A reply that lists it. -/
def unnamedReply : Srvsvc.Reply where
  infos := [unnamedInfo]
  container := ⟨1, referent_one⟩
  buffer := ⟨1, referent_one⟩
  maximum := 1
  total := 1
  handle := ⟨1, referent_one⟩
  resume := 0
  more := false
  conforms := unnamedInfo_counted
  covers := unnamedInfo_counted

/-- Its stub, in one fragment. -/
def unnamedFragments : List Pdu.Fragment := [⟨3, 0, .replicate 8 0, unnamedReply.stub⟩]

/-- What a bind is accepted with. -/
def acceptance : Bytes := .replicate 12 0 ++ [1, 0, 0, 0] ++ .replicate 4 0 ++ Pdu.NDR32

/-- What a server says that refuses RAP and has the one share. -/
def unnamedAnswers : List Answer :=
  [transacted .INVALID_PARAMETER [], pipeOpened 1,
    transacted .SUCCESS (Pdu.pdu Pdu.BIND_ACK 0 acceptance),
    transacted .SUCCESS (Pdu.encodeAll 1 unnamedFragments), transacted .SUCCESS []]

/-- A transaction that brings an answer whole. -/
theorem transacts_whole {s : PipeServer ShareDesk} {fid : UInt16} {pdu stream : Bytes}
    {desk : ShareDesk} (stands : s.pipe = some ⟨fid, [], []⟩)
    (replies : ShareReplies name s.service pdu stream desk) :
    (shareService name true).Serves s (.pipeTransact fid pdu) (transacted .SUCCESS stream)
      ⟨some ⟨fid, [], []⟩, desk⟩ := by
  refine ⟨_, rfl, .answered rfl stands ?_ (Or.inl rfl) rfl rfl rfl⟩
  rw [List.append_nil]
  exact replies

theorem divides_unnamed : Pdu.Divides unnamedFragments unnamedReply.stub := by
  refine ⟨by decide +kernel, ?_, ⟨_, rfl, by decide⟩, ⟨_, rfl, by decide⟩, ?_⟩
  · intro f member
    rw [List.mem_singleton.mp member]
    exact ⟨rfl, by decide +kernel, by decide +kernel⟩
  · intro f member
    cases member

theorem listShares_lists_unnamed :
    (listShares ⟨50, 16644, 0⟩ (Pipe.MAX_READS + 1) ['s']).outcome unnamedAnswers =
      some (.ok [⟨[], ⟨.disk, false, false⟩, []⟩]) := by
  have ran : (listShares ⟨50, 16644, 0⟩ (Pipe.MAX_READS + 1) ['s']).run unnamedAnswers =
      some (.ok [⟨[], ⟨.disk, false, false⟩, []⟩], []) := by
    decide +kernel
  have exchanged : exchanges ((listShares ⟨50, 16644, 0⟩ (Pipe.MAX_READS + 1) ['s']).history
      unnamedAnswers) =
        [(.rap (Rap.request MAX_DATA_COUNT) [], transacted .INVALID_PARAMETER []),
          (.create (Pipe.createRequest SRVSVC_PIPE), pipeOpened 1),
          (.pipeTransact 1 bindPdu, transacted .SUCCESS (Pdu.pdu Pdu.BIND_ACK 0 acceptance)),
          (.pipeTransact 1 (enumPdu ['s'] 1 0),
            transacted .SUCCESS (Pdu.encodeAll 1 unnamedFragments)),
          (.close ⟨1, LEAVE_TIME_ALONE⟩, transacted .SUCCESS [])] := by
    decide +kernel
  have lists := @listShares_lists ['s'] ⟨50, 16644, 0⟩ (Pipe.MAX_READS + 1) true [unnamedInfo]
    unnamedAnswers ⟨none, ⟨true, [], 0, 1⟩⟩ (by decide) (by decide +kernel) (Nat.lt_succ_self _)
  generalize listShares ⟨50, 16644, 0⟩ (Pipe.MAX_READS + 1) ['s'] = program at lists ran exchanged ⊢
  have gives : Gives (shareService ['s'] true).Serves ⟨none, ⟨false, [unnamedInfo], 0, 0⟩⟩
      (exchanges (program.history unnamedAnswers)) ⟨none, ⟨true, [], 0, 1⟩⟩ := by
    have binds : ShareReplies ['s'] ⟨false, [unnamedInfo], 0, 0⟩ bindPdu _
        ⟨true, [unnamedInfo], 0, 0⟩ :=
      .accepts rfl (by decide +kernel : Pdu.bindAck ⟨Pdu.BIND_ACK, acceptance⟩ = .ok ()) (by decide)
    have lists : ShareReplies ['s'] ⟨true, [unnamedInfo], 0, 0⟩ (enumPdu ['s'] 1 0)
        (Pdu.encodeAll 1 unnamedFragments) ⟨true, [], 0, 1⟩ :=
      @ShareReplies.lists _ _ _ 1 unnamedReply [] _ rfl rfl rfl (by decide) (by decide) (by decide)
        (by decide) divides_unnamed (by decide +kernel) (by decide)
    rw [exchanged]
    exact ⟨_, ⟨_, rfl, by decide, by decide, rfl⟩, _, ⟨_, rfl, .granted rfl rfl rfl rfl⟩,
      _, transacts_whole rfl binds, _, transacts_whole rfl lists,
      _, ⟨_, rfl, .closed rfl rfl rfl⟩, rfl⟩
  rcases lists (served_of_run ran gives) with ⟨request, asks⟩ | ⟨ended, -⟩
  · cases (asks_of_run ran).symm.trans asks
  · exact ended

end Ipc

end Smb1Client
