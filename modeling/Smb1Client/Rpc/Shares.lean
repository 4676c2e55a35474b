import Smb1Client.Rpc.FallThrough

/-!
`Ipc::list_shares`: RAP first, and `srvsvc` where RAP does not answer.

A list that is returned is held against what the replies said of it. RAP's own counts decide
whether it is whole. Over `srvsvc` the `EntriesRead` and the `TotalEntries` of each round do. A
container may declare entries over a null buffer, and a reply may end the enumeration with more
entries in all than were read: nothing refuses either, and the list is short.
-/

namespace Smb1Client

open Dialogue LittleEndian

/-! ## Listing the shares -/

namespace Ipc

variable (n : Negotiated) (turns : ℕ) (server : Text)

/-- One `SMB_COM_TRANSACTION` on `\PIPE\LANMAN`. -/
def overRap : PipeVerb (List Share) := do
  let reply ← TreeRequest.checked n (.rap (Rap.request MAX_DATA_COUNT) [])
  match reply.transaction with
  | none => .failed (.ofWire (.noResponseBody Command.TRANSACTION reply.status))
  | some body =>
      .ofExcept ((Rap.response body.parameters body.data).mapError (.protocol ∘ .rap))

/-- Whether a failure of RAP is no refusal of it, and is returned as it is. -/
def isFatal : ClientError → Bool
  | .connectionLost _ => true
  | .treeDisconnected => true
  | _ => false

/-- `Ipc::list_shares`. -/
def listShares : PipeVerb (List Share) := do
  match ← (overRap n).attempt with
  | .ok shares => return shares
  | .error first =>
      if isFatal first then .failed first
      else
        match ← (overSrvsvc n turns server).attempt with
        | .ok shares => return shares
        | .error second => .failed (.bothAttemptsFailed "share enumeration" first second)

end Ipc

/-! ## What a reply declares -/

namespace Ndr

variable {ε α β : Type} {stub : Bytes} {start : ℕ}

theorem of_u32_ok {name : String} {value : UInt32} {next : ℕ}
    (ran : u32 name stub start = .ok (value, next)) :
    value = UInt32.ofNat (decode ((stub.drop (aligned start)).take 4)) ∧
      next = aligned start + 4 := by
  rw [u32, takeBytes] at ran
  split at ran
  · cases ran
    exact ⟨rfl, rfl⟩
  · cases ran

theorem length_of_mapM_cursor {f : α → Cursor ε β} {xs : List α} {ys : List β} {next : ℕ}
    (ran : xs.mapM f stub start = .ok (ys, next)) : ys.length = xs.length := by
  induction xs generalizing ys start next with
  | nil =>
      cases ran
      rfl
  | cons x xs ih =>
      rw [List.mapM_cons] at ran
      obtain ⟨y, _, -, ran⟩ := of_bind_ok ran
      obtain ⟨zs, _, later, ran⟩ := of_bind_ok ran
      cases ran
      rw [List.length_cons, List.length_cons, ih later]

end Ndr

namespace Srvsvc

variable {stub : Bytes} {start next : ℕ}

/-- A primitive of a stub's front, by its place there. -/
def primitive (stub : Bytes) (place : ℕ) : UInt32 :=
  UInt32.ofNat (decode ((stub.drop (4 * place)).take 4))

/-- What `EntriesRead` declares: nothing where there is no container. -/
def entriesRead (stub : Bytes) : UInt32 :=
  if primitive stub 2 = 0 then 0 else primitive stub 3

/-- A container that declares entries, over a null buffer. -/
def Withholds (stub : Bytes) : Prop :=
  primitive stub 2 ≠ 0 ∧ primitive stub 3 ≠ 0 ∧ primitive stub 4 = 0

instance : Decidable (Withholds stub) := inferInstanceAs (Decidable (_ ∧ _ ∧ _))

theorem of_field_ok {α : Type} {read : Ndr.Cursor NdrError α} {value : α}
    (ran : field read stub start = .ok (value, next)) : read stub start = .ok (value, next) := by
  rw [field] at ran
  cases came : read stub start with
  | error error =>
      rw [came] at ran
      cases ran
  | ok p =>
      rw [came] at ran
      exact congrArg _ (Except.ok.inj ran)

theorem of_isNullPointer_ok {name : String} {null : Bool}
    (ran : field (Ndr.isNullPointer name) stub start = .ok (null, next)) :
    (null = true ↔ UInt32.ofNat (decode ((stub.drop (Ndr.aligned start)).take 4)) = 0) ∧
      next = Ndr.aligned start + 4 := by
  obtain ⟨value, after, read, ran⟩ := Ndr.of_bind_ok (of_field_ok ran)
  obtain ⟨rfl, rfl⟩ := Ndr.of_u32_ok read
  cases ran
  exact ⟨decide_eq_true_iff, rfl⟩

theorem length_structures {entries : ℕ} {read : List (Bool × ShareKind × Bool)}
    (ran : structures entries stub start = .ok (read, next)) : read.length = entries := by
  induction entries generalizing read start next with
  | zero =>
      cases ran
      rfl
  | succ entries ih =>
      rw [structures] at ran
      obtain ⟨_, _, -, ran⟩ := Ndr.of_bind_ok ran
      obtain ⟨_, _, -, ran⟩ := Ndr.of_bind_ok ran
      obtain ⟨_, _, -, ran⟩ := Ndr.of_bind_ok ran
      obtain ⟨rest, _, later, ran⟩ := Ndr.of_bind_ok ran
      cases ran
      rw [List.length_cons, ih later]

theorem length_shareInfo1Array {entries : UInt32} {shares : List Share}
    (ran : shareInfo1Array entries stub start = .ok (shares, next)) :
    shares.length = entries.toNat := by
  rw [shareInfo1Array] at ran
  obtain ⟨maximum, _, -, ran⟩ := Ndr.of_bind_ok ran
  split at ran
  · obtain ⟨_, _, refused, -⟩ := Ndr.of_bind_ok ran
    cases refused
  · obtain ⟨read, _, structured, ran⟩ := Ndr.of_bind_ok ran
    rw [Ndr.length_of_mapM_cursor ran, length_structures structured]

/-- What the container brings: the shares it declares, and none where its buffer is null. -/
theorem length_container {entries : UInt32} {shares : List Share}
    (ran : container stub 8 = .ok ((entries, shares), next)) :
    shares.length = (entriesRead stub).toNat ↔ ¬ Withholds stub := by
  rw [container] at ran
  obtain ⟨absent, _, read, ran⟩ := Ndr.of_bind_ok ran
  obtain ⟨container, rfl⟩ := of_isNullPointer_ok read
  change absent = true ↔ primitive stub 2 = 0 at container
  cases absent with
  | true =>
      cases ran
      have none : primitive stub 2 = 0 := container.mp rfl
      rw [entriesRead, if_pos none]
      exact iff_of_true rfl fun withholds => withholds.1 none
  | false =>
      have present : primitive stub 2 ≠ 0 := fun zero => by cases container.mpr zero
      rw [entriesRead, if_neg present]
      obtain ⟨declared, _, read, ran⟩ := Ndr.of_bind_ok ran
      obtain ⟨declares, rfl⟩ := Ndr.of_u32_ok (of_field_ok read)
      obtain ⟨null, _, read, ran⟩ := Ndr.of_bind_ok ran
      obtain ⟨buffer, rfl⟩ := of_isNullPointer_ok read
      change null = true ↔ primitive stub 4 = 0 at buffer
      change declared = primitive stub 3 at declares
      subst declares
      cases null with
      | true =>
          cases ran
          have null := buffer.mp rfl
          rw [Withholds, List.length_nil, not_and, not_and]
          constructor
          · intro none _ some
            refine absurd ?_ some
            exact UInt32.toNat_inj.mp none.symm
          · intro none
            by_contra short
            refine none present (fun zero => short ?_) null
            rw [zero]
            rfl
      | false =>
          obtain ⟨shares', _, walked, ran⟩ := Ndr.of_bind_ok ran
          cases ran
          refine iff_of_true (length_shareInfo1Array walked) fun withholds => ?_
          cases buffer.mpr withholds.2.2

/-- **A page brings what it declares** if and only if its container does not withhold it. -/
theorem length_response {page : Page} (decoded : response stub = .ok page) :
    page.shares.length = (entriesRead stub).toNat ↔ ¬ Withholds stub := by
  rw [response] at decoded
  cases read : readPage stub 0 with
  | error error =>
      rw [read] at decoded
      cases decoded
  | ok result =>
      rw [read] at decoded
      cases decoded
      rw [readPage] at read
      obtain ⟨outer, _, level, ran⟩ := Ndr.of_bind_ok read
      obtain ⟨-, rfl⟩ := Ndr.of_u32_ok (of_field_ok level)
      split at ran
      · obtain ⟨_, _, refused, -⟩ := Ndr.of_bind_ok ran
        cases refused
      obtain ⟨inner, _, level, ran⟩ := Ndr.of_bind_ok ran
      obtain ⟨-, rfl⟩ := Ndr.of_u32_ok (of_field_ok level)
      split at ran
      · obtain ⟨_, _, refused, -⟩ := Ndr.of_bind_ok ran
        cases refused
      obtain ⟨⟨entries, shares⟩, _, held, ran⟩ := Ndr.of_bind_ok ran
      rw [← length_container held]
      obtain ⟨total, _, -, ran⟩ := Ndr.of_bind_ok ran
      split at ran
      · obtain ⟨_, _, refused, -⟩ := Ndr.of_bind_ok ran
        cases refused
      obtain ⟨unresumed, _, -, ran⟩ := Ndr.of_bind_ok ran
      obtain ⟨resume, code, after, ran⟩ : ∃ resume code after, (if code = WERR_OK then
          (pure { shares, total, resume, more := false } : Ndr.Cursor SrvsvcError Page)
        else if code = ERROR_MORE_DATA then pure { shares, total, resume, more := true }
        else throw (.failed code)) stub after = .ok result := by
        dsimp only at ran
        split at ran
        · obtain ⟨resume, _, -, ran⟩ := Ndr.of_bind_ok ran
          obtain ⟨code, after, -, ran⟩ := Ndr.of_bind_ok ran
          exact ⟨resume, code, after, ran⟩
        · obtain ⟨resume, _, -, ran⟩ := Ndr.of_bind_ok ran
          obtain ⟨code, after, -, ran⟩ := Ndr.of_bind_ok ran
          exact ⟨resume, code, after, ran⟩
      split at ran
      · cases ran
        exact Iff.rfl
      split at ran
      · cases ran
        exact Iff.rfl
      · cases ran

end Srvsvc

/-! ## What a list is made of -/

namespace Ipc

variable {n : Negotiated} {turns : ℕ} {server : Text} {answers rest left : List Answer}

/-- A round that was answered: the stub of the answer, and the page decoded from it. -/
structure Round where
  stub : Bytes
  page : Srvsvc.Page

/-- Consecutive rounds of an enumeration, behind as many as were made before: each is issued with
the handle the one before it returned, and with the answers the one before it left. The last ends
the enumeration and no other does. -/
inductive Rounds (n : Negotiated) (turns : ℕ) (server : Text) :
    ℕ → Pipe → UInt32 → List Answer → List Round → Prop
  | last {made : ℕ} {p p' : Pipe} {resume : UInt32} {answers rest : List Answer}
      {answer : Pdu.Answer} {stub : Bytes} {page : Srvsvc.Page}
      (called : (p.call n turns (enumPdu server (UInt32.ofNat made + 1) resume)
        (UInt32.ofNat made + 1)).run answers = some (.ok (p', .ok answer), rest))
      (responded : Pdu.response answer = .ok stub) (decoded : Srvsvc.response stub = .ok page)
      (ends : page.more = false) : Rounds n turns server made p resume answers [⟨stub, page⟩]
  | more {made : ℕ} {p p' : Pipe} {resume : UInt32} {answers rest : List Answer}
      {answer : Pdu.Answer} {stub : Bytes} {page : Srvsvc.Page} {trail : List Round}
      (called : (p.call n turns (enumPdu server (UInt32.ofNat made + 1) resume)
        (UInt32.ofNat made + 1)).run answers = some (.ok (p', .ok answer), rest))
      (responded : Pdu.response answer = .ok stub) (decoded : Srvsvc.response stub = .ok page)
      (continues : page.more = true)
      (later : Rounds n turns server (made + 1) p' page.resume rest trail) :
      Rounds n turns server made p resume answers (⟨stub, page⟩ :: trail)

/-- The rounds made on a pipe that was opened and bound. -/
structure Enumerated (n : Negotiated) (turns : ℕ) (server : Text) (answers : List Answer)
    (trail : List Round) : Prop where
  bound : ∃ fid p answer rest rest',
    (Pipe.openFid n SRVSVC_PIPE).run answers = some (.ok fid, rest) ∧
      (({ fid, offset := 0, transact := true, transactFailure := none, name := SRVSVC_PIPE } :
        Pipe).call n turns bindPdu 0).run rest = some (.ok (p, .ok answer), rest') ∧
          Rounds n turns server 0 p 0 rest' trail

/-- A list is what the replies say there is. -/
structure Whole (n : Negotiated) (turns : ℕ) (server : Text) (answers : List Answer)
    (shares : List Share) : Prop where
  rap : ∀ answered rest, (overRap n).run answers = some (.ok answered, rest) →
    ∃ reply body, answers.head? = some (.ok reply) ∧ reply.transaction = some body ∧
      shares.length = (Rap.entryCount body.parameters).toNat ∧
        Rap.available body.parameters ≤ Rap.entryCount body.parameters
  srvsvc : ∀ refusal rest, (overRap n).run answers = some (.error refusal, rest) →
    ∃ trail, Enumerated n turns server rest trail ∧
      shares = (trail.map (·.page.shares)).flatten ∧ trail.length ≤ MAX_ROUNDS ∧
        ∀ round ∈ trail, round.page.shares.length = (Srvsvc.entriesRead round.stub).toNat ∧
          round.page.total.toNat ≤ shares.length

/-- The entries the rounds declare. -/
def declared (trail : List Round) : ℕ :=
  (trail.map fun round => (Srvsvc.entriesRead round.stub).toNat).sum

/-- A round brings the entries it declares, and says of no more than the rounds declare. -/
def Round.Kept (trail : List Round) (round : Round) : Prop :=
  ¬ Srvsvc.Withholds round.stub ∧ round.page.total.toNat ≤ declared trail

instance (trail : List Round) (round : Round) : Decidable (round.Kept trail) :=
  inferInstanceAs (Decidable (_ ∧ _))

/-- Where each round brings what it declares, so do they all. -/
theorem length_flatten_shares {trail : List Round}
    (brings : ∀ round ∈ trail,
      round.page.shares.length = (Srvsvc.entriesRead round.stub).toNat) :
    (trail.map (·.page.shares)).flatten.length = declared trail := by
  rw [List.length_flatten, List.map_map, declared]
  exact congrArg List.sum (List.map_congr_left brings)

theorem Rounds.decoded {made : ℕ} {p : Pipe} {resume : UInt32} {trail : List Round}
    (rounds : Rounds n turns server made p resume answers trail) :
    ∀ round ∈ trail, Srvsvc.response round.stub = .ok round.page := by
  induction rounds with
  | last called responded decoded ends =>
      intro round member
      cases List.mem_singleton.mp member
      exact decoded
  | more called responded decoded continues later ih =>
      intro round member
      rcases List.mem_cons.mp member with rfl | member
      · exact decoded
      · exact ih round member

/-- The answers decide the rounds. -/
theorem Rounds.unique {made : ℕ} {p : Pipe} {resume : UInt32} {trail trail' : List Round}
    (rounds : Rounds n turns server made p resume answers trail)
    (others : Rounds n turns server made p resume answers trail') : trail = trail' := by
  induction rounds generalizing trail' with
  | last called responded decoded ends =>
      cases others with
      | last called' responded' decoded' ends' =>
          cases called.symm.trans called'
          cases responded.symm.trans responded'
          cases decoded.symm.trans decoded'
          rfl
      | more called' responded' decoded' continues' later' =>
          cases called.symm.trans called'
          cases responded.symm.trans responded'
          cases decoded.symm.trans decoded'
          cases ends.symm.trans continues'
  | more called responded decoded continues later ih =>
      cases others with
      | last called' responded' decoded' ends' =>
          cases called.symm.trans called'
          cases responded.symm.trans responded'
          cases decoded.symm.trans decoded'
          cases continues.symm.trans ends'
      | more called' responded' decoded' continues' later' =>
          cases called.symm.trans called'
          cases responded.symm.trans responded'
          cases decoded.symm.trans decoded'
          rw [ih later']

theorem Enumerated.unique {trail trail' : List Round}
    (enumerated : Enumerated n turns server answers trail)
    (other : Enumerated n turns server answers trail') : trail = trail' := by
  obtain ⟨fid, p, answer, rest, rest', opened, called, rounds⟩ := enumerated.bound
  obtain ⟨fid', p', answer', rest₁, rest₂, opened', called', rounds'⟩ := other.bound
  cases opened.symm.trans opened'
  cases called.symm.trans called'
  exact rounds.unique rounds'

theorem Enumerated.decoded {trail : List Round}
    (enumerated : Enumerated n turns server answers trail) :
    ∀ round ∈ trail, Srvsvc.response round.stub = .ok round.page := by
  obtain ⟨_, _, _, _, _, -, -, rounds⟩ := enumerated.bound
  exact rounds.decoded

/-- **What the rounds come to**: the shares of the rounds before them, and of each in order. -/
theorem of_run_rounds {count : ℕ} {p p' : Pipe} {resume : UInt32} {shares all : List Share}
    (counted : count ≤ MAX_ROUNDS)
    (ran : (rounds n turns server count p resume shares).run answers =
      some (.ok (p', .ok all), left)) :
    ∃ trail, Rounds n turns server (MAX_ROUNDS - count) p resume answers trail ∧
      all = shares ++ (trail.map (·.page.shares)).flatten ∧ trail.length ≤ count := by
  induction count generalizing p resume shares answers with
  | zero => cases ran
  | succ count ih =>
      rw [rounds] at ran
      rcases of_run_bind ran with ⟨_, -, failed⟩ | ⟨⟨q, answered⟩, rest, called, ran⟩
      · cases failed
      cases answered with
      | error error => cases ran
      | ok answer =>
          cases responded : Pdu.response answer with
          | error error =>
              simp only [Bind.bind, Except.bind, responded, Except.mapError] at ran
              cases ran
          | ok stub =>
              cases decoded : Srvsvc.response stub with
              | error error =>
                  simp only [Bind.bind, Except.bind, responded, decoded, Except.mapError] at ran
                  cases ran
              | ok page =>
                  simp only [Bind.bind, Except.bind, responded, decoded, Except.mapError] at ran
                  split at ran
                  · next ends =>
                      cases ran
                      exact ⟨[⟨stub, page⟩], .last called responded decoded ends, by simp, by simp⟩
                  · next continues =>
                      split at ran
                      · cases ran
                      · obtain ⟨trail, later, rfl, short⟩ := ih (Nat.le_of_succ_le counted) ran
                        have next : MAX_ROUNDS - (count + 1) + 1 = MAX_ROUNDS - count := by omega
                        rw [← next] at later
                        refine ⟨⟨stub, page⟩ :: trail,
                          .more called responded decoded (Bool.eq_true_of_not_eq_false continues)
                            later, by simp, ?_⟩
                        rw [List.length_cons]
                        exact Nat.succ_le_succ short

theorem of_run_overSrvsvc {shares : List Share}
    (ran : (overSrvsvc n turns server).run answers = some (.ok shares, left)) :
    ∃ trail, Enumerated n turns server answers trail ∧
      shares = (trail.map (·.page.shares)).flatten ∧ trail.length ≤ MAX_ROUNDS := by
  rw [overSrvsvc] at ran
  rcases of_run_bind ran with ⟨_, -, failed⟩ | ⟨fid, rest, opened, ran⟩
  · cases failed
  rcases of_run_bind ran with ⟨_, -, failed⟩ | ⟨⟨p', listed⟩, rest', listing, ran⟩
  · cases failed
  rcases of_run_bind ran with ⟨_, -, failed⟩ | ⟨_, rest'', released, ran⟩
  · cases failed
  rw [run_ofExcept] at ran
  cases ran
  rw [enumerate] at listing
  rcases of_run_bind listing with ⟨_, -, failed⟩ | ⟨⟨p, answered⟩, bound, called, ran⟩
  · cases failed
  cases answered with
  | error error => cases ran
  | ok answer =>
      cases acknowledged : Pdu.bindAck answer with
      | error error =>
          simp only [Bind.bind, Except.bind, acknowledged, Except.mapError] at ran
          cases ran
      | ok accepted =>
          simp only [Bind.bind, Except.bind, acknowledged, Except.mapError] at ran
          obtain ⟨trail, rounds, rfl, short⟩ := of_run_rounds (Nat.le_refl MAX_ROUNDS) ran
          exact ⟨trail, ⟨fid, p, answer, rest, bound, opened, called, rounds⟩, rfl, short⟩

/-- What RAP answers with is counted by the reply it came in. -/
theorem of_run_overRap {shares : List Share}
    (ran : (overRap n).run answers = some (.ok shares, rest)) :
    ∃ reply body, answers.head? = some (.ok reply) ∧ reply.transaction = some body ∧
      shares.length = (Rap.entryCount body.parameters).toNat ∧
        Rap.available body.parameters ≤ Rap.entryCount body.parameters := by
  rw [overRap, TreeRequest.checked] at ran
  rcases of_run_bind ran with ⟨_, -, failed⟩ | ⟨reply, rest', checked, ran⟩
  · cases failed
  rcases of_run_bind checked with ⟨_, -, failed⟩ | ⟨reply', rest'', replied, kept⟩
  · cases failed
  split at kept
  · cases kept
  cases kept
  have first : answers.head? = some (.ok reply) := by
    rcases TreeRequest.of_run_put replied with ⟨_, failed, -, -⟩ | ⟨answer, rfl, came, -⟩
    · cases failed
    · cases answer with
      | error gone => cases came
      | ok reply' =>
          cases came
          rfl
  cases held : reply.transaction with
  | none =>
      simp only [held] at ran
      cases ran
  | some body =>
      simp only [held] at ran
      rw [run_ofExcept] at ran
      cases decoded : Rap.response body.parameters body.data with
      | error error =>
          rw [decoded] at ran
          cases ran
      | ok shares' =>
          rw [decoded] at ran
          cases ran
          exact ⟨reply, body, first, held, Rap.response_whole decoded⟩

/-- **Enumerations that return a list** return a whole one, if and only if no round's reply
withholds the shares it declares, and none says of more entries than the rounds declare
together. -/
theorem listShares_whole_iff {shares : List Share}
    (ran : (listShares n turns server).run answers = some (.ok shares, left)) :
    Whole n turns server answers shares ↔
      ∀ refusal rest, (overRap n).run answers = some (.error refusal, rest) →
        ∀ trail, Enumerated n turns server rest trail → ∀ round ∈ trail, round.Kept trail := by
  constructor
  · intro whole refusal rest refused trail enumerated round member
    obtain ⟨trail', enumerated', joined, -, counts⟩ := whole.srvsvc refusal rest refused
    cases enumerated.unique enumerated'
    obtain ⟨brings, within⟩ := counts round member
    rw [joined, length_flatten_shares fun round member => (counts round member).1] at within
    exact ⟨(Srvsvc.length_response (enumerated.decoded round member)).mp brings, within⟩
  · intro kept
    rw [listShares] at ran
    cases attempted : (overRap n).run answers with
    | none => cases (bind_of_attempt_none attempted).1.symm.trans ran
    | some first =>
        obtain ⟨result, rest⟩ := first
        rw [(bind_of_attempt attempted).1] at ran
        cases result with
        | ok answered =>
            cases ran
            refine ⟨fun answered' rest' came => of_run_overRap attempted, ?_⟩
            intro refusal rest' refused
            cases attempted.symm.trans refused
        | error refusal =>
            refine ⟨fun answered rest' came => (by cases attempted.symm.trans came), ?_⟩
            intro refusal' rest' refused
            cases attempted.symm.trans refused
            dsimp only at ran
            split at ran
            · cases ran
            cases second : (overSrvsvc n turns server).run rest with
            | none => cases (bind_of_attempt_none second).1.symm.trans ran
            | some ended =>
                obtain ⟨listed, rest''⟩ := ended
                rw [(bind_of_attempt second).1] at ran
                cases listed with
                | error error => cases ran
                | ok listed =>
                    cases ran
                    obtain ⟨trail, enumerated, joined, short⟩ := of_run_overSrvsvc second
                    have kept := kept refusal rest attempted trail enumerated
                    have brings : ∀ round ∈ trail, round.page.shares.length =
                        (Srvsvc.entriesRead round.stub).toNat := fun round member =>
                      (Srvsvc.length_response (enumerated.decoded round member)).mpr
                        (kept round member).1
                    refine ⟨trail, enumerated, joined, short, fun round member => ?_⟩
                    refine ⟨brings round member, ?_⟩
                    rw [joined, length_flatten_shares brings]
                    exact (kept round member).2

/-! ### Rounds of one enumeration -/

/-- What a round is answered with. -/
def roundAnswered (call : UInt32) (stub : Bytes) : Answer :=
  transacted .SUCCESS (Pdu.pdu Pdu.RESPONSE call (.replicate 8 0 ++ stub))

/-- What a server answers that puts the whole enumeration in these stubs. -/
def oneRound (stub : Bytes) : List Answer :=
  [pipeOpened 1, bindAccepted, roundAnswered 1 stub, pipeClosed]

def twoRounds (first second : Bytes) : List Answer :=
  [pipeOpened 1, bindAccepted, roundAnswered 1 first, roundAnswered 2 second, pipeClosed]

/-- The enumeration is over `srvsvc`, once RAP is refused. -/
def afterRefusal (answers : List Answer) : List Answer :=
  transacted .INVALID_PARAMETER [] :: answers

/-- A reply with one of two shares, which has no name and no comment: the enumeration goes on from
handle 7. -/
def firstOfTwo : Bytes := [1, 1, 1, 1, 1, 1, 0, 0, 0, 2, 1, 7, 234].foldl Ndr.putU32 []

/-- A reply with another, which ends it. -/
def secondOfTwo : Bytes := [1, 1, 1, 1, 1, 1, 0, 0, 0, 2, 0, 0].foldl Ndr.putU32 []

/-- A reply that declares four shares over a null buffer, and ends the enumeration. -/
def fourWithheld : Bytes := [1, 1, 1, 4, 0, 4, 0, 0].foldl Ndr.putU32 []

def unnamedDisk : Share := ⟨[], ⟨.disk, false, false⟩, []⟩

/-- An enumeration whose pipe is opened as pipe 1 and bound, and whose rounds are then these. -/
theorem enumerated_bound {answers : List Answer} {trail : List Round}
    (rounds : Rounds ⟨50, 16644, 0⟩ 4 ['s'] 0 Pipe.opened 0 answers trail) :
    Enumerated ⟨50, 16644, 0⟩ 4 ['s'] (pipeOpened 1 :: bindAccepted :: answers) trail := by
  have opens : (Pipe.openFid ⟨50, 16644, 0⟩ SRVSVC_PIPE).run [pipeOpened 1] = some (.ok 1, []) := by
    decide +kernel
  have binds : (Pipe.opened.call ⟨50, 16644, 0⟩ 4 bindPdu 0).run [bindAccepted] =
      some (.ok (Pipe.opened, .ok ⟨Pdu.BIND_ACK, .replicate 12 0 ++ [1, 0, 0, 0] ++
        .replicate 4 0 ++ Pdu.NDR32⟩), []) := by
    decide +kernel
  have opened : ∀ left, (Pipe.openFid ⟨50, 16644, 0⟩ SRVSVC_PIPE).run (pipeOpened 1 :: left) =
      some (.ok 1, left) := fun left => run_cons opens
  have bound : ∀ left, (Pipe.opened.call ⟨50, 16644, 0⟩ 4 bindPdu 0).run (bindAccepted :: left) =
      some (.ok (Pipe.opened, .ok ⟨Pdu.BIND_ACK, .replicate 12 0 ++ [1, 0, 0, 0] ++
        .replicate 4 0 ++ Pdu.NDR32⟩), left) := fun left => run_cons binds
  exact ⟨1, _, _, _, _, opened _, bound _, rounds⟩

/-- Two rounds of one share each. -/
theorem listShares_whole_iff_twoRounds :
    Whole ⟨50, 16644, 0⟩ 4 ['s'] (afterRefusal (twoRounds firstOfTwo secondOfTwo))
      [unnamedDisk, unnamedDisk] := by
  have ran : (listShares ⟨50, 16644, 0⟩ 4 ['s']).run
      (afterRefusal (twoRounds firstOfTwo secondOfTwo)) =
        some (.ok [unnamedDisk, unnamedDisk], []) := by
    decide +kernel
  have refused : (overRap ⟨50, 16644, 0⟩).run (afterRefusal (twoRounds firstOfTwo secondOfTwo)) =
      some (.error (.status .INVALID_PARAMETER), twoRounds firstOfTwo secondOfTwo) := by
    decide +kernel
  have first : (Pipe.opened.call ⟨50, 16644, 0⟩ 4 (enumPdu ['s'] 1 0) 1).run
      ((twoRounds firstOfTwo secondOfTwo).drop 2) =
        some (.ok (Pipe.opened, .ok ⟨Pdu.RESPONSE, firstOfTwo⟩),
          (twoRounds firstOfTwo secondOfTwo).drop 3) := by
    decide +kernel
  have second : (Pipe.opened.call ⟨50, 16644, 0⟩ 4 (enumPdu ['s'] 2 7) 2).run
      ((twoRounds firstOfTwo secondOfTwo).drop 3) =
        some (.ok (Pipe.opened, .ok ⟨Pdu.RESPONSE, secondOfTwo⟩),
          (twoRounds firstOfTwo secondOfTwo).drop 4) := by
    decide +kernel
  have enumerated : Enumerated ⟨50, 16644, 0⟩ 4 ['s'] (twoRounds firstOfTwo secondOfTwo)
      [⟨firstOfTwo, ⟨[unnamedDisk], 2, 7, true⟩⟩, ⟨secondOfTwo, ⟨[unnamedDisk], 2, 0, false⟩⟩] := by
    have ends : Rounds ⟨50, 16644, 0⟩ 4 ['s'] 1 Pipe.opened 7
        ((twoRounds firstOfTwo secondOfTwo).drop 3) [⟨secondOfTwo, ⟨[unnamedDisk], 2, 0, false⟩⟩] :=
      .last second rfl (by decide +kernel) rfl
    exact enumerated_bound (.more first rfl (by decide +kernel) rfl ends)
  apply (listShares_whole_iff ran).mpr
  intro refusal rest came trail other
  cases refused.symm.trans came
  cases enumerated.unique other
  decide +kernel

/-- A round that declares four shares over a null buffer and ends the enumeration: the list that is
returned is empty. -/
theorem withheld_shares_are_listed_as_none : ¬ ∀ (n : Negotiated) (turns : ℕ) (server : Text)
    (answers : List Answer) (shares : List Share) (left : List Answer),
      (listShares n turns server).run answers = some (.ok shares, left) →
        Whole n turns server answers shares := by
  intro claimed
  have ran : (listShares ⟨50, 16644, 0⟩ 4 ['s']).run (afterRefusal (oneRound fourWithheld)) =
      some (.ok [], []) := by
    decide +kernel
  have refused : (overRap ⟨50, 16644, 0⟩).run (afterRefusal (oneRound fourWithheld)) =
      some (.error (.status .INVALID_PARAMETER), oneRound fourWithheld) := by
    decide +kernel
  have called : (Pipe.opened.call ⟨50, 16644, 0⟩ 4 (enumPdu ['s'] 1 0) 1).run
      ((oneRound fourWithheld).drop 2) =
        some (.ok (Pipe.opened, .ok ⟨Pdu.RESPONSE, fourWithheld⟩),
          (oneRound fourWithheld).drop 3) := by
    decide +kernel
  have enumerated : Enumerated ⟨50, 16644, 0⟩ 4 ['s'] (oneRound fourWithheld)
      [⟨fourWithheld, ⟨[], 4, 0, false⟩⟩] :=
    enumerated_bound (.last called rfl (by decide +kernel) rfl)
  obtain ⟨trail, other, -, -, counts⟩ :=
    (claimed _ _ _ _ _ _ ran).srvsvc _ _ refused
  cases enumerated.unique other
  have brings := (counts _ (List.mem_singleton_self _)).1
  have four : (Srvsvc.entriesRead fourWithheld).toNat = 4 := by decide +kernel
  rw [four] at brings
  cases brings

end Ipc

end Smb1Client
