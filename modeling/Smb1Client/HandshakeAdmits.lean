import Smb1Client.Auth.NtlmWellFormed
import Smb1Client.Handshake
import Smb1Client.Lib.Trace

/-!
What a handshake admits.

Whatever a server answers, a session setup is sent only after an offer it accepted, and what a
password is in only after a challenge of its; and a session is established only by replies that pass
every check.
-/

namespace Smb1Client

open Dialogue LittleEndian

/-! ## Replies -/

/-- The message a server answers with, past its keep-alives. -/
def replyIn : List FrameArrival → Option Message
  | .ok frame :: rest =>
      match declared frame.header with
      | .ok (.keepAlive, _) => replyIn rest
      | .ok (.sessionMessage, _) => (Message.parse frame.body).toOption
      | .error _ => none
  | _ => none

/-- A request was answered with this message, of its command and with an NT status. -/
structure Answers (r : HandshakeRequest) (arrivals : List FrameArrival) (m : Message) : Prop where
  reply : replyIn arrivals = some m
  command : m.header.command = r.command
  ntStatus : m.header.flags2 &&& FLAGS2_NT_STATUS ≠ 0

/-- What a negotiate response has to be. -/
structure Admissible (r : NegotiateResponse) : Prop where
  dialect : r.words.dialectIndex = 0
  capabilities : ∀ required ∈ REQUIRED_CAPABILITIES, r.words.capabilities &&& required.1 ≠ 0
  userSecurity : r.words.securityMode &&& SECURITY_USER ≠ 0
  unsigned : r.words.securityMode &&& SECURITY_SIGNATURES_REQUIRED = 0
  bufferSize : MIN_MAX_BUFFER_SIZE ≤ r.words.maxBufferSize

/-- The one offer was made first, and accepted. -/
def OfferAccepted (h : List HandshakeMoment) : Prop :=
  ∃ arrivals m response rest, h = .sent (.negotiate .singleDialect) ::
      .answered (.negotiate .singleDialect) arrivals :: rest ∧
    Answers (.negotiate .singleDialect) arrivals m ∧ m.header.status = .SUCCESS ∧
      NegotiateResponse.decode m = .ok response ∧ Admissible response

/-- A reply wanted more processing, and its SPNEGO and NTLM challenge parsed. -/
def Challenged (h : List HandshakeMoment) : Prop :=
  ∃ r arrivals m challenge, .answered r arrivals ∈ h ∧ Answers r arrivals m ∧
    m.header.status = .MORE_PROCESSING_REQUIRED ∧ challengeOf m = .ok challenge

/-- The last reply succeeded, and is no guest's unless guests are allowed. -/
def Concluded (options : SessionOptions) (h : List HandshakeMoment) : Prop :=
  ∃ before r arrivals m setup, h = before ++ [.answered r arrivals] ∧ Answers r arrivals m ∧
    m.header.status = .SUCCESS ∧ SessionSetupResponse.decode m = .ok setup ∧
      (setup.isGuest = true → options.allowGuest = true)

theorem forM_eq_ok {α ε : Type} {xs : List α} {f : α → Except ε Unit} :
    xs.forM f = .ok () ↔ ∀ x ∈ xs, f x = .ok () := by
  induction xs with
  | nil => exact iff_of_true rfl fun x member => (by cases member)
  | cons x xs ih =>
      rw [List.forall_mem_cons, ← ih]
      change (f x >>= fun _ => xs.forM f) = .ok () ↔ _
      cases f x with
      | error error => exact iff_of_false nofun fun both => (by cases both.1)
      | ok value => exact ⟨fun later => ⟨rfl, later⟩, fun both => both.2⟩

/-- The checks of a negotiate response are what it has to be. -/
theorem NegotiateResponse.check_eq_ok {r : NegotiateResponse} :
    r.check = .ok () ↔ Admissible r := by
  have capabilities : (REQUIRED_CAPABILITIES.forM fun required =>
      if r.words.capabilities &&& required.1 = 0 then
        Except.error (ClientError.unsupportedServer (.capability required.2 r.words.capabilities))
      else .ok ()) = .ok () ↔
        ∀ required ∈ REQUIRED_CAPABILITIES, r.words.capabilities &&& required.1 ≠ 0 := by
    rw [forM_eq_ok]
    refine forall₂_congr fun required _ => ?_
    split
    · next lacks => exact iff_of_false nofun (not_not.mpr lacks)
    · next carries => exact iff_of_true rfl carries
  rw [check]
  cases dialect : r.acceptedOfferedDialect with
  | error error =>
      refine iff_of_false nofun fun admissible => ?_
      cases dialect.symm.trans (acceptedOfferedDialect_eq_ok.mpr admissible.dialect)
  | ok value =>
      have zero := acceptedOfferedDialect_eq_ok.mp dialect
      cases floor : REQUIRED_CAPABILITIES.forM fun required =>
          if r.words.capabilities &&& required.1 = 0 then
            Except.error (ClientError.unsupportedServer
              (.capability required.2 r.words.capabilities))
          else .ok () with
      | error error =>
          refine iff_of_false ?_ fun admissible => ?_
          · simp only [Bind.bind, Except.bind, Except.mapError]
            exact nofun
          · cases floor.symm.trans (capabilities.mpr admissible.capabilities)
      | ok value =>
          simp only [Bind.bind, Except.bind, Except.mapError]
          have carries := capabilities.mp floor
          split
          · next share => exact iff_of_false nofun fun admissible => admissible.userSecurity share
          · next user =>
              split
              · next signs => exact iff_of_false nofun fun admissible => signs admissible.unsigned
              · next unsigned =>
                  split
                  · next small =>
                      refine iff_of_false nofun fun admissible => ?_
                      exact UInt32.not_lt.mpr admissible.bufferSize small
                  · next large =>
                      exact iff_of_true rfl
                        ⟨zero, carries, user, not_not.mp unsigned, UInt32.not_lt.mp large⟩

/-! ## Along a handshake -/

/-- Every reply so far is of the command it answers, with an NT status. -/
def AllAnswered (h : List HandshakeMoment) : Prop :=
  ∀ r arrivals, .answered r arrivals ∈ h → ∃ m, Answers r arrivals m

/-- A session setup is sent after an accepted offer, and with another blob than the first after a
challenge. -/
def admitting : Contract HandshakeRequest (List FrameArrival) Empty where
  allowed _ _ := True
  required h r := ∀ uid request, r = .sessionSetup uid request →
    OfferAccepted h ∧
      (request.securityBlob = Spnego.negTokenInit Ntlm.negotiateMessage ∨ Challenged h)

variable {auth : Authenticator} {credentials : Credentials} {options : SessionOptions}
  {h : List HandshakeMoment} {r : HandshakeRequest}

theorem OfferAccepted.append (accepted : OfferAccepted h) (later : List HandshakeMoment) :
    OfferAccepted (h ++ later) := by
  obtain ⟨arrivals, m, response, rest, rfl, answers⟩ := accepted
  exact ⟨arrivals, m, response, rest ++ later, rfl, answers⟩

theorem AllAnswered.exchange {arrivals : List FrameArrival} {m : Message} (all : AllAnswered h)
    (answers : Answers r arrivals m) : AllAnswered (h ++ [.sent r, .answered r arrivals]) := by
  intro r' arrivals' member
  rcases List.mem_append.mp member with member | member
  · exact all r' arrivals' member
  · rcases List.mem_pair.mp member with same | same
    · cases same
    · cases same
      exact ⟨m, answers⟩

/-- What is received is the reply among the frames, if it is of the command. -/
theorem keeps_receive {c : Contract HandshakeRequest (List FrameArrival) Empty} {command : UInt8}
    {arrivals : List FrameArrival} :
    c.Keeps h (receive command arrivals) fun h' result => h' = h ∧
      ∀ m, result = .ok m → replyIn arrivals = some m ∧ m.header.command = command := by
  induction arrivals with
  | nil => exact Contract.keeps_paused
  | cons arrival rest ih =>
      have failed : ∀ error : ClientError, h = h ∧
          ∀ m, (.error error : Except ClientError Message) =
          .ok m → replyIn (arrival :: rest) = some m ∧ m.header.command = command :=
        fun error => ⟨rfl, fun m came => (by cases came)⟩
      cases arrival with
      | error error => exact Contract.keeps_failed.mpr (failed _)
      | ok frame =>
          rw [receive]
          cases decoded : declared frame.header with
          | error error => exact Contract.keeps_failed.mpr (failed _)
          | ok header =>
              obtain ⟨kind, length⟩ := header
              cases kind with
              | keepAlive =>
                  apply ih.mono
                  rintro h' result _ ⟨same, replied⟩
                  refine ⟨same, fun m came => ?_⟩
                  rw [replyIn]
                  simp only [decoded]
                  exact replied m came
              | sessionMessage =>
                  dsimp only
                  cases parsed : Message.parse frame.body with
                  | error error => exact Contract.keeps_failed.mpr (failed _)
                  | ok message =>
                      dsimp only
                      split
                      · exact Contract.keeps_failed.mpr (failed _)
                      · next same =>
                          refine Contract.keeps_pure.mpr ⟨rfl, fun m came => ?_⟩
                          cases came
                          rw [replyIn]
                          simp only [decoded, parsed]
                          exact ⟨rfl, not_not.mp same⟩

theorem keeps_sent {c : Contract HandshakeRequest (List FrameArrival) Empty}
    (required : c.required h r) :
    c.Keeps h (send r) fun h' result => ∀ m, result = .ok m →
      ∃ arrivals, h' = h ++ [.sent r, .answered r arrivals] ∧ replyIn arrivals = some m ∧
        m.header.command = r.command := by
  rw [send]
  split
  · exact Contract.keeps_failed.mpr fun m came => by cases came
  · refine Contract.keeps_ask.mpr ⟨required, fun arrivals _ => ?_⟩
    apply keeps_receive.mono
    rintro h' result _ ⟨rfl, replied⟩ m came
    exact ⟨arrivals, rfl, replied m came⟩

/-- **Exchanges.** A request that is required is sent, and what is gone on with is its answer. -/
theorem keeps_send {α : Type} {next : Message → Handshaking α}
    {post : List HandshakeMoment → Except ClientError α → Prop}
    (required : admitting.required h r)
    (answered : ∀ arrivals m, Answers r arrivals m →
      admitting.Keeps (h ++ [.sent r, .answered r arrivals]) (next m) post)
    (failed : ∀ h' error, post h' (.error error)) :
    admitting.Keeps h (send r >>= fun m => .ofExcept (expectNtStatus m) >>= fun _ => next m)
      post := by
  apply (keeps_sent required).bind
  · intro h' m _ replied
    obtain ⟨arrivals, rfl, reply, command⟩ := replied m rfl
    rw [Contract.keeps_bind, Contract.keeps_ofExcept, expectNtStatus]
    by_cases unflagged : m.header.flags2 &&& FLAGS2_NT_STATUS = 0
    · rw [if_pos unflagged]
      exact failed _ _
    · rw [if_neg unflagged]
      exact answered arrivals m ⟨reply, command, unflagged⟩
  · exact fun h' error _ _ => failed h' error

/-- The offer, and what is gone on with: a response that passed every check. -/
theorem keeps_negotiate : admitting.Keeps [] negotiate fun h' result =>
    ∀ response, result = .ok response → OfferAccepted h' ∧ AllAnswered h' := by
  have nothing : AllAnswered [] := fun r arrivals member => (by cases member)
  rw [negotiate]
  apply keeps_send fun uid request => by nofun
  · intro arrivals m answers
    split
    · exact Contract.keeps_failed.mpr fun response came => by cases came
    · next success =>
        rw [Contract.keeps_bind, Contract.keeps_ofExcept]
        cases decoded : NegotiateResponse.decode m with
        | error error => exact fun response came => by cases came
        | ok response =>
            dsimp only [Except.mapError]
            rw [Contract.keeps_bind, Contract.keeps_ofExcept]
            cases checked : response.check with
            | error error => exact fun response came => by cases came
            | ok value =>
                refine Contract.keeps_pure.mpr fun _ _ => ⟨?_, nothing.exchange answers⟩
                exact ⟨arrivals, m, response, [], rfl, answers, not_not.mp success, decoded,
                  NegotiateResponse.check_eq_ok.mp checked⟩
  · exact fun h' error response came => by cases came

/-- A session setup that succeeds, behind an accepted offer. -/
structure SetUp (h : List HandshakeMoment) (setup : SessionSetupResponse) : Prop where
  accepted : OfferAccepted h
  answered : AllAnswered h
  last : ∃ before r arrivals m, h = before ++ [.answered r arrivals] ∧ Answers r arrivals m ∧
    m.header.status = .SUCCESS ∧ SessionSetupResponse.decode m = .ok setup

theorem setUp_exchange {arrivals : List FrameArrival} {m : Message} {setup : SessionSetupResponse}
    (accepted : OfferAccepted h) (all : AllAnswered h) (answers : Answers r arrivals m)
    (success : m.header.status = .SUCCESS) (decoded : SessionSetupResponse.decode m = .ok setup) :
    SetUp (h ++ [.sent r, .answered r arrivals]) setup where
  accepted := accepted.append _
  answered := all.exchange answers
  last := ⟨h ++ [.sent r], r, arrivals, m, by simp, answers, success, decoded⟩

theorem keeps_sessionSetup {response : NegotiateResponse} {negotiated : Negotiated}
    (accepted : OfferAccepted h) (all : AllAnswered h) :
    admitting.Keeps h (sessionSetup auth credentials options response negotiated) fun h' result =>
      ∀ uid setup, result = .ok (uid, setup) → SetUp h' setup := by
  have refused : ∀ (h' : List HandshakeMoment) (error : ClientError) uid setup,
      (.error error : Except ClientError (UInt16 × SessionSetupResponse)) = .ok (uid, setup) →
        SetUp h' setup := by
    intro h' error uid setup came
    cases came
  -- a success is decoded, on either leg
  have ends : ∀ {h' : List HandshakeMoment} {r : HandshakeRequest} {arrivals : List FrameArrival}
      {m : Message} {uid : UInt16}, OfferAccepted h' → AllAnswered h' → Answers r arrivals m →
        m.header.status = .SUCCESS → admitting.Keeps (h' ++ [.sent r, .answered r arrivals])
          (decodeSetup m >>= fun setup => pure (uid, setup)) fun h' result =>
            ∀ uid setup, result = .ok (uid, setup) → SetUp h' setup := by
    intro h' r arrivals m uid accepted all answers success
    rw [decodeSetup, Contract.keeps_bind, Contract.keeps_ofExcept]
    cases decoded : SessionSetupResponse.decode m with
    | error error => exact refused _ _
    | ok setup =>
        refine Contract.keeps_pure.mpr fun uid' setup' came => ?_
        cases came
        exact setUp_exchange accepted all answers success decoded
  rw [sessionSetup]
  apply keeps_send
  · rintro uid request ⟨⟩
    exact ⟨accepted, Or.inl rfl⟩
  · intro arrivals first answers
    split
    · next success => exact ends accepted all answers success
    · split
      · exact Contract.keeps_failed.mpr (refused _ _)
      · next more =>
          rw [Contract.keeps_bind, Contract.keeps_ofExcept]
          cases parsed : challengeOf first with
          | error error => exact refused _ _
          | ok challenge =>
              dsimp only
              rw [Contract.keeps_bind, Contract.keeps_ofExcept]
              cases auth.fresh with
              | error error => exact refused _ _
              | ok values =>
                  dsimp only [Except.mapError]
                  apply keeps_send
                  · rintro uid request ⟨⟩
                    refine ⟨accepted.append _, Or.inr ?_⟩
                    exact ⟨_, arrivals, first, challenge, by simp, answers, not_not.mp more, parsed⟩
                  · intro arrivals' second answers'
                    split
                    · exact Contract.keeps_failed.mpr (refused _ _)
                    · next success =>
                        exact ends (accepted.append _) (all.exchange answers) answers'
                          (not_not.mp success)
                  · exact refused
  · exact refused

theorem keeps_handshake : admitting.Keeps [] (handshake auth credentials options) fun h result =>
    ∀ established, result = .ok established →
      OfferAccepted h ∧ AllAnswered h ∧ Concluded options h := by
  rw [handshake]
  apply keeps_negotiate.bind
  · intro h' response _ kept
    obtain ⟨accepted, all⟩ := kept response rfl
    apply (keeps_sessionSetup accepted all).bind
    · rintro h'' ⟨uid, setup⟩ _ done
      have setUp := done uid setup rfl
      dsimp only
      split
      · exact Contract.keeps_failed.mpr fun established came => by cases came
      · next allowed =>
          refine Contract.keeps_pure.mpr fun established _ => ⟨setUp.accepted, setUp.answered, ?_⟩
          obtain ⟨before, r, arrivals, m, shape, answers, success, decoded⟩ := setUp.last
          refine ⟨before, r, arrivals, m, setup, shape, answers, success, decoded, fun guest => ?_⟩
          by_contra refuses
          exact allowed ⟨guest, refuses⟩
    · exact fun h'' error _ _ established came => by cases came
  · exact fun h' error _ _ established came => by cases came

/-! ## What the credentials are in -/

/-- What a handshake opens with, whatever its credentials. -/
def opening (options : SessionOptions) : Handshaking Message := do
  let response ← negotiate
  send (.sessionSetup 0 (setupRequest options response response.words.negotiated))

theorem of_run_send {arrivals rest : List (List FrameArrival)} {m : Message}
    (ran : (send r).run arrivals = some (.ok m, rest)) :
    ∃ arrived, (send r).history arrivals = [.sent r, .answered r arrived] ∧
      replyIn arrived = some m ∧ m.header.command = r.command := by
  let anything : Contract HandshakeRequest (List FrameArrival) Empty :=
    ⟨fun _ _ => True, fun _ _ => True⟩
  have admitted : anything.Admits [] ((send r).history arrivals) :=
    Contract.admits_of_forall fun _ _ _ => True.intro
  have came : (send r).outcome arrivals = some (.ok m) := by
    rw [outcome_eq_run, ran]
    rfl
  have required : anything.required [] r := True.intro
  exact ((keeps_sent required).history admitted).2 _ came m rfl

theorem Challenged.append (challenged : Challenged h) (later : List HandshakeMoment) :
    Challenged (h ++ later) := by
  obtain ⟨r, arrivals, m, challenge, member, answers⟩ := challenged
  exact ⟨r, arrivals, m, challenge, List.mem_append_left _ member, answers⟩

/-- What a handshake goes on with from the first leg's reply. -/
def afterFirst (auth : Authenticator) (credentials : Credentials) (options : SessionOptions)
    (response : NegotiateResponse) (first : Message) : Handshaking Handshake := do
  let negotiated := response.words.negotiated
  let (uid, setup) ← (do
    .ofExcept (expectNtStatus first)
    if first.header.status = .SUCCESS then return (first.header.uid, ← decodeSetup first)
    else if first.header.status ≠ .MORE_PROCESSING_REQUIRED then
      .failed (.status first.header.status)
    else do
      let challenge ← .ofExcept (challengeOf first)
      let values ← .ofExcept (auth.fresh.mapError .io)
      let authenticate := auth.authenticate Ntlm.negotiateMessage challenge credentials values
      let mic := authenticate.mechListMic Spnego.mechList
      let second ← send (.sessionSetup first.header.uid
        { setupRequest options response negotiated with
          securityBlob := Spnego.negTokenResp authenticate.message mic })
      .ofExcept (expectNtStatus second)
      if second.header.status ≠ .SUCCESS then .failed (.status second.header.status)
      else return (second.header.uid, ← decodeSetup second))
  if setup.isGuest ∧ ¬ options.allowGuest then .failed .guestLogon
  else return { negotiated, uid,
                server :=
                  { capabilities := response.words.capabilities
                    securityMode := response.words.securityMode
                    maxBufferSize := response.words.maxBufferSize
                    guest := setup.isGuest
                    strings := setup.serverStrings } }

/-- Nothing is sent from there on unless the reply is a challenge. -/
theorem history_afterFirst {response : NegotiateResponse} {first : Message}
    {answers : List (List FrameArrival)}
    (sends : (afterFirst auth credentials options response first).history answers ≠ []) :
    first.header.flags2 &&& FLAGS2_NT_STATUS ≠ 0 ∧
      first.header.status = .MORE_PROCESSING_REQUIRED ∧
        ∃ challenge, challengeOf first = .ok challenge := by
  rw [afterFirst, expectNtStatus] at sends
  by_cases unflagged : first.header.flags2 &&& FLAGS2_NT_STATUS = 0
  · rw [if_pos unflagged] at sends
    exact absurd rfl sends
  rw [if_neg unflagged] at sends
  refine ⟨unflagged, ?_⟩
  by_cases success : first.header.status = .SUCCESS
  · refine absurd ?_ sends
    simp only [if_pos success, decodeSetup]
    cases SessionSetupResponse.decode first with
    | error error => rfl
    | ok setup =>
        change (if setup.isGuest ∧ ¬ options.allowGuest then _ else _ :
          Handshaking Handshake).history answers = []
        split <;> rfl
  · simp only [if_neg success] at sends
    by_cases more : first.header.status = .MORE_PROCESSING_REQUIRED
    · refine ⟨more, ?_⟩
      rw [if_neg (not_not.mpr more)] at sends
      cases parsed : challengeOf first with
      | error error =>
          rw [parsed] at sends
          exact absurd rfl sends
      | ok challenge => exact ⟨challenge, rfl⟩
    · rw [if_pos more] at sends
      exact absurd rfl sends

/-- A handshake is its opening, and goes on from it only where it is challenged. -/
theorem history_handshake (answers : List (List FrameArrival)) :
    ∃ later, (handshake auth credentials options).history answers =
        (opening options).history answers ++ later ∧
      (later ≠ [] → Challenged ((opening options).history answers)) := by
  have whole : handshake auth credentials options = negotiate >>= fun response =>
      send (.sessionSetup 0 (setupRequest options response response.words.negotiated)) >>=
        afterFirst auth credentials options response := by
    rw [handshake]
    refine congrArg _ (funext fun response => ?_)
    exact bind_assoc
  rw [whole, opening]
  cases offered : negotiate.run answers with
  | none =>
      rw [(bind_of_none offered).2, (bind_of_none offered).2]
      exact ⟨[], (List.append_nil _).symm, fun some => absurd rfl some⟩
  | some ended =>
      obtain ⟨_ | response, rest⟩ := ended
      · rw [(bind_of_error offered).2, (bind_of_error offered).2]
        exact ⟨[], (List.append_nil _).symm, fun some => absurd rfl some⟩
      rw [(bind_of_ok offered).2, (bind_of_ok offered).2]
      cases sent : (send (.sessionSetup 0
          (setupRequest options response response.words.negotiated))).run rest with
      | none =>
          rw [(bind_of_none sent).2]
          exact ⟨[], (List.append_nil _).symm, fun some => absurd rfl some⟩
      | some ended =>
          obtain ⟨_ | first, rest'⟩ := ended
          · rw [(bind_of_error sent).2]
            exact ⟨[], (List.append_nil _).symm, fun some => absurd rfl some⟩
          rw [(bind_of_ok sent).2, ← List.append_assoc]
          refine ⟨_, rfl, fun sends => ?_⟩
          obtain ⟨flagged, more, challenge, parsed⟩ := history_afterFirst sends
          obtain ⟨arrived, happened, reply, command⟩ := of_run_send sent
          rw [happened]
          exact ⟨_, arrived, first, challenge, by simp, ⟨reply, command, flagged⟩, more, parsed⟩

/-- **Handattempt admit what they say.** A session setup follows an accepted offer. What is put
before a challenge is put whatever the credentials, and its blob is the first one. And a session
is established by an accepted offer, replies each of the command they answer and with an NT
status, and a last one that succeeded and is no guest's unless guests are allowed. -/
theorem handshake_admits {auth : Authenticator} {credentials : Credentials}
    {options : SessionOptions} {answers : List (List FrameArrival)} :
    (∀ before uid request after, (handshake auth credentials options).history answers =
        before ++ .sent (.sessionSetup uid request) :: after →
      OfferAccepted before ∧
        (request.securityBlob = Spnego.negTokenInit Ntlm.negotiateMessage ∨ Challenged before)) ∧
    (∀ before r after, (handshake auth credentials options).history answers =
        before ++ .sent r :: after →
      Challenged before ∨ ∀ auth' credentials',
        before ++ [.sent r] <+: (handshake auth' credentials' options).history answers) ∧
    ∀ established, (handshake auth credentials options).outcome answers = some (.ok established) →
      OfferAccepted ((handshake auth credentials options).history answers) ∧
        AllAnswered ((handshake auth credentials options).history answers) ∧
          Concluded options ((handshake auth credentials options).history answers) := by
  have admitted : admitting.Admits [] ((handshake auth credentials options).history answers) := by
    apply Contract.admits_of_forall
    intro e _ h
    exact True.intro
  obtain ⟨required, kept⟩ := keeps_handshake.history admitted
  refine ⟨?_, ?_, fun established came => kept _ came established rfl⟩
  · intro before uid request after split
    exact required before _ after split uid request rfl
  · intro before r after split
    obtain ⟨later, happened, challenged⟩ := @history_handshake auth credentials options answers
    rw [happened] at split
    rcases Trace.split_append split with ⟨rest, opened, -⟩ | ⟨front, rfl, sends⟩
    · refine Or.inr fun auth' credentials' => ?_
      obtain ⟨later', happened', -⟩ := @history_handshake auth' credentials' options answers
      rw [happened', opened]
      exact ⟨rest ++ later', by simp⟩
    · refine Or.inl ((challenged ?_).append front)
      rw [sends]
      exact List.append_ne_nil_of_right_ne_nil _ (List.cons_ne_nil _ _)

/-! ## A session of two legs -/

/-- The header of a message that one byte is enough to declare. -/
def shortHeader (m : Bytes) : Vector UInt8 4 :=
  #v[Netbios.TYPE_SESSION_MESSAGE, 0, 0, UInt8.ofNat m.length]

theorem declared_shortHeader {m : Bytes} (short : m.length < 2 ^ 8) :
    declared (shortHeader m) = .ok (.sessionMessage, m.length) := by
  have byte : (UInt8.ofNat m.length).toNat = m.length := UInt8.toNat_ofNat_of_lt' short
  simp [declared, shortHeader, Netbios.decodeHeader, Netbios.TYPE_SESSION_MESSAGE, Bind.bind,
    Except.bind, byte]

theorem length_of_shortHeader {m : Bytes} (short : m.length < 2 ^ 8)
    (kind : Netbios.MessageType) (length : ℕ)
    (declares : declared (shortHeader m) = .ok (kind, length)) : m.length = length := by
  cases (declared_shortHeader short).symm.trans declares
  rfl

def shortFrame (m : Bytes) (short : m.length < 2 ^ 8) : Frame where
  header := shortHeader m
  body := m
  whole := length_of_shortHeader short

/-- The words of a server that meets every requirement. -/
def offeredWords : Bytes :=
  u16le 0 ++ (u8le 3 ++ (u16le 50 ++ (u16le 1 ++ (u32le 16644 ++ (u32le 65536 ++ (u32le 0 ++
    (u32le 0x8000F3FD ++ (u64le 0 ++ (u16le 0 ++ u8le 0)))))))))

def offerTaken : Frame :=
  shortFrame (message (.request Command.NEGOTIATE) (body offeredWords (.replicate 16 0)))
    (by decide +kernel)

/-- A challenge as its SPNEGO token carries it. -/
def challengeBlob : Bytes := Spnego.negTokenResp (Ntlm.challengeOver [Ntlm.stampPair]) []

def challenges : Frame :=
  shortFrame (message
    { SmbHeader.request Command.SESSION_SETUP_ANDX with
      status := .MORE_PROCESSING_REQUIRED
      uid := 7 }
    (body (AndX.NONE.write ++ (u16le 0 ++ u16le (UInt16.ofNat challengeBlob.length)))
      challengeBlob)) (by decide +kernel)

def admits : Frame :=
  shortFrame (message { SmbHeader.request Command.SESSION_SETUP_ANDX with uid := 7 }
    (body (AndX.NONE.write ++ (u16le 0 ++ u16le 0)) [])) (by decide +kernel)

/-- The client's answer to a challenge. -/
def fixedAuthenticator : Authenticator where
  fresh := .ok Ntlm.fixedValues
  authenticate negotiate challenge credentials values :=
    Ntlm.authenticate Ntlm.constantDigests challenge credentials values negotiate

/-- A session that is set up by a challenge and an answer to it. -/
theorem handshake_admits_challenged :
    let attempt := handshake fixedAuthenticator Ntlm.fixedCredentials ⟨false, 16644⟩
    let answers := [[.ok offerTaken], [.ok challenges], [.ok admits]]
    ∃ established, attempt.outcome answers = some (.ok established) ∧ established.uid = 7 ∧
      OfferAccepted (attempt.history answers) ∧ AllAnswered (attempt.history answers) ∧
        Concluded ⟨false, 16644⟩ (attempt.history answers) := by
  intro attempt answers
  have happened : (attempt.outcome answers).bind (fun result => result.toOption.map (·.uid)) =
      some 7 := by
    decide +kernel
  obtain ⟨result, ended, came⟩ := Option.bind_eq_some_iff.mp happened
  cases result with
  | error error => cases came
  | ok established =>
      obtain ⟨accepted, answered, concluded⟩ := handshake_admits.2.2 established ended
      exact ⟨established, ended, Option.some.inj came, accepted, answered, concluded⟩

end Smb1Client
