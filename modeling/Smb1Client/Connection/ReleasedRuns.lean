import Smb1Client.Connection.Crosstalk
import Smb1Client.Connection.MultiplexIds

/-!
A reassembly that has dropped its buffer goes on as if it had not.

What is left of a released reassembly is a shadow of the whole one: the two answer every message
alike, as long as neither of the two guards that go with the buffer stops the whole one. So the
multiplex id of a request that has lapsed is given back, or withheld, on the message that would
have done so.
-/

namespace Smb1Client

/-- The two errors that only a reassembly with a buffer gives. -/
def ReassemblyError.guards : ReassemblyError → Bool
  | .tooManyFragments _ => true
  | .noProgress => true
  | _ => false

namespace Track

variable {t : Track} {total displacement : ℕ} {payload : Bytes}

theorem declare_release : t.release.declare total = (t.declare total).map release := by
  by_cases upward : t.declared = true ∧ total > t.total
  · rw [declare, declare, if_pos upward]
    exact if_pos upward
  by_cases more : total > t.asked
  · rw [declare, declare, if_neg upward, if_pos more]
    exact (if_neg upward).trans (if_pos more)
  · rw [declare, declare, if_neg upward, if_neg more]
    exact (if_neg upward).trans (if_neg more)

theorem accept_release :
    t.release.accept displacement payload = (t.accept displacement payload).map release := by
  by_cases none : payload = []
  · rw [accept, accept, if_pos none, if_pos none]
    rfl
  by_cases outside : displacement + payload.length > t.total
  · rw [accept, accept, if_neg none, if_neg none, dif_pos outside]
    exact dif_pos outside
  rw [accept, accept, if_neg none, if_neg none, dif_neg outside]
  refine (dif_neg outside).trans ?_
  rcases t.covered.cover_cases displacement payload.length with
    ⟨-, refused⟩ | ⟨-, covered, accepted, -⟩
  · split
    · split
      · rfl
      · next taken => cases refused.symm.trans taken
    · next taken => cases refused.symm.trans taken
  · split
    · next taken => cases accepted.symm.trans taken
    · next taken =>
        split
        · next taken' => cases accepted.symm.trans taken'
        · next taken' =>
            cases accepted.symm.trans taken
            cases accepted.symm.trans taken'
            rfl

end Track

/-! ## A reply -/

namespace Assembly

/-- What each message of a reply is answered, up to the first that fails the reassembly. -/
def answers (a : Assembly) : List TransactionResponse → List (Except ReassemblyError Progress)
  | [] => []
  | response :: rest =>
      match a.accept response with
      | .error error => [.error error]
      | .ok (a, progress) => .ok progress :: a.answers rest

/-- The reassembly after some messages. -/
def after (a : Assembly) (responses : List TransactionResponse) : Except ReassemblyError Assembly :=
  responses.foldlM (fun a response => (a.accept response).map (·.1)) a

/-- A reassembly without its buffer is in step with one that has it. -/
structure Shadows (b a : Assembly) : Prop where
  unbuffered : b.buffered = false
  parameters : b.parameters = a.parameters.release
  data : b.data = a.data.release

theorem shadows_release (a : Assembly) : a.release.Shadows a := ⟨rfl, rfl, rfl⟩

variable {a b : Assembly} {response : TransactionResponse}

theorem guards_of_countFragment {error : ReassemblyError}
    (failed : a.countFragment = .error error) :
    error.guards = true := by
  unfold countFragment at failed
  split at failed
  · split at failed
    · cases failed
      rfl
    · cases failed
  · cases failed

theorem guards_of_countEmpty {error : ReassemblyError}
    (failed : a.countEmpty response = .error error) : error.guards = true := by
  unfold countEmpty at failed
  split at failed
  · split at failed
    · cases failed
      rfl
    · cases failed
  · cases failed

theorem Shadows.countFragment (shadows : b.Shadows a) : b.countFragment = .ok b.fragments := by
  rw [Assembly.countFragment, if_neg]
  rw [shadows.unbuffered]
  exact Bool.false_ne_true

theorem Shadows.countEmpty (shadows : b.Shadows a) : b.countEmpty response = .ok b.empty := by
  rw [Assembly.countEmpty, if_neg]
  rw [shadows.unbuffered]
  exact fun empty => Bool.false_ne_true empty.1

/-- What the two say of one message. -/
inductive InStep (b : Assembly) (response : TransactionResponse) :
    Except ReassemblyError (Assembly × Progress) → Prop
  | guarded {error : ReassemblyError} : error.guards = true → InStep b response (.error error)
  | failed {error : ReassemblyError} : b.accept response = .error error →
      InStep b response (.error error)
  | took {a' b' : Assembly} {progress : Progress} : b.accept response = .ok (b', progress) →
      b'.Shadows a' → InStep b response (.ok (a', progress))

theorem Shadows.accept (shadows : b.Shadows a) (response : TransactionResponse) :
    InStep b response (a.accept response) := by
  have inStep := @InStep.failed b response
  have inStep' := @InStep.took b response
  unfold Assembly.accept at inStep inStep' ⊢
  rw [shadows.countFragment, shadows.countEmpty, shadows.parameters, shadows.data,
    Track.declare_release, Track.declare_release] at inStep inStep'
  cases counted : a.countFragment with
  | error error => exact .guarded (guards_of_countFragment counted)
  | ok fragments =>
  cases parameters : a.parameters.declare response.totalParameterCount.toNat with
  | error error =>
      rw [parameters] at inStep
      exact inStep rfl
  | ok parameters' =>
  cases data : a.data.declare response.totalDataCount.toNat with
  | error error =>
      rw [parameters, data] at inStep
      exact inStep rfl
  | ok data' =>
  rw [parameters, data] at inStep inStep'
  simp only [bind, Except.bind, Except.map, Track.accept_release] at inStep inStep' ⊢
  cases placed : parameters'.accept response.parameterDisplacement.toNat response.parameters with
  | error error =>
      rw [placed] at inStep
      exact inStep rfl
  | ok parameters'' =>
  rw [placed] at inStep inStep'
  dsimp only at inStep inStep' ⊢
  cases placed : data'.accept response.dataDisplacement.toNat response.data with
  | error error =>
      rw [placed] at inStep
      exact inStep rfl
  | ok data'' =>
  rw [placed] at inStep'
  cases empty : a.countEmpty response with
  | error error => exact .guarded (guards_of_countEmpty empty)
  | ok empty => exact inStep' rfl ⟨shadows.unbuffered, rfl, rfl⟩

/-- Of two reassemblies in step, the one without its buffer answers a run of messages as the other
does, if no guard stops that one. -/
theorem Shadows.answers (shadows : b.Shadows a) {responses : List TransactionResponse}
    (unguarded : ∀ error, .error error ∈ a.answers responses → error.guards = false) :
    b.answers responses = a.answers responses := by
  induction responses generalizing a b with
  | nil => rfl
  | cons response responses ih =>
      have inStep := shadows.accept response
      rw [Assembly.answers, Assembly.answers]
      rw [Assembly.answers] at unguarded
      cases accepted : a.accept response with
      | error error =>
          rw [accepted] at inStep unguarded
          cases inStep with
          | guarded guards =>
              have free := unguarded error List.mem_cons_self
              cases guards.symm.trans free
          | failed failed => rw [failed]
      | ok taken =>
          rw [accepted] at inStep unguarded
          obtain ⟨a', progress⟩ := taken
          cases inStep with
          | took took shadows' =>
              rw [took]
              exact congrArg _ (ih shadows' fun error member =>
                unguarded error (List.mem_cons_of_mem _ member))

end Assembly

/-! ## A request -/

namespace Entry

/-- A request that has lapsed is in step with one that has not: it waits for the same reply. -/
structure Shadows (e' e : Entry) : Prop where
  command : e'.command = e.command
  active : e.isRetired = false
  active' : e'.isRetired = false
  bare : e.assembly = none → e'.assembly = none
  assembled : ∀ a, e.assembly = some a → ∃ a', e'.assembly = some a' ∧ a'.Shadows a

/-- No guard stops the reassembly of a reply at a message. -/
def Unguarded (e : Entry) (message : Message) : Prop :=
  ∀ a response error, e.assembly = some a → TransactionResponse.decode message = .ok response →
    a.accept response = .error error → error.guards = false

variable {e e' : Entry} {message : Message} {now : Instant} {perRequest : Duration}

theorem Shadows.isSome (shadows : e'.Shadows e) : e'.assembly.isSome = e.assembly.isSome := by
  cases held : e.assembly with
  | none => rw [shadows.bare held]
  | some a =>
      obtain ⟨a', held', -⟩ := shadows.assembled a held
      rw [held']
      rfl

theorem Shadows.touch (shadows : e'.Shadows e) :
    (e'.touch now' perRequest').Shadows (e.touch now perRequest) where
  command := by rw [command_touch, command_touch, shadows.command]
  active := by rw [isRetired_touch, shadows.active]
  active' := by rw [isRetired_touch, shadows.active']
  bare := by rw [assembly_touch, assembly_touch]; exact shadows.bare
  assembled := by rw [assembly_touch, assembly_touch]; exact shadows.assembled

theorem decode_of_fragment {reassembles : Bool} {response : TransactionResponse}
    (arrival : classify message reassembles = .ok (.fragment response)) :
    TransactionResponse.decode message = .ok response := by
  rw [classify] at arrival
  split at arrival
  · cases arrival
  split at arrival
  · cases arrival
  split at arrival
  · split at arrival
    · next decoded =>
        cases arrival
        exact decoded
    · cases arrival
  · split at arrival <;> cases arrival

/-- One message takes the two one step of the same kind. -/
theorem Shadows.accept (shadows : e'.Shadows e) (unguarded : e.Unguarded message)
    {e₁ : Entry} {step : Step} {out : List Effect}
    (accepted : e.accept message now perRequest = .ok (e₁, step, out)) (now' : Instant)
    (perRequest' : Duration) :
    ∃ e₂ out', e'.accept message now' perRequest' = .ok (e₂, step, out') ∧
      (step = .continuing → e₂.Shadows e₁) := by
  have touched : (e'.touch now' perRequest').Shadows (e.touch now perRequest) := shadows.touch
  unfold Entry.accept at accepted ⊢
  dsimp only at accepted ⊢
  rw [touched.isSome]
  cases arrival : classify message (e.touch now perRequest).assembly.isSome with
  | error error =>
      rw [arrival] at accepted
      cases accepted
      exact ⟨_, _, rfl, Step.noConfusion⟩
  | ok divided =>
  rw [arrival] at accepted
  cases divided with
  | interim =>
      cases accepted
      exact ⟨_, _, rfl, fun _ => touched⟩
  | complete transaction =>
      cases accepted
      exact ⟨_, _, rfl, Step.noConfusion⟩
  | fragment response =>
  cases held : (e.touch now perRequest).assembly with
  | none =>
      rw [held] at accepted
      cases accepted
  | some a =>
  obtain ⟨a', held', inStep⟩ := touched.assembled a held
  rw [held] at accepted
  dsimp only at accepted ⊢
  rw [held']
  dsimp only
  have taken := inStep.accept response
  cases took : a.accept response with
  | error error =>
      rw [took] at accepted taken
      cases accepted
      cases taken with
      | guarded guards =>
          have held : e.assembly = some a := assembly_touch.symm.trans held
          have free := unguarded a response error held (decode_of_fragment arrival) took
          cases guards.symm.trans free
      | failed failed =>
          rw [failed]
          exact ⟨_, _, rfl, Step.noConfusion⟩
  | ok result =>
  obtain ⟨a₁, progress⟩ := result
  rw [took] at accepted taken
  cases taken with
  | @took _ a₂ _ took' inStep' =>
      rw [took']
      cases progress with
      | continuing =>
          cases accepted
          refine ⟨_, _, rfl, fun _ => ⟨touched.command, touched.active, touched.active', ?_, ?_⟩⟩
          · intro none
            cases none
          · rintro _ ⟨⟩
            exact ⟨a₂, rfl, inStep'⟩
      | complete =>
          cases accepted
          exact ⟨_, _, rfl, Step.noConfusion⟩

end Entry

/-! ## A multiplex id -/

namespace RequestTable

/-- What has become of a multiplex id. -/
inductive Standing where
  | held
  | pooled
  | retired
  deriving DecidableEq, Repr

def standing (t : RequestTable) (mid : UInt16) : Standing :=
  match t.entries.lookup mid with
  | none => .pooled
  | some e => if e.isRetired then .retired else .held

/-- What has become of an id after each message of a run. -/
def standings (mid : UInt16) (t : RequestTable) : List (Message × Instant) → List Standing
  | [] => []
  | (message, now) :: rest =>
      match t.accept message now with
      | .error _ => []
      | .ok (t, _, _) => t.standing mid :: standings mid t rest

/-- No guard stops the reassembly of the reply an id waits for, in a run of messages. -/
def Unguarded (mid : UInt16) (t : RequestTable) : List (Message × Instant) → Prop
  | [] => True
  | (message, now) :: rest =>
      (∀ e, t.entries.lookup mid = some e → message.header.mid = mid → e.Unguarded message) ∧
        ∀ t' verdict out, t.accept message now = .ok (t', verdict, out) → Unguarded mid t' rest

variable {t t' t₁ t₂ : RequestTable} {mid : UInt16} {message : Message} {now : Instant}
  {verdict : Except Error Unit} {out : List Effect}

/-- An id's rows in two tables are in step. -/
inductive Follows (mid : UInt16) (t' t : RequestTable) : Prop
  | pooled : t.entries.lookup mid = none → t'.entries.lookup mid = none → Follows mid t' t
  | retired {e e' : Entry} : t.entries.lookup mid = some e → t'.entries.lookup mid = some e' →
      e.isRetired = true → e'.isRetired = true → Follows mid t' t
  | held {e e' : Entry} : t.entries.lookup mid = some e → t'.entries.lookup mid = some e' →
      e'.Shadows e → Follows mid t' t

theorem Follows.standing (follows : Follows mid t' t) : t'.standing mid = t.standing mid := by
  unfold RequestTable.standing
  cases follows with
  | pooled absent absent' => rw [absent, absent']
  | retired found found' retired retired' =>
      rw [found, found']
      dsimp only
      rw [if_pos retired, if_pos retired']
  | held found found' shadows =>
      rw [found, found']
      dsimp only
      rw [shadows.active, shadows.active']

/-- What a message on an id that is waited for does to the id's row. -/
theorem Accepts.steps {e e₁ : Entry} {step : Step} {effects : List Effect}
    (accepts : t.Accepts message now t' verdict out)
    (found : t.entries.lookup message.header.mid = some e) (active : e.isRetired = false)
    (command : e.command = message.header.command)
    (accepted : e.accept message now t.timeouts.perRequest = .ok (e₁, step, effects)) :
    (step = .continuing ∧ t'.entries.lookup message.header.mid = some e₁) ∨
      (step = .completed ∧ t'.entries.lookup message.header.mid = none) ∨
        step = .corrupted ∧ t'.entries.lookup message.header.mid = some (retiredRow e₁) := by
  cases accepts with
  | unknown absent => cases absent.symm.trans found
  | remembered found' retired =>
      cases found'.symm.trans found
      cases active.symm.trans retired
  | mismatched found' _ other =>
      cases found'.symm.trans found
      exact absurd command other
  | continued found' _ _ taken =>
      cases found'.symm.trans found
      cases taken.symm.trans accepted
      exact Or.inl ⟨rfl, AList.lookup_insert _⟩
  | completed found' _ _ taken =>
      cases found'.symm.trans found
      cases taken.symm.trans accepted
      exact Or.inr (Or.inl ⟨rfl, AList.lookup_erase _ _⟩)
  | corrupted found' _ _ taken =>
      cases found'.symm.trans found
      cases taken.symm.trans accepted
      exact Or.inr (Or.inr ⟨rfl, AList.lookup_insert _⟩)

/-- A message that does not answer the request of its id leaves every row. -/
theorem Accepts.lookup_of_mismatch {e : Entry}
    (accepts : t.Accepts message now t' verdict out)
    (found : t.entries.lookup message.header.mid = some e)
    (other : e.command ≠ message.header.command) : t'.entries = t.entries := by
  cases accepts with
  | unknown => rfl
  | remembered => rfl
  | mismatched => rfl
  | continued found' _ command =>
      cases found'.symm.trans found
      exact absurd command other
  | completed found' _ command =>
      cases found'.symm.trans found
      exact absurd command other
  | corrupted found' _ command =>
      cases found'.symm.trans found
      exact absurd command other

theorem Accepts.lookup_of_unknown (accepts : t.Accepts message now t' verdict out)
    (absent : t.entries.lookup message.header.mid = none) : t'.entries = t.entries := by
  cases accepts with
  | unknown => rfl
  | remembered => rfl
  | mismatched => rfl
  | continued found => cases found.symm.trans absent
  | completed found => cases found.symm.trans absent
  | corrupted found => cases found.symm.trans absent

/-- A message takes the two rows of an id in step. -/
theorem Follows.accepts {verdict' : Except Error Unit} {out' : List Effect}
    (follows : Follows mid t' t)
    (unguarded : ∀ e, t.entries.lookup mid = some e → message.header.mid = mid →
      e.Unguarded message)
    (accepts : t.Accepts message now t₁ verdict out)
    (accepts' : t'.Accepts message now t₂ verdict' out') : Follows mid t₂ t₁ := by
  by_cases here : message.header.mid = mid
  case neg =>
    have row := accepts.lookup_ne (Ne.symm here)
    have row' := accepts'.lookup_ne (Ne.symm here)
    cases follows with
    | pooled absent absent' => exact .pooled (row.trans absent) (row'.trans absent')
    | retired found found' => exact .retired (row.trans found) (row'.trans found') ‹_› ‹_›
    | held found found' shadows => exact .held (row.trans found) (row'.trans found') shadows
  subst here
  cases follows with
  | pooled absent absent' =>
      refine .pooled ?_ ?_
      · rw [accepts.lookup_of_unknown absent, absent]
      · rw [accepts'.lookup_of_unknown absent', absent']
  | retired found found' retired retired' =>
      exact .retired (accepts.keeps_retired found retired) (accepts'.keeps_retired found' retired')
        retired retired'
  | @held e e' found found' shadows =>
      by_cases command : e.command = message.header.command
      case neg =>
        refine .held ?_ ?_ shadows
        · rw [accepts.lookup_of_mismatch found command, found]
        · rw [accepts'.lookup_of_mismatch found' (shadows.command ▸ command), found']
      obtain ⟨e₁, step, effects, accepted⟩ : ∃ e₁ step effects,
          e.accept message now t.timeouts.perRequest = .ok (e₁, step, effects) := by
        rcases e.accept_cases message now t.timeouts.perRequest with
          ⟨_, accepted⟩ | ⟨_, accepted⟩ | ⟨_, _, accepted⟩
        · exact ⟨_, _, _, accepted⟩
        · exact ⟨_, _, _, accepted⟩
        · exact ⟨_, _, _, accepted⟩
      obtain ⟨e₂, effects', accepted', later⟩ := shadows.accept (unguarded e found rfl) accepted
        now t'.timeouts.perRequest
      have step₁ := accepts.steps found shadows.active command accepted
      have step₂ := accepts'.steps found' shadows.active' (shadows.command.trans command) accepted'
      cases step with
      | continuing =>
          rcases step₁ with ⟨-, row⟩ | ⟨no, -⟩ | ⟨no, -⟩
          · rcases step₂ with ⟨-, row'⟩ | ⟨no, -⟩ | ⟨no, -⟩
            · exact .held row row' (later rfl)
            · cases no
            · cases no
          · cases no
          · cases no
      | completed =>
          rcases step₁ with ⟨no, -⟩ | ⟨-, row⟩ | ⟨no, -⟩
          · cases no
          · rcases step₂ with ⟨no, -⟩ | ⟨-, row'⟩ | ⟨no, -⟩
            · cases no
            · exact .pooled row row'
            · cases no
          · cases no
      | corrupted =>
          rcases step₁ with ⟨no, -⟩ | ⟨no, -⟩ | ⟨-, row⟩
          · cases no
          · cases no
          · rcases step₂ with ⟨no, -⟩ | ⟨no, -⟩ | ⟨-, row'⟩
            · cases no
            · cases no
            · exact .retired row row' rfl rfl

/-- In step, an id comes to the same in both tables on every message. -/
theorem Follows.standings (follows : Follows mid t' t) (accounts : t.Accounts)
    (accounts' : t'.Accounts) {messages : List (Message × Instant)}
    (unguarded : Unguarded mid t messages) :
    RequestTable.standings mid t' messages = RequestTable.standings mid t messages := by
  induction messages generalizing t t' with
  | nil => rfl
  | cons message messages ih =>
      obtain ⟨message, now⟩ := message
      obtain ⟨t₁, verdict, out, accepted, accepts⟩ := accounts.accepts message now
      obtain ⟨t₂, verdict', out', accepted', accepts'⟩ := accounts'.accepts message now
      have after := follows.accepts unguarded.1 accepts accepts'
      rw [RequestTable.standings, RequestTable.standings, accepted, accepted']
      dsimp only
      rw [after.standing, ih after (accepts.accounts accounts) (accepts'.accounts accounts')
        (unguarded.2 t₁ verdict out accepted)]

/-! ### The lapse -/

/-- What firing deadlines makes of the row of a request on the wire. -/
theorem Fires.lapses {d : Deadline} {e : Entry} (fires : t.Fires d now t' verdict out)
    (found : t.entries.lookup mid = some e) (charges : e.charges = true) :
    t'.entries.lookup mid = some e ∨
      ∃ giveUpAt, t'.entries.lookup mid = some (lapsedRow e giveUpAt) := by
  by_cases here : mid = d.mid
  · subst here
    cases fires with
    | lapsed found' =>
        cases found'.symm.trans found
        exact Or.inr ⟨_, AList.lookup_insert _⟩
    | gaveUp found' state =>
        cases found'.symm.trans found
        rw [Entry.charges, state] at charges
        cases charges
  · refine Or.inl (Eq.trans ?_ found)
    cases fires with
    | lapsed => exact AList.lookup_insert_ne here
    | gaveUp => exact AList.lookup_insert_ne here

/-- A row that has lapsed stays as it is, or its id is withheld. -/
theorem Fires.keeps_lapsed {d : Deadline} {e : Entry} (fires : t.Fires d now t' verdict out)
    (found : t.entries.lookup mid = some e) (uncharged : e.charges = false) :
    t'.entries.lookup mid = some e ∨ t'.entries.lookup mid = some (retiredRow e) := by
  by_cases here : mid = d.mid
  · subst here
    cases fires with
    | lapsed found' charges =>
        cases found'.symm.trans found
        cases uncharged.symm.trans charges
    | gaveUp found' =>
        cases found'.symm.trans found
        exact Or.inr (AList.lookup_insert _)
  · refine Or.inl (Eq.trans ?_ found)
    cases fires with
    | lapsed => exact AList.lookup_insert_ne here
    | gaveUp => exact AList.lookup_insert_ne here

theorem Expires.keeps_lapsed {e : Entry} (expires : Expires now t t' verdict out)
    (found : t.entries.lookup mid = some e) (uncharged : e.charges = false) :
    t'.entries.lookup mid = some e ∨ t'.entries.lookup mid = some (retiredRow e) := by
  induction expires with
  | done => exact Or.inl found
  | stop _ _ fires => exact fires.keeps_lapsed found uncharged
  | turn _ _ fires later ih =>
      rcases fires.keeps_lapsed found uncharged with kept | withheld
      · exact ih kept
      · exact Or.inr (later.keeps_retired withheld rfl)

theorem Expires.lapses {e : Entry} (expires : Expires now t t' verdict out)
    (found : t.entries.lookup mid = some e) (charges : e.charges = true) :
    t'.entries.lookup mid = some e ∨
      ∃ giveUpAt, t'.entries.lookup mid = some (lapsedRow e giveUpAt) ∨
        t'.entries.lookup mid = some (retiredRow (lapsedRow e giveUpAt)) := by
  induction expires with
  | done => exact Or.inl found
  | stop _ _ fires =>
      rcases fires.lapses found charges with kept | ⟨giveUpAt, lapsed⟩
      · exact Or.inl kept
      · exact Or.inr ⟨giveUpAt, Or.inl lapsed⟩
  | turn _ _ fires later ih =>
      rcases fires.lapses found charges with kept | ⟨giveUpAt, lapsed⟩
      · exact ih kept
      · exact Or.inr ⟨giveUpAt, later.keeps_lapsed lapsed rfl⟩

end RequestTable

theorem Entry.shadows_lapsedRow {e : Entry} (active : e.isRetired = false) (giveUpAt : Instant) :
    (RequestTable.lapsedRow e giveUpAt).Shadows e where
  command := Entry.command_deliver
  active := active
  active' := rfl
  bare none := by rw [RequestTable.lapsedRow, Entry.assembly_deliver, none]; rfl
  assembled a held := by
    refine ⟨a.release, ?_, a.shadows_release⟩
    rw [RequestTable.lapsedRow, Entry.assembly_deliver, held]
    rfl

/-- **Dropping the buffer does not change when a reply is whole.** A reassembly that is released
answers the messages behind it as it would have, and the id of a request that lapses is given back
or withheld on the message that would have done so, if no guard stops the reassembly with its
buffer. -/
theorem release_keeps_answers (mid : UInt16) :
    (∀ maxParameterCount maxDataCount before a later,
      (Assembly.new maxParameterCount maxDataCount).after before = .ok a →
      (∀ error, .error error ∈ a.answers later → error.guards = false) →
      a.release.answers later = a.answers later) ∧
    ∀ (t t' : RequestTable) now verdict out e e' giveUpAt messages, t.Accounts →
      t.expire now = .ok (t', verdict, out) →
      t.entries.lookup mid = some e → e.charges = true →
      t'.entries.lookup mid = some e' → e'.state = .lapsed giveUpAt →
      RequestTable.Unguarded mid t messages →
      RequestTable.standings mid t' messages = RequestTable.standings mid t messages := by
  refine ⟨fun _ _ _ a _ _ unguarded => a.shadows_release.answers unguarded, ?_⟩
  intro t t' now verdict out e e' giveUpAt messages accounts expired found charges found' lapsed
    unguarded
  obtain ⟨_, _, _, expired', expires, accounts'⟩ := accounts.expires now
  cases expired.symm.trans expired'
  have active : e.isRetired = false := by
    unfold Entry.charges at charges
    unfold Entry.isRetired
    split at charges <;> simp_all
  refine RequestTable.Follows.standings (.held found found' ?_) accounts accounts' unguarded
  rcases expires.lapses found charges with kept | ⟨_, lapsed' | withheld⟩
  · cases kept.symm.trans found'
    rw [Entry.charges, lapsed] at charges
    cases charges
  · cases lapsed'.symm.trans found'
    exact Entry.shadows_lapsedRow active _
  · cases withheld.symm.trans found'
    cases lapsed

/-- Four of the eight bytes of a reply, from a displacement. -/
def halfReply (displacement : UInt8) : Message where
  header := { SmbHeader.request Command.TRANSACTION2 with mid := 7 }
  bytes := .replicate 33 0 ++ [0, 0, 8, 0, 0, 0, 0, 0, 55, 0, 0, 0, 4, 0, 55, 0, displacement, 0] ++
    [0, 0, 4, 0, 1, 2, 3, 4]
  wordCount := 10
  byteCount := 4
  fits := Nat.le_of_ble_eq_true rfl

/-- A table with the request on the wire that the two halves answer. -/
def halfTable : RequestTable :=
  (RequestTable.new 1 ⟨1, 1⟩).dispatch 7 Command.TRANSACTION2 none (some (.new 0 8)) none 0

/-- A request lapses before the two messages of its reply come. -/
theorem release_keeps_answers_halves :
    (Assembly.new 0 8).release.answers
        [⟨0, 8, 0, 0, 55, 55, [], [], [1, 2, 3, 4]⟩, ⟨0, 8, 0, 4, 55, 55, [], [], [1, 2, 3, 4]⟩] =
      [.ok .continuing, .ok .complete] ∧
    ∃ t' verdict out, halfTable.expire 1 = .ok (t', verdict, out) ∧
      RequestTable.standings 7 t' [(halfReply 0, 2), (halfReply 4, 3)] = [.held, .pooled] := by
  have guarantee := release_keeps_answers 7
  have accounts : halfTable.Accounts :=
    (RequestTable.accounts_new 1 ⟨1, 1⟩).dispatch (AList.notMem_empty _) Nat.one_pos
  constructor
  · refine (guarantee.1 0 8 [] _ _ rfl ?_).trans rfl
    intro error member
    have none : (.error error : Except ReassemblyError Progress) ∉
      [.ok .continuing, .ok .complete] := by simp
    exact absurd member none
  · refine ⟨_, _, _, rfl, Eq.trans ?_ rfl⟩
    refine guarantee.2 halfTable _ 1 _ _ _ _ _ _ accounts rfl rfl rfl rfl rfl ?_
    refine ⟨fun e found _ a response error held decoded failed => ?_,
      fun t' _ _ accepted => ⟨fun e found _ a response error held decoded failed => ?_,
        fun _ _ _ _ => trivial⟩⟩
    · cases found
      cases held
      cases decoded
      cases failed
    · cases accepted
      cases found
      cases held
      cases decoded
      cases failed

end Smb1Client
