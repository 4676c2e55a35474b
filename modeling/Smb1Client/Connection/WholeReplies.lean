import Smb1Client.Connection.Crosstalk

/-!
Whether a caller can be given part of a transaction reply.

A reply spread over several messages is delivered once every declared byte is covered.
`classify` covers only messages of status SUCCESS: any other one that decodes is a reply
of its own, and ends the request at once with the blocks of that message alone. So a
caller is given the whole of what was declared in the runs in which such a message is by
itself the whole reply.
-/

namespace Smb1Client

/-- What a hook or a caller is handed. -/
def Effect.outcome : Effect → Except Error Reply
  | .ended _ outcome => outcome
  | .answered _ outcome => outcome

/-- A piece that is its block: all the declared bytes, from the front, within what was
asked. -/
structure Piece.Alone (asked : ℕ) (p : Piece) : Prop where
  total : p.payload.length = p.total
  asked : p.total ≤ asked
  front : p.payload = [] ∨ p.displacement = 0

theorem Piece.Alone.mem_range {asked i : ℕ} {p : Piece} (alone : p.Alone asked)
    (bound : i < p.payload.length) : p.displacement = 0 ∧ i ∈ p.range := by
  have start : p.displacement = 0 := by
    rcases alone.front with none | zero
    · rw [none] at bound
      exact absurd bound (Nat.not_lt_zero i)
    · exact zero
  refine ⟨start, ?_⟩
  rw [Piece.range, start, Nat.zero_add]
  exact ⟨Nat.zero_le i, bound⟩

/-- A piece that is its block is the block to deliver of its message. -/
theorem Piece.Alone.delivered {piece : TransactionResponse → Piece} {asked : ℕ}
    {r : TransactionResponse} (alone : (piece r).Alone asked) :
    Delivered piece asked [r] (piece r).payload := by
  refine ⟨r, rfl, alone.total, alone.asked, fun i bound => ?_⟩
  obtain ⟨start, inRange⟩ := alone.mem_range bound
  refine ⟨0, r, rfl, inRange, ?_, fun k m found _ => ?_⟩
  · rw [Piece.byte?, start, Nat.sub_zero]
  · cases k with
    | zero => rfl
    | succ k => cases found

namespace Debt

variable {d : Debt} {e e' : Entry} {m : Message} {after : Option Debt} {now : Instant}
  {perRequest : Duration} {out : List Effect}

/-- One message of an answer under any status, and what the server still owes after it:
what it declared and has not sent. A message with no body to decode ends the answer, and
one of status SUCCESS that does not decode says nothing of how much is left. -/
inductive Answers (d : Debt) (m : Message) : Option Debt → Prop
  | interim : m.header.status = .PENDING → Answers d m (some d)
  | plain : m.header.status ≠ .PENDING → d.request.assembly = none → Answers d m none
  | bodyless {error : WireError} : m.header.status ≠ .PENDING → m.header.status ≠ .SUCCESS →
      TransactionResponse.decode m = .error error → Answers d m none
  | garbled {error : WireError} : d.request.assembly.isSome = true →
      m.header.status = .SUCCESS → TransactionResponse.decode m = .error error →
      Answers d m (some d)
  | fragment {r : TransactionResponse} : d.request.assembly.isSome = true →
      m.header.status ≠ .PENDING → TransactionResponse.decode m = .ok r →
      ¬ Closed (d.sent ++ [r]) → Answers d m (some { d with sent := d.sent ++ [r] })
  | last {r : TransactionResponse} : d.request.assembly.isSome = true →
      m.header.status ≠ .PENDING → TransactionResponse.decode m = .ok r →
      Closed (d.sent ++ [r]) → Answers d m none

/-- The messages of the reply that a message ends: all that were sent where it is of status
SUCCESS, and otherwise the one. -/
def replyOf (d : Debt) (m : Message) (r : TransactionResponse) : List TransactionResponse :=
  if m.header.status = .SUCCESS then d.sent ++ [r] else [r]

/-- A reply's blocks hold every byte the server declared, at its displacement and within
what was asked. -/
def Whole (d : Debt) (m : Message) (reply : Reply) : Prop :=
  ∀ parameters data, d.request.assembly = some (.new parameters data) →
    ∀ t, reply.transaction = some t → ∃ r, TransactionResponse.decode m = .ok r ∧
      Delivered (·.parameterPiece) parameters.toNat (d.replyOf m r) t.parameters ∧
      Delivered (·.dataPiece) data.toNat (d.replyOf m r) t.data

/-- A message that does not end its request short: one of status SUCCESS, or one with no
body that decodes, or one whose body is by itself the whole reply. -/
def EndsWhole (d : Debt) (m : Message) : Prop :=
  m.header.status = .PENDING ∨ m.header.status = .SUCCESS ∨
    ∀ parameters data r, d.request.assembly = some (.new parameters data) →
      TransactionResponse.decode m = .ok r →
      r.parameterPiece.Alone parameters.toNat ∧ r.dataPiece.Alone data.toNat

theorem outcome_deliver {outcome : Except Error Reply} :
    ∀ effect ∈ (e.deliver outcome).2, effect.outcome = outcome := by
  intro effect member
  obtain ⟨command, assembly, hook, state⟩ := e
  cases state with
  | onWire reply silenceAt overallAt =>
      rcases List.mem_append.mp member with member | member
      · obtain ⟨ticket, -, rfl⟩ := Option.mem_map.mp (Option.mem_toList.mp member)
        rfl
      · obtain ⟨ticket, -, rfl⟩ := Option.mem_map.mp (Option.mem_toList.mp member)
        rfl
  | lapsed => cases member
  | retired => cases member

/-- A reply closes as soon as a message is by itself the whole of it. -/
theorem closed_of_alone {parameters data : ℕ} {r : TransactionResponse}
    (alone : r.parameterPiece.Alone parameters ∧ r.dataPiece.Alone data) :
    Closed (d.sent ++ [r]) := by
  have member : r ∈ d.sent ++ [r] := List.mem_append_right _ (List.mem_singleton_self r)
  refine ⟨r, List.getLast?_concat, fun i bound => ⟨r, member, ?_⟩, fun i bound => ⟨r, member, ?_⟩⟩
  · exact (alone.1.mem_range (alone.1.total.symm ▸ bound)).2
  · exact (alone.2.mem_range (alone.2.total.symm ▸ bound)).2

/-- Where no message ends its request short, an answer is one the server sends whole, or
a message that corrupts its request. -/
theorem Answers.sends (answers : d.Answers m after) (ends : d.EndsWhole m)
    (begun : ∀ a ∈ d.request.assembly, ∃ parameters data, a = .new parameters data) :
    d.Sends m after ∨ after = some d ∧ d.request.assembly.isSome = true ∧
      m.header.status = .SUCCESS ∧ ∃ error, TransactionResponse.decode m = .error error := by
  have alone : ∀ r, d.request.assembly.isSome = true → m.header.status ≠ .PENDING →
      TransactionResponse.decode m = .ok r →
      m.header.status = .SUCCESS ∨ Closed (d.sent ++ [r]) := by
    intro r reassembles final decoded
    obtain ⟨a, holds⟩ := Option.isSome_iff_exists.mp reassembles
    obtain ⟨parameters, data, rfl⟩ := begun a holds
    rcases ends with pending | success | short
    · exact absurd pending final
    · exact Or.inl success
    · exact Or.inr (closed_of_alone (short parameters data r holds decoded))
  cases answers with
  | interim pending => exact Or.inl (.interim pending)
  | plain final kind => exact Or.inl (.whole final (Or.inl kind))
  | bodyless final failed => exact Or.inl (.whole final (Or.inr failed))
  | garbled reassembles success refused =>
      exact Or.inr ⟨rfl, reassembles, success, _, refused⟩
  | fragment reassembles final decoded open_ =>
      rcases alone _ reassembles final decoded with success | closed
      · exact Or.inl (.fragment reassembles success decoded open_)
      · exact absurd closed open_
  | last reassembles final decoded closed =>
      by_cases success : m.header.status = .SUCCESS
      · exact Or.inl (.last reassembles success decoded closed)
      · exact Or.inl (.whole final (Or.inr success))

/-- A message of status SUCCESS that does not decode corrupts its request. -/
theorem Row.accept_garbled {error : WireError} (row : d.Row e) (active : e.isRetired = false)
    (reassembles : d.request.assembly.isSome = true) (success : m.header.status = .SUCCESS)
    (refused : TransactionResponse.decode m = .error error) (now : Instant)
    (perRequest : Duration) :
    ∃ e', e'.command = d.request.command ∧ e'.outcome = none ∧ e.accept m now perRequest =
      .ok (e', .corrupted, ((e.touch now perRequest).deliver (.error (.wire error))).2) := by
  have touched := row.touch now perRequest
  have active' : (e.touch now perRequest).isRetired = false := by rwa [Entry.isRetired_touch]
  have held := (touched.reassembles active').trans reassembles
  have classified : classify m (e.touch now perRequest).assembly.isSome = .error (.wire error) := by
    unfold classify
    dsimp only
    rw [held, success, if_neg (by decide), if_neg (by decide), if_pos rfl, refused]
  refine ⟨((e.touch now perRequest).deliver (.error (.wire error))).1, ?_, ?_, ?_⟩
  · exact Entry.command_deliver.trans touched.command
  · exact touched.fair.deliver_outcome _
  · unfold Entry.accept
    dsimp only
    rw [classified]
    rfl

/-- A message of a status but SUCCESS and PENDING is complete in what it holds. -/
theorem classify_failed (failed : m.header.status ≠ .SUCCESS)
    (final : m.header.status ≠ .PENDING) (reassembles : Bool) :
    ∃ t, (∀ body, t = some body → ∃ r, TransactionResponse.decode m = .ok r ∧
        body = ⟨r.setup, r.parameters, r.data⟩) ∧ classify m reassembles = .ok (.complete t) := by
  unfold classify
  dsimp only
  rw [if_neg final]
  cases reassembles with
  | false => exact ⟨none, fun _ no => absurd no.symm (Option.some_ne_none _), rfl⟩
  | true =>
      rw [if_neg Bool.noConfusion, if_neg failed]
      cases decoded : TransactionResponse.decode m with
      | error error => exact ⟨none, fun _ no => absurd no.symm (Option.some_ne_none _), rfl⟩
      | ok r => exact ⟨_, fun _ same => ⟨r, rfl, (Option.some.inj same).symm⟩, rfl⟩

theorem accept_failed (e : Entry) (failed : m.header.status ≠ .SUCCESS)
    (final : m.header.status ≠ .PENDING) (now : Instant) (perRequest : Duration) :
    ∃ t, (∀ body, t = some body → ∃ r, TransactionResponse.decode m = .ok r ∧
        body = ⟨r.setup, r.parameters, r.data⟩) ∧
      e.accept m now perRequest = .ok (((e.touch now perRequest).deliver (.ok ⟨m, t⟩)).1,
        .completed, ((e.touch now perRequest).deliver (.ok ⟨m, t⟩)).2) := by
  obtain ⟨t, held, classified⟩ :=
    classify_failed failed final (e.touch now perRequest).assembly.isSome
  refine ⟨t, held, ?_⟩
  unfold Entry.accept
  dsimp only
  rw [classified]

/-- What a row hands out at a message that does not end its request short is whole. -/
theorem Row.whole {step : Step} (row : d.Row e) (active : e.isRetired = false)
    (ends : d.EndsWhole m) (taken : e.accept m now perRequest = .ok (e', step, out)) :
    ∀ effect ∈ out, ∀ reply, effect.outcome = .ok reply → d.Whole m reply := by
  intro effect member reply given parameters data asked t body
  by_cases success : m.header.status = .SUCCESS
  · have reassembles : d.request.assembly.isSome = true := by rw [asked]; rfl
    cases decoded : TransactionResponse.decode m with
    | error error =>
        obtain ⟨e'', -, -, taken'⟩ :=
          row.accept_garbled active reassembles success decoded now perRequest
        rw [taken'] at taken
        cases taken
        rw [outcome_deliver effect member] at given
        cases given
    | ok r =>
        have settles : d.Settles m reply := by
          rcases @Row.accept_fragment _ _ _ now perRequest _ row active reassembles success decoded
            with ⟨-, _, -, taken'⟩ | ⟨-, _, _, tells, taken'⟩ | ⟨_, _, -, -, tells, taken'⟩
          · rw [taken'] at taken
            cases taken
            cases member
          · rw [taken'] at taken
            cases taken
            cases effect with
            | ended hook outcome => exact (tells.owns _ member).2 reply given
            | answered caller outcome => exact (tells.owns _ member).2 reply given
          · rw [taken'] at taken
            cases taken
            cases effect with
            | ended hook outcome => exact (tells.owns _ member).2 reply given
            | answered caller outcome => exact (tells.owns _ member).2 reply given
        obtain ⟨r', t', decoded', body', whole⟩ := settles.blocks parameters data asked success
        rw [body] at body'
        cases body'
        refine decoded ▸ ⟨r', decoded', ?_⟩
        rw [replyOf, if_pos success]
        exact whole
  · by_cases pending : m.header.status = .PENDING
    · unfold Entry.accept classify at taken
      dsimp only at taken
      rw [if_pos pending] at taken
      cases taken
      cases member
    · obtain ⟨t', held, taken'⟩ := accept_failed e success pending now perRequest
      rw [taken'] at taken
      cases taken
      rw [outcome_deliver effect member] at given
      cases given
      obtain ⟨r, decoded, rfl⟩ := held t body
      rcases ends with no | no | short
      · exact absurd no pending
      · exact absurd no success
      · obtain ⟨aloneP, aloneD⟩ := short parameters data r asked decoded
        refine ⟨r, decoded, ?_⟩
        rw [replyOf, if_neg success]
        exact ⟨aloneP.delivered, aloneD.delivered⟩

end Debt

namespace RequestTable

variable {t t' : RequestTable} {m : Message} {now : Instant} {verdict : Except Error Unit}
  {out : List Effect} {front back : List Debt} {d : Debt}

/-- After a message that does not decode, what is owed is still backed. -/
theorem Accepts.backed_garbled {error : WireError} (accepts : t.Accepts m now t' verdict out)
    (backed : Backed t (front ++ d :: back)) (mid : m.header.mid = d.request.mid)
    (reassembles : d.request.assembly.isSome = true) (success : m.header.status = .SUCCESS)
    (refused : TransactionResponse.decode m = .error error) :
    Backed t' (front ++ d :: back) := by
  obtain ⟨e, found, row⟩ := backed.rows d (List.mem_append_right _ List.mem_cons_self)
  rw [← mid] at found
  cases accepts with
  | unknown => exact backed
  | remembered => exact backed
  | mismatched => exact backed
  | continued found' active _ taken =>
      rw [found'] at found
      cases found
      obtain ⟨e', -, -, taken'⟩ := row.accept_garbled active reassembles success refused now
        t.timeouts.perRequest
      rw [taken'] at taken
      cases taken
  | completed found' active _ taken =>
      rw [found'] at found
      cases found
      obtain ⟨e', -, -, taken'⟩ := row.accept_garbled active reassembles success refused now
        t.timeouts.perRequest
      rw [taken'] at taken
      cases taken
  | @corrupted _ kept _ _ found' active _ taken =>
      rw [found'] at found
      cases found
      obtain ⟨e', command', quiet, taken'⟩ := row.accept_garbled active reassembles success refused
        now t.timeouts.perRequest
      obtain ⟨rfl, -⟩ := Prod.mk.inj (Except.ok.inj (taken'.symm.trans taken))
      refine ⟨backed.apart, fun d' member => ?_⟩
      obtain ⟨e'', found'', row''⟩ := backed.rows d' member
      by_cases here : d'.request.mid = m.header.mid
      · rw [here, found'] at found''
        cases found''
        refine ⟨retiredRow e', by rw [here]; exact AList.lookup_insert _, ?_⟩
        exact Debt.row_of_retired (command'.trans (row.command.symm.trans row''.command)) quiet rfl
      · exact ⟨e'', (AList.lookup_insert_ne here).trans found'', row''⟩

/-- What the table hands out at a message that does not end its request short is whole. -/
theorem Accepts.whole {e : Entry} (accepts : t.Accepts m now t' verdict out)
    (found : t.entries.lookup d.request.mid = some e) (row : d.Row e)
    (mid : m.header.mid = d.request.mid) (ends : d.EndsWhole m) :
    ∀ effect ∈ out, ∀ reply, effect.outcome = .ok reply → d.Whole m reply := by
  rw [← mid] at found
  cases accepts with
  | unknown => exact fun _ no => absurd no List.not_mem_nil
  | remembered => exact fun _ no => absurd no List.not_mem_nil
  | mismatched => exact fun _ no => absurd no List.not_mem_nil
  | continued => exact fun _ no => absurd no List.not_mem_nil
  | completed found' active _ taken =>
      rw [found'] at found
      cases found
      exact row.whole active ends taken
  | corrupted found' active _ taken =>
      rw [found'] at found
      cases found
      exact row.whole active ends taken

end RequestTable

/-! ## Every run -/

namespace World

variable {w w' : World} {e : Event} {out : List Effect} {owed : List Debt}

/-- A connection and what its server owes it, where the server answers under any status
and every message it sends is allowed. -/
inductive Heard (limit : ℕ) (timeouts : Timeouts) (allowed : Debt → Message → Prop) :
    World → List Debt → Prop
  | start : Heard limit timeouts allowed (new limit timeouts) []
  | step {w w' : World} {e : Event} {out : List Effect} {owed : List Debt} :
      Heard limit timeouts allowed w owed → (∀ m, e ≠ .inbound (.ok (some (.message m)))) →
      w.step e = some (w', out) → Heard limit timeouts allowed w' (owed ++ w.incurs e)
  | answer {w w' : World} {m : Message} {out : List Effect} {front back : List Debt} {d : Debt}
      {after : Option Debt} : Heard limit timeouts allowed w (front ++ d :: back) →
      m.header.mid = d.request.mid → m.header.command = d.request.command →
      d.Answers m after → allowed d m →
      w.step (.inbound (.ok (some (.message m)))) = some (w', out) →
      Heard limit timeouts allowed w' (front ++ after.toList ++ back)

/-- What every such run keeps: what is owed is backed, and what reassembles started as a
reassembly of what its request asked for. -/
structure OwesAny (w : World) (owed : List Debt) : Prop where
  owes : w.Owes owed
  begun : ∀ d ∈ owed, ∀ a ∈ d.request.assembly, ∃ parameters data, a = .new parameters data

theorem OwesAny.step (owes : w.OwesAny owed)
    (quiet : ∀ m, e ≠ .inbound (.ok (some (.message m)))) (stepped : w.step e = some (w', out)) :
    w'.OwesAny (owed ++ w.incurs e) where
  owes := owes.owes.step quiet stepped
  begun := by
    intro d member
    rcases List.mem_append.mp member with before | incurred
    · exact owes.begun d before
    · unfold incurs at incurred
      split at incurred
      · split at incurred
        · cases incurred
        · obtain ⟨q, queued, rfl⟩ := List.mem_map.mp incurred
          exact owes.owes.begun q (Option.mem_toList.mp queued)
      · cases incurred

theorem OwesAny.answer {m : Message} {front back : List Debt} {d : Debt} {after : Option Debt}
    (owes : w.OwesAny (front ++ d :: back)) (mid : m.header.mid = d.request.mid)
    (command : m.header.command = d.request.command) (answers : d.Answers m after)
    (ends : d.EndsWhole m)
    (stepped : w.step (.inbound (.ok (some (.message m)))) = some (w', out)) :
    w'.OwesAny (front ++ after.toList ++ back) := by
  have mine := owes.begun d (List.mem_append_right _ List.mem_cons_self)
  have later : ∀ d' ∈ after, d'.request = d.request := by
    cases answers with
    | interim => exact fun d' same => by rw [Option.mem_some_iff.mp same]
    | plain => exact fun _ no => absurd no (Option.not_mem_none _)
    | bodyless => exact fun _ no => absurd no (Option.not_mem_none _)
    | garbled => exact fun d' same => by rw [Option.mem_some_iff.mp same]
    | fragment => exact fun d' same => by rw [← Option.mem_some_iff.mp same]
    | last => exact fun _ no => absurd no (Option.not_mem_none _)
  constructor
  · rcases answers.sends ends mine with sends | ⟨rfl, reassembles, success, error, refused⟩
    · exact owes.owes.answer mid command sends stepped
    · have moves := owes.owes.sound.moves stepped
      refine ⟨owes.owes.sound.step stepped, owes.owes.begun_step moves, fun running => ?_⟩
      rw [Option.toList_some, List.append_assoc, List.singleton_append]
      obtain ⟨before, ⟨next, -, -, rfl⟩ | ⟨-, routed, a, accepts, rfl⟩⟩ := moves.message_cases
      · rcases running with no | ⟨_, no⟩ <;> cases no
      · rw [actor_conclude]
        exact accepts.backed_garbled (owes.owes.backed before) mid reassembles success refused
  · intro d' member
    rcases List.mem_append.mp member with member | member
    · rcases List.mem_append.mp member with member | member
      · exact owes.begun d' (List.mem_append_left _ member)
      · rw [later d' (Option.mem_toList.mp member)]
        exact mine
    · exact owes.begun d' (List.mem_append_right _ (List.mem_cons_of_mem _ member))

theorem owesAny_of_heard {limit : ℕ} {timeouts : Timeouts}
    (heard : Heard limit timeouts Debt.EndsWhole w owed) : w.OwesAny owed := by
  induction heard with
  | start =>
      exact ⟨owes_of_served (@Served.start limit timeouts),
        fun _ no => absurd no List.not_mem_nil⟩
  | step _ quiet stepped ih => exact ih.step quiet stepped
  | answer _ mid command answers ends stepped ih => exact ih.answer mid command answers ends stepped

/-- What a step guarantees: what is handed out at a message is whole, and the request's id
leaves the table only where the server owes nothing more of the reply. -/
def NeverPartial (d : Debt) (m : Message) (after : Option Debt) (w' : World)
    (out : List Effect) : Prop :=
  (∀ effect ∈ out, ∀ reply, effect.outcome = .ok reply → d.Whole m reply) ∧
    (d.request.mid ∉ w'.actor.table.entries → after = none)

theorem OwesAny.hands_out_whole {m : Message} {front back : List Debt} {d : Debt}
    {after : Option Debt} (owes : w.OwesAny (front ++ d :: back))
    (mid : m.header.mid = d.request.mid) (command : m.header.command = d.request.command)
    (answers : d.Answers m after) (ends : d.EndsWhole m)
    (stepped : w.step (.inbound (.ok (some (.message m)))) = some (w', out)) :
    NeverPartial d m after w' out := by
  have mine := owes.begun d (List.mem_append_right _ List.mem_cons_self)
  obtain ⟨running, routes⟩ := (owes.owes.sound.moves stepped).message_cases
  have backed := owes.owes.backed running
  obtain ⟨row, found, isRow⟩ := backed.rows d (List.mem_append_right _ List.mem_cons_self)
  rcases routes with ⟨next, -, rfl, rfl⟩ | ⟨-, routed, a, accepts, rfl⟩
  · refine ⟨fun _ no => absurd no List.not_mem_nil, fun left => absurd ?_ left⟩
    rw [actor_conclude]
    exact AList.lookup_isSome.mp (by rw [found]; rfl)
  · refine ⟨accepts.whole found isRow mid ends, fun left => ?_⟩
    rw [actor_conclude] at left
    rcases answers.sends ends mine with sends | ⟨rfl, reassembles, success, error, refused⟩
    · cases owing : after with
      | none => rfl
      | some d' =>
          have later := accepts.backed backed mid command sends
          obtain ⟨row', found', -⟩ := later.rows d' (List.mem_append_left _
            (List.mem_append_right _ (by rw [owing]; exact List.mem_singleton_self _)))
          rw [sends.request_eq d' (by rw [owing]; rfl)] at found'
          exact absurd (AList.lookup_isSome.mp (by rw [found']; rfl)) left
    · have later := accepts.backed_garbled backed mid reassembles success refused
      obtain ⟨row', found', -⟩ := later.rows d (List.mem_append_right _ List.mem_cons_self)
      exact absurd (AList.lookup_isSome.mp (by rw [found']; rfl)) left

/-- **A caller never observes a partial transaction**, in every run none of whose messages
ends its request short; and no other step frees the id of a request that is owed. -/
theorem never_partial (limit : ℕ) (timeouts : Timeouts) :
    ∀ w front d back, Heard limit timeouts Debt.EndsWhole w (front ++ d :: back) →
      (∀ m after w' out, m.header.mid = d.request.mid → m.header.command = d.request.command →
        d.Answers m after → d.EndsWhole m →
          w.step (.inbound (.ok (some (.message m)))) = some (w', out) →
            NeverPartial d m after w' out) ∧
      ∀ e w' out, (∀ m, e ≠ .inbound (.ok (some (.message m)))) → e ≠ .teardown →
        w.Running → w.step e = some (w', out) → d.request.mid ∈ w'.actor.table.entries := by
  intro w front d back heard
  have owes := owesAny_of_heard heard
  refine ⟨fun m after w' out mid command answers ends stepped =>
    owes.hands_out_whole mid command answers ends stepped,
    fun e w' out quiet more running stepped => ?_⟩
  obtain ⟨row, found, -⟩ :=
    (owes.owes.backed running).rows d (List.mem_append_right _ List.mem_cons_self)
  by_contra left
  have held : d.request.mid ∈ w.actor.table.entries :=
    AList.lookup_isSome.mp (by rw [found]; rfl)
  rcases (owes.owes.sound.moves stepped).completes held left with ended | ⟨m, _, _, _, same, -⟩
  · exact more ended
  · exact quiet m same

/-- A message of status BUFFER_OVERFLOW with four bytes of data, out of `total`. -/
def overflowReply (total : UInt8) : Message where
  header := { SmbHeader.request Command.TRANSACTION2 with status := .BUFFER_OVERFLOW, mid := 0 }
  bytes := .replicate 33 0 ++ [0, 0, total, 0, 0, 0, 0, 0, 55, 0, 0, 0, 4, 0, 55, 0, 0, 0, 0, 0] ++
    [4, 0, 1, 2, 3, 4]
  wordCount := 10
  byteCount := 4
  fits := Nat.le_of_ble_eq_true rfl

/-- A transaction for up to eight bytes of data, its reply owed. -/
def overflowDebt : Debt := ⟨⟨0, Command.TRANSACTION2, some 0, some (.new 0 8), none⟩, []⟩

/-- The connection with the transaction on the wire. -/
def overflowWorld : World :=
  ((connection.run (new 1 ⟨1, 1⟩) [.request ⟨Command.TRANSACTION2, 0, 0, [], 0, 8, none⟩,
    .evaluate, .takeRequest false, .evaluate, .written (.ok 36), .evaluate]).getD
      (new 1 ⟨1, 1⟩, [])).1

theorem heard_overflow (allowed : Debt → Message → Prop) :
    Heard 1 ⟨1, 1⟩ allowed overflowWorld [overflowDebt] := by
  have heard : Heard 1 ⟨1, 1⟩ allowed (new 1 ⟨1, 1⟩) [] := .start
  have heard := heard.step (e := .request ⟨Command.TRANSACTION2, 0, 0, [], 0, 8, none⟩)
    (fun _ => nofun) rfl
  have heard := heard.step (e := .evaluate) (fun _ => nofun) rfl
  have heard := heard.step (e := .takeRequest false) (fun _ => nofun) rfl
  have heard := heard.step (e := .evaluate) (fun _ => nofun) rfl
  have heard := heard.step (e := .written (.ok 36)) (fun _ => nofun) rfl
  exact heard.step (e := .evaluate) (fun _ => nofun) rfl

/-- A message that is by itself the whole reply is handed out whole. -/
theorem never_partial_overflow : ∃ w' out,
    overflowWorld.step (.inbound (.ok (some (.message (overflowReply 4))))) = some (w', out) ∧
      NeverPartial overflowDebt (overflowReply 4) none w' out := by
  have r : TransactionResponse.decode (overflowReply 4) =
    .ok ⟨0, 4, 0, 0, 55, 55, [], [], [1, 2, 3, 4]⟩ := rfl
  have whole := never_partial 1 ⟨1, 1⟩ overflowWorld [] overflowDebt [] (heard_overflow _)
  refine ⟨_, _, rfl, whole.1 _ none _ _ rfl rfl (.last rfl (by decide) r ?_) ?_ rfl⟩
  · refine ⟨_, rfl, fun i no => absurd no (Nat.not_lt_zero i), fun i bound => ?_⟩
    exact ⟨_, List.mem_singleton_self _, Nat.zero_le i, bound⟩
  · refine Or.inr (Or.inr fun parameters data r' asked decoded => ?_)
    have room : 8 = data.toNat := congrArg (·.data.asked) (Option.some.inj asked)
    cases r.symm.trans decoded
    refine ⟨⟨rfl, Nat.zero_le _, Or.inl rfl⟩, ⟨rfl, ?_, Or.inr rfl⟩⟩
    exact le_of_le_of_eq (by decide) room

/-- The first four of eight bytes come under BUFFER_OVERFLOW: they are handed out as the
reply, and its id is free while the server owes the rest. -/
theorem overflow_partial :
    ¬ ∀ (limit : ℕ) (timeouts : Timeouts) (w : World) (front : List Debt) (d : Debt)
        (back : List Debt), Heard limit timeouts (fun _ _ => True) w (front ++ d :: back) →
      ∀ m after w' out, m.header.mid = d.request.mid → m.header.command = d.request.command →
        m.header.status ≠ .PENDING → d.Answers m after →
          w.step (.inbound (.ok (some (.message m)))) = some (w', out) →
            NeverPartial d m after w' out := by
  intro claimed
  have r : TransactionResponse.decode (overflowReply 8) =
    .ok ⟨0, 8, 0, 0, 55, 55, [], [], [1, 2, 3, 4]⟩ := rfl
  have owed : ¬ Closed ([] ++ [⟨0, 8, 0, 0, 55, 55, [], [], [1, 2, 3, 4]⟩]) := by
    rintro ⟨last, ends, -, covered⟩
    cases Option.some.inj ends
    obtain ⟨m, member, -, high⟩ := covered 4 (by decide)
    obtain rfl := List.mem_singleton.mp member
    exact absurd high (by decide)
  have whole := claimed 1 ⟨1, 1⟩ overflowWorld [] overflowDebt [] (heard_overflow _)
    (overflowReply 8) _ _ _ rfl rfl (by decide) (.fragment rfl (by decide) r owed) rfl
  have free : (0 : UInt16) ∉ (AList.entries (β := fun _ : UInt16 => Entry) ∅).keys :=
    List.not_mem_nil
  exact absurd (whole.2 free) (Option.some_ne_none _)

end World

end Smb1Client
