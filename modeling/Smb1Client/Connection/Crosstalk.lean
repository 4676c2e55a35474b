import Smb1Client.Connection.Outcomes
import Smb1Client.Connection.ReassemblyCorrect

/-!
No reply reaches a request it was not sent for.

The server is modelled by what it owes: the requests on the wire that it has not
finished answering, each with the fragments it has sent. It answers each at most once
and whole, as late and in whatever order it likes. What carries the proof is that every
debt has its row in the table: an id goes back to the pool exactly when the server is
done with it, or never.
-/

namespace Smb1Client

/-- A request the server has not finished answering, and the fragments it has sent. -/
structure Debt where
  request : Queued
  sent : List TransactionResponse

namespace Debt

/-- One message of the answer, and what is still owed after it: any number of interim
messages, one whole message, or fragments up to the one that closes the reply. -/
inductive Sends (d : Debt) (m : Message) : Option Debt → Prop
  | interim : m.header.status = .PENDING → Sends d m (some d)
  | whole : m.header.status ≠ .PENDING →
      (d.request.assembly = none ∨ m.header.status ≠ .SUCCESS) → Sends d m none
  | fragment {r : TransactionResponse} : d.request.assembly.isSome = true →
      m.header.status = .SUCCESS → TransactionResponse.decode m = .ok r →
      ¬ Closed (d.sent ++ [r]) → Sends d m (some { d with sent := d.sent ++ [r] })
  | last {r : TransactionResponse} : d.request.assembly.isSome = true →
      m.header.status = .SUCCESS → TransactionResponse.decode m = .ok r →
      Closed (d.sent ++ [r]) → Sends d m none

/-- The reply a debt is settled by: the message that settles it, and for a reassembled
reply the blocks of the fragments sent for it. -/
structure Settles (d : Debt) (m : Message) (reply : Reply) : Prop where
  message : reply.message = m
  blocks : ∀ parameters data, d.request.assembly = some (.new parameters data) →
    m.header.status = .SUCCESS → ∃ r t, TransactionResponse.decode m = .ok r ∧
      reply.transaction = some t ∧
      Delivered (·.parameterPiece) parameters.toNat (d.sent ++ [r]) t.parameters ∧
      Delivered (·.dataPiece) data.toNat (d.sent ++ [r]) t.data

/-- What a message sent for a debt may bring about: the debt's own hook and caller are
told, of a reply that settles the debt or of an error. -/
def Owns (d : Debt) (m : Message) : Effect → Prop
  | .ended hook outcome => d.request.outcome = some hook ∧
      ∀ reply, outcome = .ok reply → d.Settles m reply
  | .answered caller outcome => d.request.reply = some caller ∧
      ∀ reply, outcome = .ok reply → d.Settles m reply

/-! ## A debt's row -/

/-- What the table holds for a debt. A row that still waits has the request's hook and
caller, and the bytes of the fragments sent; a lapsed one follows the fragments without
their bytes; a retired one only remembers the command. -/
structure Row (d : Debt) (e : Entry) : Prop where
  command : e.command = d.request.command
  told : e.charges = false → e.outcome = none
  waiting : e.charges = true → e.outcome = d.request.outcome ∧ e.caller = d.request.reply
  reassembles : e.isRetired = false → e.assembly.isSome = d.request.assembly.isSome
  follows : e.isRetired = false → ∀ a ∈ e.assembly, a.Follows d.sent
  buffered : e.charges = true → ∀ parameters data,
    d.request.assembly = some (.new parameters data) →
      ∀ a ∈ e.assembly, a.Reassembles parameters data d.sent

variable {d d' : Debt} {e e' : Entry} {m : Message} {after : Option Debt} {now : Instant}
  {perRequest : Duration} {out : List Effect}

theorem Row.fair (row : d.Row e) : e.Fair fun _ _ => True := ⟨row.told, True.intro⟩

theorem Row.touch (row : d.Row e) (now : Instant) (perRequest : Duration) :
    d.Row (e.touch now perRequest) := by
  obtain ⟨command, assembly, outcome, state⟩ := e
  cases state <;> exact ⟨row.command, row.told, row.waiting, row.reassembles, row.follows,
    row.buffered⟩

/-- A retired row is the row of whatever is still owed on its id. -/
theorem row_of_retired (command : e.command = d.request.command) (told : e.outcome = none)
    (retired : e.isRetired = true) : d.Row e := by
  have uncharged : e.charges = false := by
    unfold Entry.isRetired at retired
    unfold Entry.charges
    split at retired <;> simp_all
  refine ⟨command, fun _ => told, ?_, ?_, ?_, ?_⟩
  · rw [uncharged]
    exact fun no => nomatch no
  · rw [retired]
    exact fun no => nomatch no
  · rw [retired]
    exact fun no => nomatch no
  · rw [uncharged]
    exact fun no => nomatch no

/-- What a row hands out is its debt's. -/
theorem Row.owns_deliver {outcome : Except Error Reply} (row : d.Row e)
    (settles : ∀ reply, outcome = .ok reply → e.charges = true → d.Settles m reply) :
    ∀ effect ∈ (e.deliver outcome).2, d.Owns m effect := by
  rw [row.fair.deliver_told]
  cases charges : e.charges with
  | false =>
      rw [row.told charges, Entry.caller_eq_none charges]
      exact fun _ no => nomatch no
  | true =>
      obtain ⟨hook, caller⟩ := row.waiting charges
      have settles := fun reply same => settles reply same charges
      intro effect member
      rw [Smb1Client.told] at member
      rcases List.mem_append.mp member with member | member
      · obtain ⟨ticket, mine, rfl⟩ := Option.mem_map.mp (Option.mem_toList.mp member)
        exact ⟨hook ▸ mine, settles⟩
      · obtain ⟨ticket, mine, rfl⟩ := Option.mem_map.mp (Option.mem_toList.mp member)
        exact ⟨caller ▸ mine, settles⟩

/-- What a message brings about: the debt's hook and caller are told, and where the row
was still waiting, both of them are. -/
structure Tells (d : Debt) (m : Message) (e : Entry) (out : List Effect) : Prop where
  owns : ∀ effect ∈ out, d.Owns m effect
  told : e.charges = true → ∃ outcome, out = told d.request.outcome d.request.reply outcome

theorem Row.tells_deliver {outcome : Except Error Reply} (row : d.Row e)
    (settles : ∀ reply, outcome = .ok reply → e.charges = true → d.Settles m reply) :
    d.Tells m e (e.deliver outcome).2 where
  owns := row.owns_deliver settles
  told := by
    intro charges
    rw [row.fair.deliver_told, (row.waiting charges).1, (row.waiting charges).2]
    exact ⟨outcome, rfl⟩

theorem deliver_assembly (e : Entry) (assembly : Option Assembly)
    (outcome : Except Error Reply) :
    ({ e with assembly := assembly }.deliver outcome).2 = (e.deliver outcome).2 := by
  obtain ⟨_, _, _, state⟩ := e
  cases state <;> rfl

/-- The parts of a row a message of a reassembly changes. -/
theorem Row.follow {a : Assembly} {r : TransactionResponse} (row : d.Row e)
    (active : e.isRetired = false) (held : e.assembly.isSome = true)
    (follows : a.Follows (d.sent ++ [r]))
    (buffered : e.charges = true → ∀ parameters data,
      d.request.assembly = some (.new parameters data) →
        a.Reassembles parameters data (d.sent ++ [r])) :
    Row { d with sent := d.sent ++ [r] } { e with assembly := some a } where
  command := row.command
  told := row.told
  waiting := row.waiting
  reassembles := fun _ => held.symm.trans (row.reassembles active)
  follows := fun _ _ same => Option.some.inj same ▸ follows
  buffered := fun charges parameters data asked _ same =>
    Option.some.inj same ▸ buffered charges parameters data asked

theorem Tells.of_touched (tells : d.Tells m (e.touch now perRequest) out) : d.Tells m e out where
  owns := tells.owns
  told := fun charges => tells.told (by rwa [Entry.charges_touch])

/-- A fragment sent for a debt either corrupts its row's reassembly, or continues it
short of closing the reply, or closes and completes it. -/
theorem Row.accept_fragment {r : TransactionResponse} (row : d.Row e)
    (active : e.isRetired = false) (reassembles : d.request.assembly.isSome = true)
    (success : m.header.status = .SUCCESS) (decoded : TransactionResponse.decode m = .ok r) :
    (¬ Closed (d.sent ++ [r]) ∧ ∃ e', Row { d with sent := d.sent ++ [r] } e' ∧
        e.accept m now perRequest = .ok (e', .continuing, [])) ∨
      (Closed (d.sent ++ [r]) ∧ ∃ e' out, d.Tells m e out ∧
        e.accept m now perRequest = .ok (e', .completed, out)) ∨
      ∃ e' out, e'.command = d.request.command ∧ e'.outcome = none ∧ d.Tells m e out ∧
        e.accept m now perRequest = .ok (e', .corrupted, out) := by
  have touched := row.touch now perRequest
  have active' : (e.touch now perRequest).isRetired = false := by rwa [Entry.isRetired_touch]
  have held := (touched.reassembles active').trans reassembles
  have classified : classify m (e.touch now perRequest).assembly.isSome = .ok (.fragment r) := by
    unfold classify
    dsimp only
    rw [held, success, if_neg (by decide), if_neg (by decide), if_pos rfl, decoded]
  obtain ⟨a, holds⟩ := Option.isSome_iff_exists.mp held
  unfold Entry.accept
  dsimp only
  rw [classified]
  dsimp only
  rw [holds]
  dsimp only
  cases taken : a.accept r with
  | error error =>
      refine Or.inr (Or.inr ⟨_, _, ?_, ?_, .of_touched (touched.tells_deliver ?_), rfl⟩)
      · exact Entry.command_deliver.trans touched.command
      · exact touched.fair.deliver_outcome _
      · exact fun reply no => nomatch no
  | ok result =>
      obtain ⟨a', progress⟩ := result
      obtain ⟨follows, closed⟩ := (touched.follows active' a holds).accept taken
      have buffered : (e.touch now perRequest).charges = true → ∀ parameters data,
          d.request.assembly = some (.new parameters data) →
            a'.Reassembles parameters data (d.sent ++ [r]) := fun charges parameters data asked =>
        ((touched.buffered charges parameters data asked a holds).accept taken).1
      cases progress with
      | continuing =>
          refine Or.inl ⟨fun whole => (nomatch closed.mpr whole), _, ?_, rfl⟩
          exact touched.follow active' held follows buffered
      | complete =>
          have whole := closed.mp rfl
          refine Or.inr (Or.inl ⟨whole, _, _, ?_, rfl⟩)
          rw [deliver_assembly]
          refine .of_touched (touched.tells_deliver fun reply same charges => ?_)
          cases same
          refine ⟨rfl, fun parameters data asked _ => ⟨r, _, decoded, rfl, ?_⟩⟩
          exact (buffered charges parameters data asked).finish_delivered whole

/-- What a row that is not retired does with a message sent for its debt. It waits on
exactly where more is owed; otherwise the reply completes, or what was sent corrupts
the reassembly. -/
theorem Row.accept (row : d.Row e) (active : e.isRetired = false) (sends : d.Sends m after)
    (now : Instant) (perRequest : Duration) :
    (∃ d' e', after = some d' ∧ d'.request = d.request ∧ d'.Row e' ∧
        e.accept m now perRequest = .ok (e', .continuing, [])) ∨
      (∃ e' out, after = none ∧ d.Tells m e out ∧
        e.accept m now perRequest = .ok (e', .completed, out)) ∨
      ∃ e' out, e'.command = d.request.command ∧ e'.outcome = none ∧ d.Tells m e out ∧
        e.accept m now perRequest = .ok (e', .corrupted, out) := by
  have touched := row.touch now perRequest
  have reassembles := touched.reassembles (by rwa [Entry.isRetired_touch])
  cases sends with
  | interim pending =>
      refine Or.inl ⟨d, _, rfl, rfl, touched, ?_⟩
      unfold Entry.accept classify
      dsimp only
      rw [if_pos pending]
  | whole final kind =>
      have classified : ∃ t, classify m (e.touch now perRequest).assembly.isSome =
          .ok (.complete t) := by
        unfold classify
        dsimp only
        rw [if_neg final]
        split
        · exact ⟨none, rfl⟩
        · next held =>
            rw [if_neg (kind.resolve_left fun plain => held (by rw [reassembles, plain]; rfl))]
            split
            · exact ⟨_, rfl⟩
            · exact ⟨none, rfl⟩
      obtain ⟨t, classified⟩ := classified
      have settles : ∀ reply, (Except.ok ⟨m, t⟩ : Except Error Reply) = .ok reply →
          (e.touch now perRequest).charges = true → d.Settles m reply := by
        intro reply same _
        cases same
        refine ⟨rfl, fun parameters data asked success => ?_⟩
        rcases kind with plain | failed
        · rw [plain] at asked
          cases asked
        · exact absurd success failed
      refine Or.inr (Or.inl ⟨((e.touch now perRequest).deliver (.ok ⟨m, t⟩)).1, _, rfl,
        .of_touched (touched.tells_deliver settles), ?_⟩)
      unfold Entry.accept
      dsimp only
      rw [classified]
  | fragment reassembles success decoded open_ =>
      rcases row.accept_fragment active reassembles success decoded with
        ⟨-, e', row', taken⟩ | ⟨closed, -⟩ | corrupted
      · exact Or.inl ⟨_, e', rfl, rfl, row', taken⟩
      · exact absurd closed open_
      · exact Or.inr (Or.inr corrupted)
  | last reassembles success decoded closed =>
      rcases row.accept_fragment active reassembles success decoded with
        ⟨open_, -⟩ | ⟨-, e', out, tells, taken⟩ | corrupted
      · exact absurd closed open_
      · exact Or.inr (Or.inl ⟨e', out, rfl, tells, taken⟩)
      · exact Or.inr (Or.inr corrupted)

theorem Sends.request_eq (sends : d.Sends m after) : ∀ d' ∈ after, d'.request = d.request := by
  cases sends with
  | interim => exact fun d' same => by rw [Option.mem_some_iff.mp same]
  | whole => exact fun _ no => nomatch no
  | fragment => exact fun d' same => by rw [← Option.mem_some_iff.mp same]
  | last => exact fun _ no => nomatch no

end Debt

/-! ## The table -/

/-- Every debt has its row, and no two are owed on one id. -/
structure Backed (t : RequestTable) (owed : List Debt) : Prop where
  apart : (owed.map (·.request.mid)).Nodup
  rows : ∀ d ∈ owed, ∃ e, t.entries.lookup d.request.mid = some e ∧ d.Row e

theorem Backed.of_entries {t t' : RequestTable} {owed : List Debt} (backed : Backed t owed)
    (same : t'.entries = t.entries) : Backed t' owed where
  apart := backed.apart
  rows := same ▸ backed.rows

namespace RequestTable

variable {t t' : RequestTable} {m : Message} {now : Instant} {verdict : Except Error Unit}
  {out : List Effect} {front back owed : List Debt} {d : Debt} {after : Option Debt}

theorem Accepts.lookup_ne {mid : UInt16} (accepts : t.Accepts m now t' verdict out)
    (other : mid ≠ m.header.mid) : t'.entries.lookup mid = t.entries.lookup mid := by
  cases accepts with
  | unknown => rfl
  | remembered => rfl
  | mismatched => rfl
  | continued => exact AList.lookup_insert_ne other
  | corrupted => exact AList.lookup_insert_ne other
  | completed => exact (AList.lookup_erase_ne other).trans (AList.lookup_insert_ne other)

/-- What a message sent for a debt does to the table that backs the debt. -/
theorem Accepts.row {e : Entry} (accepts : t.Accepts m now t' verdict out)
    (found : t.entries.lookup d.request.mid = some e) (row : d.Row e)
    (mid : m.header.mid = d.request.mid) (command : m.header.command = d.request.command)
    (sends : d.Sends m after) :
    (∀ mid command, verdict ≠ .error (.unroutable mid command)) ∧
      (∀ effect ∈ out, d.Owns m effect) ∧
      (e.charges = true → after = none →
        ∃ outcome, out = told d.request.outcome d.request.reply outcome) ∧
      ∀ d' ∈ after, ∃ e', t'.entries.lookup d'.request.mid = some e' ∧ d'.Row e' := by
  have budgeted : ∀ (n : ℕ) (mid : UInt16) (command : UInt8),
      budget n ≠ .error (.unroutable mid command) := by
    intro n mid command
    unfold budget
    split <;> exact nofun
  have later := sends.request_eq
  rw [← mid] at found
  cases accepts with
  | unknown absent =>
      rw [absent] at found
      cases found
  | mismatched found' _ other =>
      rw [found'] at found
      cases found
      exact absurd (row.command.trans command.symm) other
  | remembered found' retired =>
      rw [found'] at found
      cases found
      have uncharged : e.charges = false := by
        unfold Entry.isRetired at retired
        unfold Entry.charges
        split at retired <;> simp_all
      refine ⟨fun _ _ => nofun, fun _ no => (nomatch no), fun charges => ?_, fun d' member => ?_⟩
      · rw [uncharged] at charges
        cases charges
      · have same := later d' member
        refine ⟨e, by rw [same, ← mid, found'], ?_⟩
        exact Debt.row_of_retired (by rw [same, row.command]) (row.told uncharged) retired
  | continued found' active _ taken =>
      rw [found'] at found
      cases found
      rcases row.accept active sends now t.timeouts.perRequest with
        ⟨d', e', owes, same, row', taken'⟩ | ⟨e', out', -, -, taken'⟩ | ⟨e', out', -, -, -, taken'⟩
      · rw [taken] at taken'
        cases taken'
        refine ⟨fun _ _ => nofun, fun _ no => (nomatch no), fun _ none => ?_, fun d'' member => ?_⟩
        · rw [owes] at none
          cases none
        · rw [owes] at member
          cases member
          refine ⟨_, ?_, row'⟩
          rw [same, ← mid]
          exact AList.lookup_insert _
      · rw [taken] at taken'
        cases taken'
      · rw [taken] at taken'
        cases taken'
  | completed found' active _ taken =>
      rw [found'] at found
      cases found
      rcases row.accept active sends now t.timeouts.perRequest with
        ⟨d', e', -, -, -, taken'⟩ | ⟨e', out', settled, tells, taken'⟩ | ⟨e', out', -, -, -, taken'⟩
      · rw [taken] at taken'
        cases taken'
      · rw [taken] at taken'
        cases taken'
        refine ⟨fun _ _ => nofun, tells.owns, fun charges _ => tells.told charges, ?_⟩
        rw [settled]
        exact fun _ no => nomatch no
      · rw [taken] at taken'
        cases taken'
  | @corrupted _ kept _ _ found' active _ taken =>
      rw [found'] at found
      cases found
      rcases row.accept active sends now t.timeouts.perRequest with
        ⟨d', e', -, -, -, taken'⟩ | ⟨e', out', -, -, taken'⟩ |
          ⟨e', out', command', quiet, tells, taken'⟩
      · rw [taken] at taken'
        cases taken'
      · rw [taken] at taken'
        cases taken'
      · rw [taken] at taken'
        cases taken'
        refine ⟨budgeted _, tells.owns, fun charges _ => tells.told charges, fun d' member => ?_⟩
        have same := later d' member
        refine ⟨retiredRow kept, ?_, Debt.row_of_retired (by rw [same]; exact command') quiet rfl⟩
        rw [same, ← mid]
        exact AList.lookup_insert _

/-- After a message sent for a debt, what is still owed is backed. -/
theorem Accepts.backed (accepts : t.Accepts m now t' verdict out)
    (backed : Backed t (front ++ d :: back)) (mid : m.header.mid = d.request.mid)
    (command : m.header.command = d.request.command) (sends : d.Sends m after) :
    Backed t' (front ++ after.toList ++ back) := by
  have apart := backed.apart
  rw [List.map_append, List.map_cons] at apart
  obtain ⟨e, found, row⟩ := backed.rows d (List.mem_append_right _ List.mem_cons_self)
  have mine := (accepts.row found row mid command sends).2.2.2
  have others : ∀ d' ∈ front ++ back, ∃ e, t'.entries.lookup d'.request.mid = some e ∧
      d'.Row e := by
    intro d' member
    have other : d'.request.mid ≠ d.request.mid := by
      rw [List.nodup_middle, List.nodup_cons, ← List.map_append] at apart
      intro same
      exact apart.1 (same ▸ List.mem_map_of_mem member)
    rw [accepts.lookup_ne (mid ▸ other)]
    refine backed.rows d' ?_
    rcases List.mem_append.mp member with member | member
    · exact List.mem_append_left _ member
    · exact List.mem_append_right _ (List.mem_cons_of_mem _ member)
  constructor
  · refine List.Nodup.sublist ?_ apart
    rw [List.append_assoc, List.map_append, List.map_append]
    refine List.Sublist.append_left ?_ _
    cases after with
    | none => exact List.sublist_cons_self _ _
    | some d' =>
        rw [Option.toList_some, List.map_singleton, sends.request_eq d' rfl]
        exact List.Sublist.refl _
  · intro d' member
    rcases List.mem_append.mp member with member | member
    · rcases List.mem_append.mp member with member | member
      · exact others d' (List.mem_append_left _ member)
      · exact mine d' (Option.mem_toList.mp member)
    · exact others d' (List.mem_append_right _ member)

/-- Changing a row that goes on being the row of what is owed on its id. -/
theorem backed_insert {mid : UInt16} {e e' : Entry} (backed : Backed t owed)
    (found : t.entries.lookup mid = some e) (keeps : ∀ d : Debt, d.Row e → d.Row e')
    (changed : t'.entries = t.entries.insert mid e') : Backed t' owed where
  apart := backed.apart
  rows := by
    intro d member
    obtain ⟨row, held, isRow⟩ := backed.rows d member
    rw [changed]
    by_cases here : d.request.mid = mid
    · rw [here, found] at held
      cases held
      exact ⟨e', by rw [here, AList.lookup_insert], keeps d isRow⟩
    · exact ⟨row, by rw [AList.lookup_insert_ne here, held], isRow⟩

theorem Fires.backed {deadline : Deadline} (fires : t.Fires deadline now t' verdict out)
    (backed : Backed t owed) : Backed t' owed := by
  cases fires with
  | @lapsed e found charges =>
      have active : e.isRetired = false := by
        unfold Entry.charges at charges
        unfold Entry.isRetired
        split at charges <;> simp_all
      refine backed_insert backed found (fun d row => ?_) rfl
      have assembly : (lapsedRow e (t.giveUpAt now)).assembly = e.assembly.map (·.release) := by
        rw [← Entry.assembly_deliver (e := e)]
        rfl
      refine ⟨Entry.command_deliver.trans row.command, fun _ => row.fair.deliver_outcome _,
        fun no => (nomatch no), fun _ => ?_, fun _ => ?_, fun no => (nomatch no)⟩
      · rw [assembly, Option.isSome_map, row.reassembles active]
      · rw [assembly]
        intro a member
        obtain ⟨before, held, rfl⟩ := Option.mem_map.mp member
        exact (row.follows active before held).release
  | gaveUp found state =>
      refine backed_insert backed found (fun d row => ?_) rfl
      exact Debt.row_of_retired row.command (row.told (by rw [Entry.charges, state])) rfl

theorem Expires.backed (expires : Expires now t t' verdict out) (backed : Backed t owed) :
    Backed t' owed := by
  induction expires with
  | done => exact backed
  | stop _ _ fires => exact fires.backed backed
  | turn _ _ fires _ ih => exact ih (fires.backed backed)

/-- A request's first bytes on the wire are a debt, on an id nothing else is owed on. -/
theorem backed_dispatch {q : Queued} (backed : Backed t owed) (absent : q.mid ∉ t.entries)
    (begun : ∀ a ∈ q.assembly, ∃ parameters data, a = .new parameters data) :
    Backed (t.dispatch q.mid q.command q.reply q.assembly q.outcome now) (owed ++ [⟨q, []⟩]) := by
  have none := AList.lookup_eq_none.mpr absent
  constructor
  · rw [List.map_append, List.map_singleton, ← List.concat_eq_append, List.nodup_concat]
    refine ⟨fun member => ?_, backed.apart⟩
    obtain ⟨d, member, same⟩ := List.mem_map.mp member
    obtain ⟨e, held, -⟩ := backed.rows d member
    rw [same, none] at held
    cases held
  · intro d member
    rcases List.mem_append.mp member with member | member
    · obtain ⟨e, held, row⟩ := backed.rows d member
      have other : d.request.mid ≠ q.mid := by
        intro same
        rw [same, none] at held
        cases held
      exact ⟨e, (AList.lookup_insert_ne other).trans held, row⟩
    · obtain rfl := List.mem_singleton.mp member
      refine ⟨_, AList.lookup_insert _, rfl, fun no => (nomatch no), fun _ => ⟨rfl, rfl⟩,
        fun _ => rfl, fun _ a held => ?_, fun _ parameters data asked a held => ?_⟩
      · obtain ⟨parameters, data, rfl⟩ := begun a held
        exact Assembly.reassembles_new.follows
      · have same : q.assembly = some (.new parameters data) := asked
        have held : q.assembly = some a := held
        rw [same] at held
        cases held
        exact Assembly.reassembles_new

end RequestTable

/-! ## Every run -/

namespace World

variable {w w' : World} {e : Event} {out : List Effect} {owed : List Debt}

/-- The task is in its loop. -/
def Running (w : World) : Prop := w.phase = .head ∨ ∃ guards, w.phase = .selecting guards

/-- What a step leaves the server owing: a request with its first bytes on the wire. -/
def incurs (w : World) : Event → List Debt
  | .written (.ok written) =>
      if written = 0 then [] else w.actor.queued.toList.map fun q => ⟨q, []⟩
  | _ => []

/-- A connection, and what its server owes it. Every step a connection can take is one
here, except that a message comes only in answer to a debt. -/
inductive Served (limit : ℕ) (timeouts : Timeouts) : World → List Debt → Prop
  | start : Served limit timeouts (new limit timeouts) []
  | step {w w' : World} {e : Event} {out : List Effect} {owed : List Debt} :
      Served limit timeouts w owed → (∀ m, e ≠ .inbound (.ok (some (.message m)))) →
      w.step e = some (w', out) → Served limit timeouts w' (owed ++ w.incurs e)
  | answer {w w' : World} {m : Message} {out : List Effect} {front back : List Debt} {d : Debt}
      {after : Option Debt} : Served limit timeouts w (front ++ d :: back) →
      m.header.mid = d.request.mid → m.header.command = d.request.command → d.Sends m after →
      w.step (.inbound (.ok (some (.message m)))) = some (w', out) →
      Served limit timeouts w' (front ++ after.toList ++ back)

/-- What every run against such a server keeps. -/
structure Owes (w : World) (owed : List Debt) : Prop where
  sound : w.Sound
  begun : ∀ q ∈ w.actor.queued, ∀ a ∈ q.assembly, ∃ parameters data, a = .new parameters data
  backed : w.Running → Backed w.actor.table owed

theorem Running.live (running : w.Running) : w.phase ≠ .gone := by
  rcases running with head | ⟨guards, selecting⟩
  · rw [head]
    exact nofun
  · rw [selecting]
    exact nofun

theorem Moves.not_teardown (moves : w.Moves e w' out) (running : w'.Running) : e ≠ .teardown := by
  intro same
  cases moves with
  | teardown => exact absurd rfl running.live
  | @took _ isClose => cases isClose <;> cases same
  | @channelEnded _ isClose => cases isClose <;> cases same
  | _ => cases same

theorem incurs_eq_nil (nothing : ∀ written, e = .written (.ok written) → written = 0) :
    w.incurs e = [] := by
  unfold incurs
  split
  · next written => rw [if_pos (nothing written rfl)]
  · rfl

/-- A step into the loop is a step from the loop. -/
theorem Moves.running (moves : w.Moves e w' out) (running : w'.Running) : w.Running := by
  cases moves with
  | request => exact running
  | close => exact running
  | dropRequests => exact running
  | dropCloses => exact running
  | advance => exact running
  | finished phase => exact Or.inl phase
  | waits phase => exact Or.inl phase
  | took phase => exact Or.inr ⟨_, phase⟩
  | channelEnded phase => exact Or.inr ⟨_, phase⟩
  | unrouted _ phase => exact Or.inr ⟨_, phase⟩
  | routed _ phase => exact Or.inr ⟨_, phase⟩
  | writeFailed _ phase => exact Or.inr ⟨_, phase⟩
  | wrote phase => exact Or.inr ⟨_, phase⟩
  | silent phase => exact Or.inr ⟨_, phase⟩
  | ticked phase => exact Or.inr ⟨_, phase⟩
  | teardown => rcases running with no | ⟨_, no⟩ <;> cases no

/-- What a step leaves in the write that has not reached the table. -/
theorem Moves.queued_cases (moves : w.Moves e w' out) :
    w'.actor.queued = w.actor.queued ∨ w'.actor.queued = none ∨
      ∃ mid command reply request outcome, w'.actor.queued =
        some ⟨mid, command, reply, Actor.assemblyFor request, outcome⟩ := by
  cases moves with
  | finished =>
      obtain ⟨closes, frame⟩ := w.actor.resetRun_frame
      exact Or.inl (by dsimp only; rw [frame]; rfl)
  | waits =>
      obtain ⟨closes, frame⟩ := w.actor.resetRun_frame
      exact Or.inl (by dsimp only; rw [frame]; rfl)
  | @took _ isClose _ _ rest _ _ _ _ _ _ begins =>
      rw [actor_conclude]
      have same : (taking w.actor isClose rest).queued = w.actor.queued :=
        Actor.queued_congr writing_taking
      cases begins with
      | forgone => exact Or.inl same
      | exhausted => exact Or.inl same
      | unsendable => exact Or.inl same
      | started => exact Or.inr (Or.inr ⟨_, _, _, _, _, rfl⟩)
  | @channelEnded _ isClose => cases isClose <;> exact Or.inl rfl
  | unrouted => exact Or.inl (by rw [actor_conclude])
  | routed => exact Or.inl (by rw [actor_conclude]; rfl)
  | writeFailed => exact Or.inl (by rw [actor_conclude])
  | wrote => exact Or.inr (Or.inl (by rw [actor_conclude, Actor.queued, Actor.queued_writingAfter]))
  | silent => exact Or.inl (by rw [actor_conclude])
  | ticked => exact Or.inl (by rw [actor_conclude]; rfl)
  | teardown => exact Or.inr (Or.inl rfl)
  | _ => exact Or.inl rfl

theorem Owes.begun_step (owes : w.Owes owed) (moves : w.Moves e w' out) :
    ∀ q ∈ w'.actor.queued, ∀ a ∈ q.assembly, ∃ parameters data, a = .new parameters data := by
  rcases moves.queued_cases with same | none | ⟨mid, command, reply, request, outcome, started⟩
  · rw [same]
    exact owes.begun
  · rw [none]
    exact fun _ no => nomatch no
  · rw [started]
    rintro q ⟨⟩ a member
    simp only [Actor.assemblyFor] at member
    split at member
    · cases member
      exact ⟨_, _, rfl⟩
    · cases member

/-- Every step but a message's keeps what is owed backed. -/
theorem Owes.step (owes : w.Owes owed) (quiet : ∀ m, e ≠ .inbound (.ok (some (.message m))))
    (stepped : w.step e = some (w', out)) : w'.Owes (owed ++ w.incurs e) := by
  have moves := owes.sound.moves stepped
  refine ⟨owes.sound.step stepped, owes.begun_step moves, fun running => ?_⟩
  have before := moves.running running
  have backed := owes.backed before
  rcases moves.rows with
    ⟨same, nothing⟩ | ⟨message, routed, rfl, -⟩ | ⟨written, rfl, some, table⟩ |
      ⟨verdict, rfl, expires⟩ | rfl
  · rw [incurs_eq_nil nothing, List.append_nil]
    exact backed.of_entries same
  · exact absurd rfl (quiet message)
  · rw [incurs, if_neg some, table]
    unfold Actor.dispatchQueued
    cases half : w.actor.queued with
    | none => rwa [Option.toList_none, List.map_nil, List.append_nil]
    | some q =>
        have absent := (owes.sound.actor before.live).free q half
        exact RequestTable.backed_dispatch backed absent (owes.begun q half)
  · have nothing : w.incurs .timer = [] := rfl
    rw [nothing, List.append_nil]
    exact expires.backed backed
  · exact absurd rfl (moves.not_teardown running)

/-- A message is routed, unless it claims to chain a command, which ends the
connection. -/
theorem Moves.message_cases {m : Message}
    (moves : w.Moves (.inbound (.ok (some (.message m)))) w' out) :
    w.Running ∧ ((∃ next, chainedCommand m = some next ∧ out = [] ∧
        w' = w.conclude w.actor (.error (.chainedResponse next))) ∨
      chainedCommand m = none ∧ ∃ routed a, w.actor.table.Accepts m w.clock a.table routed out ∧
        w' = w.conclude a (Actor.sessionVerdict m routed)) := by
  generalize event : (Event.inbound (.ok (some (.message m)))) = e at moves
  cases moves with
  | unrouted verdict phase chained =>
      cases event
      obtain ⟨next, chains, rfl⟩ := chained m rfl
      exact ⟨Or.inr ⟨_, phase⟩, Or.inl ⟨next, chains, rfl, rfl⟩⟩
  | routed routed phase unchained accepts =>
      cases event
      exact ⟨Or.inr ⟨_, phase⟩, Or.inr ⟨unchained, routed, _, accepts, rfl⟩⟩
  | @took _ isClose => cases isClose <;> cases event
  | @channelEnded _ isClose => cases isClose <;> cases event
  | _ => cases event

/-- A message sent for a debt keeps what is owed backed. -/
theorem Owes.answer {m : Message} {front back : List Debt} {d : Debt} {after : Option Debt}
    (owes : w.Owes (front ++ d :: back)) (mid : m.header.mid = d.request.mid)
    (command : m.header.command = d.request.command) (sends : d.Sends m after)
    (stepped : w.step (.inbound (.ok (some (.message m)))) = some (w', out)) :
    w'.Owes (front ++ after.toList ++ back) := by
  have moves := owes.sound.moves stepped
  refine ⟨owes.sound.step stepped, owes.begun_step moves, fun running => ?_⟩
  obtain ⟨before, ⟨next, -, -, rfl⟩ | ⟨-, routed, a, accepts, rfl⟩⟩ := moves.message_cases
  · rcases running with no | ⟨_, no⟩ <;> cases no
  · rw [actor_conclude]
    exact accepts.backed (owes.backed before) mid command sends

theorem owes_of_served {limit : ℕ} {timeouts : Timeouts} (served : Served limit timeouts w owed) :
    w.Owes owed := by
  induction served with
  | start =>
      refine ⟨sound_new limit timeouts, fun _ no => (nomatch no), fun _ => ⟨List.nodup_nil, ?_⟩⟩
      exact fun _ no => nomatch no
  | step _ quiet stepped ih => exact ih.step quiet stepped
  | answer _ mid command sends stepped ih => exact ih.answer mid command sends stepped

/-- **Multiplex-id safety.** In every run, an id is handed out only with no frame being written,
is one of the pool and is held by no row; none is refused while one is free; and an id leaves
the table only with the connection or by the message that completes its request's reply, and a
retired one, as a corrupted one is, never does. Hence, against a server that answers each
request at most once and whole, every message goes to the row of the request it was sent for,
and tells nobody but that request's own hook and caller. -/
theorem mid_safety (limit : ℕ) (timeouts : Timeouts) :
    (∀ es w log, connection.run (new limit timeouts) es = some (w, log) → w.phase ≠ .gone →
      (∀ guards isClose, w.phase = .selecting guards → guard guards isClose = true →
        w.actor.writing = none) ∧
      (∀ q ∈ w.actor.queued, q.mid ≠ 0xFFFF ∧ q.mid ∉ w.actor.table.entries) ∧
      (∀ mid, w.actor.table.allocate.1 = some mid → mid ≠ 0xFFFF ∧ mid ∉ w.actor.table.entries) ∧
      (w.actor.table.allocate.1 = none → ∀ mid, mid ≠ 0xFFFF → mid ∈ w.actor.table.entries) ∧
      ∀ e w' out, w.step e = some (w', out) → e ≠ .teardown →
        (∀ mid ∈ w.actor.table.entries, mid ∉ w'.actor.table.entries →
          ∃ message entry entry' out', e = .inbound (.ok (some (.message message))) ∧
            message.header.mid = mid ∧ w.actor.table.entries.lookup mid = some entry ∧
            entry.isRetired = false ∧ entry.command = message.header.command ∧
            entry.accept message w.clock w.actor.table.timeouts.perRequest =
              .ok (entry', .completed, out')) ∧
        (∀ message entry entry' out', e = .inbound (.ok (some (.message message))) →
          chainedCommand message = none →
          w.actor.table.entries.lookup message.header.mid = some entry →
          entry.isRetired = false → entry.command = message.header.command →
          entry.accept message w.clock w.actor.table.timeouts.perRequest =
            .ok (entry', .corrupted, out') →
          ∃ row, w'.actor.table.entries.lookup message.header.mid = some row ∧
            row.isRetired = true) ∧
        ∀ mid row, w.actor.table.entries.lookup mid = some row → row.isRetired = true →
          w'.actor.table.entries.lookup mid = some row) ∧
    ∀ w front d back, Served limit timeouts w (front ++ d :: back) →
      ∀ m after w' out, m.header.mid = d.request.mid → m.header.command = d.request.command →
        d.Sends m after → w.step (.inbound (.ok (some (.message m)))) = some (w', out) →
          (∀ mid command, w'.phase ≠ .stopped (.error (.unroutable mid command))) ∧
          (∀ effect ∈ out, d.Owns m effect) ∧
          (∀ mid, mid ≠ d.request.mid →
            w'.actor.table.entries.lookup mid = w.actor.table.entries.lookup mid) ∧
          ∃ row, w.actor.table.entries.lookup d.request.mid = some row ∧ d.Row row ∧
            (row.charges = true → after = none → chainedCommand m = none →
              ∃ outcome, out = told d.request.outcome d.request.reply outcome) := by
  constructor
  · intro es w log ran live
    obtain ⟨sound, pooled⟩ := pooled_of_run ran
    have actor := sound.actor live
    refine ⟨fun guards isClose phase opened => (sound.admits guards isClose phase opened).1,
      fun q queued => ⟨pooled.queued q queued, actor.free q queued⟩, fun mid allocated => ?_,
      fun exhausted mid valid => ?_, fun e w' out stepped more => ⟨fun mid held left => ?_, ?_,
      fun mid row held retired => ?_⟩⟩
    · exact ⟨(RequestTable.allocate_valid pooled.cursor).1 mid allocated,
        RequestTable.allocate_absent allocated⟩
    · exact RequestTable.allocate_exhausted pooled.cursor pooled.rows exhausted valid
    · exact ((sound.moves stepped).completes held left).resolve_left more
    · rintro message entry entry' out' rfl unchained found active command taken
      obtain ⟨-, ⟨next, chained, -⟩ | ⟨-, routed, a, accepts, rfl⟩⟩ :=
        (sound.moves stepped).message_cases
      · rw [chained] at unchained
        cases unchained
      · rw [actor_conclude]
        exact accepts.corrupts found active command taken
    · exact ((sound.moves stepped).keeps_retired sound live held retired).resolve_left more
  · intro w front d back served m after w' out mid command sends stepped
    have owes := owes_of_served served
    obtain ⟨running, routes⟩ := (owes.sound.moves stepped).message_cases
    obtain ⟨row, found, isRow⟩ :=
      (owes.backed running).rows d (List.mem_append_right _ List.mem_cons_self)
    rcases routes with ⟨next, chained, rfl, rfl⟩ | ⟨-, routed, a, accepts, rfl⟩
    · refine ⟨fun _ _ => nofun, fun _ no => (nomatch no), fun _ _ => rfl, row, found, isRow, ?_⟩
      intro _ _ unchained
      rw [chained] at unchained
      cases unchained
    · obtain ⟨routable, owns, tells, -⟩ := accepts.row found isRow mid command sends
      rw [actor_conclude]
      refine ⟨fun m' c stopped => ?_, owns, fun m' other => accepts.lookup_ne (mid ▸ other), row,
        found, isRow, fun charges settled _ => tells charges settled⟩
      cases routed with
      | error error =>
          cases stopped
          exact routable m' c rfl
      | ok =>
          unfold Actor.sessionVerdict at stopped
          dsimp only at stopped
          split at stopped <;> cases stopped

/-- The reply to an echo request of this id. -/
def echoReply (mid : UInt16) : Message where
  header := { SmbHeader.request Command.ECHO with mid }
  bytes := .replicate 35 0
  wordCount := 0
  byteCount := 0
  fits := Message.fits_empty

/-- An echo request on the wire, owed its reply. -/
def echoDebt (mid : UInt16) (caller : Ticket) : Debt :=
  ⟨⟨mid, Command.ECHO, some caller, none, none⟩, []⟩

/-- Of two echoes the one asked last is answered first, and its caller is told. -/
theorem mid_safety_echoes : ∃ w w' out,
    Served 2 ⟨1, 1⟩ w [echoDebt 0 0, echoDebt 1 1] ∧
      w.step (.inbound (.ok (some (.message (echoReply 1))))) = some (w', out) ∧
      (∀ effect ∈ out, (echoDebt 1 1).Owns (echoReply 1) effect) ∧
      w'.actor.table.entries.lookup 0 = w.actor.table.entries.lookup 0 ∧
      ∃ outcome, out = told none (some 1) outcome := by
  have served : Served 2 ⟨1, 1⟩ (new 2 ⟨1, 1⟩) [] := .start
  have served := served.step (e := .request (bareRequest Command.ECHO)) (fun _ => nofun) rfl
  have served := served.step (e := .request (bareRequest Command.ECHO)) (fun _ => nofun) rfl
  have served := served.step (e := .evaluate) (fun _ => nofun) rfl
  have served := served.step (e := .takeRequest false) (fun _ => nofun) rfl
  have served := served.step (e := .evaluate) (fun _ => nofun) rfl
  have served := served.step (e := .written (.ok 36)) (fun _ => nofun) rfl
  have served := served.step (e := .evaluate) (fun _ => nofun) rfl
  have served := served.step (e := .takeRequest false) (fun _ => nofun) rfl
  have served := served.step (e := .evaluate) (fun _ => nofun) rfl
  have served := served.step (e := .written (.ok 36)) (fun _ => nofun) rfl
  have served := served.step (e := .evaluate) (fun _ => nofun) rfl
  obtain ⟨-, owned, others, row, found, -, tells⟩ := (mid_safety 2 ⟨1, 1⟩).2 _ [echoDebt 0 0]
    (echoDebt 1 1) [] served (echoReply 1) none _ _ rfl rfl (.whole (by decide) (Or.inl rfl)) rfl
  cases found
  exact ⟨_, _, _, served, rfl, owned, others 0 (by decide), tells rfl rfl rfl⟩

end World

end Smb1Client
