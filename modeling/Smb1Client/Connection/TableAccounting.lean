import Smb1Client.Connection.Table

/-!
The four pieces of bookkeeping of the request table agree, and none of its panics is
reached.

`RequestTable.Accounts` says what the counters and the expiry index hold in terms of
the entries. What one operation does to one row is said once (`Entry.accept_cases`,
`RequestTable.fire_cases`, `RequestTable.accept_cases`); that every operation keeps
the accounts follows row by row.
-/

namespace Smb1Client

open TableTotal

/-! ## One row -/

namespace Entry

variable {e : Entry} {message : Message} {now : Instant} {perRequest : Duration}

/-- One for a row that charges capacity. -/
def charge (e : Entry) : ℕ := if e.charges then 1 else 0

/-- One for a row that only remembers an identity. -/
def remembrance (e : Entry) : ℕ := if e.isRetired then 1 else 0

@[simp] theorem command_touch : (e.touch now perRequest).command = e.command := by
  obtain ⟨_, _, _, state⟩ := e
  cases state <;> rfl

@[simp] theorem assembly_touch : (e.touch now perRequest).assembly = e.assembly := by
  obtain ⟨_, _, _, state⟩ := e
  cases state <;> rfl

@[simp] theorem outcome_touch : (e.touch now perRequest).outcome = e.outcome := by
  obtain ⟨_, _, _, state⟩ := e
  cases state <;> rfl

@[simp] theorem charges_touch : (e.touch now perRequest).charges = e.charges := by
  obtain ⟨_, _, _, state⟩ := e
  cases state <;> rfl

@[simp] theorem isRetired_touch : (e.touch now perRequest).isRetired = e.isRetired := by
  obtain ⟨_, _, _, state⟩ := e
  cases state <;> rfl

@[simp] theorem command_deliver {outcome : Except Error Reply} :
    (e.deliver outcome).1.command = e.command := by
  obtain ⟨_, _, _, state⟩ := e
  cases state <;> rfl

@[simp] theorem assembly_deliver {outcome : Except Error Reply} :
    (e.deliver outcome).1.assembly = e.assembly := by
  obtain ⟨_, _, _, state⟩ := e
  cases state <;> rfl

@[simp] theorem charges_deliver {outcome : Except Error Reply} :
    (e.deliver outcome).1.charges = e.charges := by
  obtain ⟨_, _, _, state⟩ := e
  cases state <;> rfl

@[simp] theorem isRetired_deliver {outcome : Except Error Reply} :
    (e.deliver outcome).1.isRetired = e.isRetired := by
  obtain ⟨_, _, _, state⟩ := e
  cases state <;> rfl

/-- What one message does to a request: it waits on, it ends with an error, or it
ends with a reply that carries the message. No panic is among the cases. -/
theorem accept_cases (e : Entry) (message : Message) (now : Instant) (perRequest : Duration) :
    (∃ assembly, e.accept message now perRequest =
        .ok ({ e.touch now perRequest with assembly := assembly }, .continuing, [])) ∨
      (∃ error, e.accept message now perRequest =
        .ok (((e.touch now perRequest).deliver (.error error)).1, .corrupted,
          ((e.touch now perRequest).deliver (.error error)).2)) ∨
      ∃ assembly transaction, e.accept message now perRequest =
        .ok (({ e.touch now perRequest with assembly := assembly }.deliver
            (.ok { message, transaction })).1, .completed,
          ({ e.touch now perRequest with assembly := assembly }.deliver
            (.ok { message, transaction })).2) := by
  unfold accept
  dsimp only
  cases arrival : classify message (e.touch now perRequest).assembly.isSome with
  | error error => exact Or.inr (Or.inl ⟨error, rfl⟩)
  | ok arrival' =>
      cases arrival' with
      | interim => exact Or.inl ⟨(e.touch now perRequest).assembly, rfl⟩
      | complete transaction =>
          exact Or.inr (Or.inr ⟨(e.touch now perRequest).assembly, transaction, rfl⟩)
      | fragment response =>
          cases held : (e.touch now perRequest).assembly with
          | none =>
              -- Only a request holding a reassembly classifies a fragment.
              rw [held, classify] at arrival
              dsimp only [Option.isSome_none] at arrival
              rw [if_pos rfl] at arrival
              split at arrival <;> cases arrival
          | some assembly =>
              dsimp only
              cases assembly.accept response with
              | error error => exact Or.inr (Or.inl ⟨.reassembly error, rfl⟩)
              | ok result =>
                  obtain ⟨assembly', progress⟩ := result
                  cases progress with
                  | continuing => exact Or.inl ⟨some assembly', rfl⟩
                  | complete => exact Or.inr (Or.inr ⟨none, _, rfl⟩)

end Entry

/-! ## The expiry index -/

/-- When the request that holds an id next needs attention. -/
def deadlineOf (entries : AList (fun _ : UInt16 => Entry)) (mid : UInt16) : Option Instant :=
  (entries.lookup mid).bind (·.expiresAt)

/-- The index holds one deadline for each id that has one, and nothing else. -/
def Indexed (expiry : Finset Deadline) (entries : AList (fun _ : UInt16 => Entry)) : Prop :=
  ∀ d : Deadline, d ∈ expiry ↔ deadlineOf entries d.mid = some d.instant

section Index

variable {expiry : Finset Deadline} {entries entries' : AList (fun _ : UInt16 => Entry)}
  {mid : UInt16} {instant : Instant}

/-- Removing an id's deadline leaves the deadlines of the other ids. -/
theorem Indexed.mem_erase (indexed : Indexed expiry entries)
    (due : deadlineOf entries mid = some instant) (d : Deadline) :
    d ∈ expiry.erase ⟨instant, mid⟩ ↔ d.mid ≠ mid ∧ d ∈ expiry := by
  rw [Finset.mem_erase]
  refine and_congr_left fun member => ⟨fun other same => other ?_, fun other same => other ?_⟩
  · have due' := (indexed d).mp member
    rw [same, due] at due'
    obtain ⟨instant', mid'⟩ := d
    simp_all
  · rw [same]

theorem Indexed.mem_withdraw (indexed : Indexed expiry entries) (d : Deadline) :
    d ∈ RequestTable.withdraw expiry mid (deadlineOf entries mid) ↔ d.mid ≠ mid ∧ d ∈ expiry := by
  cases due : deadlineOf entries mid with
  | some instant => exact indexed.mem_erase due d
  | none =>
      refine ⟨fun member => ⟨fun same => ?_, member⟩, And.right⟩
      have own := (indexed d).mp member
      rw [same, due] at own
      cases own

theorem mem_enter {after : Option Instant} (d : Deadline) :
    d ∈ RequestTable.enter expiry mid after ↔
      d.mid = mid ∧ after = some d.instant ∨ d ∈ expiry := by
  obtain ⟨instant, mid'⟩ := d
  cases after with
  | none => simp [RequestTable.enter]
  | some instant' =>
      simp [RequestTable.enter, Finset.mem_insert, and_comm, eq_comm]

theorem Indexed.mem_reindex (indexed : Indexed expiry entries) {after : Option Instant}
    (d : Deadline) :
    d ∈ RequestTable.reindex expiry mid (deadlineOf entries mid) after ↔
      d.mid = mid ∧ after = some d.instant ∨ d.mid ≠ mid ∧ d ∈ expiry := by
  unfold RequestTable.reindex
  split
  · rw [mem_enter, indexed.mem_withdraw]
  · next same =>
      rw [← not_not.mp same]
      by_cases here : d.mid = mid
      · simp [here, indexed d]
      · simp [here]

/-- An index follows a change of one row. -/
theorem Indexed.reindex (indexed : Indexed expiry entries)
    (others : ∀ m, m ≠ mid → entries'.lookup m = entries.lookup m) :
    Indexed (RequestTable.reindex expiry mid (deadlineOf entries mid) (deadlineOf entries' mid))
      entries' := by
  intro d
  rw [indexed.mem_reindex]
  by_cases here : d.mid = mid
  · rw [here]
    simp
  · have elsewhere : deadlineOf entries' d.mid = deadlineOf entries d.mid := by
      rw [deadlineOf, deadlineOf, others d.mid here]
    simp [here, elsewhere, indexed d]

end Index

/-! ## The accounts -/

namespace RequestTable

/-- What the table's four pieces of bookkeeping say, agreeing. -/
structure Accounts (t : RequestTable) : Prop where
  charging : t.charging = total Entry.charge t.entries
  bounded : t.charging ≤ t.limit
  retired : t.retired = total Entry.remembrance t.entries
  expiry : Indexed t.expiry t.entries

variable {t : RequestTable} {mid : UInt16} {now : Instant}

theorem accounts_new (limit : ℕ) (timeouts : Timeouts) : (new limit timeouts).Accounts where
  charging := rfl
  bounded := Nat.zero_le _
  retired := rfl
  expiry := by
    intro d
    simp [new, deadlineOf]

/-! ### Allocation -/

theorem allocateFrom_frame (attempts : ℕ) (t : RequestTable) :
    ∃ cursor, (allocateFrom attempts t).2 = { t with cursor := cursor } := by
  induction attempts generalizing t with
  | zero => exact ⟨t.cursor, rfl⟩
  | succ attempts ih =>
      unfold allocateFrom
      dsimp only
      split
      · exact ⟨_, rfl⟩
      · obtain ⟨cursor, frame⟩ := ih { t with cursor := advance t.cursor }
        exact ⟨cursor, frame⟩

theorem allocate_frame (t : RequestTable) :
    ∃ cursor, t.allocate.2 = { t with cursor := cursor } := by
  unfold allocate
  split
  · exact ⟨t.cursor, rfl⟩
  · exact allocateFrom_frame POOL t

theorem allocateFrom_absent {attempts : ℕ} (found : (allocateFrom attempts t).1 = some mid) :
    mid ∉ t.entries := by
  induction attempts generalizing t with
  | zero => cases found
  | succ attempts ih =>
      unfold allocateFrom at found
      dsimp only at found
      split at found
      · next absent =>
          cases found
          exact absent
      · have absent := ih found
        exact absent

theorem allocate_absent (found : t.allocate.1 = some mid) : mid ∉ t.entries := by
  unfold allocate at found
  split at found
  · cases found
  · exact allocateFrom_absent found

theorem Accounts.allocate (accounts : t.Accounts) : t.allocate.2.Accounts := by
  obtain ⟨cursor, frame⟩ := t.allocate_frame
  rw [frame]
  exact ⟨accounts.charging, accounts.bounded, accounts.retired, accounts.expiry⟩

/-! ### Dispatch -/

theorem Accounts.dispatch (accounts : t.Accounts) (absent : mid ∉ t.entries)
    (capacity : t.charging < t.limit) {command : UInt8} {reply : Option Ticket}
    {assembly : Option Assembly} {outcome : Option Ticket} :
    (t.dispatch mid command reply assembly outcome now).Accounts := by
  have none : t.entries.lookup mid = none := AList.lookup_eq_none.mpr absent
  refine ⟨?_, capacity, ?_, ?_⟩
  · change t.charging + 1 = total Entry.charge (t.entries.insert mid _)
    rw [total_insert_new absent, accounts.charging, Nat.add_comm]
    rfl
  · change t.retired = total Entry.remembrance (t.entries.insert mid _)
    rw [total_insert_new absent, accounts.retired]
    exact (Nat.zero_add _).symm
  · intro d
    change d ∈ insert _ t.expiry ↔ deadlineOf (t.entries.insert mid _) d.mid = _
    rw [Finset.mem_insert, accounts.expiry d, deadlineOf, deadlineOf]
    obtain ⟨instant, mid'⟩ := d
    dsimp only
    by_cases here : mid' = mid
    · subst here
      rw [AList.lookup_insert, none]
      simp [Entry.expiresAt, eq_comm]
    · rw [AList.lookup_insert_ne here]
      simp [here]

/-! ### Changing one row -/

theorem discharge_eq (charging : ℕ) (charged : t.charging = charging + 1) :
    t.discharge = .ok { t with charging := charging } := by
  rw [discharge, charged]

/-- The change of a row that goes on holding its id, with an index that follows. -/
theorem Accounts.set_row (accounts : t.Accounts) {e e' : Entry}
    (found : t.entries.lookup mid = some e) {charging retired : ℕ} {expiry : Finset Deadline}
    (charged : e.charge + charging = e'.charge + t.charging)
    (remembered : e.remembrance + retired = e'.remembrance + t.retired)
    (bounded : charging ≤ t.charging) (indexed : Indexed expiry (t.entries.insert mid e')) :
    Accounts { t with
      entries := t.entries.insert mid e'
      expiry := expiry
      charging := charging
      retired := retired } := by
  have totalCharge := total_insert (f := Entry.charge) found e'
  have totalRemembrance := total_insert (f := Entry.remembrance) found e'
  refine ⟨?_, bounded.trans accounts.bounded, ?_, indexed⟩
  · have := accounts.charging
    dsimp only
    omega
  · have := accounts.retired
    dsimp only
    omega

/-- The removal of a row, with the index following. -/
theorem Accounts.drop_row (accounts : t.Accounts) {e e' : Entry}
    (found : t.entries.lookup mid = some e) (active : e.isRetired = false) {charging : ℕ}
    (charged : e.charge + charging = t.charging) :
    Accounts { t with
      entries := (t.entries.insert mid e').erase mid
      expiry := reindex t.expiry mid e.expiresAt none
      charging := charging } := by
  have removed : ∀ f : Entry → ℕ, f e + total f ((t.entries.insert mid e').erase mid) =
      total f t.entries := by
    intro f
    have changed := total_insert (f := f) found e'
    have erased := total_erase (f := f) (AList.lookup_insert (a := mid) (b := e') t.entries)
    omega
  have before : deadlineOf t.entries mid = e.expiresAt := by rw [deadlineOf, found]; rfl
  have after : deadlineOf ((t.entries.insert mid e').erase mid) mid = none := by
    rw [deadlineOf, AList.lookup_erase]; rfl
  have bound := accounts.bounded
  refine ⟨?_, ?_, ?_, ?_⟩
  · have := accounts.charging
    have := removed Entry.charge
    dsimp only
    omega
  · dsimp only
    omega
  · have := accounts.retired
    have := removed Entry.remembrance
    have none : e.remembrance = 0 := by rw [Entry.remembrance, active]; rfl
    dsimp only
    omega
  · rw [← before, ← after]
    refine accounts.expiry.reindex fun m other => ?_
    rw [AList.lookup_erase_ne other, AList.lookup_insert_ne other]

/-- The index follows a changed row. -/
theorem Accounts.reindexed (accounts : t.Accounts) {e : Entry} (e' : Entry)
    (found : t.entries.lookup mid = some e) :
    Indexed (reindex t.expiry mid e.expiresAt e'.expiresAt) (t.entries.insert mid e') := by
  have before : deadlineOf t.entries mid = e.expiresAt := by rw [deadlineOf, found]; rfl
  have after : deadlineOf (t.entries.insert mid e') mid = e'.expiresAt := by
    rw [deadlineOf, AList.lookup_insert]; rfl
  rw [← before, ← after]
  exact accounts.expiry.reindex fun m other => AList.lookup_insert_ne other

/-- A row that charges capacity has been counted. -/
theorem Accounts.charge_le (accounts : t.Accounts) {e : Entry}
    (found : t.entries.lookup mid = some e) : e.charge ≤ t.charging := by
  have counted := total_erase (f := Entry.charge) found
  have := accounts.charging
  omega

/-- Giving back what a row charges does not underflow. -/
theorem Accounts.discharge (accounts : t.Accounts) {e : Entry}
    (found : t.entries.lookup mid = some e) (entries : AList (fun _ : UInt16 => Entry))
    (expiry : Finset Deadline) :
    (if e.charges then RequestTable.discharge { t with entries := entries, expiry := expiry }
      else .ok { t with entries := entries, expiry := expiry }) =
        .ok { t with
          entries := entries
          expiry := expiry
          charging := t.charging - e.charge } := by
  have counted := accounts.charge_le found
  unfold Entry.charge at counted ⊢
  cases charges : e.charges with
  | true =>
      rw [charges] at counted
      simp only [if_true] at counted ⊢
      exact discharge_eq _ (Nat.sub_add_cancel counted).symm
  | false => rfl

/-! ### Routing a message -/

/-- The row of a retired id. -/
def retiredRow (e : Entry) : Entry := { e with state := .retired, assembly := none }

/-- What retiring an id answers, given how many are retired then. -/
def budget (retired : ℕ) : Except Error Unit :=
  if retired ≥ RETIREMENT_BUDGET then .error (.retirementBudget retired) else .ok ()

theorem retire_eq {e : Entry} (found : t.entries.lookup mid = some e) :
    t.retire mid = .ok ({ t with
      entries := t.entries.insert mid (retiredRow e), retired := t.retired + 1 },
        budget (t.retired + 1)) := by
  rw [retire, found]
  rfl

/-- The cases of `accept`: what becomes of the table, what the connection is told and
what is handed out. -/
inductive Accepts (t : RequestTable) (message : Message) (now : Instant) :
    RequestTable → Except Error Unit → List Effect → Prop
  | unknown : t.entries.lookup message.header.mid = none →
      Accepts t message now t (.error (.unroutable message.header.mid message.header.command)) []
  | remembered {e : Entry} : t.entries.lookup message.header.mid = some e →
      e.isRetired = true → Accepts t message now t (.ok ()) []
  | mismatched {e : Entry} : t.entries.lookup message.header.mid = some e →
      e.isRetired = false → e.command ≠ message.header.command →
      Accepts t message now t (.error (.unroutable message.header.mid message.header.command)) []
  | continued {e e' : Entry} {assembly : Option Assembly} :
      t.entries.lookup message.header.mid = some e → e.isRetired = false →
      e.command = message.header.command →
      e.accept message now t.timeouts.perRequest = .ok (e', .continuing, []) →
      e' = { e.touch now t.timeouts.perRequest with assembly := assembly } →
      Accepts t message now { t with
        entries := t.entries.insert message.header.mid e'
        expiry := reindex t.expiry message.header.mid e.expiresAt e'.expiresAt } (.ok ()) []
  | completed {e e' : Entry} {assembly : Option Assembly} {transaction : Option TransactionBody}
      {effects : List Effect} :
      t.entries.lookup message.header.mid = some e → e.isRetired = false →
      e.command = message.header.command →
      e.accept message now t.timeouts.perRequest = .ok (e', .completed, effects) →
      (e', effects) = { e.touch now t.timeouts.perRequest with assembly := assembly }.deliver
        (.ok { message, transaction }) →
      Accepts t message now { t with
        entries := (t.entries.insert message.header.mid e').erase message.header.mid
        expiry := reindex t.expiry message.header.mid e.expiresAt none
        charging := t.charging - e.charge } (.ok ()) effects
  | corrupted {e e' : Entry} {error : Error} {effects : List Effect} :
      t.entries.lookup message.header.mid = some e → e.isRetired = false →
      e.command = message.header.command →
      e.accept message now t.timeouts.perRequest = .ok (e', .corrupted, effects) →
      (e', effects) = (e.touch now t.timeouts.perRequest).deliver (.error error) →
      Accepts t message now { t with
        entries := t.entries.insert message.header.mid (retiredRow e')
        expiry := reindex t.expiry message.header.mid e.expiresAt none
        charging := t.charging - e.charge
        retired := t.retired + 1 } (budget (t.retired + 1)) effects

/-- Routing a message does not panic, and does what one of the cases says. -/
theorem Accounts.accepts (accounts : t.Accounts) (message : Message) (now : Instant) :
    ∃ t' verdict effects, t.accept message now = .ok (t', verdict, effects) ∧
      t.Accepts message now t' verdict effects := by
  unfold accept
  dsimp only
  cases found : t.entries.lookup message.header.mid with
  | none => exact ⟨_, _, _, rfl, .unknown found⟩
  | some e =>
      dsimp only
      by_cases retired : e.isRetired = true
      · rw [if_pos retired]
        exact ⟨_, _, _, rfl, .remembered found retired⟩
      have active := Bool.not_eq_true _ ▸ retired
      rw [if_neg retired]
      by_cases command : e.command = message.header.command
      case neg =>
        rw [if_pos command]
        exact ⟨_, _, _, rfl, .mismatched found active command⟩
      rw [if_neg (not_not.mpr command)]
      rcases e.accept_cases message now t.timeouts.perRequest with
        ⟨assembly, taken⟩ | ⟨error, taken⟩ | ⟨assembly, transaction, taken⟩
      · rw [taken]
        exact ⟨_, _, _, rfl, .continued found active command taken rfl⟩
      · rw [taken]
        simp only [bind, Except.bind, settleCharge, accounts.discharge found]
        rw [retire_eq (AList.lookup_insert _)]
        simp only [AList.insert_insert]
        exact ⟨_, _, _, rfl, .corrupted found active command taken rfl⟩
      · rw [taken]
        simp only [bind, Except.bind, settleCharge, accounts.discharge found]
        exact ⟨_, _, _, rfl, .completed found active command taken rfl⟩

theorem Accepts.accounts {message : Message} {t' : RequestTable} {verdict : Except Error Unit}
    {effects : List Effect} (accepts : t.Accepts message now t' verdict effects)
    (accounts : t.Accounts) : t'.Accounts := by
  cases accepts with
  | unknown => exact accounts
  | remembered => exact accounts
  | mismatched => exact accounts
  | @continued e e' _ found active command taken row =>
      have indexed := accounts.reindexed e' found
      refine accounts.set_row found ?_ ?_ le_rfl indexed
      · rw [row, Entry.charge, Entry.charge, ← Entry.charges_touch]
        rfl
      · rw [row, Entry.remembrance, Entry.remembrance, ← Entry.isRetired_touch]
        rfl
  | completed found active command taken row =>
      exact accounts.drop_row found active (by have := accounts.charge_le found; omega)
  | @corrupted e e' _ _ found active command taken row =>
      have indexed := accounts.reindexed (retiredRow e') found
      have counted := accounts.charge_le found
      refine accounts.set_row found ?_ ?_ (Nat.sub_le _ _) indexed
      · change _ = 0 + _
        omega
      · have none : e.remembrance = 0 := by rw [Entry.remembrance, active]; rfl
        rw [none]
        exact (Nat.zero_add _).trans (Nat.add_comm _ _)

theorem Accepts.mem_of_mem {message : Message} {t' : RequestTable} {verdict : Except Error Unit}
    {effects : List Effect} (accepts : t.Accepts message now t' verdict effects)
    (member : mid ∈ t'.entries) : mid ∈ t.entries := by
  have here : ∀ {e : Entry}, t.entries.lookup message.header.mid = some e →
      message.header.mid ∈ t.entries := by
    intro e found
    exact AList.lookup_isSome.mp (by rw [found]; rfl)
  cases accepts with
  | unknown => exact member
  | remembered => exact member
  | mismatched => exact member
  | continued found =>
      rcases (AList.mem_insert _).mp member with rfl | member
      · exact here found
      · exact member
  | completed found =>
      rcases (AList.mem_insert _).mp (AList.mem_erase.mp member).2 with rfl | member
      · exact here found
      · exact member
  | corrupted found =>
      rcases (AList.mem_insert _).mp member with rfl | member
      · exact here found
      · exact member

/-! ### Firing deadlines -/

/-- The row of a request that lapses, to be given up on at an instant. -/
def lapsedRow (e : Entry) (giveUpAt : Instant) : Entry :=
  { (e.deliver (.error .timeout)).1 with
    assembly := (e.deliver (.error .timeout)).1.assembly.map (·.release)
    state := .lapsed giveUpAt }

/-- When a request that lapses now is given up on. -/
def giveUpAt (t : RequestTable) (now : Instant) : Instant :=
  now + t.timeouts.overall * GIVE_UP_DEADLINES

/-- The cases of a deadline that has passed. -/
inductive Fires (t : RequestTable) (d : Deadline) (now : Instant) :
    RequestTable → Except Error Unit → List Effect → Prop
  | lapsed {e : Entry} : t.entries.lookup d.mid = some e → e.charges = true →
      Fires t d now { t with
        entries := t.entries.insert d.mid (lapsedRow e (t.giveUpAt now))
        expiry := insert ⟨t.giveUpAt now, d.mid⟩ (t.expiry.erase d)
        charging := t.charging - 1 } (.ok ()) (e.deliver (.error .timeout)).2
  | gaveUp {e : Entry} {giveUpAt : Instant} : t.entries.lookup d.mid = some e →
      e.state = .lapsed giveUpAt →
      Fires t d now { t with
        entries := t.entries.insert d.mid (retiredRow e)
        expiry := t.expiry.erase d
        retired := t.retired + 1 } (budget (t.retired + 1)) []

/-- Firing a deadline of the index does not panic, and does what one of the cases
says. -/
theorem Accounts.fires (accounts : t.Accounts) {d : Deadline} (due : d ∈ t.expiry)
    (now : Instant) :
    ∃ t' verdict effects, t.fire d now = .ok (t', verdict, effects) ∧
      t.Fires d now t' verdict effects := by
  have held := (accounts.expiry d).mp due
  unfold fire
  dsimp only
  cases found : t.entries.lookup d.mid with
  | none =>
      rw [deadlineOf, found] at held
      cases held
  | some e =>
      rw [deadlineOf, found] at held
      dsimp only
      cases state : e.state with
      | onWire reply silenceAt overallAt =>
          have charges : e.charges = true := by rw [Entry.charges, state]
          have counted := accounts.charge_le found
          rw [Entry.charge, if_pos charges] at counted
          have discharged := discharge_eq (t := { t with
            entries := t.entries.insert d.mid (lapsedRow e (t.giveUpAt now))
            expiry := t.expiry.erase d }) (t.charging - 1) (Nat.sub_add_cancel counted).symm
          have result := @Fires.lapsed t d now e found charges
          unfold lapsedRow giveUpAt at discharged
          dsimp only
          rw [discharged]
          exact ⟨_, _, _, rfl, result⟩
      | lapsed giveUpAt =>
          have retired := retire_eq (t := { t with expiry := t.expiry.erase d }) found
          dsimp only
          rw [retired]
          exact ⟨_, _, _, rfl, .gaveUp found state⟩
      | retired =>
          change e.expiresAt = _ at held
          rw [Entry.expiresAt, state] at held
          cases held

theorem Fires.accounts {d : Deadline} {t' : RequestTable} {verdict : Except Error Unit}
    {effects : List Effect} (fires : t.Fires d now t' verdict effects) (due : d ∈ t.expiry)
    (accounts : t.Accounts) : t'.Accounts := by
  have held := (accounts.expiry d).mp due
  have erased : ∀ d' : Deadline, d' ∈ t.expiry.erase d ↔ d'.mid ≠ d.mid ∧ d' ∈ t.expiry :=
    accounts.expiry.mem_erase held
  cases fires with
  | @lapsed e found charges =>
      have counted := accounts.charge_le found
      rw [Entry.charge, if_pos charges] at counted
      refine accounts.set_row found ?_ ?_ (Nat.sub_le _ _) ?_
      · rw [Entry.charge, if_pos charges]
        change _ = 0 + _
        omega
      · have none : e.remembrance = 0 := by
          unfold Entry.remembrance Entry.isRetired
          unfold Entry.charges at charges
          split at charges <;> simp_all
        rw [none]
        rfl
      · intro d'
        rw [Finset.mem_insert, erased, deadlineOf]
        obtain ⟨instant, mid'⟩ := d'
        by_cases here : mid' = d.mid
        · subst here
          rw [AList.lookup_insert]
          simp [lapsedRow, Entry.expiresAt, eq_comm]
        · rw [AList.lookup_insert_ne here, ← deadlineOf, accounts.expiry ⟨instant, mid'⟩]
          simp [here]
  | gaveUp found state =>
      refine accounts.set_row found ?_ ?_ le_rfl ?_
      · unfold Entry.charge Entry.charges
        rw [state]
        rfl
      · unfold Entry.remembrance Entry.isRetired
        rw [state]
        exact (Nat.zero_add _).trans (Nat.add_comm _ _)
      · intro d'
        rw [erased, deadlineOf]
        obtain ⟨instant, mid'⟩ := d'
        by_cases here : mid' = d.mid
        · subst here
          rw [AList.lookup_insert]
          simp [retiredRow, Entry.expiresAt]
        · rw [AList.lookup_insert_ne here, ← deadlineOf, accounts.expiry ⟨instant, mid'⟩]
          simp [here]

/-- The turns a row still takes: one to lapse and one to be given up on. -/
def turns (e : Entry) : ℕ :=
  match e.state with
  | .onWire .. => 2
  | .lapsed _ => 1
  | .retired => 0

/-- A turn of the loop uses up one of the turns the rows still take. -/
theorem Fires.turns_lt {d : Deadline} {t' : RequestTable} {verdict : Except Error Unit}
    {effects : List Effect} (fires : t.Fires d now t' verdict effects) :
    total turns t'.entries < total turns t.entries := by
  cases fires with
  | @lapsed e found charges =>
      have changed := total_insert (f := turns) found (lapsedRow e (t.giveUpAt now))
      have before : turns e = 2 := by
        unfold Entry.charges at charges
        unfold turns
        split at charges <;> simp_all
      have after : turns (lapsedRow e (t.giveUpAt now)) = 1 := rfl
      dsimp only
      omega
  | @gaveUp e _ found state =>
      have changed := total_insert (f := turns) found (retiredRow e)
      have before : turns e = 1 := by rw [turns, state]
      have after : turns (retiredRow e) = 0 := rfl
      dsimp only
      omega

theorem total_turns_le (t : RequestTable) :
    total turns t.entries ≤ 2 * t.entries.entries.length := by
  have bound : ∀ turn ∈ t.entries.entries.map fun row => turns row.2, turn ≤ 2 := by
    intro turn member
    obtain ⟨row, -, rfl⟩ := List.mem_map.mp member
    unfold turns
    split <;> omega
  have summed := List.sum_le_card_nsmul _ _ bound
  rwa [List.length_map, smul_eq_mul, Nat.mul_comm] at summed

/-- The runs of `expire`: deadlines that have passed fire one after another until none
is left or retiring one exhausts the budget. -/
inductive Expires (now : Instant) :
    RequestTable → RequestTable → Except Error Unit → List Effect → Prop
  | done {t : RequestTable} : (∀ d ∈ t.expiry, now < d.instant) → Expires now t t (.ok ()) []
  | stop {t t' : RequestTable} {d : Deadline} {error : Error} {effects : List Effect} :
      d ∈ t.expiry → d.instant ≤ now → t.Fires d now t' (.error error) effects →
      Expires now t t' (.error error) effects
  | turn {t t₁ t' : RequestTable} {d : Deadline} {verdict : Except Error Unit}
      {effects later : List Effect} :
      d ∈ t.expiry → d.instant ≤ now → t.Fires d now t₁ (.ok ()) effects →
      Expires now t₁ t' verdict later → Expires now t t' verdict (effects ++ later)

theorem first_le {d d' : Deadline} (first : firstDeadline t.expiry = some d)
    (member : d' ∈ t.expiry) : d.instant ≤ d'.instant := by
  have least : d ≤ d' := by
    unfold firstDeadline at first
    split at first
    · rw [← Option.some.inj first]
      exact Finset.min'_le _ _ member
    · cases first
  rcases (Prod.Lex.le_iff (x := d.key) (y := d'.key)).mp least with below | ⟨same, -⟩
  · exact le_of_lt below
  · exact le_of_eq same

/-- With turns enough the loop ends, without a panic. -/
theorem Accounts.expireLoop (accounts : t.Accounts) {fuel : ℕ}
    (enough : total turns t.entries < fuel) (now : Instant) :
    ∃ t' verdict effects, RequestTable.expireLoop fuel t now = .ok (t', verdict, effects) ∧
      Expires now t t' verdict effects ∧ t'.Accounts := by
  induction fuel generalizing t with
  | zero => exact absurd enough (Nat.not_lt_zero _)
  | succ fuel ih =>
      unfold RequestTable.expireLoop
      cases first : firstDeadline t.expiry with
      | none =>
          have empty := firstDeadline_eq_none.mp first
          exact ⟨t, .ok (), [], rfl, .done (by rw [empty]; simp), accounts⟩
      | some d =>
          dsimp only
          have due := mem_of_firstDeadline first
          by_cases later : d.instant > now
          · rw [if_pos later]
            exact ⟨t, .ok (), [], rfl, .done fun d' member => lt_of_lt_of_le later
              (first_le first member), accounts⟩
          rw [if_neg later]
          obtain ⟨t₁, verdict, effects, fired, fires⟩ := accounts.fires due now
          have accounts₁ := fires.accounts due accounts
          simp only [fired, bind, Except.bind]
          cases verdict with
          | error error =>
              exact ⟨t₁, .error error, effects, rfl, .stop due (not_lt.mp later) fires, accounts₁⟩
          | ok =>
              have := fires.turns_lt
              obtain ⟨t', verdict, more, ran, expires, accounts'⟩ := ih accounts₁ (by omega)
              dsimp only
              rw [ran]
              exact ⟨t', verdict, effects ++ more, rfl, .turn due (not_lt.mp later) fires expires,
                accounts'⟩

theorem Accounts.expires (accounts : t.Accounts) (now : Instant) :
    ∃ t' verdict effects, t.expire now = .ok (t', verdict, effects) ∧
      Expires now t t' verdict effects ∧ t'.Accounts :=
  accounts.expireLoop (by have := t.total_turns_le; omega) now

theorem Fires.mem_of_mem {d : Deadline} {t' : RequestTable} {verdict : Except Error Unit}
    {effects : List Effect} (fires : t.Fires d now t' verdict effects) (member : mid ∈ t'.entries) :
    mid ∈ t.entries := by
  have here : ∀ {e : Entry}, t.entries.lookup d.mid = some e → d.mid ∈ t.entries := by
    intro e found
    exact AList.lookup_isSome.mp (by rw [found]; rfl)
  cases fires with
  | lapsed found =>
      rcases (AList.mem_insert _).mp member with rfl | member
      · exact here found
      · exact member
  | gaveUp found =>
      rcases (AList.mem_insert _).mp member with rfl | member
      · exact here found
      · exact member

theorem Expires.mem_of_mem {t' : RequestTable} {verdict : Except Error Unit}
    {effects : List Effect} (expires : Expires now t t' verdict effects)
    (member : mid ∈ t'.entries) : mid ∈ t.entries := by
  induction expires with
  | done => exact member
  | stop _ _ fires => exact fires.mem_of_mem member
  | turn _ _ fires _ ih => exact fires.mem_of_mem (ih member)

theorem Accepts.limit_eq {message : Message} {t' : RequestTable} {verdict : Except Error Unit}
    {effects : List Effect} (accepts : t.Accepts message now t' verdict effects) :
    t'.limit = t.limit := by
  cases accepts <;> rfl

theorem Expires.limit_eq {t' : RequestTable} {verdict : Except Error Unit}
    {effects : List Effect} (expires : Expires now t t' verdict effects) : t'.limit = t.limit := by
  have fired : ∀ {t t' : RequestTable} {d : Deadline} {verdict : Except Error Unit}
      {effects : List Effect}, t.Fires d now t' verdict effects → t'.limit = t.limit := by
    intro t t' d verdict effects fires
    cases fires <;> rfl
  induction expires with
  | done => rfl
  | stop _ _ fires => exact fired fires
  | turn _ _ fires _ ih => exact ih.trans (fired fires)

/-! ## Every run of the table's operations -/

/-- An operation the actor performs on the table. -/
inductive Op where
  | allocate
  | dispatch (command : UInt8) (reply : Option Ticket) (assembly : Option Assembly)
      (outcome : Option Ticket) (now : Instant)
  | accept (message : Message) (now : Instant)
  | expire (now : Instant)

/-- A table and the id allocated for the request that is dispatched next. -/
structure Driven where
  table : RequestTable
  allocated : Option UInt16

/-- Performs one operation. A dispatch is performed on the id allocated last, and
only with capacity for it. -/
def Driven.perform (s : Driven) : Op → Except Panic Driven
  | .allocate => .ok ⟨s.table.allocate.2, s.table.allocate.1⟩
  | .dispatch command reply assembly outcome now =>
      match s.allocated with
      | none => .ok s
      | some mid =>
          if s.table.charging < s.table.limit then
            .ok ⟨s.table.dispatch mid command reply assembly outcome now, none⟩
          else .ok s
  | .accept message now => (s.table.accept message now).map fun result => ⟨result.1, s.allocated⟩
  | .expire now => (s.table.expire now).map fun result => ⟨result.1, s.allocated⟩

/-- The accounts agree, and the id allocated last is not held. -/
structure Driven.Sound (s : Driven) : Prop where
  accounts : s.table.Accounts
  free : ∀ mid ∈ s.allocated, mid ∉ s.table.entries

/-- Every operation is performed without a panic and leaves the accounts agreeing. -/
theorem Driven.Sound.perform {s : Driven} (sound : s.Sound) (op : Op) :
    ∃ s', s.perform op = .ok s' ∧ s'.Sound := by
  cases op with
  | allocate =>
      obtain ⟨cursor, frame⟩ := s.table.allocate_frame
      refine ⟨_, rfl, sound.accounts.allocate, fun mid member => ?_⟩
      have absent := allocate_absent (t := s.table) member
      dsimp only
      rw [frame]
      exact absent
  | dispatch command reply assembly outcome now =>
      unfold Driven.perform
      cases allocated : s.allocated with
      | none => exact ⟨s, rfl, sound⟩
      | some mid =>
          dsimp only
          by_cases capacity : s.table.charging < s.table.limit
          · rw [if_pos capacity]
            have absent := sound.free mid allocated
            refine ⟨_, rfl, sound.accounts.dispatch absent capacity, ?_⟩
            intro _ none
            cases none
          · rw [if_neg capacity]
            exact ⟨s, rfl, sound⟩
  | accept message now =>
      obtain ⟨t', verdict, effects, accepted, accepts⟩ := sound.accounts.accepts message now
      refine ⟨⟨t', s.allocated⟩, ?_, accepts.accounts sound.accounts, fun mid member held => ?_⟩
      · rw [Driven.perform, accepted]
        rfl
      · exact sound.free mid member (accepts.mem_of_mem held)
  | expire now =>
      obtain ⟨t', verdict, effects, expired, expires, accounts'⟩ := sound.accounts.expires now
      refine ⟨⟨t', s.allocated⟩, ?_, accounts', fun mid member held => ?_⟩
      · rw [Driven.perform, expired]
        rfl
      · exact sound.free mid member (expires.mem_of_mem held)

theorem Driven.perform_limit {s s' : Driven} {op : Op} (sound : s.Sound)
    (performed : s.perform op = .ok s') : s'.table.limit = s.table.limit := by
  cases op with
  | allocate =>
      obtain ⟨cursor, frame⟩ := s.table.allocate_frame
      cases performed
      dsimp only
      rw [frame]
  | dispatch command reply assembly outcome now =>
      rw [Driven.perform] at performed
      cases allocated : s.allocated with
      | none =>
          rw [allocated] at performed
          cases performed
          rfl
      | some mid =>
          rw [allocated] at performed
          dsimp only at performed
          split at performed <;> cases performed <;> rfl
  | accept message now =>
      obtain ⟨t', verdict, effects, accepted, accepts⟩ := sound.accounts.accepts message now
      rw [Driven.perform, accepted] at performed
      cases performed
      exact accepts.limit_eq
  | expire now =>
      obtain ⟨t', verdict, effects, expired, expires, -⟩ := sound.accounts.expires now
      rw [Driven.perform, expired] at performed
      cases performed
      exact expires.limit_eq

theorem Driven.Sound.performAll {s : Driven} (sound : s.Sound) (ops : List Op) :
    ∃ s', ops.foldlM Driven.perform s = .ok s' ∧ s'.Sound ∧ s'.table.limit = s.table.limit := by
  induction ops generalizing s with
  | nil => exact ⟨s, rfl, sound, rfl⟩
  | cons op ops ih =>
      obtain ⟨s₁, performed, sound₁⟩ := sound.perform op
      obtain ⟨s', ran, sound', limit⟩ := ih sound₁
      refine ⟨s', ?_, sound', limit.trans (Driven.perform_limit sound performed)⟩
      rw [List.foldlM_cons, performed]
      exact ran

/-- **The table's accounts.** Whatever operations are performed on a new table, none of
them panics, and the counters and the expiry index say what the entries do. -/
theorem performAll_accounts (limit : ℕ) (timeouts : Timeouts) (ops : List Op) :
    ∃ s, ops.foldlM Driven.perform ⟨new limit timeouts, none⟩ = .ok s ∧ s.table.Accounts ∧
      s.table.limit = limit := by
  have sound : Driven.Sound ⟨new limit timeouts, none⟩ :=
    ⟨accounts_new limit timeouts, fun mid none => by cases none⟩
  obtain ⟨s, ran, sound', limit'⟩ := sound.performAll ops
  exact ⟨s, ran, sound'.accounts, limit'⟩

end RequestTable

end Smb1Client
