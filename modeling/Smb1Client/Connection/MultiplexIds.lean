import Smb1Client.Connection.CloseOrder

/-!
Which multiplex ids are handed out, and when one goes back to the pool.

Every id the connection holds is one the pool has, and none is handed out that is
held. An id goes back by the one message that completes its request's reply; a retired
one never does.
-/

namespace Smb1Client

namespace RequestTable

variable {t t' : RequestTable} {mid : UInt16} {now : Instant} {verdict : Except Error Unit}
  {effects : List Effect}

/-! ## The cursor -/

theorem toNat_lt_pool {cursor : UInt16} : cursor ≠ 0xFFFF ↔ cursor.toNat < POOL := by
  rw [POOL, Ne, ← UInt16.toNat_inj]
  have := cursor.toNat_lt
  change ¬ cursor.toNat = 65535 ↔ _
  omega

theorem advance_toNat {cursor : UInt16} (valid : cursor ≠ 0xFFFF) :
    (advance cursor).toNat = (cursor.toNat + 1) % POOL := by
  have bound := toNat_lt_pool.mp valid
  unfold POOL at bound ⊢
  unfold advance
  split
  · next last =>
      rw [last]
      rfl
  · next more =>
      have below : cursor.toNat ≠ 65534 := fun same => more (UInt16.toNat_inj.mp same)
      rw [UInt16.toNat_add]
      change (cursor.toNat + 1) % 65536 = _
      omega

theorem advance_valid {cursor : UInt16} (valid : cursor ≠ 0xFFFF) : advance cursor ≠ 0xFFFF := by
  rw [toNat_lt_pool, advance_toNat valid]
  exact Nat.mod_lt _ (by decide)

theorem advance_iterate {cursor : UInt16} (valid : cursor ≠ 0xFFFF) (turns : ℕ) :
    (advance^[turns] cursor) ≠ 0xFFFF ∧
      (advance^[turns] cursor).toNat = (cursor.toNat + turns) % POOL := by
  induction turns with
  | zero => exact ⟨valid, (Nat.mod_eq_of_lt (toNat_lt_pool.mp valid)).symm⟩
  | succ turns ih =>
      rw [Function.iterate_succ_apply']
      refine ⟨advance_valid ih.1, ?_⟩
      rw [advance_toNat ih.1, ih.2, Nat.mod_add_mod, Nat.add_assoc]

/-- The cursor passes every id of the pool in one round. -/
theorem advance_reaches {cursor : UInt16} (valid : cursor ≠ 0xFFFF) (inPool : mid ≠ 0xFFFF) :
    ∃ turns < POOL, advance^[turns] cursor = mid := by
  have here := toNat_lt_pool.mp valid
  have there := toNat_lt_pool.mp inPool
  refine ⟨(mid.toNat + POOL - cursor.toNat) % POOL, Nat.mod_lt _ (by decide), ?_⟩
  rw [← UInt16.toNat_inj, (advance_iterate valid _).2, Nat.add_mod_mod,
    Nat.add_sub_cancel' (by omega), Nat.add_mod_right, Nat.mod_eq_of_lt there]

/-! ## Allocation -/

theorem allocateFrom_valid {attempts : ℕ} (valid : t.cursor ≠ 0xFFFF) :
    (∀ mid, (allocateFrom attempts t).1 = some mid → mid ≠ 0xFFFF) ∧
      (allocateFrom attempts t).2.cursor ≠ 0xFFFF := by
  induction attempts generalizing t with
  | zero => exact ⟨fun _ no => (nomatch no), valid⟩
  | succ attempts ih =>
      unfold allocateFrom
      dsimp only
      split
      · refine ⟨fun mid found => ?_, advance_valid valid⟩
        cases found
        exact valid
      · have advanced : RequestTable.cursor { t with cursor := advance t.cursor } ≠ 0xFFFF :=
          advance_valid valid
        exact ih advanced

theorem allocate_valid (valid : t.cursor ≠ 0xFFFF) :
    (∀ mid, t.allocate.1 = some mid → mid ≠ 0xFFFF) ∧ t.allocate.2.cursor ≠ 0xFFFF := by
  unfold allocate
  split
  · exact ⟨fun _ no => (nomatch no), valid⟩
  · exact allocateFrom_valid valid

theorem allocateFrom_exhausted {attempts : ℕ} (exhausted : (allocateFrom attempts t).1 = none) :
    ∀ turns < attempts, advance^[turns] t.cursor ∈ t.entries := by
  induction attempts generalizing t with
  | zero => exact fun turns no => absurd no (Nat.not_lt_zero _)
  | succ attempts ih =>
      unfold allocateFrom at exhausted
      dsimp only at exhausted
      split at exhausted
      · cases exhausted
      · next held =>
          intro turns bound
          cases turns with
          | zero => exact not_not.mp held
          | succ turns =>
              rw [Function.iterate_succ_apply]
              exact ih exhausted turns (Nat.lt_of_succ_lt_succ bound)

/-- As many ids as the pool has, none of them the one it leaves out, are all of it. -/
theorem held_of_full {ids : List UInt16} (unique : ids.Nodup) (inPool : ∀ mid ∈ ids, mid ≠ 0xFFFF)
    (full : POOL ≤ ids.length) (valid : mid ≠ 0xFFFF) : mid ∈ ids := by
  have images : (ids.map UInt16.toNat).Nodup :=
    unique.map fun _ _ same => UInt16.toNat_inj.mp same
  have inside : (ids.map UInt16.toNat).toFinset ⊆ Finset.range POOL := by
    intro n member
    obtain ⟨id, held, rfl⟩ := List.mem_map.mp (List.mem_toFinset.mp member)
    exact Finset.mem_range.mpr (toNat_lt_pool.mp (inPool id held))
  have all := Finset.eq_of_subset_of_card_le inside (by
    rwa [Finset.card_range, List.toFinset_card_of_nodup images, List.length_map])
  have member : mid.toNat ∈ (ids.map UInt16.toNat).toFinset := by
    rw [all]
    exact Finset.mem_range.mpr (toNat_lt_pool.mp valid)
  obtain ⟨id, held, same⟩ := List.mem_map.mp (List.mem_toFinset.mp member)
  rwa [← UInt16.toNat_inj.mp same]

/-- Nothing is allocated only where every id of the pool is held. -/
theorem allocate_exhausted (cursor : t.cursor ≠ 0xFFFF)
    (rows : ∀ mid ∈ t.entries, mid ≠ 0xFFFF) (exhausted : t.allocate.1 = none)
    (valid : mid ≠ 0xFFFF) : mid ∈ t.entries := by
  unfold allocate at exhausted
  split at exhausted
  · next full =>
      refine held_of_full t.entries.nodupKeys rows ?_ valid
      rwa [AList.keys, List.keys, List.length_map]
  · obtain ⟨turns, bound, reached⟩ := advance_reaches cursor valid
    rw [← reached]
    exact allocateFrom_exhausted exhausted turns bound

/-! ## Where an id goes -/

theorem Accepts.cursor_eq {message : Message} (accepts : t.Accepts message now t' verdict effects) :
    t'.cursor = t.cursor := by
  cases accepts <;> rfl

theorem Fires.cursor_eq {d : Deadline} (fires : t.Fires d now t' verdict effects) :
    t'.cursor = t.cursor := by
  cases fires <;> rfl

theorem Expires.cursor_eq (expires : Expires now t t' verdict effects) :
    t'.cursor = t.cursor := by
  induction expires with
  | done => rfl
  | stop _ _ fires => exact fires.cursor_eq
  | turn _ _ fires _ ih => exact ih.trans fires.cursor_eq

/-- A message takes an id from the table only by completing the reply of the request
that holds it. -/
theorem Accepts.completes {message : Message} (accepts : t.Accepts message now t' verdict effects)
    (held : mid ∈ t.entries) (left : mid ∉ t'.entries) :
    message.header.mid = mid ∧ ∃ e e' out, t.entries.lookup mid = some e ∧
      e.isRetired = false ∧ e.command = message.header.command ∧
      e.accept message now t.timeouts.perRequest = .ok (e', .completed, out) := by
  cases accepts with
  | unknown => exact absurd held left
  | remembered => exact absurd held left
  | mismatched => exact absurd held left
  | continued => exact absurd ((AList.mem_insert _).mpr (Or.inr held)) left
  | corrupted => exact absurd ((AList.mem_insert _).mpr (Or.inr held)) left
  | completed found active command taken =>
      by_cases here : mid = message.header.mid
      · subst here
        exact ⟨rfl, _, _, _, found, active, command, taken⟩
      · exact absurd (AList.mem_erase.mpr ⟨here, (AList.mem_insert _).mpr (Or.inr held)⟩) left

/-- A message that corrupts a request's reassembly retires its id. -/
theorem Accepts.corrupts {message : Message} (accepts : t.Accepts message now t' verdict effects)
    {e e' : Entry} {out : List Effect} (found : t.entries.lookup message.header.mid = some e)
    (active : e.isRetired = false) (command : e.command = message.header.command)
    (taken : e.accept message now t.timeouts.perRequest = .ok (e', .corrupted, out)) :
    ∃ row, t'.entries.lookup message.header.mid = some row ∧ row.isRetired = true := by
  cases accepts with
  | unknown absent =>
      rw [absent] at found
      cases found
  | remembered found' retired =>
      rw [found'] at found
      cases found
      rw [active] at retired
      cases retired
  | mismatched found' _ other =>
      rw [found'] at found
      cases found
      exact absurd command other
  | continued found' _ _ taken' =>
      rw [found'] at found
      cases found
      rw [taken'] at taken
      cases taken
  | completed found' _ _ taken' =>
      rw [found'] at found
      cases found
      rw [taken'] at taken
      cases taken
  | corrupted => exact ⟨_, AList.lookup_insert _, rfl⟩

/-- No deadline takes an id from the table. -/
theorem Fires.keeps {d : Deadline} (fires : t.Fires d now t' verdict effects)
    (held : mid ∈ t.entries) : mid ∈ t'.entries := by
  cases fires with
  | lapsed => exact (AList.mem_insert _).mpr (Or.inr held)
  | gaveUp => exact (AList.mem_insert _).mpr (Or.inr held)

theorem Expires.keeps (expires : Expires now t t' verdict effects) (held : mid ∈ t.entries) :
    mid ∈ t'.entries := by
  induction expires with
  | done => exact held
  | stop _ _ fires => exact fires.keeps held
  | turn _ _ fires _ ih => exact ih (fires.keeps held)

/-- Changing a row leaves a retired one of another id. -/
theorem lookup_insert_of_retired {e e' row : Entry} {m : UInt16}
    (found : t.entries.lookup m = some e) (active : e.isRetired = false)
    (held : t.entries.lookup mid = some row) (retired : row.isRetired = true) :
    (t.entries.insert m e').lookup mid = some row := by
  have other : mid ≠ m := by
    intro same
    rw [same, found] at held
    cases held
    rw [active] at retired
    cases retired
  rw [AList.lookup_insert_ne other, held]

theorem Accepts.keeps_retired {message : Message} {row : Entry}
    (accepts : t.Accepts message now t' verdict effects)
    (held : t.entries.lookup mid = some row) (retired : row.isRetired = true) :
    t'.entries.lookup mid = some row := by
  cases accepts with
  | unknown => exact held
  | remembered => exact held
  | mismatched => exact held
  | continued found active => exact lookup_insert_of_retired found active held retired
  | corrupted found active => exact lookup_insert_of_retired found active held retired
  | completed found active =>
      have other : mid ≠ message.header.mid := by
        intro same
        rw [same, found] at held
        cases held
        rw [active] at retired
        cases retired
      dsimp only
      rw [AList.lookup_erase_ne other]
      exact lookup_insert_of_retired found active held retired

theorem Fires.keeps_retired {d : Deadline} {row : Entry}
    (fires : t.Fires d now t' verdict effects) (held : t.entries.lookup mid = some row)
    (retired : row.isRetired = true) : t'.entries.lookup mid = some row := by
  cases fires with
  | @lapsed e found charges =>
      have active : e.isRetired = false := by
        unfold Entry.charges at charges
        unfold Entry.isRetired
        split at charges <;> simp_all
      exact lookup_insert_of_retired found active held retired
  | gaveUp found state =>
      exact lookup_insert_of_retired found (by rw [Entry.isRetired, state]) held retired

theorem Expires.keeps_retired {row : Entry} (expires : Expires now t t' verdict effects)
    (held : t.entries.lookup mid = some row) (retired : row.isRetired = true) :
    t'.entries.lookup mid = some row := by
  induction expires with
  | done => exact held
  | stop _ _ fires => exact fires.keeps_retired held retired
  | turn _ _ fires _ ih => exact ih (fires.keeps_retired held retired)

end RequestTable

/-! ## Every run -/

namespace Actor

variable {a a' : Actor}

/-- The cursor, the ids held and the id of the request being written are the pool's. -/
structure Pooled (a : Actor) : Prop where
  cursor : a.table.cursor ≠ 0xFFFF
  rows : ∀ mid ∈ a.table.entries, mid ≠ 0xFFFF
  queued : ∀ q ∈ a.queued, q.mid ≠ 0xFFFF

theorem pooled_new (limit : ℕ) (timeouts : Timeouts) : (new limit timeouts).Pooled where
  cursor := show (0 : UInt16) ≠ 0xFFFF by decide
  rows := fun _ no => absurd no (AList.notMem_empty _)
  queued := fun _ no => nomatch no

/-- A table that holds no further ids. -/
theorem Pooled.narrow (pooled : a.Pooled) (writing : a'.writing = a.writing)
    (cursor : a'.table.cursor = a.table.cursor)
    (fewer : ∀ mid ∈ a'.table.entries, mid ∈ a.table.entries) : a'.Pooled where
  cursor := cursor ▸ pooled.cursor
  rows := fun mid held => pooled.rows mid (fewer mid held)
  queued := queued_congr writing ▸ pooled.queued

theorem Pooled.begins {d : Dispatch} {callerGone : Bool} {verdict : Except Error Unit}
    {out : List Effect} (pooled : a.Pooled) (begins : a.Begins d callerGone a' verdict out) :
    a'.Pooled := by
  obtain ⟨cursor, frame⟩ := a.table.allocate_frame
  obtain ⟨valid, moved⟩ := RequestTable.allocate_valid pooled.cursor
  have rows : ∀ mid ∈ a.table.allocate.2.entries, mid ≠ 0xFFFF := by
    rw [frame]
    exact pooled.rows
  cases begins with
  | forgone => exact pooled
  | exhausted => exact ⟨moved, rows, pooled.queued⟩
  | unsendable => exact ⟨moved, rows, pooled.queued⟩
  | started _ allocated =>
      refine ⟨moved, rows, fun q member => ?_⟩
      cases member
      exact valid _ allocated

/-- The first bytes of a request leave the rows there are. -/
theorem lookup_dispatchQueued {table : RequestTable} {queued : Option Queued} {now : Instant}
    {mid : UInt16} {row : Entry} (free : ∀ q ∈ queued, q.mid ∉ table.entries)
    (held : table.entries.lookup mid = some row) :
    (dispatchQueued table queued now).entries.lookup mid = some row := by
  cases queued with
  | none => exact held
  | some q =>
      have other : mid ≠ q.mid := by
        intro same
        have absent := AList.lookup_eq_none.mpr (free q rfl)
        rw [← same, held] at absent
        cases absent
      exact (AList.lookup_insert_ne other).trans held

theorem mem_dispatchQueued {table : RequestTable} {queued : Option Queued} {now : Instant}
    {mid : UInt16} (held : mid ∈ table.entries) :
    mid ∈ (dispatchQueued table queued now).entries := by
  cases queued with
  | none => exact held
  | some q => exact (AList.mem_insert _).mpr (Or.inr held)

end Actor

namespace World

variable {w w' : World} {e : Event} {out : List Effect}

theorem Moves.pooled (moves : w.Moves e w' out) (pooled : w.actor.Pooled) : w'.actor.Pooled := by
  have same : ∀ {a : Actor}, a.writing = w.actor.writing → a.table = w.actor.table → a.Pooled := by
    intro a writing table
    exact pooled.narrow writing (by rw [table]) (by rw [table]; exact fun _ held => held)
  cases moves with
  | request => exact same rfl rfl
  | close => exact same rfl rfl
  | dropRequests => exact same rfl rfl
  | dropCloses => exact same rfl rfl
  | advance => exact pooled
  | finished =>
      obtain ⟨closes, frame⟩ := w.actor.resetRun_frame
      exact same (by dsimp only; rw [frame]) (by dsimp only; rw [frame])
  | waits =>
      obtain ⟨closes, frame⟩ := w.actor.resetRun_frame
      exact same (by dsimp only; rw [frame]) (by dsimp only; rw [frame])
  | took _ _ _ begins =>
      rw [actor_conclude]
      exact (same writing_taking table_taking).begins begins
  | @channelEnded _ isClose => cases isClose <;> exact same rfl rfl
  | unrouted => rwa [actor_conclude]
  | routed _ _ _ accepts =>
      rw [actor_conclude]
      exact pooled.narrow rfl accepts.cursor_eq fun _ => accepts.mem_of_mem
  | writeFailed => rwa [actor_conclude]
  | @wrote _ writing _ _ _ _ inProgress =>
      rw [actor_conclude]
      have queued := pooled.queued
      rw [Actor.queued, inProgress, Option.bind_some] at queued
      have unqueued : ∀ q ∈ (none : Option Queued), q.mid ≠ 0xFFFF :=
        fun q no => absurd no (Option.not_mem_none q)
      rw [← @Actor.queued_writingAfter writing] at unqueued
      refine ⟨?_, ?_, unqueued⟩
      · dsimp only
        unfold Actor.dispatchQueued
        cases writing.queued <;> exact pooled.cursor
      · dsimp only
        unfold Actor.dispatchQueued
        cases half : writing.queued with
        | none => exact pooled.rows
        | some q =>
            intro mid held
            rcases (AList.mem_insert _).mp held with rfl | held
            · exact queued q half
            · exact pooled.rows mid held
  | silent => rwa [actor_conclude]
  | ticked _ expires =>
      rw [actor_conclude]
      exact pooled.narrow rfl expires.cursor_eq fun _ => expires.mem_of_mem
  | teardown =>
      exact ⟨pooled.cursor, fun _ no => absurd no (AList.notMem_empty _),
        fun q no => absurd no (Option.not_mem_none q)⟩

/-- What a step does to the rows of the table: nothing, or what a message, the first
bytes of a request, the clock or the end of the connection does. -/
theorem Moves.rows (moves : w.Moves e w' out) :
    (w'.actor.table.entries = w.actor.table.entries ∧
        ∀ written, e = .written (.ok written) → written = 0) ∨
      (∃ message routed, e = .inbound (.ok (some (.message message))) ∧
        w.actor.table.Accepts message w.clock w'.actor.table routed out) ∨
      (∃ written, e = .written (.ok written) ∧ written ≠ 0 ∧
        w'.actor.table = Actor.dispatchQueued w.actor.table w.actor.queued w.clock) ∨
      (∃ verdict, e = .timer ∧
        RequestTable.Expires w.clock w.actor.table w'.actor.table verdict out) ∨
      e = .teardown := by
  cases moves with
  | request => exact Or.inl ⟨rfl, fun _ no => Event.noConfusion no⟩
  | close => exact Or.inl ⟨rfl, fun _ no => Event.noConfusion no⟩
  | dropRequests => exact Or.inl ⟨rfl, fun _ no => Event.noConfusion no⟩
  | dropCloses => exact Or.inl ⟨rfl, fun _ no => Event.noConfusion no⟩
  | advance => exact Or.inl ⟨rfl, fun _ no => Event.noConfusion no⟩
  | finished =>
      obtain ⟨closes, frame⟩ := w.actor.resetRun_frame
      exact Or.inl ⟨by dsimp only; rw [frame], fun _ no => Event.noConfusion no⟩
  | waits =>
      obtain ⟨closes, frame⟩ := w.actor.resetRun_frame
      exact Or.inl ⟨by dsimp only; rw [frame], fun _ no => Event.noConfusion no⟩
  | @took _ isClose _ _ _ _ _ _ _ _ _ begins =>
      refine Or.inl ⟨by rw [actor_conclude, begins.entries_eq, table_taking], fun _ no => ?_⟩
      cases isClose <;> cases no
  | @channelEnded _ isClose =>
      cases isClose <;> exact Or.inl ⟨rfl, fun _ no => Event.noConfusion no⟩
  | unrouted => exact Or.inl ⟨by rw [actor_conclude], fun _ no => Event.noConfusion no⟩
  | routed _ _ _ accepts =>
      rw [actor_conclude]
      exact Or.inr (Or.inl ⟨_, _, rfl, accepts⟩)
  | writeFailed _ _ nothing =>
      refine Or.inl ⟨by rw [actor_conclude], fun written same => ?_⟩
      cases same
      exact nothing written rfl
  | wrote _ inProgress some =>
      rw [actor_conclude, Actor.queued, inProgress, Option.bind_some]
      exact Or.inr (Or.inr (Or.inl ⟨_, rfl, some, rfl⟩))
  | silent => exact Or.inl ⟨by rw [actor_conclude], fun _ no => Event.noConfusion no⟩
  | ticked _ expires =>
      rw [actor_conclude]
      exact Or.inr (Or.inr (Or.inr (Or.inl ⟨_, rfl, expires⟩)))
  | teardown => exact Or.inr (Or.inr (Or.inr (Or.inr rfl)))

/-- **An id goes back to the pool** only with the connection, or by the message that
completes the reply of the request holding it. -/
theorem Moves.completes {mid : UInt16} (moves : w.Moves e w' out)
    (held : mid ∈ w.actor.table.entries) (left : mid ∉ w'.actor.table.entries) :
    e = .teardown ∨ ∃ message entry entry' out', e = .inbound (.ok (some (.message message))) ∧
      message.header.mid = mid ∧ w.actor.table.entries.lookup mid = some entry ∧
      entry.isRetired = false ∧ entry.command = message.header.command ∧
      entry.accept message w.clock w.actor.table.timeouts.perRequest =
        .ok (entry', .completed, out') := by
  rcases moves.rows with
    ⟨same, -⟩ | ⟨message, routed, rfl, accepts⟩ | ⟨written, -, -, table⟩ | ⟨verdict, -, expires⟩
    | ended
  · rw [same] at left
    exact absurd held left
  · obtain ⟨addressed, entry, entry', out', found⟩ := accepts.completes held left
    exact Or.inr ⟨message, entry, entry', out', rfl, addressed, found⟩
  · rw [table] at left
    exact absurd (Actor.mem_dispatchQueued held) left
  · exact absurd (expires.keeps held) left
  · exact Or.inl ended

/-- **A retired id is withheld** for the life of the connection. -/
theorem Moves.keeps_retired {mid : UInt16} {row : Entry} (moves : w.Moves e w' out)
    (sound : w.Sound) (live : w.phase ≠ .gone)
    (held : w.actor.table.entries.lookup mid = some row) (retired : row.isRetired = true) :
    e = .teardown ∨ w'.actor.table.entries.lookup mid = some row := by
  rcases moves.rows with
    ⟨same, -⟩ | ⟨message, routed, -, accepts⟩ | ⟨written, -, -, table⟩ | ⟨verdict, -, expires⟩
    | ended
  · rw [same]
    exact Or.inr held
  · exact Or.inr (accepts.keeps_retired held retired)
  · rw [table]
    exact Or.inr (Actor.lookup_dispatchQueued (sound.actor live).free held)
  · exact Or.inr (expires.keeps_retired held retired)
  · exact Or.inl ended

theorem pooled_of_run {limit : ℕ} {timeouts : Timeouts} {es : List Event} {log : List Effect}
    (ran : connection.run (new limit timeouts) es = some (w, log)) :
    w.Sound ∧ w.actor.Pooled :=
  Trace.Machine.invariant (m := connection) (P := fun w => w.Sound ∧ w.actor.Pooled)
    ⟨sound_new limit timeouts, Actor.pooled_new limit timeouts⟩
    (fun _ _ _ _ ⟨sound, pooled⟩ stepped =>
      ⟨sound.step stepped, (sound.moves stepped).pooled pooled⟩) ran

end World

end Smb1Client
