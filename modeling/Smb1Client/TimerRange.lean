import Smb1Client.Connection.Clocks

/-!
The sums the configured durations go into.

`Instant` and `Duration` end somewhere, and the additions and multiplications of
`connection/table.rs`, `connection/actor.rs` and `client.rs` panic past their end. What each
function computes is listed beside it, in its order; `Computed.Fits` says of a value that it
exists. The subtractions saturate, and are not listed.
-/

namespace Smb1Client

/-- `Duration::MAX`, in nanoseconds. -/
def DURATION_MAX : Duration := 2 ^ 64 * 1000000000 - 1

def PROBE_AFTER_DEADLINES : ℕ := 1
def EVICT_AFTER_DEADLINES : ℕ := 20

/-- What an addition or a multiplication comes to. -/
inductive Computed where
  | instant (value : Instant)
  | duration (value : Duration)
  deriving DecidableEq

/-- The value is one its type has, where `last` is the last instant there is. -/
def Computed.Fits (last : Instant) : Computed → Prop
  | instant value => value ≤ last
  | duration value => value ≤ DURATION_MAX

/-! ## What is computed -/

def Entry.touchComputes (e : Entry) (now : Instant) (perRequest : Duration) : List Computed :=
  match e.state with
  | .onWire .. => [.instant (now + perRequest)]
  | _ => []

namespace RequestTable

def dispatchComputes (t : RequestTable) (now : Instant) : List Computed :=
  [.instant (now + t.timeouts.perRequest), .instant (now + t.timeouts.overall)]

def acceptComputes (t : RequestTable) (message : Message) (now : Instant) : List Computed :=
  match t.entries.lookup message.header.mid with
  | none => []
  | some entry =>
      if entry.isRetired then []
      else if entry.command ≠ message.header.command then []
      else entry.touchComputes now t.timeouts.perRequest

/-- What one turn of the loop of `expire` computes. -/
def fireComputes (t : RequestTable) (now : Instant) : List Computed :=
  [.duration (t.timeouts.overall * GIVE_UP_DEADLINES),
    .instant (now + t.timeouts.overall * GIVE_UP_DEADLINES)]

def expireLoopComputes : ℕ → RequestTable → Instant → List Computed
  | 0, _, _ => []
  | turns + 1, t, now =>
      match firstDeadline t.expiry with
      | none => []
      | some d =>
          if d.instant > now then []
          else t.fireComputes now ++
            match t.fire d now with
            | .ok (t, .ok (), _) => expireLoopComputes turns t now
            | _ => []

def expireComputes (t : RequestTable) (now : Instant) : List Computed :=
  expireLoopComputes (2 * t.entries.entries.length + 1) t now

end RequestTable

namespace Actor

def noteWaitingComputes (a : Actor) (now : Instant) : List Computed :=
  match a.waitingSince, decide (a.table.charging > 0) with
  | some since, false => [.duration (a.silentFor + (now - since))]
  | _, _ => []

def wroteComputes (a : Actor) (written : ℕ) (now : Instant) : List Computed :=
  if written = 0 then []
  else
    match a.writing with
    | none => []
    | some writing =>
        (if writing.queued.isSome then a.table.dispatchComputes now else []) ++
          noteWaitingComputes { a with table := dispatchQueued a.table writing.queued now } now

def routeComputes (a : Actor) (inbound : Inbound) (now : Instant) : List Computed :=
  match inbound with
  | .keepAlive => []
  | .message message =>
      match chainedCommand message with
      | some _ => []
      | none => a.table.acceptComputes message now ++
          match a.table.accept message now with
          | .ok (table, .ok (), _) =>
              noteWaitingComputes { a with table, silentFor := 0, waitingSince := none } now
          | _ => []

/-- `silent_for` is asked only while a caller waits. -/
def tickComputes (a : Actor) (now : Instant) : List Computed :=
  (if a.waitingSince.isSome then [.duration (a.silentForAt now)] else []) ++
    if a.waitingSince.isSome ∧ a.silentForAt now ≥ a.timeouts.overall then []
    else a.table.expireComputes now ++
      match a.table.expire now with
      | .ok (table, _, _) => noteWaitingComputes { a with table } now
      | .error _ => []

def nextWakeComputes (a : Actor) : List Computed :=
  match a.waitingSince with
  | some since => [.instant (since + (a.timeouts.overall - a.silentFor))]
  | none => []

end Actor

/-- What a step of the connection task computes. -/
def World.computes (w : World) : Event → List Computed
  | .evaluate =>
      if w.actor.resetRun.finished then [] else w.actor.resetRun.nextWakeComputes
  | .inbound (.ok (some inbound)) => w.actor.routeComputes inbound w.clock
  | .written (.ok written) => w.actor.wroteComputes written w.clock
  | .timer => w.actor.tickComputes w.clock
  | _ => []

/-- What the cache computes: `probe_after` before a connection is handed out again, and
`evict_after` twice where `ensure_sweeper` starts a sweeper. -/
def probeAfterComputes (overall : Duration) : List Computed :=
  [.duration (overall * PROBE_AFTER_DEADLINES)]

def evictAfterComputes (overall : Duration) : List Computed :=
  [.duration (overall * EVICT_AFTER_DEADLINES)]

def ensureSweeperComputes (sweeper closed : Bool) (overall : Duration) : List Computed :=
  if sweeper || closed then [] else evictAfterComputes overall ++ evictAfterComputes overall

/-! ## What fits -/

namespace RequestTable

variable {t : RequestTable} {now last : Instant} {c : Computed}

theorem mem_expireLoopComputes {turns : ℕ} (accounts : t.Accounts)
    (computed : c ∈ expireLoopComputes turns t now) :
    (∃ d ∈ t.expiry, d.instant ≤ now) ∧ c ∈ t.fireComputes now := by
  induction turns generalizing t with
  | zero => cases computed
  | succ turns ih =>
      unfold expireLoopComputes at computed
      cases first : firstDeadline t.expiry with
      | none =>
          rw [first] at computed
          cases computed
      | some d =>
          rw [first] at computed
          dsimp only at computed
          split at computed
          · cases computed
          · next past =>
            have due := mem_of_firstDeadline first
            refine ⟨⟨d, due, not_lt.mp past⟩, ?_⟩
            rcases List.mem_append.mp computed with here | later
            · exact here
            · obtain ⟨t₁, verdict, out, fired, fires⟩ := accounts.fires due now
              rw [fired] at later
              cases verdict with
              | error => cases later
              | ok =>
                  have same := (ih (fires.accounts due accounts) later).2
                  rwa [fireComputes, fires.timeouts_eq] at same

theorem mem_expireComputes (accounts : t.Accounts) (computed : c ∈ t.expireComputes now) :
    (∃ d ∈ t.expiry, d.instant ≤ now) ∧ c ∈ t.fireComputes now :=
  mem_expireLoopComputes accounts computed

/-- The first deadline that has passed is fired. -/
theorem fireComputes_subset {d : Deadline} (due : d ∈ t.expiry) (past : d.instant ≤ now) :
    t.fireComputes now ⊆ t.expireComputes now := by
  unfold expireComputes expireLoopComputes
  cases first : firstDeadline t.expiry with
  | none =>
      rw [firstDeadline_eq_none.mp first] at due
      exact absurd due (Finset.notMem_empty _)
  | some d' =>
      dsimp only
      rw [if_neg (not_lt.mpr ((first_le first due).trans past))]
      exact List.subset_append_left _ _

theorem fits_fireComputes (bounded : last ≤ DURATION_MAX) :
    (∀ c ∈ t.fireComputes now, c.Fits last) ↔
      now + t.timeouts.overall * GIVE_UP_DEADLINES ≤ last := by
  rw [fireComputes, List.forall_mem_cons, List.forall_mem_singleton]
  exact and_iff_right_of_imp fun fits => (Nat.le_add_left _ _).trans (fits.trans bounded)

end RequestTable

namespace Actor

variable {a : Actor} {now last : Instant} {c : Computed}

/-- What `note_waiting` adds up is how long the connection has been silent. -/
theorem fits_noteWaitingComputes (short : a.silentForAt now ≤ DURATION_MAX)
    (computed : c ∈ a.noteWaitingComputes now) : c.Fits last := by
  unfold noteWaitingComputes at computed
  split at computed
  · next since _ waiting _ =>
      obtain rfl := List.mem_singleton.mp computed
      rw [silentForAt, waiting] at short
      exact short
  · cases computed

end Actor

/-! ## Every step -/

namespace World

variable {w w' : World} {e : Event} {out : List Effect} {steps : List (World × Event)}
  {limit : ℕ} {timeouts : Timeouts} {last : Instant}

/-- The clock leaves room for what a step adds to it: to put a request on the wire, to hear of
one, to let deadlines fire that have passed, and to wait out the silence. -/
structure Room (last : Instant) (timeouts : Timeouts) (steps : List (World × Event)) (w : World)
    (e : Event) : Prop where
  sends : (w.entered e).isSome = true →
    w.clock + timeouts.perRequest ≤ last ∧ w.clock + timeouts.overall ≤ last
  hears : ∀ message row, heard e = some message → chainedCommand message = none →
    w.actor.table.entries.lookup message.header.mid = some row → row.charges = true →
      row.command = message.header.command → w.clock + timeouts.perRequest ≤ last
  fires : e = .timer → (w.actor.table.busy = true → silence steps < timeouts.overall) →
    (∃ d ∈ w.actor.table.expiry, d.instant ≤ w.clock) →
      w.clock + timeouts.overall * GIVE_UP_DEADLINES ≤ last
  waits : e = .evaluate → w.actor.table.busy = true →
    w.clock + (timeouts.overall - silence steps) ≤ last

theorem clock_le_of_step (timed : Timed timeouts steps w) (stepped : w.step e = some (w', out)) :
    w.clock ≤ w'.clock := by
  cases timed.sound.moves stepped with
  | took => exact clock_conclude.ge
  | unrouted => exact clock_conclude.ge
  | routed => exact clock_conclude.ge
  | writeFailed => exact clock_conclude.ge
  | wrote => exact clock_conclude.ge
  | silent => exact clock_conclude.ge
  | ticked => exact clock_conclude.ge
  | advance span => exact Nat.le_add_right _ _
  | _ => exact le_rfl

/-- No more time is waited in silence than has passed. -/
theorem silence_le (timed : Timed timeouts steps w) (elapsed : silence steps ≤ w.clock)
    (stepped : w.step e = some (w', out)) : silence (steps ++ [(w, e)]) ≤ w'.clock := by
  rw [silence_concat, silenceAfter]
  dsimp only
  split
  · next span =>
      cases stepped
      split
      · exact Nat.add_le_add_right elapsed span
      · exact elapsed.trans (Nat.le_add_right _ _)
  · refine le_trans ?_ (clock_le_of_step timed stepped)
    split
    · exact Nat.zero_le _
    · exact elapsed

/-! ### One step -/

/-- The silence counted is a `Duration`. -/
theorem Timed.short (timed : Timed timeouts steps w) (running : w.Running)
    (elapsed : silence steps ≤ w.clock) (clocked : w.clock ≤ last)
    (bounded : last ≤ DURATION_MAX) : w.actor.silentForAt w.clock ≤ DURATION_MAX := by
  rw [(timed.actor running).shows.shows]
  exact elapsed.trans (clocked.trans bounded)

theorem Timed.fits_wrote_iff {written : ℕ} (timed : Timed timeouts steps w) (running : w.Running)
    (short : w.actor.silentForAt w.clock ≤ DURATION_MAX) :
    (∀ c ∈ w.actor.wroteComputes written w.clock, c.Fits last) ↔
      ((w.entered (.written (.ok written))).isSome = true →
        w.clock + timeouts.perRequest ≤ last ∧ w.clock + timeouts.overall ≤ last) := by
  rw [Actor.wroteComputes, entered]
  by_cases nothing : written = 0
  · rw [if_pos nothing, if_pos nothing]
    simp
  · rw [if_neg nothing, if_neg nothing, Actor.queued]
    cases w.actor.writing with
    | none => simp
    | some writing =>
        dsimp only [Option.bind_some]
        refine (List.forall_mem_append.trans (and_iff_left fun c computed =>
          Actor.fits_noteWaitingComputes (by exact short) computed)).trans ?_
        cases writing.queued with
        | none => simp
        | some q =>
            rw [Option.isSome_some, if_pos rfl, RequestTable.dispatchComputes,
              List.forall_mem_cons, List.forall_mem_singleton, (timed.actor running).table]
            exact ⟨fun fits _ => fits, fun fits => fits rfl⟩

theorem Timed.fits_routed_iff {inbound : Inbound} (timed : Timed timeouts steps w)
    (running : w.Running) :
    (∀ c ∈ w.actor.routeComputes inbound w.clock, c.Fits last) ↔
      ∀ message row, heard (.inbound (.ok (some inbound))) = some message →
        chainedCommand message = none →
        w.actor.table.entries.lookup message.header.mid = some row → row.charges = true →
          row.command = message.header.command → w.clock + timeouts.perRequest ≤ last := by
  cases inbound with
  | keepAlive =>
      refine iff_of_true (List.forall_mem_nil _) fun _ _ none => ?_
      cases none
  | message message =>
      rw [Actor.routeComputes]
      cases chained : chainedCommand message with
      | some next =>
          refine iff_of_true (List.forall_mem_nil _) fun _ _ same unchained => ?_
          cases same
          cases chained.symm.trans unchained
      | none =>
          refine (List.forall_mem_append.trans (and_iff_left fun c computed => ?_)).trans ?_
          · split at computed
            · exact Actor.fits_noteWaitingComputes (Nat.zero_le _) computed
            · cases computed
          rw [RequestTable.acceptComputes]
          cases found : w.actor.table.entries.lookup message.header.mid with
          | none =>
              refine iff_of_true (List.forall_mem_nil _) fun _ _ same _ found' => ?_
              cases same
              cases found.symm.trans found'
          | some row =>
              dsimp only
              rw [(timed.actor running).table]
              constructor
              · intro fits message' row' same _ found' charges command
                cases same
                cases found.symm.trans found'
                have active : row.isRetired = false := by
                  unfold Entry.charges at charges
                  unfold Entry.isRetired
                  split at charges <;> simp_all
                rw [active, if_neg Bool.false_ne_true, if_neg (not_not.mpr command),
                  Entry.touchComputes] at fits
                unfold Entry.charges at charges
                split at charges
                · next state =>
                    rw [state] at fits
                    exact fits _ List.mem_cons_self
                · cases charges
              · intro room c computed
                split at computed
                · cases computed
                · split at computed
                  · cases computed
                  · next command =>
                      unfold Entry.touchComputes at computed
                      split at computed
                      · next state =>
                          obtain rfl := List.mem_singleton.mp computed
                          exact room message row rfl chained found
                            (by rw [Entry.charges, state]) (not_not.mp command)
                      · cases computed

theorem Timed.fits_ticked_iff (timed : Timed timeouts steps w) (running : w.Running)
    (short : w.actor.silentForAt w.clock ≤ DURATION_MAX) (bounded : last ≤ DURATION_MAX) :
    (∀ c ∈ w.actor.tickComputes w.clock, c.Fits last) ↔
      ((w.actor.table.busy = true → silence steps < timeouts.overall) →
        (∃ d ∈ w.actor.table.expiry, d.instant ≤ w.clock) →
          w.clock + timeouts.overall * GIVE_UP_DEADLINES ≤ last) := by
  have before := timed.actor running
  have accounts := (timed.sound.actor running.live).accounts
  have waits : w.actor.waitingSince.isSome = w.actor.table.busy := by
    rw [before.shows.waits, accounts.busy_eq]
  rw [Actor.tickComputes, waits, before.shows.shows, before.settings]
  refine (List.forall_mem_append.trans (and_iff_right fun c computed => ?_)).trans ?_
  · split at computed
    · obtain rfl := List.mem_singleton.mp computed
      rw [← before.shows.shows]
      exact short
    · cases computed
  split
  · next long =>
      refine iff_of_true (List.forall_mem_nil _) fun brief => ?_
      exact absurd (brief long.1) (not_lt.mpr long.2)
  · next brief =>
      have brief : w.actor.table.busy = true → silence steps < timeouts.overall :=
        fun busy => not_le.mp fun long => brief ⟨busy, long⟩
      refine (List.forall_mem_append.trans (and_iff_left fun c computed => ?_)).trans ?_
      · split at computed
        · exact Actor.fits_noteWaitingComputes (by exact short) computed
        · cases computed
      have fired := @RequestTable.fits_fireComputes w.actor.table w.clock last bounded
      rw [before.table] at fired
      constructor
      · rintro fits - ⟨d, due, past⟩
        exact fired.mp fun c computed => fits c (RequestTable.fireComputes_subset due past computed)
      · intro room c computed
        obtain ⟨due, computed⟩ := RequestTable.mem_expireComputes accounts computed
        exact fired.mpr (room brief due) c computed

theorem Timed.fits_evaluated_iff (timed : Timed timeouts steps w) (running : w.Running)
    (clocked : w.clock ≤ last) :
    (∀ c ∈ w.computes .evaluate, c.Fits last) ↔
      (w.actor.table.busy = true → w.clock + (timeouts.overall - silence steps) ≤ last) := by
  have before := timed.actor running
  have accounts := (timed.sound.actor running.live).accounts
  obtain ⟨closes, frame⟩ := w.actor.resetRun_frame
  rw [computes, frame]
  have waits := before.shows.waits
  rw [← accounts.busy_eq] at waits
  split
  · next done =>
      refine iff_of_true (List.forall_mem_nil _) fun busy => ?_
      rw [accounts.busy_eq] at busy
      simp only [Actor.finished, Bool.and_eq_true, decide_eq_true_eq] at done
      exact absurd done.2 (of_decide_eq_true busy).ne'
  · rw [Actor.nextWakeComputes]
    dsimp only
    cases waiting : w.actor.waitingSince with
    | none =>
        rw [waiting, Option.isSome_none] at waits
        refine iff_of_true (List.forall_mem_nil _) fun busy => ?_
        cases waits.trans busy
    | some since =>
        rw [waiting, Option.isSome_some] at waits
        have shows := before.shows.shows
        have began := before.shows.since since waiting
        rw [Actor.silentForAt, waiting] at shows
        dsimp only at shows ⊢
        rw [List.forall_mem_singleton, Computed.Fits, before.settings, ← waits]
        refine Iff.trans ?_ ⟨fun room _ => room, fun room => room rfl⟩
        rcases before.shows.below with none | below
        · rw [none] at shows ⊢
          unfold Instant Duration at *
          omega
        · unfold Instant Duration at *
          omega

/-- A step that computes nothing needs no room. -/
theorem room_of_nothing (unsent : w.entered e = none) (unheard : heard e = none)
    (untimed : e ≠ .timer) (waits : e ≠ .evaluate) : Room last timeouts steps w e where
  sends := by
    rw [unsent]
    intro no
    cases no
  hears := by
    rw [unheard]
    intro _ _ no
    cases no
  fires := fun same => absurd same untimed
  waits := fun same => absurd same waits

theorem room_evaluate (room : w.actor.table.busy = true →
    w.clock + (timeouts.overall - silence steps) ≤ last) :
    Room last timeouts steps w .evaluate where
  sends := by intro no; cases no
  hears := by intro _ _ no; cases no
  fires := by intro no; cases no
  waits _ := room

theorem room_timer (room : (w.actor.table.busy = true → silence steps < timeouts.overall) →
    (∃ d ∈ w.actor.table.expiry, d.instant ≤ w.clock) →
      w.clock + timeouts.overall * GIVE_UP_DEADLINES ≤ last) :
    Room last timeouts steps w .timer where
  sends := by intro no; cases no
  hears := by intro _ _ no; cases no
  fires _ := room
  waits := by intro no; cases no

theorem room_inbound {result : Except Error (Option Inbound)}
    (room : ∀ message row, heard (.inbound result) = some message → chainedCommand message = none →
      w.actor.table.entries.lookup message.header.mid = some row → row.charges = true →
        row.command = message.header.command → w.clock + timeouts.perRequest ≤ last) :
    Room last timeouts steps w (.inbound result) where
  sends := by intro no; cases no
  hears := room
  fires := by intro no; cases no
  waits := by intro no; cases no

theorem room_written {result : Except IoError ℕ}
    (room : (w.entered (.written result)).isSome = true →
      w.clock + timeouts.perRequest ≤ last ∧ w.clock + timeouts.overall ≤ last) :
    Room last timeouts steps w (.written result) where
  sends := room
  hears := by intro _ _ no; cases no
  fires := by intro no; cases no
  waits := by intro no; cases no

/-- What a step computes fits exactly where the clock leaves room for it. -/
theorem Timed.fits_iff (timed : Timed timeouts steps w) (elapsed : silence steps ≤ w.clock)
    (clocked : w.clock ≤ last) (bounded : last ≤ DURATION_MAX)
    (stepped : w.step e = some (w', out)) :
    (∀ c ∈ w.computes e, c.Fits last) ↔ Room last timeouts steps w e := by
  have nothing : w.computes e = [] → w.entered e = none → heard e = none → e ≠ .timer →
      e ≠ .evaluate → ((∀ c ∈ w.computes e, c.Fits last) ↔ Room last timeouts steps w e) := by
    intro none unsent unheard untimed waits
    rw [none]
    exact iff_of_true (List.forall_mem_nil _) (room_of_nothing unsent unheard untimed waits)
  cases e with
  | evaluate =>
      rw [World.step] at stepped
      split at stepped
      case h_2 => cases stepped
      next phase =>
      rw [timed.fits_evaluated_iff (Or.inl phase) clocked]
      exact ⟨room_evaluate, fun room => room.waits rfl⟩
  | timer =>
      rw [World.step] at stepped
      split at stepped
      case h_2 => cases stepped
      next guards phase =>
      have running : w.Running := Or.inr ⟨guards, phase⟩
      have short := timed.short running elapsed clocked bounded
      exact (timed.fits_ticked_iff running short bounded).trans
        ⟨room_timer, fun room => room.fires rfl⟩
  | inbound result =>
      rw [World.step] at stepped
      split at stepped
      case h_2 => cases stepped
      next guards phase =>
      cases result with
      | error error => exact nothing rfl rfl rfl Event.noConfusion Event.noConfusion
      | ok arrival =>
          cases arrival with
          | none => exact nothing rfl rfl rfl Event.noConfusion Event.noConfusion
          | some inbound =>
              exact (timed.fits_routed_iff (Or.inr ⟨guards, phase⟩)).trans
                ⟨room_inbound, fun room => room.hears⟩
  | written result =>
      rw [World.step] at stepped
      split at stepped
      case h_2 => cases stepped
      next guards writing phase _ =>
      have running : w.Running := Or.inr ⟨guards, phase⟩
      have short := timed.short running elapsed clocked bounded
      cases result with
      | error error => exact nothing rfl rfl rfl Event.noConfusion Event.noConfusion
      | ok written =>
          exact (timed.fits_wrote_iff running short).trans
            ⟨room_written, fun room => room.sends⟩
  | _ => exact nothing rfl rfl rfl Event.noConfusion Event.noConfusion

/-! ## Every run -/

/-- What the steps of a run compute fits. -/
def RunFits (last : Instant) (limit : ℕ) (timeouts : Timeouts) (es : List Event) : Prop :=
  ∀ before v after, connection.visits (new limit timeouts) es = before ++ v :: after →
    (v.1.step v.2).isSome = true → ∀ c ∈ v.1.computes v.2, c.Fits last

/-- The steps of a run have room. -/
def RunRoom (last : Instant) (limit : ℕ) (timeouts : Timeouts) (es : List Event) : Prop :=
  ∀ before v after, connection.visits (new limit timeouts) es = before ++ v :: after →
    (v.1.step v.2).isSome = true → Room last timeouts before v.1 v.2

/-- Room for one timeout and for eight overall deadlines is room for every step. -/
theorem runRoom_of_clock {es : List Event}
    (roomy : ∀ v ∈ connection.visits (new limit timeouts) es,
      v.1.clock + timeouts.perRequest ≤ last ∧
        v.1.clock + timeouts.overall * GIVE_UP_DEADLINES ≤ last) :
    RunRoom last limit timeouts es := by
  intro before v after split _
  obtain ⟨timeout, deadlines⟩ := roomy v (split ▸ List.mem_append_right _ List.mem_cons_self)
  have overall : v.1.clock + timeouts.overall ≤ last :=
    (Nat.add_le_add_left (Nat.le_mul_of_pos_right _ (by decide)) _).trans deadlines
  exact ⟨fun _ => ⟨timeout, overall⟩, fun _ _ _ _ _ _ _ => timeout, fun _ _ _ => deadlines,
    fun _ _ => (Nat.add_le_add_left (Nat.sub_le _ _) _).trans overall⟩

/-- What the cache computes fits. -/
def CacheFits (last : Instant) (overall : Duration) : Prop :=
  (∀ c ∈ probeAfterComputes overall, c.Fits last) ∧
    (∀ c ∈ evictAfterComputes overall, c.Fits last) ∧
    ∀ sweeper closed, ∀ c ∈ ensureSweeperComputes sweeper closed overall, c.Fits last

theorem cacheFits_iff (last : Instant) (overall : Duration) :
    CacheFits last overall ↔ overall * EVICT_AFTER_DEADLINES ≤ DURATION_MAX := by
  have evicts : (∀ c ∈ evictAfterComputes overall, c.Fits last) ↔
      overall * EVICT_AFTER_DEADLINES ≤ DURATION_MAX := List.forall_mem_singleton
  refine ⟨fun fits => evicts.mp fits.2.1, fun fits => ⟨?_, evicts.mpr fits, ?_⟩⟩
  · refine List.forall_mem_singleton.mpr (le_trans ?_ fits)
    exact Nat.mul_le_mul_left overall (by decide)
  · intro sweeper closed c computed
    unfold ensureSweeperComputes at computed
    split at computed
    · cases computed
    · exact evicts.mpr fits c (or_self_iff.mp (List.mem_append.mp computed))

/-- **The configured durations panic nothing** in the runs whose clock leaves room for them, and
in the cache where twenty overall deadlines are a `Duration`. -/
theorem durations_fit_iff (last : Instant) (bounded : last ≤ DURATION_MAX) (limit : ℕ)
    (timeouts : Timeouts) :
    (∀ es, (∀ v ∈ connection.visits (new limit timeouts) es, v.1.clock ≤ last) →
      (RunFits last limit timeouts es ↔ RunRoom last limit timeouts es)) ∧
    (CacheFits last timeouts.overall ↔
      timeouts.overall * EVICT_AFTER_DEADLINES ≤ DURATION_MAX) := by
  refine ⟨fun es clocked => ?_, cacheFits_iff last timeouts.overall⟩
  refine forall_congr' fun before => forall_congr' fun v => forall_congr' fun after =>
    forall_congr' fun split => forall_congr' fun enabled => ?_
  obtain ⟨⟨w', out⟩, stepped⟩ := Option.isSome_iff_exists.mp enabled
  have here := clocked v (split ▸ List.mem_append_right _ List.mem_cons_self)
  obtain ⟨earlier, log, ran, rfl⟩ := Trace.Machine.run_before split
  have reached : Timed timeouts (connection.visits (new limit timeouts) earlier) v.1 ∧
      silence (connection.visits (new limit timeouts) earlier) ≤ v.1.clock :=
    Trace.Machine.run_induction
      (P := fun steps w _ => Timed timeouts steps w ∧ silence steps ≤ w.clock)
      ⟨timed_new limit timeouts, Nat.zero_le _⟩
      (fun _ _ _ _ _ _ before stepped =>
        ⟨before.1.step stepped, silence_le before.1 before.2 stepped⟩) ran
  exact reached.1.fits_iff reached.2 here bounded stepped

/-- A handle's close goes out. -/
def closeGoes : List Event :=
  [.close ⟨Command.CLOSE, 0, 0, [], 0, 0, none⟩, .evaluate, .takeClose false, .evaluate,
    .written (.ok 36)]

theorem durations_fit_close : RunFits 100 1 ⟨1, 2⟩ closeGoes ∧ CacheFits 100 2 := by
  obtain ⟨runs, cache⟩ := durations_fit_iff 100 (by decide) 1 ⟨1, 2⟩
  have roomy : ∀ v ∈ connection.visits (new 1 ⟨1, 2⟩) closeGoes,
      v.1.clock + 1 ≤ 100 ∧ v.1.clock + 2 * GIVE_UP_DEADLINES ≤ 100 := by
    decide +kernel
  refine ⟨(runs closeGoes fun v member => ?_).mpr (runRoom_of_clock roomy), cache.mpr (by decide)⟩
  exact (Nat.le_add_right _ _).trans (roomy v member).1

/-- Durations without an end take the first close past the last instant of a clock of signed
seconds, and the eviction window past the last duration. -/
theorem unbounded_durations_overflow :
    ¬ RunFits (2 ^ 63 * 1000000000 - 1) 1 ⟨DURATION_MAX, DURATION_MAX⟩ closeGoes ∧
      ¬ CacheFits (2 ^ 63 * 1000000000 - 1) DURATION_MAX := by
  constructor
  · intro fits
    have split := (List.dropLast_append_getLast (List.cons_ne_nil _ _ :
      connection.visits (new 1 ⟨DURATION_MAX, DURATION_MAX⟩) closeGoes ≠ [])).symm
    have overflow := fits _ _ [] split (by decide +kernel) (.instant DURATION_MAX)
      (by decide +kernel)
    exact absurd overflow (by decide : ¬ DURATION_MAX ≤ 2 ^ 63 * 1000000000 - 1)
  · intro fits
    have overflow := fits.2.1 _ List.mem_cons_self
    exact absurd overflow (by decide : ¬ DURATION_MAX * EVICT_AFTER_DEADLINES ≤ DURATION_MAX)

end World

end Smb1Client
