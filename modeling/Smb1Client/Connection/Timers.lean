import Smb1Client.Connection.Clocks

/-!
When the connection's timers fire.

What a tick does follows from what the clocks stand for, and what any other step does to a row
is no lapse. `World.timers_exact` is the account of every step of every run.
-/

namespace Smb1Client

/-! ## Rows between ticks -/

/-- What happens to a row out of a tick: its silence clock may start again, or its id is
withheld. -/
def Entry.Calm (e e' : Entry) : Prop :=
  e'.state = .retired ∨ e'.state = e.state ∨
    ∃ now perRequest, e'.state = (e.touch now perRequest).state

theorem Entry.charges_congr {e e' : Entry} (same : e'.state = e.state) :
    e'.charges = e.charges := by
  rw [Entry.charges, Entry.charges, same]

/-- A row that lapses does so in a tick. -/
theorem Entry.Calm.not_lapsed {e e' : Entry} {giveUpAt : Instant} (calm : e.Calm e')
    (charges : e.charges = true) (lapsed : e'.state = .lapsed giveUpAt) : False := by
  have uncharged : e'.charges = false := by rw [Entry.charges, lapsed]
  rcases calm with retired | same | ⟨now, perRequest, same⟩
  · cases retired.symm.trans lapsed
  · cases uncharged.symm.trans ((Entry.charges_congr same).trans charges)
  · cases uncharged.symm.trans
      ((Entry.charges_congr same).trans (Entry.charges_touch.trans charges))

theorem Entry.Calm.lapsed {e e' : Entry} {giveUpAt : Instant} (calm : e.Calm e')
    (lapsed : e.state = .lapsed giveUpAt) :
    e'.state = .lapsed giveUpAt ∨ e'.state = .retired := by
  rcases calm with retired | same | ⟨now, perRequest, same⟩
  · exact Or.inr retired
  · exact Or.inl (same.trans lapsed)
  · rw [Entry.touch, lapsed] at same
    exact Or.inl (same.trans lapsed)

namespace World

variable {w w' : World} {e : Event} {out : List Effect} {steps : List (World × Event)}
  {limit : ℕ} {timeouts : Timeouts} {mid : UInt16} {verdict : Except Error Unit}

theorem Sound.calm {row row' : Entry} (sound : w.Sound) (moves : w.Moves e w' out)
    (other : e ≠ .timer) (found : w.actor.table.entries.lookup mid = some row)
    (found' : w'.actor.table.entries.lookup mid = some row') : row.Calm row' := by
  have kept : w'.actor.table.entries = w.actor.table.entries → row.Calm row' := by
    intro same
    rw [same] at found'
    cases found.symm.trans found'
    exact Or.inr (Or.inl rfl)
  cases moves with
  | request => exact kept rfl
  | close => exact kept rfl
  | dropRequests => exact kept rfl
  | dropCloses => exact kept rfl
  | advance => exact kept rfl
  | finished =>
      obtain ⟨closes, frame⟩ := w.actor.resetRun_frame
      exact kept (by dsimp only; rw [frame])
  | waits =>
      obtain ⟨closes, frame⟩ := w.actor.resetRun_frame
      exact kept (by dsimp only; rw [frame])
  | took _ _ _ begins =>
      exact kept (by rw [actor_conclude, begins.entries_eq, table_taking])
  | @channelEnded _ isClose => exact kept (by cases isClose <;> rfl)
  | unrouted => exact kept (by rw [actor_conclude])
  | routed _ _ _ accepts =>
      rw [actor_conclude] at found'
      rcases accepts.states found found' with retired | ⟨-, touched⟩ | ⟨-, same⟩
      · exact Or.inl retired
      · exact Or.inr (Or.inr ⟨_, _, touched⟩)
      · exact Or.inr (Or.inl same)
  | writeFailed => exact kept (by rw [actor_conclude])
  | @wrote _ writing _ _ _ phase inProgress =>
      rw [actor_conclude] at found'
      dsimp only at found'
      cases half : writing.queued with
      | none =>
          rw [half, Actor.dispatchQueued] at found'
          cases found.symm.trans found'
          exact Or.inr (Or.inl rfl)
      | some q =>
          have free := (sound.selecting phase).free q (by
            rw [Actor.queued, inProgress, Option.bind_some, half]; rfl)
          have apart : mid ≠ q.mid := by
            intro same
            rw [same] at found
            exact free (AList.lookup_isSome.mp (by rw [found]; rfl))
          rw [half, Actor.dispatchQueued] at found'
          cases found.symm.trans ((AList.lookup_insert_ne apart).symm.trans found')
          exact Or.inr (Or.inl rfl)
  | silent => exact absurd rfl other
  | ticked => exact absurd rfl other
  | teardown => cases found'

/-! ## The timers are exact -/

/-- How the timers behave in one step of a connection that `steps` have led to.

The rows of the table are those of the requests on the wire that still charge capacity, of
those that have lapsed, and of the ids withheld. -/
structure Exact (timeouts : Timeouts) (steps : List (World × Event)) (w : World) (e : Event)
    (w' : World) : Prop where
  /-- A tick fails the connection, or what it next wakes for is still to come. -/
  advances : e = .timer → (∃ error, w'.phase = .stopped (.error error)) ∨
    ∀ wake ∈ w'.actor.nextWake, w'.clock < wake
  silent : e = .timer → (w'.phase = .stopped (.error .silent) ↔ timeouts.overall ≤ silence steps)
  asked : e = .timer → w'.phase = .stopped (.error .silent) → w.actor.table.busy = true
  /-- The actor is awake for every lapse. -/
  woken : ∀ guards, w.phase = .selecting guards → ∀ mid row,
    w.actor.table.entries.lookup mid = some row → row.charges = true →
      ∃ wake ∈ guards.wake, wake ≤ timeouts.lapsesAt (heardAt steps mid) (sentAt steps mid)
  lapses : e = .timer → w'.Running → ∀ mid row,
    w.actor.table.entries.lookup mid = some row → row.charges = true →
      ∃ row', w'.actor.table.entries.lookup mid = some row' ∧
        if timeouts.lapsesAt (heardAt steps mid) (sentAt steps mid) ≤ w.clock then
          row'.state = .lapsed (w.clock + timeouts.overall * GIVE_UP_DEADLINES)
        else row' = row
  lapsesOnly : ∀ mid row row' giveUpAt,
    w.actor.table.entries.lookup mid = some row → row.charges = true →
      w'.actor.table.entries.lookup mid = some row' → row'.state = .lapsed giveUpAt →
        e = .timer ∧ timeouts.lapsesAt (heardAt steps mid) (sentAt steps mid) ≤ w.clock
  /-- However often messages came for it, a request does not outlast its overall deadline. -/
  bounded : e = .timer → w'.Running → ∀ mid row',
    w'.actor.table.entries.lookup mid = some row' → row'.charges = true →
      w.clock < sentAt steps mid + timeouts.overall
  givenUp : ∀ mid row row' giveUpAt,
    w.actor.table.entries.lookup mid = some row → row.state = .lapsed giveUpAt →
      w'.actor.table.entries.lookup mid = some row' →
        row'.state = .lapsed giveUpAt ∨ row'.state = .retired
  keepAlive : e = .inbound (.ok (some .keepAlive)) →
    w'.actor = w.actor ∧ w'.clock = w.clock ∧ silence (steps ++ [(w, e)]) = silence steps ∧
      heardAt (steps ++ [(w, e)]) = heardAt steps ∧ sentAt (steps ++ [(w, e)]) = sentAt steps

/-- What a tick does, in a sound state. -/
theorem ticks (sound : w.Sound) (stepped : w.step .timer = some (w', out)) :
    w.Running ∧ (w.actor.SilentTooLong w.clock ∧ w' = w.conclude w.actor (.error .silent) ∨
      ∃ table verdict silentFor waitingSince, ¬ w.actor.SilentTooLong w.clock ∧
        RequestTable.Expires w.clock w.actor.table table verdict out ∧ table.Accounts ∧
        w' = w.conclude { w.actor with table, silentFor, waitingSince } verdict) := by
  rw [step] at stepped
  split at stepped
  case h_2 => cases stepped
  next guards phase =>
  split at stepped
  case isFalse => cases stepped
  refine ⟨Or.inr ⟨guards, phase⟩, ?_⟩
  rcases w.actor.tick_cases (sound.selecting phase).accounts w.clock with
    ⟨long, silent⟩ |
      ⟨table, verdict, effects, silentFor, waitingSince, short, expires, accounts, ticked⟩
  · rw [silent] at stepped
    cases stepped
    exact Or.inl ⟨long, rfl⟩
  · rw [ticked] at stepped
    cases stepped
    exact Or.inr ⟨table, verdict, silentFor, waitingSince, short, expires, accounts, rfl⟩

/-- The silence has lasted too long where the time waited in silence says so. -/
theorem Timed.silentTooLong_iff (timed : Timed timeouts steps w) (positive : 0 < timeouts.overall)
    (running : w.Running) :
    w.actor.SilentTooLong w.clock ↔ timeouts.overall ≤ silence steps := by
  have before := timed.actor running
  rw [Actor.SilentTooLong, before.shows.shows, before.settings]
  refine ⟨And.right, fun long => ⟨?_, long⟩⟩
  by_contra idle
  have still : w.actor.waitingSince = none := by simpa using idle
  have shows := before.shows.shows
  rw [Actor.silentForAt, still] at shows
  have below : w.actor.silentFor < timeouts.overall :=
    before.shows.below.elim (fun none => none ▸ positive) id
  exact absurd (lt_of_eq_of_lt shows.symm below) (not_lt.mpr long)

/-- What a tick does to a row: nothing, where it fails for the silence, and otherwise what the
deadlines that have passed make of it. -/
theorem Timed.ages {row : Entry} (timed : Timed timeouts steps w) (positive : 0 < timeouts.overall)
    (stepped : w.step .timer = some (w', out))
    (found : w.actor.table.entries.lookup mid = some row) :
    ∃ row', w'.actor.table.entries.lookup mid = some row' ∧
      row.Ages w.clock (w.clock + timeouts.overall * GIVE_UP_DEADLINES) row' := by
  obtain ⟨running, ⟨-, rfl⟩ | ⟨table, verdict, _, _, -, expires, -, rfl⟩⟩ :=
    ticks timed.sound stepped
  · exact ⟨row, by rwa [actor_conclude], .kept⟩
  · have before := timed.actor running
    obtain ⟨row', found', ages⟩ := expires.ages (timed.sound.actor running.live).accounts
      (by rwa [before.table]) found
    rw [RequestTable.giveUpAt, before.table] at ages
    exact ⟨row', by rwa [actor_conclude], ages⟩

/-- After a tick that leaves the connection running, no row's clocks have run out. -/
theorem Timed.to_come {row' : Entry} (timed : Timed timeouts steps w)
    (positive : 0 < timeouts.overall) (stepped : w.step .timer = some (w', out))
    (goesOn : w'.Running) (found' : w'.actor.table.entries.lookup mid = some row')
    (charges : row'.charges = true) :
    w.clock < timeouts.lapsesAt (heardAt steps mid) (sentAt steps mid) := by
  have after := (timed.step stepped).actor goesOn
  have clocked := after.rows positive mid row' found'
  have still : w.Still .timer := still_timer
  rw [still.heardAt_eq, sentAt_of_unentered still.entered] at clocked
  obtain ⟨running, ⟨-, rfl⟩ | ⟨table, verdict, _, _, -, expires, accounts, rfl⟩⟩ :=
    ticks timed.sound stepped
  · cases running_conclude.mp goesOn
  · rw [actor_conclude] at found'
    exact expires.to_come (running_conclude.mp goesOn) accounts found' (clocked.expiresAt charges)

theorem Timed.exact (timed : Timed timeouts steps w) (positive : 0 < timeouts.overall)
    (stepped : w.step e = some (w', out)) : Exact timeouts steps w e w' := by
  have moves := timed.sound.moves stepped
  refine ⟨?_, ?_, ?_, ?_, ?_, ?_, ?_, ?_, ?_⟩
  · rintro rfl
    obtain ⟨running, ⟨-, rfl⟩ | ⟨table, verdict, _, _, short, expires, -, conclusion⟩⟩ :=
      ticks timed.sound stepped
    · exact Or.inl ⟨_, rfl⟩
    · cases verdict with
      | error error => exact Or.inl ⟨error, by rw [conclusion]; rfl⟩
      | ok =>
          have goesOn : w'.Running := by rw [conclusion]; exact running_conclude.mpr rfl
          have after := (timed.step stepped).actor goesOn
          have still : w.Still .timer := still_timer
          rw [still.silence_eq] at after
          refine Or.inr (after.shows.lt_nextWake (congrArg _ after.settings) ?_ ?_)
          · exact not_le.mp fun long => short ((timed.silentTooLong_iff positive running).mpr long)
          · rw [conclusion, actor_conclude, clock_conclude]
            exact expires.cleared rfl
  · rintro rfl
    obtain ⟨running, ⟨long, rfl⟩ | ⟨table, verdict, _, _, short, expires, -, rfl⟩⟩ :=
      ticks timed.sound stepped
    · exact iff_of_true rfl ((timed.silentTooLong_iff positive running).mp long)
    · refine iff_of_false (fun silent => ?_) fun long =>
        short ((timed.silentTooLong_iff positive running).mpr long)
      cases verdict with
      | ok => cases silent
      | error error =>
          cases silent
          exact expires.not_silent rfl
  · rintro rfl silent
    obtain ⟨running, ⟨long, rfl⟩ | ⟨table, verdict, _, _, -, expires, -, rfl⟩⟩ :=
      ticks timed.sound stepped
    · rw [(timed.sound.actor running.live).accounts.busy_eq, ← (timed.actor running).shows.waits]
      exact long.1
    · cases verdict with
      | ok => cases silent
      | error error =>
          cases silent
          exact absurd rfl expires.not_silent
  · intro guards phase mid row found charges
    have running : w.Running := Or.inr ⟨guards, phase⟩
    have due := ((timed.actor running).rows positive mid row found).expiresAt charges
    rw [timed.wake guards phase]
    refine Actor.nextWake_le (d := ⟨_, mid⟩)
      (((timed.sound.actor running.live).accounts.expiry _).mpr ?_)
    rw [deadlineOf, found]
    exact due
  · rintro rfl goesOn mid row found charges
    obtain ⟨row', found', ages⟩ := timed.ages positive stepped found
    obtain ⟨running, -⟩ := ticks timed.sound stepped
    have due := ((timed.actor running).rows positive mid row found).expiresAt charges
    refine ⟨row', found', ?_⟩
    cases ages with
    | kept =>
        rw [if_neg (not_le.mpr (timed.to_come positive stepped goesOn found' charges))]
    | lapsed _ same past =>
        rw [if_pos (Option.some.inj (due.symm.trans same) ▸ past)]
        rfl
    | gaveUp lapsed => rw [Entry.charges, lapsed] at charges; cases charges
  · intro mid row row' giveUpAt found charges found' lapsed
    by_cases tick : e = .timer
    case neg => exact ((timed.sound.calm moves tick found found').not_lapsed charges lapsed).elim
    subst tick
    refine ⟨rfl, ?_⟩
    obtain ⟨row'', found'', ages⟩ := timed.ages positive stepped found
    obtain ⟨running, -⟩ := ticks timed.sound stepped
    have due := ((timed.actor running).rows positive mid row found).expiresAt charges
    cases found'.symm.trans found''
    cases ages with
    | kept => rw [Entry.charges, lapsed] at charges; cases charges
    | lapsed _ same past => exact Option.some.inj (due.symm.trans same) ▸ past
    | gaveUp => cases lapsed
  · rintro rfl goesOn mid row' found' charges
    exact (timed.to_come positive stepped goesOn found' charges).trans_le (min_le_right _ _)
  · intro mid row row' giveUpAt found lapsed found'
    by_cases tick : e = .timer
    case neg => exact (timed.sound.calm moves tick found found').lapsed lapsed
    subst tick
    obtain ⟨row'', found'', ages⟩ := timed.ages positive stepped found
    cases found'.symm.trans found''
    cases ages with
    | kept => exact Or.inl lapsed
    | lapsed charges => rw [Entry.charges, lapsed] at charges; cases charges
    | gaveUp => exact Or.inr rfl
  · rintro rfl
    have still : w.Still (.inbound (.ok (some .keepAlive))) :=
      ⟨fun _ => Event.noConfusion, rfl, rfl⟩
    have same : w'.actor = w.actor ∧ w'.clock = w.clock := by
      rw [World.step] at stepped
      split at stepped
      · cases stepped
        exact ⟨rfl, rfl⟩
      · cases stepped
    exact ⟨same.1, same.2, still.silence_eq, still.heardAt_eq, sentAt_of_unentered still.entered⟩

/-- **The timers are exact.** In every run, at every step. -/
theorem timers_exact (limit : ℕ) (timeouts : Timeouts) (positive : 0 < timeouts.overall)
    (es : List Event) (before after : List (World × Event)) (v : World × Event)
    (split : connection.visits (new limit timeouts) es = before ++ v :: after) (w' : World)
    (out : List Effect) (stepped : v.1.step v.2 = some (w', out)) :
    Exact timeouts before v.1 v.2 w' := by
  obtain ⟨earlier, log, ran, rfl⟩ := Trace.Machine.run_before split
  have timed : Timed timeouts (connection.visits (new limit timeouts) earlier) v.1 :=
    Trace.Machine.run_induction (P := fun steps w _ => Timed timeouts steps w)
      (timed_new limit timeouts)
      (fun _ _ _ _ _ _ timed stepped => timed.step stepped) ran
  exact timed.exact positive stepped

/-- A handle's close goes out and is not answered before its timeout. -/
def closeLapses : List Event :=
  [.close ⟨Command.CLOSE, 0, 0, [], 0, 0, none⟩, .evaluate, .takeClose false, .evaluate,
    .written (.ok 36), .advance 1, .evaluate, .timer]

theorem timers_exact_close : ∃ before v w' out,
    connection.visits (new 1 ⟨1, 2⟩) closeLapses = before ++ [v] ∧ v.2 = .timer ∧
      v.1.step v.2 = some (w', out) ∧ Exact ⟨1, 2⟩ before v.1 v.2 w' := by
  have split := (List.dropLast_append_getLast
    (List.cons_ne_nil _ _ : connection.visits (new 1 ⟨1, 2⟩) closeLapses ≠ [])).symm
  refine ⟨_, _, _, _, split, rfl, rfl, ?_⟩
  exact timers_exact 1 ⟨1, 2⟩ (by decide) closeLapses _ [] _ split _ _ rfl

end World

end Smb1Client
