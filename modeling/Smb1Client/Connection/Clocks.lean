import Smb1Client.Connection.Crosstalk
import Smb1Client.Connection.Outbound

/-!
What the connection's clocks stand for.

The table keeps two clocks for a request on the wire, one that every message restarts and one
that nothing moves, and the actor one clock of the time waited in silence, which it stops and
starts as requests come and go. What the clocks stand for is read off the steps of the run:
`silence`, `heardAt` and `sentAt`. That the two agree is `World.Timed`.
-/

namespace Smb1Client

/-! ## The clocks of a row -/

/-- What the deadlines that have passed by `now` make of a row. -/
inductive Entry.Ages (e : Entry) (now giveUpAt : Instant) : Entry → Prop
  | kept : Ages e now giveUpAt e
  | lapsed {due : Instant} : e.charges = true → e.expiresAt = some due → due ≤ now →
      Ages e now giveUpAt (RequestTable.lapsedRow e giveUpAt)
  | gaveUp {due : Instant} : e.state = .lapsed due → due ≤ now →
      Ages e now giveUpAt (RequestTable.retiredRow e)

namespace RequestTable

variable {t t' : RequestTable} {mid : UInt16} {now : Instant} {verdict : Except Error Unit}
  {out : List Effect} {e e' : Entry} {message : Message}

/-- Whether some request charges capacity. -/
def busy (t : RequestTable) : Bool := t.entries.entries.any (·.2.charges)

theorem Accounts.busy_eq (accounts : t.Accounts) : t.busy = decide (0 < t.charging) := by
  have counted : 0 < t.charging ↔ ∃ row ∈ t.entries.entries, row.2.charges = true := by
    rw [accounts.charging, TableTotal.total, List.sum_pos_iff_exists_pos_nat]
    simp only [Entry.charge, List.mem_map]
    constructor
    · rintro ⟨_, ⟨row, member, rfl⟩, positive⟩
      exact ⟨row, member, by_contra fun no => by simp [no] at positive⟩
    · rintro ⟨row, member, charges⟩
      exact ⟨_, ⟨row, member, rfl⟩, by simp [charges]⟩
  rw [Bool.eq_iff_iff, decide_eq_true_iff, counted, busy, List.any_eq_true]

theorem Accepts.timeouts_eq (accepts : t.Accepts message now t' verdict out) :
    t'.timeouts = t.timeouts := by
  cases accepts <;> rfl

theorem Fires.timeouts_eq {d : Deadline} (fires : t.Fires d now t' verdict out) :
    t'.timeouts = t.timeouts := by
  cases fires <;> rfl

theorem Expires.timeouts_eq (expires : Expires now t t' verdict out) :
    t'.timeouts = t.timeouts := by
  induction expires with
  | done => rfl
  | stop _ _ fires => exact fires.timeouts_eq
  | turn _ _ fires _ ih => exact ih.trans fires.timeouts_eq

theorem Fires.ages {d : Deadline} (fires : t.Fires d now t' verdict out)
    (accounts : t.Accounts) (due : d ∈ t.expiry) (past : d.instant ≤ now)
    (found : t.entries.lookup mid = some e) :
    ∃ e', t'.entries.lookup mid = some e' ∧ e.Ages now (t.giveUpAt now) e' := by
  by_cases here : mid = d.mid
  · subst here
    have own := (accounts.expiry d).mp due
    rw [deadlineOf, found] at own
    cases fires with
    | lapsed found' charges =>
        cases found'.symm.trans found
        exact ⟨_, AList.lookup_insert _, .lapsed charges own past⟩
    | gaveUp found' state =>
        cases found'.symm.trans found
        refine ⟨_, AList.lookup_insert _, .gaveUp state ?_⟩
        have instant : e.expiresAt = some d.instant := own
        rw [Entry.expiresAt, state] at instant
        exact Option.some.inj instant ▸ past
  · refine ⟨e, Eq.trans ?_ found, .kept⟩
    cases fires with
    | lapsed => exact AList.lookup_insert_ne here
    | gaveUp => exact AList.lookup_insert_ne here

theorem lt_giveUpAt (positive : 0 < t.timeouts.overall) : now < t.giveUpAt now :=
  Nat.lt_add_of_pos_right (Nat.mul_pos positive (by decide))

/-- A row ages by at most one deadline at a time: the next one is still to come. -/
theorem Expires.ages (expires : Expires now t t' verdict out) (accounts : t.Accounts)
    (positive : 0 < t.timeouts.overall) (found : t.entries.lookup mid = some e) :
    ∃ e', t'.entries.lookup mid = some e' ∧ e.Ages now (t.giveUpAt now) e' := by
  induction expires generalizing e with
  | done => exact ⟨e, found, .kept⟩
  | stop due past fires => exact fires.ages accounts due past found
  | @turn t t₁ t' d _ _ _ due past fires _ ih =>
      obtain ⟨e₁, found₁, ages⟩ := fires.ages accounts due past found
      have same := fires.timeouts_eq
      obtain ⟨e', found', later⟩ :=
        ih (fires.accounts due accounts) (by rwa [same]) found₁
      rw [giveUpAt, same] at later
      refine ⟨e', found', ?_⟩
      cases ages with
      | kept => exact later
      | lapsed charges instant reached =>
          cases later with
          | kept => exact .lapsed charges instant reached
          | lapsed no => cases no
          | gaveUp state passed =>
              cases state
              exact absurd passed (not_le.mpr (lt_giveUpAt positive))
      | gaveUp state reached =>
          cases later with
          | kept => exact .gaveUp state reached
          | lapsed no => cases no
          | gaveUp no => cases no

/-- The only error of a deadline is that too many ids are withheld. -/
theorem Fires.not_silent {d : Deadline} (fires : t.Fires d now t' verdict out) :
    verdict ≠ .error .silent := by
  cases fires with
  | lapsed => exact nofun
  | gaveUp =>
      unfold budget
      split <;> exact nofun

theorem Expires.not_silent (expires : Expires now t t' verdict out) :
    verdict ≠ .error .silent := by
  induction expires with
  | done => exact nofun
  | stop _ _ fires => exact fires.not_silent
  | turn _ _ _ _ ih => exact ih

/-- Deadlines fire until none that has passed is left. -/
theorem Expires.cleared (expires : Expires now t t' verdict out) (whole : verdict = .ok ()) :
    ∀ d ∈ t'.expiry, now < d.instant := by
  induction expires with
  | done none => exact none
  | stop => cases whole
  | turn _ _ _ _ ih => exact ih whole

theorem Expires.to_come (expires : Expires now t t' verdict out) (whole : verdict = .ok ())
    (accounts : t'.Accounts) (found : t'.entries.lookup mid = some e) {due : Instant}
    (instant : e.expiresAt = some due) : now < due := by
  refine expires.cleared whole ⟨due, mid⟩ ((accounts.expiry _).mpr ?_)
  rw [deadlineOf, found]
  exact instant

/-- What a message leaves of a row's clocks. -/
theorem Accepts.states (accepts : t.Accepts message now t' verdict out)
    (found : t.entries.lookup mid = some e) (found' : t'.entries.lookup mid = some e') :
    e'.state = .retired ∨
      message.header.mid = mid ∧ e'.state = (e.touch now t.timeouts.perRequest).state ∨
      (message.header.mid = mid → verdict ≠ .ok ()) ∧ e'.state = e.state := by
  by_cases here : message.header.mid = mid
  case neg =>
    have same : t'.entries.lookup mid = t.entries.lookup mid :=
      accepts.lookup_ne fun same => here same.symm
    cases (found.symm.trans same.symm).trans found'
    exact Or.inr (Or.inr ⟨fun no => absurd no here, rfl⟩)
  subst here
  cases accepts with
  | unknown none => cases none.symm.trans found
  | remembered held retired =>
      cases held.symm.trans found
      cases found.symm.trans found'
      refine Or.inl ?_
      unfold Entry.isRetired at retired
      split at retired
      · next state => exact state
      · cases retired
  | mismatched =>
      cases found.symm.trans found'
      exact Or.inr (Or.inr ⟨fun _ => nofun, rfl⟩)
  | continued held _ _ _ row =>
      cases held.symm.trans found
      cases (AList.lookup_insert _).symm.trans found'
      exact Or.inr (Or.inl ⟨rfl, by rw [row]⟩)
  | completed =>
      rw [AList.lookup_erase] at found'
      cases found'
  | corrupted =>
      cases (AList.lookup_insert _).symm.trans found'
      exact Or.inl rfl

end RequestTable

/-! ## The clock of silence -/

namespace Actor

variable {a a' : Actor} {now : Instant} {overall silence : Duration}

/-- The clock of silence runs exactly while some request charges capacity, and shows
`silence`. -/
structure Shows (a : Actor) (now : Instant) (overall silence : Duration) : Prop where
  waits : a.waitingSince.isSome = decide (0 < a.table.charging)
  since : ∀ since ∈ a.waitingSince, since ≤ now
  shows : a.silentForAt now = silence
  below : a.silentFor = 0 ∨ a.silentFor < overall

/-- The parts of an actor `Shows` looks at. -/
theorem Shows.congr (showing : a.Shows now overall silence)
    (charging : a'.table.charging = a.table.charging) (silentFor : a'.silentFor = a.silentFor)
    (waitingSince : a'.waitingSince = a.waitingSince) : a'.Shows now overall silence where
  waits := by rw [waitingSince, charging, showing.waits]
  since := by rw [waitingSince]; exact showing.since
  shows := by
    rw [← showing.shows, silentForAt, silentForAt, silentFor, waitingSince]
  below := by rw [silentFor]; exact showing.below

theorem Shows.advance (showing : a.Shows now overall silence) (span : Duration) :
    a.Shows (now + span) overall
      (if 0 < a.table.charging then silence + span else silence) := by
  obtain ⟨waits, since, shows, below⟩ := showing
  cases waiting : a.waitingSince with
  | none =>
      rw [waiting, Option.isSome_none] at waits
      rw [silentForAt, waiting] at shows
      refine ⟨by rw [waiting]; exact waits, ?_, ?_, below⟩
      · rw [waiting]
        exact fun _ no => nomatch no
      · rw [silentForAt, waiting, if_neg (of_decide_eq_false waits.symm)]
        exact shows
  | some start =>
      rw [waiting, Option.isSome_some] at waits
      rw [silentForAt, waiting] at shows
      have began := since start waiting
      refine ⟨by rw [waiting]; exact waits, ?_, ?_, below⟩
      · intro start' same
        exact (since start' same).trans (Nat.le_add_right _ _)
      · rw [silentForAt, waiting, if_pos (of_decide_eq_true waits.symm), ← shows]
        dsimp only
        rw [Nat.sub_add_comm began, Nat.add_assoc]

/-- Stopping or starting the clock does not change what it shows. -/
theorem Shows.noteWaiting (since : ∀ since ∈ a.waitingSince, since ≤ now)
    (shows : a.silentForAt now = silence) (below : a.silentFor = 0 ∨ a.silentFor < overall)
    (stops : a.waitingSince.isSome = true → a.table.charging = 0 → silence < overall) :
    (a.noteWaiting now).Shows now overall silence := by
  unfold Actor.noteWaiting
  cases waiting : a.waitingSince with
  | none =>
      rw [silentForAt, waiting] at shows
      cases charges : decide (a.table.charging > 0) with
      | true =>
          refine ⟨charges.symm, fun since same => ?_, ?_, below⟩
          · exact (Option.some.inj same).symm.le
          · rw [← shows, silentForAt]
            dsimp only
            rw [Nat.sub_self]
      | false =>
          refine ⟨?_, ?_, ?_, below⟩
          · rw [waiting]
            exact charges.symm
          · rw [waiting]
            exact fun _ no => nomatch no
          · rw [silentForAt, waiting]
            exact shows
  | some start =>
      rw [silentForAt, waiting] at shows
      cases charges : decide (a.table.charging > 0) with
      | true =>
          refine ⟨?_, since, ?_, below⟩
          · rw [waiting]
            exact charges.symm
          · rw [silentForAt, waiting]
            exact shows
      | false =>
          refine ⟨charges.symm, fun _ no => (nomatch no), ?_, ?_⟩
          · rw [← shows, silentForAt]
            rfl
          · have idle := Nat.eq_zero_of_not_pos (of_decide_eq_false charges)
            have running : a.waitingSince.isSome = true := by rw [waiting]; rfl
            exact Or.inr (lt_of_eq_of_lt shows (stops running idle))

/-- The actor looks again at the first deadline of the table or at the end of the silence. -/
theorem nextWake_cases {wake : Instant} (next : wake ∈ a.nextWake) :
    wake ∈ a.table.nextExpiry ∨
      wake ∈ a.waitingSince.map fun since => since + (a.timeouts.overall - a.silentFor) := by
  unfold nextWake at next
  dsimp only at next
  split at next
  · next due end_ first last =>
      obtain rfl := Option.some.inj next
      rcases min_choice due end_ with least | least
      · rw [least]
        exact Or.inl first
      · rw [least]
        exact Or.inr last
  · next first _ =>
      rw [first]
      exact Or.inl next
  · exact Or.inr next

/-- Whatever the clock of silence shows, the actor looks again when it reaches the overall
deadline or before. -/
theorem Shows.lt_nextWake (showing : a.Shows now overall silence)
    (timeouts : a.timeouts.overall = overall) (short : silence < overall)
    (toCome : ∀ d ∈ a.table.expiry, now < d.instant) : ∀ wake ∈ a.nextWake, now < wake := by
  have expiry : ∀ due ∈ a.table.nextExpiry, now < due := by
    intro due same
    obtain ⟨d, first, rfl⟩ := Option.map_eq_some_iff.mp same
    exact toCome d (mem_of_firstDeadline first)
  have silent : ∀ wake ∈ a.waitingSince.map fun since =>
      since + (a.timeouts.overall - a.silentFor), now < wake := by
    intro wake same
    obtain ⟨start, waiting, rfl⟩ := Option.map_eq_some_iff.mp same
    have shows := showing.shows
    have began : start ≤ now := showing.since start waiting
    rw [silentForAt, waiting] at shows
    dsimp only at shows
    rw [timeouts]
    unfold Instant Duration at *
    omega
  intro wake next
  rcases nextWake_cases next with first | ends
  · exact expiry wake first
  · exact silent wake ends

/-- The actor looks again no later than any deadline of the table. -/
theorem nextWake_le {d : Deadline} (due : d ∈ a.table.expiry) :
    ∃ wake ∈ a.nextWake, wake ≤ d.instant := by
  cases first : firstDeadline a.table.expiry with
  | none =>
      rw [firstDeadline_eq_none.mp first] at due
      exact absurd due (Finset.notMem_empty _)
  | some d' =>
      have least := RequestTable.first_le first due
      have expiry : a.table.nextExpiry = some d'.instant := by
        rw [RequestTable.nextExpiry, first, Option.map_some]
      unfold nextWake
      rw [expiry]
      dsimp only
      cases a.waitingSince with
      | none => exact ⟨_, rfl, least⟩
      | some since => exact ⟨_, rfl, (min_le_left _ _).trans least⟩

end Actor

/-! ## A row's clocks and what they stand for -/

/-- The clocks of a row on the wire: one from when it was last heard of, one from when it was
sent. -/
def Entry.Clocked (e : Entry) (timeouts : Timeouts) (heardAt sentAt : Instant) : Prop :=
  ∀ reply silenceAt overallAt, e.state = .onWire reply silenceAt overallAt →
    silenceAt = heardAt + timeouts.perRequest ∧ overallAt = sentAt + timeouts.overall

/-- When a request lapses. -/
def Timeouts.lapsesAt (timeouts : Timeouts) (heardAt sentAt : Instant) : Instant :=
  min (heardAt + timeouts.perRequest) (sentAt + timeouts.overall)

theorem Entry.Clocked.expiresAt {e : Entry} {timeouts : Timeouts} {heardAt sentAt : Instant}
    (clocked : e.Clocked timeouts heardAt sentAt) (charges : e.charges = true) :
    e.expiresAt = some (timeouts.lapsesAt heardAt sentAt) := by
  unfold Entry.charges at charges
  split at charges
  · next reply silenceAt overallAt state =>
      obtain ⟨rfl, rfl⟩ := clocked reply silenceAt overallAt state
      rw [Entry.expiresAt, state]
      rfl
  · cases charges

theorem Entry.Clocked.of_state {e e' : Entry} {timeouts : Timeouts} {heardAt sentAt : Instant}
    (clocked : e.Clocked timeouts heardAt sentAt) (same : e'.state = e.state) :
    e'.Clocked timeouts heardAt sentAt := by
  intro reply silenceAt overallAt state
  exact clocked reply silenceAt overallAt (same ▸ state)

theorem Entry.Clocked.touch {e : Entry} {timeouts : Timeouts} {heardAt sentAt : Instant}
    (clocked : e.Clocked timeouts heardAt sentAt) (now : Instant) :
    (e.touch now timeouts.perRequest).Clocked timeouts now sentAt := by
  intro reply silenceAt overallAt state
  unfold Entry.touch at state
  split at state
  · next onWire =>
      cases state
      exact ⟨rfl, (clocked _ _ _ onWire).2⟩
  · next other => exact absurd state (other _ _ _)

namespace Actor

variable {a a' : Actor} {now : Instant} {timeouts : Timeouts} {silence : Duration}
  {heardAt sentAt : UInt16 → Instant} {verdict : Except Error Unit} {out : List Effect}

/-- The clocks of a connection agree with the time waited in silence and with when each request
was heard of and sent. -/
structure Timed (a : Actor) (timeouts : Timeouts) (now : Instant) (silence : Duration)
    (heardAt sentAt : UInt16 → Instant) : Prop where
  settings : a.timeouts = timeouts
  table : a.table.timeouts = timeouts
  shows : a.Shows now timeouts.overall silence
  rows : 0 < timeouts.overall → ∀ mid e, a.table.entries.lookup mid = some e →
    e.Clocked timeouts (heardAt mid) (sentAt mid)

theorem timed_new (limit : ℕ) (timeouts : Timeouts) :
    (new limit timeouts).Timed timeouts 0 0 (fun _ => 0) (fun _ => 0) where
  settings := rfl
  table := rfl
  shows := ⟨rfl, fun _ no => (nomatch no), rfl, Or.inl rfl⟩
  rows := fun _ _ _ found => nomatch found

/-- The parts of an actor `Timed` looks at. -/
def clocks (a : Actor) : Timeouts × Timeouts × AList (fun _ : UInt16 => Entry) × ℕ × Duration ×
    Option Instant :=
  (a.timeouts, a.table.timeouts, a.table.entries, a.table.charging, a.silentFor, a.waitingSince)

theorem Timed.congr (timed : a.Timed timeouts now silence heardAt sentAt)
    (same : a'.clocks = a.clocks) : a'.Timed timeouts now silence heardAt sentAt := by
  simp only [clocks, Prod.mk.injEq] at same
  obtain ⟨settings, table, entries, charging, silentFor, waitingSince⟩ := same
  exact ⟨settings.trans timed.settings, table.trans timed.table,
    timed.shows.congr charging silentFor waitingSince, entries ▸ timed.rows⟩

theorem Begins.frame {d : Dispatch} {callerGone : Bool}
    (begins : a.Begins d callerGone a' verdict out) :
    ∃ cursor writing, a' = { a with table := { a.table with cursor := cursor }, writing } := by
  obtain ⟨cursor, frame⟩ := a.table.allocate_frame
  cases begins with
  | forgone => exact ⟨a.table.cursor, a.writing, rfl⟩
  | exhausted => exact ⟨cursor, a.writing, by rw [frame]⟩
  | unsendable => exact ⟨cursor, a.writing, by rw [frame]⟩
  | started => exact ⟨cursor, _, by rw [frame]⟩

end Actor

namespace World

variable {w w' : World} {e : Event} {out log : List Effect} {steps : List (World × Event)}
  {limit : ℕ} {timeouts : Timeouts} {mid : UInt16} {a : Actor} {verdict : Except Error Unit}

/-- The message a step brings. -/
def heard : Event → Option Message
  | .inbound (.ok (some (.message message))) => some message
  | _ => none

/-- What a step makes of the time waited in silence. -/
def silenceAfter (silence : Duration) (v : World × Event) : Duration :=
  match v.2 with
  | .advance span => if v.1.actor.table.busy then silence + span else silence
  | e => if (heard e).isSome then 0 else silence

/-- How long some request has charged capacity since the last message came in. -/
def silence (steps : List (World × Event)) : Duration := steps.foldl silenceAfter 0

/-- When a request was last put on the wire under an id. -/
def sentAt (steps : List (World × Event)) (mid : UInt16) : Instant :=
  steps.foldl (fun sent v => if (v.1.entered v.2).any (·.mid = mid) then v.1.clock else sent) 0

/-- When a message last came for an id, or a request was put on the wire under it. -/
def heardAt (steps : List (World × Event)) (mid : UInt16) : Instant :=
  steps.foldl (fun since v =>
    if (v.1.entered v.2).any (·.mid = mid) || (heard v.2).any (·.header.mid = mid) then v.1.clock
    else since) 0

theorem silence_concat (v : World × Event) :
    silence (steps ++ [v]) = silenceAfter (silence steps) v :=
  List.foldl_concat _ _ _ _

theorem sentAt_concat (v : World × Event) :
    sentAt (steps ++ [v]) mid =
      if (v.1.entered v.2).any (·.mid = mid) then v.1.clock else sentAt steps mid :=
  List.foldl_concat _ _ _ _

theorem heardAt_concat (v : World × Event) :
    heardAt (steps ++ [v]) mid =
      if (v.1.entered v.2).any (·.mid = mid) || (heard v.2).any (·.header.mid = mid) then v.1.clock
      else heardAt steps mid :=
  List.foldl_concat _ _ _ _

/-! ## The steps that read the clock -/

theorem running_conclude : (w.conclude a verdict).Running ↔ verdict = .ok () := by
  cases verdict with
  | ok => exact ⟨fun _ => rfl, fun _ => Or.inl rfl⟩
  | error error =>
      refine ⟨fun running => ?_, fun no => nomatch no⟩
      rcases running with no | ⟨_, no⟩ <;> cases no

/-- The actor a handler leaves, where the task goes on. -/
theorem concludeOr_running {result : Except Panic (Actor × Except Error Unit × List Effect)}
    (concluded : w.concludeOr result = (w', out)) (running : w'.Running) :
    ∃ a, w'.actor = a ∧ result = .ok (a, .ok (), out) := by
  cases result with
  | error panic =>
      cases concluded
      rcases running with no | ⟨_, no⟩ <;> cases no
  | ok handled =>
      obtain ⟨a, verdict, effects⟩ := handled
      cases concluded
      obtain rfl := running_conclude.mp running
      exact ⟨a, rfl, rfl⟩

/-- A message that is routed starts the time waited in silence again. -/
theorem actor_of_routed {message : Message}
    (stepped : w.step (.inbound (.ok (some (.message message)))) = some (w', out))
    (running : w'.Running) :
    w'.actor = { w.actor with
      table := w'.actor.table, silentFor := 0, waitingSince := none }.noteWaiting w.clock := by
  rw [step] at stepped
  split at stepped
  case h_2 => cases stepped
  obtain ⟨a, same, routed⟩ := concludeOr_running (Option.some.inj stepped) running
  rw [same]
  unfold Actor.route at routed
  dsimp only at routed
  split at routed
  · cases routed
  · cases accepted : w.actor.table.accept message w.clock with
    | error panic =>
        rw [accepted] at routed
        cases routed
    | ok result =>
        obtain ⟨table, verdict, effects⟩ := result
        rw [accepted] at routed
        cases verdict with
        | error error => cases routed
        | ok =>
            obtain ⟨silentFor, waitingSince, frame⟩ := Actor.noteWaiting_frame
              { w.actor with table, silentFor := 0, waitingSince := none } w.clock
            obtain rfl := congrArg Prod.fst (Except.ok.inj routed)
            dsimp only
            rw [frame]
            exact frame.symm

theorem actor_of_wrote {written : ℕ}
    (stepped : w.step (.written (.ok written)) = some (w', out)) (running : w'.Running) :
    w'.actor = { w.actor with
      table := w'.actor.table, writing := w'.actor.writing }.noteWaiting w.clock := by
  rw [step] at stepped
  split at stepped
  case h_2 => cases stepped
  next guards writing phase inProgress =>
  rw [progressed] at stepped
  split at stepped
  case isFalse => cases stepped
  obtain ⟨a, same, wrote⟩ := concludeOr_running (Option.some.inj stepped) running
  rw [same]
  unfold Actor.wrote at wrote
  split at wrote
  · cases wrote
  · rw [inProgress] at wrote
    obtain ⟨silentFor, waitingSince, frame⟩ := Actor.noteWaiting_frame { w.actor with
      table := Actor.dispatchQueued w.actor.table writing.queued w.clock
      writing := Actor.writingAfter writing written } w.clock
    cases wrote
    unfold Actor.writingAfter at frame
    rw [frame]
    exact frame.symm

theorem actor_of_ticked (stepped : w.step .timer = some (w', out)) (running : w'.Running) :
    ¬ w.actor.SilentTooLong w.clock ∧
      w'.actor = { w.actor with table := w'.actor.table }.noteWaiting w.clock := by
  rw [step] at stepped
  split at stepped
  case h_2 => cases stepped
  split at stepped
  case isFalse => cases stepped
  obtain ⟨a, same, ticked⟩ := concludeOr_running (Option.some.inj stepped) running
  rw [same]
  unfold Actor.tick at ticked
  split at ticked
  · cases ticked
  · next short =>
      refine ⟨short, ?_⟩
      cases expired : w.actor.table.expire w.clock with
      | error panic =>
          rw [expired] at ticked
          cases ticked
      | ok result =>
          obtain ⟨table, verdict, effects⟩ := result
          rw [expired] at ticked
          obtain ⟨silentFor, waitingSince, frame⟩ :=
            Actor.noteWaiting_frame { w.actor with table } w.clock
          cases ticked
          rw [frame]
          exact frame.symm

/-! ## Every step keeps the clocks -/

theorem heardAt_message {message : Message} :
    heardAt (steps ++ [(w, .inbound (.ok (some (.message message))))]) mid =
      if message.header.mid = mid then w.clock else heardAt steps mid := by
  rw [heardAt_concat]
  simp [entered, heard]

theorem sentAt_message {message : Message} :
    sentAt (steps ++ [(w, .inbound (.ok (some (.message message))))]) mid = sentAt steps mid := by
  rw [sentAt_concat]
  rfl

/-- A step that neither takes time, brings a message nor puts a request on the wire. -/
structure Still (w : World) (e : Event) : Prop where
  time : ∀ span, e ≠ .advance span
  heard : heard e = none
  entered : w.entered e = none

theorem still_timer : w.Still .timer := ⟨fun _ => Event.noConfusion, rfl, rfl⟩

theorem Still.silence_eq (still : w.Still e) : silence (steps ++ [(w, e)]) = silence steps := by
  rw [silence_concat, silenceAfter]
  dsimp only
  split
  · next span => exact absurd rfl (still.time span)
  · rw [still.heard, Option.isSome_none, if_neg Bool.false_ne_true]

theorem Still.heardAt_eq (still : w.Still e) : heardAt (steps ++ [(w, e)]) = heardAt steps := by
  funext mid
  rw [heardAt_concat, still.heard, still.entered]
  rfl

theorem sentAt_of_unentered (none : w.entered e = none) :
    sentAt (steps ++ [(w, e)]) = sentAt steps := by
  funext mid
  rw [sentAt_concat, none]
  rfl

/-- What every run of a connection keeps. -/
structure Timed (timeouts : Timeouts) (steps : List (World × Event)) (w : World) : Prop where
  sound : w.Sound
  actor : w.Running → w.actor.Timed timeouts w.clock (silence steps) (heardAt steps) (sentAt steps)
  wake : ∀ guards, w.phase = .selecting guards → guards.wake = w.actor.nextWake

theorem timed_new (limit : ℕ) (timeouts : Timeouts) : Timed timeouts [] (new limit timeouts) where
  sound := sound_new limit timeouts
  actor := fun _ => Actor.timed_new limit timeouts
  wake := fun _ no => nomatch no

/-- The clocks after a step that leaves them alone. -/
theorem Timed.still (timed : Timed timeouts steps w) (running : w.Running) (still : w.Still e)
    (clock : w'.clock = w.clock) (same : w'.actor.clocks = w.actor.clocks) :
    w'.actor.Timed timeouts w'.clock (silence (steps ++ [(w, e)])) (heardAt (steps ++ [(w, e)]))
      (sentAt (steps ++ [(w, e)])) := by
  rw [clock, still.silence_eq, still.heardAt_eq, sentAt_of_unentered still.entered]
  exact (timed.actor running).congr same

theorem clock_conclude : (w.conclude a verdict).clock = w.clock := by
  cases verdict <;> rfl

/-- The rows after a message that leaves the connection running. -/
theorem rows_of_accepts {message : Message} {table : RequestTable} {now : Instant}
    {heardAt sentAt : UInt16 → Instant}
    (timed : a.Timed timeouts now (silence steps) heardAt sentAt)
    (positive : 0 < timeouts.overall)
    (accepts : a.table.Accepts message now table (.ok ()) out) :
    ∀ mid e, table.entries.lookup mid = some e →
      e.Clocked timeouts (if message.header.mid = mid then now else heardAt mid) (sentAt mid) := by
  intro mid e' found'
  have held : mid ∈ a.table.entries :=
    accepts.mem_of_mem (AList.lookup_isSome.mp (by rw [found']; rfl))
  obtain ⟨e, found⟩ := Option.isSome_iff_exists.mp (AList.lookup_isSome.mpr held)
  have clocked := timed.rows positive mid e found
  rcases accepts.states found found' with retired | ⟨here, state⟩ | ⟨other, state⟩
  · intro _ _ _ state
    cases retired.symm.trans state
  · rw [if_pos here]
    rw [timed.table] at state
    exact (clocked.touch now).of_state state
  · rw [if_neg fun here => other here rfl]
    exact clocked.of_state state

/-- The rows after deadlines have fired. -/
theorem rows_of_expires {table : RequestTable} {now : Instant} {heardAt sentAt : UInt16 → Instant}
    (timed : a.Timed timeouts now (silence steps) heardAt sentAt) (accounts : a.table.Accounts)
    (positive : 0 < timeouts.overall)
    (expires : RequestTable.Expires now a.table table verdict out) :
    ∀ mid e, table.entries.lookup mid = some e →
      e.Clocked timeouts (heardAt mid) (sentAt mid) := by
  intro mid e' found'
  have held : mid ∈ a.table.entries :=
    expires.mem_of_mem (AList.lookup_isSome.mp (by rw [found']; rfl))
  obtain ⟨e, found⟩ := Option.isSome_iff_exists.mp (AList.lookup_isSome.mpr held)
  obtain ⟨e'', found'', ages⟩ := expires.ages accounts (by rwa [timed.table]) found
  cases found'.symm.trans found''
  cases ages with
  | kept => exact timed.rows positive mid _ found
  | lapsed => exact fun _ _ _ no => nomatch no
  | gaveUp => exact fun _ _ _ no => nomatch no

theorem still_takeEvent {isClose callerGone : Bool} : w.Still (takeEvent isClose callerGone) := by
  cases isClose <;> exact ⟨fun _ => nofun, rfl, rfl⟩

theorem Timed.advance (timed : Timed timeouts steps w) (running : w.Running) (span : Duration) :
    w.actor.Timed timeouts (w.clock + span) (silence (steps ++ [(w, .advance span)]))
      (heardAt (steps ++ [(w, .advance span)])) (sentAt (steps ++ [(w, .advance span)])) := by
  have before := timed.actor running
  have busy := (timed.sound.actor running.live).accounts.busy_eq
  have heardSame : heardAt (steps ++ [(w, .advance span)]) = heardAt steps := by
    funext mid
    rw [heardAt_concat]
    rfl
  refine ⟨before.settings, before.table, ?_, ?_⟩
  · have shows := before.shows.advance span
    rw [silence_concat, silenceAfter]
    dsimp only
    rw [busy]
    simpa using shows
  · rw [heardSame, sentAt_of_unentered rfl]
    exact before.rows

theorem Timed.routed {message : Message} {table : RequestTable} {routed : Except Error Unit}
    {silentFor : Duration} {waitingSince : Option Instant} (timed : Timed timeouts steps w)
    (running : w.Running)
    (stepped : w.step (.inbound (.ok (some (.message message)))) = some (w', out))
    (accepts : w.actor.table.Accepts message w.clock table routed out)
    (goesOn : w'.Running)
    (conclusion : w' = w.conclude { w.actor with table, silentFor, waitingSince }
      (Actor.sessionVerdict message routed)) :
    w'.actor.Timed timeouts w.clock
      (silence (steps ++ [(w, .inbound (.ok (some (.message message))))]))
      (heardAt (steps ++ [(w, .inbound (.ok (some (.message message))))]))
      (sentAt (steps ++ [(w, .inbound (.ok (some (.message message))))])) := by
  have before := timed.actor running
  have actor := actor_of_routed stepped goesOn
  obtain rfl : routed = .ok () := by
    rw [conclusion] at goesOn
    have verdict := running_conclude.mp goesOn
    cases routed with
    | ok => rfl
    | error => cases verdict
  have fields : w'.actor.table = table ∧ w'.actor.timeouts = w.actor.timeouts := by
    rw [conclusion, actor_conclude]
    exact ⟨rfl, rfl⟩
  refine ⟨fields.2.trans before.settings, ?_, ?_, ?_⟩
  · rw [fields.1, accepts.timeouts_eq, before.table]
  · rw [actor, silence_concat]
    exact .noteWaiting (fun _ no => nomatch no) rfl (Or.inl rfl) (fun no => nomatch no)
  · rw [fields.1]
    intro positive mid e found
    rw [heardAt_message, sentAt_message]
    exact rows_of_accepts before positive accepts mid e found

theorem Timed.wrote {written : ℕ} {writing : Writing} (timed : Timed timeouts steps w)
    (running : w.Running) (stepped : w.step (.written (.ok written)) = some (w', out))
    (goesOn : w'.Running) (inProgress : w.actor.writing = some writing) (some' : written ≠ 0)
    (table : w'.actor.table = Actor.dispatchQueued w.actor.table writing.queued w.clock)
    (settings : w'.actor.timeouts = w.actor.timeouts) :
    w'.actor.Timed timeouts w.clock (silence (steps ++ [(w, .written (.ok written))]))
      (heardAt (steps ++ [(w, .written (.ok written))]))
      (sentAt (steps ++ [(w, .written (.ok written))])) := by
  have before := timed.actor running
  have actor := actor_of_wrote stepped goesOn
  have entered : w.entered (.written (.ok written)) = writing.queued := by
    rw [World.entered, if_neg some', Actor.queued, inProgress, Option.bind_some]
  have shown : w'.actor.Shows w.clock timeouts.overall
      (silence (steps ++ [(w, .written (.ok written))])) := by
    have quiet : silence (steps ++ [(w, .written (.ok written))]) = silence steps :=
        silence_concat _
    rw [actor, quiet]
    refine .noteWaiting before.shows.since before.shows.shows before.shows.below ?_
    intro waiting idle
    -- A dispatch only adds to what is charged.
    have charged := before.shows.waits.symm.trans waiting
    rw [table] at idle
    unfold Actor.dispatchQueued at idle
    split at idle
    · exact absurd idle (Nat.succ_ne_zero _)
    · exact absurd idle (of_decide_eq_true charged).ne'
  refine ⟨settings.trans before.settings, ?_, shown, ?_⟩
  · rw [table]
    unfold Actor.dispatchQueued
    split <;> exact before.table
  · intro positive mid e found
    rw [heardAt_concat, sentAt_concat, entered]
    rw [table] at found
    cases half : writing.queued with
    | none =>
        rw [half, Actor.dispatchQueued] at found
        exact before.rows positive mid e found
    | some q =>
        rw [half, Actor.dispatchQueued] at found
        simp only [Option.any_some, heard, Option.any_none, Bool.or_false, decide_eq_true_eq]
        by_cases here : q.mid = mid
        · subst here
          cases (AList.lookup_insert _).symm.trans found
          rw [if_pos rfl, if_pos rfl]
          intro reply silenceAt overallAt state
          cases state
          rw [before.table]
          exact ⟨rfl, rfl⟩
        · rw [if_neg here, if_neg here]
          exact before.rows positive mid e
            ((AList.lookup_insert_ne fun same => here same.symm).symm.trans found)

theorem Timed.ticked {table : RequestTable} (timed : Timed timeouts steps w) (running : w.Running)
    (stepped : w.step .timer = some (w', out)) (goesOn : w'.Running)
    (expires : RequestTable.Expires w.clock w.actor.table table verdict out)
    (fields : w'.actor.table = table ∧ w'.actor.timeouts = w.actor.timeouts) :
    w'.actor.Timed timeouts w.clock (silence (steps ++ [(w, .timer)]))
      (heardAt (steps ++ [(w, .timer)])) (sentAt (steps ++ [(w, .timer)])) := by
  have before := timed.actor running
  have still : w.Still .timer := still_timer
  obtain ⟨short, actor⟩ := actor_of_ticked stepped goesOn
  rw [still.silence_eq, still.heardAt_eq, sentAt_of_unentered still.entered]
  refine ⟨fields.2.trans before.settings, ?_, ?_, ?_⟩
  · rw [fields.1, expires.timeouts_eq, before.table]
  · rw [actor]
    refine .noteWaiting before.shows.since before.shows.shows before.shows.below ?_
    intro waiting _
    have below := not_le.mp fun long => short ⟨waiting, long⟩
    rwa [before.shows.shows, before.settings] at below
  · rw [fields.1]
    intro positive
    exact rows_of_expires before (timed.sound.actor running.live).accounts positive expires

theorem Timed.step (timed : Timed timeouts steps w) (stepped : w.step e = some (w', out)) :
    Timed timeouts (steps ++ [(w, e)]) w' := by
  have moves := timed.sound.moves stepped
  refine ⟨timed.sound.step stepped, fun goesOn => ?_, fun guards phase => ?_⟩
  · have running := moves.running goesOn
    cases moves with
    | request => exact timed.still running ⟨fun _ => nofun, rfl, rfl⟩ rfl rfl
    | close => exact timed.still running ⟨fun _ => nofun, rfl, rfl⟩ rfl rfl
    | dropRequests => exact timed.still running ⟨fun _ => nofun, rfl, rfl⟩ rfl rfl
    | dropCloses => exact timed.still running ⟨fun _ => nofun, rfl, rfl⟩ rfl rfl
    | advance span => exact timed.advance running span
    | finished => rcases goesOn with no | ⟨_, no⟩ <;> cases no
    | waits =>
        obtain ⟨closes, frame⟩ := w.actor.resetRun_frame
        refine timed.still running ⟨fun _ => nofun, rfl, rfl⟩ rfl ?_
        dsimp only
        rw [frame]
        rfl
    | @took _ isClose _ _ rest _ _ _ _ _ _ begins =>
        obtain ⟨cursor, writing, frame⟩ := begins.frame
        refine timed.still running still_takeEvent clock_conclude ?_
        rw [actor_conclude, frame]
        cases isClose <;> rfl
    | @channelEnded _ isClose =>
        refine timed.still running still_takeEvent rfl ?_
        cases isClose <;> rfl
    | @unrouted _ result _ _ chained =>
        obtain rfl := running_conclude.mp goesOn
        have unheard : heard (.inbound result) = none := by
          unfold heard
          split
          · next message same =>
              cases same
              obtain ⟨_, _, no⟩ := chained message rfl
              cases no
          · rfl
        exact timed.still running ⟨fun _ => nofun, unheard, rfl⟩ rfl rfl
    | @routed _ _ _ routed _ _ _ _ _ accepts =>
        rw [clock_conclude]
        exact timed.routed running stepped accepts goesOn rfl
    | writeFailed => cases running_conclude.mp goesOn
    | @wrote _ _ _ _ _ _ inProgress some' =>
        rw [clock_conclude]
        exact timed.wrote running stepped goesOn inProgress some' rfl rfl
    | silent => cases running_conclude.mp goesOn
    | @ticked _ _ verdict _ _ _ _ expires =>
        rw [clock_conclude]
        exact timed.ticked running stepped goesOn expires
          (by rw [actor_conclude]; exact ⟨rfl, rfl⟩)
    | teardown => rcases goesOn with no | ⟨_, no⟩ <;> cases no
  · cases moves with
    | request => exact timed.wake guards phase
    | close => exact timed.wake guards phase
    | dropRequests => exact timed.wake guards phase
    | dropCloses => exact timed.wake guards phase
    | advance => exact timed.wake guards phase
    | finished => cases phase
    | waits =>
        cases phase
        rfl
    | channelEnded => cases phase
    | teardown => cases phase
    | _ => exact absurd phase conclude_not_selecting

end World

end Smb1Client
