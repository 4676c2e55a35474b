import Smb1Client.Connection.ActorRuns

/-!
The order of a close and a request behind it.

`Connection::enqueue_close` says that the actor takes a waiting close before a waiting
request. Its `select` does so between what waits when the guards are computed; between
two that come in while it waits, it takes either.
-/

namespace Smb1Client

namespace World

variable {w w' : World} {e : Event} {out : List Effect}

/-- What `enqueue_close` says of a step: a request is not taken before a close that was
enqueued ahead of it, unless a whole run of closes has been. -/
def ClosesFirst (w : World) (e : Event) : Prop :=
  ∀ callerGone, e = .takeRequest callerGone → (w.step e).isSome = true →
    w.actor.consecutiveCloses < CLOSE_RUN →
      ∀ r ∈ w.actor.requests.queue.head?, ∀ c ∈ w.actor.closes.queue, r.ticket < c.ticket

/-- No request comes in behind a waiting close while the actor waits with its request branch open
and with no request to take. -/
def RequestInTime (w : World) : Event → Prop
  | .request _ => ∀ guards, w.phase = .selecting guards → guards.takeRequest = true →
      w.actor.consecutiveCloses < CLOSE_RUN → w.actor.requests.queue = [] →
        w.actor.closes.queue = []
  | _ => True

/-- The tickets that wait have been issued. -/
structure Issued (w : World) : Prop where
  sound : w.Sound
  requests : ∀ r ∈ w.actor.requests.queue, r.ticket < w.tickets
  closes : ∀ c ∈ w.actor.closes.queue, c.ticket < w.tickets

theorem issued_new (limit : ℕ) (timeouts : Timeouts) : (new limit timeouts).Issued where
  sound := sound_new limit timeouts
  requests := fun _ none => nomatch none
  closes := fun _ none => nomatch none

/-- A step that puts nothing into a channel. -/
theorem Issued.takes (issued : w.Issued) (sound : w'.Sound) (tickets : w'.tickets = w.tickets)
    (requests : w'.actor.requests.queue ⊆ w.actor.requests.queue)
    (closes : w'.actor.closes.queue ⊆ w.actor.closes.queue) : w'.Issued where
  sound := sound
  requests := fun r waiting => tickets ▸ issued.requests r (requests waiting)
  closes := fun c waiting => tickets ▸ issued.closes c (closes waiting)

/-- The task goes on, or stops. -/
theorem Issued.conclude {a : Actor} {verdict : Except Error Unit} (issued : w.Issued)
    (sound : (w.conclude a verdict).Sound) (requests : a.requests.queue ⊆ w.actor.requests.queue)
    (closes : a.closes.queue ⊆ w.actor.closes.queue) : (w.conclude a verdict).Issued :=
  issued.takes sound tickets_conclude (by rwa [actor_conclude]) (by rwa [actor_conclude])

theorem Issued.step (issued : w.Issued) (stepped : w.step e = some (w', out)) : w'.Issued := by
  have sound := issued.sound.step stepped
  have snoc : ∀ {queue : List Dispatch} {d : Dispatch}, (∀ r ∈ queue, r.ticket < w.tickets) →
      d.ticket = w.tickets → ∀ r ∈ queue ++ [d], r.ticket < w.tickets + 1 := by
    intro queue d before same r waiting
    rcases List.mem_append.mp waiting with waiting | waiting
    · exact Nat.lt_succ_of_lt (before r waiting)
    · obtain rfl := List.mem_singleton.mp waiting
      exact Nat.lt_succ_of_le (le_of_eq same)
  cases issued.sound.moves stepped with
  | request request =>
      exact ⟨sound, snoc issued.requests rfl, fun c waiting =>
        Nat.lt_succ_of_lt (issued.closes c waiting)⟩
  | close request =>
      exact ⟨sound, fun r waiting => Nat.lt_succ_of_lt (issued.requests r waiting),
        snoc issued.closes rfl⟩
  | dropRequests => exact issued.takes sound rfl (List.Subset.refl _) (List.Subset.refl _)
  | dropCloses => exact issued.takes sound rfl (List.Subset.refl _) (List.Subset.refl _)
  | advance => exact issued.takes sound rfl (List.Subset.refl _) (List.Subset.refl _)
  | finished =>
      obtain ⟨closes, frame⟩ := w.actor.resetRun_frame
      refine issued.takes sound rfl ?_ ?_ <;> (dsimp only; rw [frame]; exact List.Subset.refl _)
  | waits =>
      obtain ⟨closes, frame⟩ := w.actor.resetRun_frame
      refine issued.takes sound rfl ?_ ?_ <;> (dsimp only; rw [frame]; exact List.Subset.refl _)
  | @took _ isClose _ d rest _ _ _ _ _ waiting begins =>
      refine issued.conclude sound ?_ ?_
      · rw [begins.channels.1]
        cases isClose with
        | true => exact List.Subset.refl _
        | false =>
            have queue : w.actor.requests.queue = d :: rest := waiting
            rw [queue]
            exact List.subset_cons_self d rest
      · rw [begins.channels.2]
        cases isClose with
        | true =>
            have queue : w.actor.closes.queue = d :: rest := waiting
            rw [queue]
            exact List.subset_cons_self d rest
        | false => exact List.Subset.refl _
  | @channelEnded _ isClose =>
      cases isClose <;>
        exact issued.takes sound rfl (List.Subset.refl _) (List.Subset.refl _)
  | unrouted => exact issued.conclude sound (List.Subset.refl _) (List.Subset.refl _)
  | routed => exact issued.conclude sound (List.Subset.refl _) (List.Subset.refl _)
  | writeFailed => exact issued.conclude sound (List.Subset.refl _) (List.Subset.refl _)
  | wrote => exact issued.conclude sound (List.Subset.refl _) (List.Subset.refl _)
  | silent => exact issued.conclude sound (List.Subset.refl _) (List.Subset.refl _)
  | ticked => exact issued.conclude sound (List.Subset.refl _) (List.Subset.refl _)
  | teardown => exact issued.takes sound rfl (List.nil_subset _) (List.nil_subset _)

/-- What runs whose requests come in time keep: where the request branch is open, the request it
would take is ahead of every close. -/
structure Ordered (w : World) : Prop where
  issued : w.Issued
  ahead : ∀ guards, w.phase = .selecting guards → guards.takeRequest = true →
    w.actor.consecutiveCloses < CLOSE_RUN → ∀ r ∈ w.actor.requests.queue.head?,
      ∀ c ∈ w.actor.closes.queue, r.ticket < c.ticket

theorem ordered_new (limit : ℕ) (timeouts : Timeouts) : (new limit timeouts).Ordered where
  issued := issued_new limit timeouts
  ahead := fun _ no => nomatch no

/-- A request branch that opens before a whole run of closes finds no close waiting. -/
theorem closes_empty_of_open {a : Actor} (opened : a.guards.takeRequest = true)
    (few : a.consecutiveCloses < CLOSE_RUN) : a.closes.queue = [] := by
  simp only [Actor.guards, Bool.and_eq_true, Bool.or_eq_true, decide_eq_true_eq,
    List.isEmpty_iff] at opened
  rcases opened.2 with many | empty
  · exact absurd few (not_lt.mpr many)
  · exact empty

/-- Out of a `select` nothing is to be ahead of anything. -/
theorem Ordered.of_left (issued : w.Issued) (left : ∀ guards, w.phase ≠ .selecting guards) :
    w.Ordered where
  issued := issued
  ahead := fun guards selecting => absurd selecting (left guards)

theorem Ordered.step (ordered : w.Ordered) (inTime : w.RequestInTime e)
    (stepped : w.step e = some (w', out)) : w'.Ordered := by
  have issued := ordered.issued.step stepped
  cases ordered.issued.sound.moves stepped with
  | request request =>
      refine ⟨issued, fun guards phase opened few r first c waiting => ?_⟩
      cases queue : w.actor.requests.queue with
      | nil =>
          have empty := inTime guards phase opened few queue
          have waiting : c ∈ w.actor.closes.queue := waiting
          rw [empty] at waiting
          cases waiting
      | cons d rest =>
          have first : r ∈ (w.actor.requests.queue ++ [w.stamp request true]).head? := first
          rw [queue] at first
          exact ordered.ahead guards phase opened few r (by rw [queue]; exact first) c waiting
  | close request =>
      refine ⟨issued, fun guards phase opened few r first c waiting => ?_⟩
      rcases List.mem_append.mp waiting with waiting | waiting
      · exact ordered.ahead guards phase opened few r first c waiting
      · obtain rfl := List.mem_singleton.mp waiting
        exact ordered.issued.requests r (List.mem_of_mem_head? first)
  | dropRequests => exact ⟨issued, ordered.ahead⟩
  | dropCloses => exact ⟨issued, ordered.ahead⟩
  | advance => exact ⟨issued, ordered.ahead⟩
  | finished => exact .of_left issued (fun _ no => nomatch no)
  | waits =>
      refine ⟨issued, fun guards same opened few r first c waiting => ?_⟩
      cases same
      dsimp only at waiting few
      rw [closes_empty_of_open opened few] at waiting
      cases waiting
  | took => exact .of_left issued (fun _ => conclude_not_selecting)
  | channelEnded => exact .of_left issued (fun _ no => nomatch no)
  | unrouted => exact .of_left issued (fun _ => conclude_not_selecting)
  | routed => exact .of_left issued (fun _ => conclude_not_selecting)
  | writeFailed => exact .of_left issued (fun _ => conclude_not_selecting)
  | wrote => exact .of_left issued (fun _ => conclude_not_selecting)
  | silent => exact .of_left issued (fun _ => conclude_not_selecting)
  | ticked => exact .of_left issued (fun _ => conclude_not_selecting)
  | teardown => exact .of_left issued (fun _ no => nomatch no)

theorem Ordered.closesFirst (ordered : w.Ordered) : w.ClosesFirst e := by
  intro callerGone taken enabled few r first c waiting
  obtain ⟨⟨w', out⟩, stepped⟩ := Option.isSome_iff_exists.mp enabled
  rw [taken, World.step] at stepped
  split at stepped
  case h_2 => cases stepped
  next guards phase =>
    split at stepped
    case isFalse => cases stepped
    next opened => exact ordered.ahead guards phase opened few r first c waiting

/-- A request that does not come in time can be taken at once. -/
theorem Issued.overtakes (issued : w.Issued) (late : ¬ w.RequestInTime e)
    (stepped : w.step e = some (w', out)) : ¬ w'.ClosesFirst (.takeRequest false) := by
  intro first
  cases issued.sound.moves stepped with
  | request request =>
      rw [RequestInTime] at late
      push Not at late
      obtain ⟨guards, phase, opened, few, empty, waiting⟩ := late
      obtain ⟨c, rest, closes⟩ := List.exists_cons_of_ne_nil waiting
      have member : c ∈ w.actor.closes.queue := by
        rw [closes]
        exact List.mem_cons_self
      have ahead := first false rfl (by simp [World.step, phase, opened, takeFrom, empty]) few
        (w.stamp request true) (by simp [empty]) c member
      exact absurd ahead (not_lt.mpr (le_of_lt (issued.closes c member)))
  | @took _ isClose => cases isClose <;> exact late trivial
  | @channelEnded _ isClose => cases isClose <;> exact late trivial
  | _ => exact late trivial

/-- **A waiting close goes first**, in every run whose requests come in time; and one that does not
come in time can be taken at once, ahead of the close. -/
theorem closes_first (limit : ℕ) (timeouts : Timeouts) (es : List Event) :
    ((∀ v ∈ connection.visits (new limit timeouts) es, v.1.RequestInTime v.2) →
      ∀ v ∈ connection.visits (new limit timeouts) es, v.1.ClosesFirst v.2) ∧
    ∀ w log, connection.run (new limit timeouts) es = some (w, log) →
      ∀ e w' out, w.step e = some (w', out) → ¬ w.RequestInTime e →
        ¬ w'.ClosesFirst (.takeRequest false) := by
  constructor
  · intro inTime v member
    have ordered : v.1.Ordered :=
      Trace.Machine.visits_induction (m := connection) (ordered_new limit timeouts)
        (fun w e w' out ordered inTime stepped => ordered.step inTime stepped) inTime v member
    exact ordered.closesFirst
  · intro w log ran e w' out stepped late
    have issued : w.Issued := Trace.Machine.invariant (m := connection) (issued_new limit timeouts)
      (fun w e w' out issued stepped => issued.step stepped) ran
    exact issued.overtakes late stepped

/-- A request with nothing but a command. -/
def bareRequest (command : UInt8) : Request := ⟨command, 0, 0, [], 0, 0, none⟩

/-- A request waits, and a close comes in behind it while its branch is open. -/
def closeBehindRequest : World where
  actor := { Actor.new 1 ⟨1, 1⟩ with
    requests := ⟨[⟨0, bareRequest Command.ECHO, some 0⟩], true⟩
    closes := ⟨[⟨1, bareRequest Command.CLOSE, none⟩], true⟩ }
  phase := .selecting
    { Actor.new 1 ⟨1, 1⟩ with
      requests := ⟨[⟨0, bareRequest Command.ECHO, some 0⟩], true⟩ : Actor }.guards
  clock := 0
  tickets := 2

/-- The request ahead of the close may be taken. -/
theorem closes_first_behind : closeBehindRequest.ClosesFirst (.takeRequest false) := by
  refine (closes_first 1 ⟨1, 1⟩ [.request (bareRequest Command.ECHO), .evaluate,
    .close (bareRequest Command.CLOSE), .takeRequest false]).1 (fun v member => ?_) (_, _)
    (.tail _ (.tail _ (.tail _ (.head _))))
  rcases List.mem_cons.mp member with rfl | member
  · exact fun _ no => nomatch no
  rcases List.mem_cons.mp member with rfl | member
  · exact True.intro
  rcases List.mem_cons.mp member with rfl | member
  · exact True.intro
  rcases List.mem_cons.mp member with rfl | no
  · exact True.intro
  · cases no

/-- A close and then a request come in while the actor waits with both branches open,
and the request is taken. -/
theorem request_overtakes_close :
    ¬ ∀ (limit : ℕ) (timeouts : Timeouts) (es : List Event),
      ∀ v ∈ connection.visits (new limit timeouts) es, v.1.ClosesFirst v.2 := by
  intro claimed
  let actor : Actor := .new 1 ⟨1, 1⟩
  let close : Dispatch := ⟨0, bareRequest Command.CLOSE, none⟩
  let request : Dispatch := ⟨1, bareRequest Command.ECHO, some 1⟩
  let w : World :=
    { actor := { actor with requests := ⟨[request], true⟩, closes := ⟨[close], true⟩ }
      phase := .selecting actor.guards
      clock := 0
      tickets := 2 }
  have reached : (w, .takeRequest false) ∈ connection.visits (new 1 ⟨1, 1⟩)
      [.evaluate, .close (bareRequest Command.CLOSE), .request (bareRequest Command.ECHO),
        .takeRequest false] :=
    .tail _ (.tail _ (.tail _ (.head _)))
  have first := claimed 1 ⟨1, 1⟩ _ _ reached false rfl rfl (by decide) request rfl close
    List.mem_cons_self
  exact absurd first (by decide)

end World

end Smb1Client
