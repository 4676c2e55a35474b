import Smb1Client.Connection.MultiplexIds

/-!
The ledger of outcome hooks: where a request's hook is, from the send that puts it on
a channel to the step that applies it, or drops it.

Every step conserves the hooks: those applied, those still held and those dropped
unheard are the ones there were and the ones a send brings. A hook is dropped unheard
only where a dispatch is: at an exhausted pool, and when the connection goes with a
request in a channel or not yet begun on the wire.
-/

namespace Smb1Client

open TableTotal

/-! ## What effects apply -/

namespace Effect

def hook : Effect → Option Ticket
  | .ended hook _ => some hook
  | .answered .. => none

def caller : Effect → Option Ticket
  | .answered caller _ => some caller
  | .ended .. => none

end Effect

/-- The hooks that effects apply. -/
def hooksApplied (effects : List Effect) : List Ticket := effects.filterMap Effect.hook

/-- The callers that effects answer. -/
def callersAnswered (effects : List Effect) : List Ticket := effects.filterMap Effect.caller

theorem hooksApplied_append (effects later : List Effect) :
    hooksApplied (effects ++ later) = hooksApplied effects ++ hooksApplied later :=
  List.filterMap_append

theorem callersAnswered_append (effects later : List Effect) :
    callersAnswered (effects ++ later) = callersAnswered effects ++ callersAnswered later :=
  List.filterMap_append

section Told

variable {hook caller : Option Ticket} {outcome : Except Error Reply}

@[simp] theorem hooksApplied_told : hooksApplied (told hook caller outcome) = hook.toList := by
  cases hook <;> cases caller <;> rfl

@[simp] theorem callersAnswered_told :
    callersAnswered (told hook caller outcome) = caller.toList := by
  cases hook <;> cases caller <;> rfl

/-- Effects that are requests being told, each with a hook and a caller that go
together. -/
inductive ToldBy (Q : Option Ticket → Option Ticket → Prop) : List Effect → Prop
  | nil : ToldBy Q []
  | told {hook caller : Option Ticket} {rest : List Effect} (outcome : Except Error Reply) :
      Q hook caller → ToldBy Q rest → ToldBy Q (told hook caller outcome ++ rest)

namespace ToldBy

variable {Q : Option Ticket → Option Ticket → Prop} {effects later : List Effect}

theorem one (pair : Q hook caller) : ToldBy Q (Smb1Client.told hook caller outcome) := by
  have single := told outcome pair nil
  rwa [List.append_nil] at single

theorem append (first : ToldBy Q effects) (second : ToldBy Q later) :
    ToldBy Q (effects ++ later) := by
  induction first with
  | nil => exact second
  | told outcome pair _ ih =>
      rw [List.append_assoc]
      exact told outcome pair ih

end ToldBy

end Told

/-! ## One row -/

namespace Entry

variable {e : Entry} {Q : Option Ticket → Option Ticket → Prop}

/-- The caller waiting on a row. -/
def caller (e : Entry) : Option Ticket :=
  match e.state with
  | .onWire reply _ _ => reply
  | _ => none

def hooks (e : Entry) : Multiset Ticket := e.outcome.toList

/-- A row that charges no capacity has told its hook, and what is left of the row goes
together. -/
structure Fair (Q : Option Ticket → Option Ticket → Prop) (e : Entry) : Prop where
  told : e.charges = false → e.outcome = none
  paired : Q e.outcome e.caller

theorem Fair.mono {Q' : Option Ticket → Option Ticket → Prop} (fair : e.Fair Q)
    (weaker : ∀ hook caller, Q hook caller → Q' hook caller) : e.Fair Q' :=
  ⟨fair.told, weaker _ _ fair.paired⟩

theorem Fair.touch (fair : e.Fair Q) (now : Instant) (perRequest : Duration) :
    (e.touch now perRequest).Fair Q := by
  obtain ⟨command, assembly, outcome, state⟩ := e
  cases state <;> exact ⟨fair.told, fair.paired⟩

theorem caller_eq_none (uncharged : e.charges = false) : e.caller = none := by
  unfold charges at uncharged
  unfold caller
  split at uncharged <;> simp_all

/-- A fair row is told once: what is handed out is its hook and its caller. -/
theorem Fair.deliver_told (fair : e.Fair Q) (outcome : Except Error Reply) :
    (e.deliver outcome).2 = Smb1Client.told e.outcome e.caller outcome := by
  obtain ⟨command, assembly, hook, state⟩ := e
  cases state with
  | onWire => rfl
  | lapsed =>
      have none : hook = none := fair.told rfl
      rw [none]
      rfl
  | retired =>
      have none : hook = none := fair.told rfl
      rw [none]
      rfl

theorem Fair.deliver_outcome (fair : e.Fair Q) (outcome : Except Error Reply) :
    (e.deliver outcome).1.outcome = none := by
  obtain ⟨command, assembly, hook, state⟩ := e
  cases state with
  | onWire => rfl
  | lapsed => exact fair.told rfl
  | retired => exact fair.told rfl

/-- A row told of its end holds nothing more. -/
theorem Fair.of_told (spent : Q none none) (told : e.outcome = none) (nobody : e.caller = none) :
    e.Fair Q where
  told := fun _ => told
  paired := by rwa [told, nobody]

end Entry

/-! ## The table -/

namespace RequestTable

variable {t t' : RequestTable} {Q : Option Ticket → Option Ticket → Prop} {mid : UInt16}
  {now : Instant} {verdict : Except Error Unit} {effects : List Effect}

/-- Every row of a table is fair. -/
def Fair (Q : Option Ticket → Option Ticket → Prop) (t : RequestTable) : Prop :=
  ∀ mid e, t.entries.lookup mid = some e → e.Fair Q

def hooks (t : RequestTable) : Multiset Ticket := total Entry.hooks t.entries

theorem Fair.insert (fair : t.Fair Q) {e : Entry} (row : e.Fair Q) {m : UInt16} {e' : Entry}
    (found : (t.entries.insert mid e).lookup m = some e') : e'.Fair Q := by
  by_cases here : m = mid
  · rw [here, AList.lookup_insert] at found
    cases found
    exact row
  · rw [AList.lookup_insert_ne here] at found
    exact fair m e' found

/-- A row that hands out some of its hooks and keeps the others. -/
theorem hooks_insert {e e' : Entry} (found : t.entries.lookup mid = some e)
    {applied : Multiset Ticket} (split : e.hooks = applied + e'.hooks) :
    applied + total Entry.hooks (t.entries.insert mid e') = t.hooks := by
  have changed := total_insert (f := Entry.hooks) found e'
  rw [split, add_comm applied, add_assoc] at changed
  exact add_left_cancel changed

/-- What `accept` hands out leaves the table, and no other hook does. -/
theorem Accepts.ledger {message : Message} (accepts : t.Accepts message now t' verdict effects)
    (fair : t.Fair Q) : (hooksApplied effects : Multiset Ticket) + t'.hooks = t.hooks := by
  cases accepts with
  | unknown => exact zero_add _
  | remembered => exact zero_add _
  | mismatched => exact zero_add _
  | @continued e e' assembly found _ _ _ row =>
      refine hooks_insert found ?_
      rw [row]
      change (e.outcome.toList : Multiset Ticket) = 0 + ((e.touch _ _).outcome.toList)
      rw [Entry.outcome_touch, zero_add]
  | @completed e e' assembly transaction effects found _ _ _ row =>
      have before : (Entry.Fair Q { e.touch now t.timeouts.perRequest with assembly }) :=
        ⟨((fair _ e found).touch _ _).told, ((fair _ e found).touch _ _).paired⟩
      have out := before.deliver_told (.ok { message, transaction })
      have after := before.deliver_outcome (.ok { message, transaction })
      rw [← row] at out after
      dsimp only at out after
      have erased := total_erase (f := Entry.hooks)
        (AList.lookup_insert (a := message.header.mid) (b := e') t.entries)
      have nothing : e'.hooks = 0 := by rw [Entry.hooks, after]; rfl
      rw [nothing, zero_add] at erased
      rw [out, hooksApplied_told]
      change _ + total Entry.hooks ((t.entries.insert message.header.mid e').erase _) = _
      rw [← erased]
      refine hooks_insert found ?_
      rw [nothing, add_zero, Entry.hooks]
      rw [Entry.outcome_touch]
  | @corrupted e e' error effects found _ _ _ row =>
      have before := (fair _ e found).touch now t.timeouts.perRequest
      have out := before.deliver_told (.error error)
      have after := before.deliver_outcome (.error error)
      rw [← row] at out after
      dsimp only at out after
      rw [out, hooksApplied_told]
      refine hooks_insert found ?_
      rw [Entry.hooks, Entry.hooks]
      change _ = _ + (e'.outcome.toList : Multiset Ticket)
      rw [after, Entry.outcome_touch]
      exact (add_zero _).symm

theorem Accepts.fair {message : Message} (accepts : t.Accepts message now t' verdict effects)
    (spent : Q none none) (fair : t.Fair Q) : t'.Fair Q ∧ ToldBy Q effects := by
  cases accepts with
  | unknown => exact ⟨fair, .nil⟩
  | remembered => exact ⟨fair, .nil⟩
  | mismatched => exact ⟨fair, .nil⟩
  | continued found _ _ _ row =>
      have before := (fair _ _ found).touch now t.timeouts.perRequest
      refine ⟨fun mid e held => fair.insert ?_ held, .nil⟩
      rw [row]
      exact ⟨before.told, before.paired⟩
  | @completed e e' assembly transaction effects found _ _ _ row =>
      have before : (Entry.Fair Q { e.touch now t.timeouts.perRequest with assembly }) :=
        ⟨((fair _ e found).touch _ _).told, ((fair _ e found).touch _ _).paired⟩
      have out := before.deliver_told (.ok { message, transaction })
      rw [← row] at out
      refine ⟨fun mid e held => ?_, ?_⟩
      · dsimp only at held
        by_cases here : mid = message.header.mid
        · rw [here, AList.lookup_erase] at held
          cases held
        · rw [AList.lookup_erase_ne here, AList.lookup_insert_ne here] at held
          exact fair mid e held
      · dsimp only at out
        rw [out]
        exact .one before.paired
  | @corrupted e e' error effects found _ _ _ row =>
      have before := (fair _ e found).touch now t.timeouts.perRequest
      have out := before.deliver_told (.error error)
      have after := before.deliver_outcome (.error error)
      rw [← row] at out after
      refine ⟨fun mid e held => fair.insert ?_ held, ?_⟩
      · exact .of_told spent after rfl
      · dsimp only at out
        rw [out]
        exact .one before.paired

theorem Fires.ledger {d : Deadline} (fires : t.Fires d now t' verdict effects) (fair : t.Fair Q) :
    (hooksApplied effects : Multiset Ticket) + t'.hooks = t.hooks := by
  cases fires with
  | @lapsed e found =>
      have row := fair _ e found
      rw [row.deliver_told, hooksApplied_told]
      refine hooks_insert found ?_
      have after : (lapsedRow e (t.giveUpAt now)).outcome = none := row.deliver_outcome _
      rw [Entry.hooks, Entry.hooks, after]
      exact (add_zero _).symm
  | gaveUp found => exact hooks_insert found (zero_add _).symm

theorem Fires.fair {d : Deadline} (fires : t.Fires d now t' verdict effects) (spent : Q none none)
    (fair : t.Fair Q) : t'.Fair Q ∧ ToldBy Q effects := by
  cases fires with
  | @lapsed e found =>
      have row := fair _ e found
      rw [row.deliver_told]
      refine ⟨fun mid e held => fair.insert (.of_told spent ?_ rfl) held, .one row.paired⟩
      exact row.deliver_outcome _
  | @gaveUp e _ found state =>
      have told := (fair _ e found).told (by rw [Entry.charges, state])
      refine ⟨fun mid e held => fair.insert ?_ held, .nil⟩
      exact .of_told spent told rfl

theorem Expires.ledger (expires : Expires now t t' verdict effects) (spent : Q none none)
    (fair : t.Fair Q) : (hooksApplied effects : Multiset Ticket) + t'.hooks = t.hooks := by
  induction expires with
  | done => exact zero_add _
  | stop _ _ fires => exact fires.ledger fair
  | turn _ _ fires _ ih =>
      rw [hooksApplied_append, ← Multiset.coe_add, add_assoc, ih (fires.fair spent fair).1]
      exact fires.ledger fair

theorem Expires.fair (expires : Expires now t t' verdict effects) (spent : Q none none)
    (fair : t.Fair Q) : t'.Fair Q ∧ ToldBy Q effects := by
  induction expires with
  | done => exact ⟨fair, .nil⟩
  | stop _ _ fires => exact fires.fair spent fair
  | turn _ _ fires _ ih =>
      obtain ⟨fair', first⟩ := fires.fair spent fair
      obtain ⟨fair'', second⟩ := ih fair'
      exact ⟨fair'', first.append second⟩

/-- What `fail_all` hands out for one row. -/
theorem failRow {e : Entry} (fair : e.Fair Q) :
    (if e.charges then (e.deliver (.error .lost)).2 else []) =
      told e.outcome e.caller (.error .lost) := by
  split
  · exact fair.deliver_told _
  · next uncharged =>
      have uncharged := Bool.not_eq_true _ ▸ uncharged
      rw [fair.told uncharged, Entry.caller_eq_none uncharged]
      rfl

theorem Fair.mem (fair : t.Fair Q) : ∀ row ∈ t.entries.entries, row.2.Fair Q := by
  intro row member
  exact fair row.1 row.2 (AList.mem_lookup_iff.mpr member)

/-- `fail_all` applies every hook the table holds. -/
theorem failAll_ledger (fair : t.Fair Q) :
    (hooksApplied t.failAll.2 : Multiset Ticket) = t.hooks := by
  have rows := fair.mem
  unfold failAll hooks total
  dsimp only
  generalize t.entries.entries = entries at rows
  induction entries with
  | nil => rfl
  | cons row rest ih =>
      have first := rows row List.mem_cons_self
      rw [List.flatMap_cons, hooksApplied_append, failRow first, hooksApplied_told,
        ← Multiset.coe_add, ih fun row member => rows row (List.mem_cons_of_mem _ member),
        List.map_cons, List.sum_cons]
      rfl

theorem failAll_told (fair : t.Fair Q) : ToldBy Q t.failAll.2 := by
  have rows := fair.mem
  unfold failAll
  dsimp only
  generalize t.entries.entries = entries at rows
  induction entries with
  | nil => exact .nil
  | cons row rest ih =>
      have first := rows row List.mem_cons_self
      rw [List.flatMap_cons, failRow first]
      exact .told _ first.paired (ih fun row member => rows row (List.mem_cons_of_mem _ member))

theorem Fair.dispatch (fair : t.Fair Q) {command : UInt8} {reply : Option Ticket}
    {assembly : Option Assembly} {outcome : Option Ticket} (pair : Q outcome reply) :
    (t.dispatch mid command reply assembly outcome now).Fair Q := by
  intro m e held
  refine fair.insert ⟨fun uncharged => ?_, pair⟩ held
  cases uncharged

theorem dispatch_hooks (absent : mid ∉ t.entries) {command : UInt8} {reply : Option Ticket}
    {assembly : Option Assembly} {outcome : Option Ticket} :
    (t.dispatch mid command reply assembly outcome now).hooks =
      (outcome.toList : Multiset Ticket) + t.hooks :=
  total_insert_new absent

end RequestTable

/-! ## The actor -/

namespace Actor

variable {a a' : Actor} {Q : Option Ticket → Option Ticket → Prop} {d : Dispatch}
  {callerGone : Bool} {verdict : Except Error Unit} {out : List Effect}

/-- The hooks waiting in a channel. -/
def waitingHooks (queue : List Dispatch) : List Ticket := queue.filterMap (·.request.outcome)

/-- The hook of the request that has not reached the table. -/
def queuedHook (a : Actor) : Option Ticket := a.queued.bind (·.outcome)

/-- Every hook the connection holds. -/
def hooks (a : Actor) : Multiset Ticket :=
  (waitingHooks a.requests.queue : Multiset Ticket) +
    (waitingHooks a.closes.queue : Multiset Ticket) +
    (a.queuedHook.toList : Multiset Ticket) + a.table.hooks

/-- Every hook and caller the connection holds go together. -/
structure Fair (Q : Option Ticket → Option Ticket → Prop) (a : Actor) : Prop where
  requests : ∀ d ∈ a.requests.queue, Q d.request.outcome d.reply
  closes : ∀ d ∈ a.closes.queue, Q d.request.outcome d.reply
  queued : ∀ q ∈ a.queued, Q q.outcome q.reply
  table : a.table.Fair Q

theorem Fair.mono {Q' : Option Ticket → Option Ticket → Prop} (fair : a.Fair Q)
    (weaker : ∀ hook caller, Q hook caller → Q' hook caller) : a.Fair Q' where
  requests := fun d waiting => weaker _ _ (fair.requests d waiting)
  closes := fun d waiting => weaker _ _ (fair.closes d waiting)
  queued := fun q member => weaker _ _ (fair.queued q member)
  table := fun mid e found => (fair.table mid e found).mono weaker

/-- A hook dropped unheard where a request is begun: no id is left for it. -/
def lost (table : RequestTable) (d : Dispatch) (callerGone : Bool) : List Ticket :=
  if ¬ (d.reply.isSome = true ∧ callerGone = true) ∧ table.allocate.1 = none then
    d.request.outcome.toList
  else []

theorem waitingHooks_cons (queue : List Dispatch) :
    (waitingHooks (d :: queue) : Multiset Ticket) =
      (d.request.outcome.toList : Multiset Ticket) + (waitingHooks queue : Multiset Ticket) := by
  rw [waitingHooks, List.filterMap_cons]
  cases d.request.outcome <;> rfl

theorem waitingHooks_concat (queue : List Dispatch) :
    (waitingHooks (queue ++ [d]) : Multiset Ticket) =
      (waitingHooks queue : Multiset Ticket) + (d.request.outcome.toList : Multiset Ticket) := by
  have last := waitingHooks_cons (d := d) []
  rw [waitingHooks, List.filterMap_append, ← Multiset.coe_add]
  exact congrArg _ (last.trans (add_zero _))

/-- Beginning a request puts its hook in the write, applies it, or drops it. -/
theorem Begins.ledger (begins : a.Begins d callerGone a' verdict out) (idle : a.writing = none) :
    (hooksApplied out : Multiset Ticket) + a'.hooks +
        (lost a.table d callerGone : Multiset Ticket) =
      a.hooks + (d.request.outcome.toList : Multiset Ticket) := by
  obtain ⟨cursor, frame⟩ := a.table.allocate_frame
  have table : a.table.allocate.2.hooks = a.table.hooks := by rw [frame]; rfl
  have unqueued : a.queuedHook = none := by rw [queuedHook, queued, idle]; rfl
  cases begins with
  | forgone awaited =>
      rw [lost, if_neg (fun kept => kept.1 ⟨awaited, rfl⟩), hooksApplied_told]
      exact (add_zero _).trans (add_comm _ _)
  | exhausted present allocated =>
      rw [lost, if_pos ⟨present, allocated⟩]
      unfold hooks queuedHook queued at *
      dsimp only
      rw [table, idle]
      exact congrArg (· + _) (zero_add _)
  | unsendable error allocated =>
      rw [lost, if_neg (fun gone => by rw [allocated] at gone; cases gone.2), hooksApplied_told]
      unfold hooks queuedHook queued at *
      dsimp only
      rw [table, idle]
      exact (add_zero _).trans (add_comm _ _)
  | started frame allocated =>
      rw [lost, if_neg (fun gone => by rw [allocated] at gone; cases gone.2)]
      unfold hooks at *
      rw [unqueued]
      dsimp only
      rw [table]
      change 0 + (_ + (d.request.outcome.toList : Multiset Ticket) + _) + 0 = _ + 0 + _ + _
      abel

theorem Begins.fair (begins : a.Begins d callerGone a' verdict out) (fair : a.Fair Q)
    (pair : Q d.request.outcome d.reply) (dropping : ∀ hook caller, Q hook caller → Q hook none) :
    a'.Fair Q ∧ ToldBy Q out := by
  obtain ⟨cursor, frame⟩ := a.table.allocate_frame
  have table : a.table.allocate.2.Fair Q := by
    rw [frame]
    exact fair.table
  cases begins with
  | forgone => exact ⟨fair, .one (dropping _ _ pair)⟩
  | exhausted => exact ⟨⟨fair.requests, fair.closes, fair.queued, table⟩, .nil⟩
  | unsendable => exact ⟨⟨fair.requests, fair.closes, fair.queued, table⟩, .one pair⟩
  | started =>
      refine ⟨⟨fair.requests, fair.closes, fun q member => ?_, table⟩, .nil⟩
      cases member
      exact pair

/-- The first bytes on the socket move a hook from the write to the table. -/
theorem hooks_dispatchQueued {writing : Writing} (now : Instant)
    (free : ∀ q ∈ writing.queued, q.mid ∉ a.table.entries) :
    (dispatchQueued a.table writing.queued now).hooks =
      ((writing.queued.bind (·.outcome)).toList : Multiset Ticket) + a.table.hooks := by
  unfold dispatchQueued
  cases half : writing.queued with
  | none => exact (zero_add _).symm
  | some q => exact RequestTable.dispatch_hooks (free q half)

end Actor

/-! ## The connection -/

namespace World

variable {w w' : World} {e : Event} {out : List Effect} {Q : Option Ticket → Option Ticket → Prop}

/-- The hooks a send brings. -/
def issues (w : World) : Event → List Ticket
  | .request request => (w.stamp request true).request.outcome.toList
  | .close request => (w.stamp request false).request.outcome.toList
  | _ => []

/-- The hooks a step drops without applying them. -/
def unheard (w : World) : Event → List Ticket
  | .takeClose callerGone =>
      w.actor.closes.queue.head?.toList.flatMap (Actor.lost w.actor.table · callerGone)
  | .takeRequest callerGone =>
      w.actor.requests.queue.head?.toList.flatMap (Actor.lost w.actor.table · callerGone)
  | .teardown =>
      Actor.waitingHooks w.actor.requests.queue ++ Actor.waitingHooks w.actor.closes.queue ++
        w.actor.queuedHook.toList
  | _ => []

theorem unheard_takeEvent (isClose callerGone : Bool) :
    w.unheard (takeEvent isClose callerGone) =
      (channel w.actor isClose).queue.head?.toList.flatMap
        (Actor.lost w.actor.table · callerGone) := by
  cases isClose <;> rfl

/-- The pairs a send brings, of a hook and a caller. -/
def Brings (Q : Option Ticket → Option Ticket → Prop) (w : World) : Event → Prop
  | .request request => Q (w.stamp request true).request.outcome (w.stamp request true).reply
  | .close request => Q (w.stamp request false).request.outcome (w.stamp request false).reply
  | _ => True

theorem hooks_taking {a : Actor} {isClose : Bool} {d : Dispatch} {rest : List Dispatch}
    (waiting : (channel a isClose).queue = d :: rest) :
    (taking a isClose rest).hooks + (d.request.outcome.toList : Multiset Ticket) = a.hooks := by
  have front := Actor.waitingHooks_cons (d := d) rest
  cases isClose with
  | true =>
      have queue : a.closes.queue = d :: rest := waiting
      rw [Actor.hooks, Actor.hooks, queue, front]
      change _ + (Actor.waitingHooks rest : Multiset Ticket) + _ + _ + _ = _
      rw [show (taking a true rest).queuedHook = a.queuedHook from rfl, table_taking,
        show (taking a true rest).requests = a.requests from rfl]
      abel
  | false =>
      have queue : a.requests.queue = d :: rest := waiting
      rw [Actor.hooks, Actor.hooks, queue, front]
      change (Actor.waitingHooks rest : Multiset Ticket) + _ + _ + _ + _ = _
      rw [show (taking a false rest).queuedHook = a.queuedHook from rfl, table_taking,
        show (taking a false rest).closes = a.closes from rfl]
      abel

theorem issues_takeEvent (isClose callerGone : Bool) :
    w.issues (takeEvent isClose callerGone) = [] := by
  cases isClose <;> rfl

/-- A step that neither applies, drops nor brings a hook. -/
theorem ledger_quiet {a : Actor} (same : a.hooks = w.actor.hooks) :
    (hooksApplied [] : Multiset Ticket) + a.hooks + (([] : List Ticket) : Multiset Ticket) =
      w.actor.hooks + (([] : List Ticket) : Multiset Ticket) := by
  rw [same]
  exact congrArg (· + _) (zero_add _)

/-- A step whose effects are what left the table. -/
theorem ledger_table {table : RequestTable} {silentFor : Duration} {waitingSince : Option Instant}
    (moved : (hooksApplied out : Multiset Ticket) + table.hooks = w.actor.table.hooks) :
    (hooksApplied out : Multiset Ticket) +
        Actor.hooks { w.actor with table, silentFor, waitingSince } +
          (([] : List Ticket) : Multiset Ticket) =
      w.actor.hooks + (([] : List Ticket) : Multiset Ticket) := by
  refine congrArg (· + _) ?_
  rw [Actor.hooks, Actor.hooks, ← moved]
  exact add_left_comm _ _ _

/-- **Hooks are conserved.** What a step applies, keeps and drops unheard is what there
was and what a send brings. -/
theorem Moves.ledger (moves : w.Moves e w' out) (sound : w.Sound) (spent : Q none none)
    (fair : w.actor.Fair Q) :
    (hooksApplied out : Multiset Ticket) + w'.actor.hooks + (w.unheard e : Multiset Ticket) =
      w.actor.hooks + (w.issues e : Multiset Ticket) := by
  cases moves with
  | request request =>
      unfold Actor.hooks
      dsimp only
      rw [Actor.waitingHooks_concat]
      change 0 + (_ + (w.issues (.request request) : Multiset Ticket) + _ +
        (w.actor.queuedHook.toList : Multiset Ticket) + _) + 0 = _
      abel
  | close request =>
      unfold Actor.hooks
      dsimp only
      rw [Actor.waitingHooks_concat]
      change 0 + (_ + (_ + (w.issues (.close request) : Multiset Ticket)) +
        (w.actor.queuedHook.toList : Multiset Ticket) + _) + 0 = _
      abel
  | dropRequests => exact ledger_quiet rfl
  | dropCloses => exact ledger_quiet rfl
  | advance => exact ledger_quiet rfl
  | finished =>
      obtain ⟨closes, frame⟩ := w.actor.resetRun_frame
      exact ledger_quiet (by dsimp only; rw [frame]; rfl)
  | waits =>
      obtain ⟨closes, frame⟩ := w.actor.resetRun_frame
      exact ledger_quiet (by dsimp only; rw [frame]; rfl)
  | @took guards isClose callerGone d rest a verdict out phase opened waiting begins =>
      have idle := (sound.admits _ _ phase opened).1
      have begun := begins.ledger (by rw [writing_taking]; exact idle)
      rw [table_taking, hooks_taking waiting] at begun
      rw [unheard_takeEvent, waiting, actor_conclude, issues_takeEvent]
      rw [List.head?_cons, Option.toList_some, List.flatMap_singleton]
      exact begun.trans (add_zero _).symm
  | @channelEnded guards isClose callerGone phase opened empty =>
      rw [unheard_takeEvent, empty, issues_takeEvent]
      exact ledger_quiet (by cases isClose <;> rfl)
  | unrouted => exact ledger_quiet (by rw [actor_conclude])
  | routed _ phase _ accepts =>
      rw [actor_conclude]
      exact ledger_table (accepts.ledger fair.table)
  | writeFailed => exact ledger_quiet (by rw [actor_conclude])
  | @wrote _ writing _ _ _ phase inProgress =>
      have half : w.actor.queued = writing.queued := by
        rw [Actor.queued, inProgress, Option.bind_some]
      have moved := Actor.hooks_dispatchQueued w.clock (half ▸ (sound.selecting phase).free)
      rw [actor_conclude]
      refine ledger_quiet ?_
      rw [Actor.hooks, Actor.hooks, Actor.queuedHook, Actor.queuedHook, half, Actor.queued]
      dsimp only
      rw [Actor.queued_writingAfter, moved]
      change _ + 0 + (_ + _) = _
      abel
  | silent => exact ledger_quiet (by rw [actor_conclude])
  | ticked phase expires =>
      rw [actor_conclude]
      exact ledger_table (expires.ledger spent fair.table)
  | teardown =>
      have failed := RequestTable.failAll_ledger fair.table
      rw [failed, unheard, ← Multiset.coe_add, ← Multiset.coe_add]
      change _ + 0 + _ = (_ + _ + _ + _) + 0
      abel

/-- Every step keeps a pairing of hooks and callers, and tells by it. -/
theorem Moves.fair (moves : w.Moves e w' out) (spent : Q none none)
    (dropping : ∀ hook caller, Q hook caller → Q hook none) (brings : w.Brings Q e)
    (fair : w.actor.Fair Q) : w'.actor.Fair Q ∧ ToldBy Q out := by
  cases moves with
  | request request =>
      refine ⟨⟨fun d waiting => ?_, fair.closes, fair.queued, fair.table⟩, .nil⟩
      rcases List.mem_append.mp waiting with waiting | waiting
      · exact fair.requests d waiting
      · obtain rfl := List.mem_singleton.mp waiting
        exact brings
  | close request =>
      refine ⟨⟨fair.requests, fun d waiting => ?_, fair.queued, fair.table⟩, .nil⟩
      rcases List.mem_append.mp waiting with waiting | waiting
      · exact fair.closes d waiting
      · obtain rfl := List.mem_singleton.mp waiting
        exact brings
  | dropRequests => exact ⟨⟨fair.requests, fair.closes, fair.queued, fair.table⟩, .nil⟩
  | dropCloses => exact ⟨⟨fair.requests, fair.closes, fair.queued, fair.table⟩, .nil⟩
  | advance => exact ⟨fair, .nil⟩
  | finished =>
      obtain ⟨closes, frame⟩ := w.actor.resetRun_frame
      dsimp only
      rw [frame]
      exact ⟨⟨fair.requests, fair.closes, fair.queued, fair.table⟩, .nil⟩
  | waits =>
      obtain ⟨closes, frame⟩ := w.actor.resetRun_frame
      dsimp only
      rw [frame]
      exact ⟨⟨fair.requests, fair.closes, fair.queued, fair.table⟩, .nil⟩
  | @took _ isClose _ d rest _ _ _ _ _ waiting begins =>
      rw [actor_conclude]
      cases isClose with
      | true =>
          have queue : w.actor.closes.queue = d :: rest := waiting
          have behind := fair.closes
          rw [queue] at behind
          have taken : (taking w.actor true rest).Fair Q :=
            ⟨fair.requests, fun d' later => behind d' (List.mem_cons_of_mem _ later), fair.queued,
              fair.table⟩
          exact begins.fair taken (behind d List.mem_cons_self) dropping
      | false =>
          have queue : w.actor.requests.queue = d :: rest := waiting
          have behind := fair.requests
          rw [queue] at behind
          have taken : (taking w.actor false rest).Fair Q :=
            ⟨fun d' later => behind d' (List.mem_cons_of_mem _ later), fair.closes, fair.queued,
              fair.table⟩
          exact begins.fair taken (behind d List.mem_cons_self) dropping
  | @channelEnded _ isClose =>
      cases isClose <;> exact ⟨⟨fair.requests, fair.closes, fair.queued, fair.table⟩, .nil⟩
  | unrouted =>
      rw [actor_conclude]
      exact ⟨fair, .nil⟩
  | routed _ _ _ accepts =>
      obtain ⟨table, told⟩ := accepts.fair spent fair.table
      rw [actor_conclude]
      exact ⟨⟨fair.requests, fair.closes, fair.queued, table⟩, told⟩
  | writeFailed =>
      rw [actor_conclude]
      exact ⟨fair, .nil⟩
  | @wrote _ writing _ _ _ _ inProgress =>
      rw [actor_conclude]
      refine ⟨⟨fair.requests, fair.closes, fun q member => ?_, ?_⟩, .nil⟩
      · rw [Actor.queued, Actor.queued_writingAfter] at member
        cases member
      · have pair := fair.queued
        rw [Actor.queued, inProgress, Option.bind_some] at pair
        dsimp only
        unfold Actor.dispatchQueued
        cases half : writing.queued with
        | none => exact fair.table
        | some q => exact fair.table.dispatch (pair q half)
  | silent =>
      rw [actor_conclude]
      exact ⟨fair, .nil⟩
  | ticked _ expires =>
      obtain ⟨table, told⟩ := expires.fair spent fair.table
      rw [actor_conclude]
      exact ⟨⟨fair.requests, fair.closes, fair.queued, table⟩, told⟩
  | teardown =>
      refine ⟨⟨List.forall_mem_nil _, List.forall_mem_nil _,
        fun q no => absurd no (Option.not_mem_none q), fun mid e held => ?_⟩,
        RequestTable.failAll_told fair.table⟩
      cases held

/-! ## Every run -/

/-- A send, which takes the next ticket. -/
def isSend : Event → Bool
  | .request _ | .close _ => true
  | _ => false

theorem mem_issues {k : Ticket} (issued : k ∈ w.issues e) : k = w.tickets ∧ isSend e = true := by
  cases e with
  | request request =>
      rw [issues, stamp] at issued
      cases outcome : request.outcome with
      | none => simp [outcome] at issued
      | some hook => simpa [outcome, isSend] using issued
  | close request =>
      rw [issues, stamp] at issued
      cases outcome : request.outcome with
      | none => simp [outcome] at issued
      | some hook => simpa [outcome, isSend] using issued
  | _ => cases issued

theorem issues_nodup (w : World) (e : Event) : (w.issues e).Nodup := by
  cases e with
  | request request => exact Option.toList_nodup _
  | close request => exact Option.toList_nodup _
  | _ => exact List.nodup_nil

theorem Moves.tickets (moves : w.Moves e w' out) :
    w'.tickets = w.tickets + if isSend e then 1 else 0 := by
  cases moves with
  | @took _ isClose => cases isClose <;> exact tickets_conclude
  | @channelEnded _ isClose => cases isClose <;> rfl
  | unrouted => exact tickets_conclude
  | routed => exact tickets_conclude
  | ticked => exact tickets_conclude
  | _ => rfl

theorem Moves.tickets_le (moves : w.Moves e w' out) : w.tickets ≤ w'.tickets := by
  rw [moves.tickets]
  exact Nat.le_add_right _ _

/-- A caller's ticket has been issued, and where a hook was issued under it the two go
together. -/
def Matched (hooked : List Ticket) (tickets : ℕ) (hook caller : Option Ticket) : Prop :=
  ∀ k ∈ caller, k < tickets ∧ (k ∈ hooked → hook = some k)

/-- What a hook and its caller are told agrees, and no caller is told more often. -/
def Agrees (k : Ticket) (log : List Effect) : Prop :=
  (callersAnswered log).count k ≤ (hooksApplied log).count k ∧
    ∀ outcome, .answered k outcome ∈ log → .ended k outcome ∈ log

theorem Agrees.append {k : Ticket} {log later : List Effect} (first : Agrees k log)
    (second : Agrees k later) : Agrees k (log ++ later) := by
  refine ⟨?_, fun outcome member => ?_⟩
  · rw [callersAnswered_append, hooksApplied_append, List.count_append, List.count_append]
    exact Nat.add_le_add first.1 second.1
  · rcases List.mem_append.mp member with member | member
    · exact List.mem_append_left _ (first.2 outcome member)
    · exact List.mem_append_right _ (second.2 outcome member)

/-- A ticket nobody has been answered under agrees with anything. -/
theorem agrees_of_unanswered {k : Ticket} {log : List Effect}
    (unanswered : k ∉ callersAnswered log) : Agrees k log := by
  refine ⟨?_, fun outcome member => ?_⟩
  · rw [List.count_eq_zero_of_not_mem unanswered]
    exact Nat.zero_le _
  · have answered : k ∈ callersAnswered log := List.mem_filterMap.mpr ⟨_, member, rfl⟩
    exact absurd answered unanswered

theorem agrees_told {k : Ticket} {hook caller : Option Ticket} {outcome : Except Error Reply}
    (paired : k ∈ caller → hook = some k) : Agrees k (told hook caller outcome) := by
  by_cases here : k ∈ caller
  · rw [paired here, Option.mem_def.mp here]
    refine ⟨by rw [callersAnswered_told, hooksApplied_told], fun outcome' member => ?_⟩
    rcases List.mem_cons.mp member with no | member
    · cases no
    · cases List.mem_singleton.mp member
      exact List.mem_cons_self
  · refine agrees_of_unanswered fun answered => here ?_
    rw [callersAnswered_told] at answered
    exact Option.mem_toList.mp answered

theorem agrees_of_toldBy {k : Ticket} {hooked : List Ticket} {tickets : ℕ}
    (told : ToldBy (Matched hooked tickets) out) (member : k ∈ hooked) : Agrees k out := by
  induction told with
  | nil => exact agrees_of_unanswered List.not_mem_nil
  | told outcome pair _ ih => exact (agrees_told fun mine => (pair k mine).2 member).append ih

theorem issued_of_toldBy {k : Ticket} {hooked : List Ticket} {tickets : ℕ}
    (told : ToldBy (Matched hooked tickets) out) (answered : k ∈ callersAnswered out) :
    k < tickets := by
  induction told with
  | nil => cases answered
  | told outcome pair _ ih =>
      rw [callersAnswered_append, callersAnswered_told] at answered
      rcases List.mem_append.mp answered with mine | later
      · exact (pair k (Option.mem_toList.mp mine)).1
      · exact ih later

/-- The hooks sends have brought, and the hooks steps have dropped unheard. -/
def issued (steps : List (World × Event)) : List Ticket := steps.flatMap fun v => v.1.issues v.2

def dropped (steps : List (World × Event)) : List Ticket := steps.flatMap fun v => v.1.unheard v.2

/-- What every run of a connection keeps. -/
structure Ledger (steps : List (World × Event)) (w : World) (log : List Effect) : Prop where
  sound : w.Sound
  fair : w.actor.Fair (Matched (issued steps) w.tickets)
  balanced :
    (hooksApplied log : Multiset Ticket) + w.actor.hooks + (dropped steps : Multiset Ticket) =
    (issued steps : Multiset Ticket)
  unique : (issued steps).Nodup
  spent : ∀ k ∈ issued steps, k < w.tickets
  answered : ∀ k ∈ callersAnswered log, k < w.tickets
  agrees : ∀ k ∈ issued steps, Agrees k log
  gone : w.phase = .gone → w.actor.hooks = 0

theorem ledger_new (limit : ℕ) (timeouts : Timeouts) : Ledger [] (new limit timeouts) [] where
  sound := sound_new limit timeouts
  fair := ⟨fun _ no => (nomatch no), fun _ no => (nomatch no), fun _ no => (nomatch no),
    fun _ _ no => (nomatch no)⟩
  balanced := rfl
  unique := List.nodup_nil
  spent := fun _ no => (nomatch no)
  answered := fun _ no => (nomatch no)
  agrees := fun _ no => (nomatch no)
  gone := fun no => (nomatch no)

theorem issued_concat (steps : List (World × Event)) :
    issued (steps ++ [(w, e)]) = issued steps ++ w.issues e := by
  rw [issued, List.flatMap_append, List.flatMap_singleton]
  rfl

theorem dropped_concat (steps : List (World × Event)) :
    dropped (steps ++ [(w, e)]) = dropped steps ++ w.unheard e := by
  rw [dropped, List.flatMap_append, List.flatMap_singleton]
  rfl

/-- A caller and a hook of before the step go together after it. -/
theorem matched_later {steps : List (World × Event)} (moves : w.Moves e w' out)
    (hook caller : Option Ticket) (pair : Matched (issued steps) w.tickets hook caller) :
    Matched (issued (steps ++ [(w, e)])) w'.tickets hook caller := by
  intro k mine
  obtain ⟨below, together⟩ := pair k mine
  refine ⟨lt_of_lt_of_le below moves.tickets_le, fun member => ?_⟩
  rw [issued_concat] at member
  rcases List.mem_append.mp member with before | now
  · exact together before
  · exact absurd (mem_issues now).1 below.ne

/-- What a send brings goes together: its ticket is nobody else's. -/
theorem brings_matched {steps : List (World × Event)} (moves : w.Moves e w' out)
    (spent : ∀ k ∈ issued steps, k < w.tickets) :
    w.Brings (Matched (issued (steps ++ [(w, e)])) w'.tickets) e := by
  have tickets := moves.tickets
  cases e with
  | request request =>
      intro k mine
      obtain rfl : w.tickets = k := Option.some.inj mine
      refine ⟨by rw [tickets]; exact Nat.lt_succ_self _, fun member => ?_⟩
      rw [issued_concat] at member
      rcases List.mem_append.mp member with before | now
      · exact absurd (spent _ before) (lt_irrefl _)
      · exact Option.mem_toList.mp now
  | close request => exact fun k mine => nomatch mine
  | _ => exact True.intro

theorem Moves.gone (moves : w.Moves e w' out) (gone : w'.phase = .gone) :
    w.phase = .gone ∧ w'.actor.hooks = w.actor.hooks ∨ w'.actor.hooks = 0 := by
  have concluded : ∀ {a : Actor} {verdict : Except Error Unit},
      (w.conclude a verdict).phase ≠ .gone := by
    intro a verdict
    cases verdict <;> exact nofun
  cases moves with
  | request request receiving => rw [World.receiving, gone] at receiving; cases receiving
  | close request receiving => rw [World.receiving, gone] at receiving; cases receiving
  | dropRequests => exact Or.inl ⟨gone, rfl⟩
  | dropCloses => exact Or.inl ⟨gone, rfl⟩
  | advance => exact Or.inl ⟨gone, rfl⟩
  | finished => cases gone
  | waits => cases gone
  | took => exact absurd gone concluded
  | channelEnded => cases gone
  | unrouted => exact absurd gone concluded
  | routed => exact absurd gone concluded
  | writeFailed => exact absurd gone concluded
  | wrote => exact absurd gone concluded
  | silent => exact absurd gone concluded
  | ticked => exact absurd gone concluded
  | teardown => exact Or.inr rfl

theorem Ledger.step {steps : List (World × Event)} {log : List Effect}
    (ledger : Ledger steps w log) (stepped : w.step e = some (w', out)) :
    Ledger (steps ++ [(w, e)]) w' (log ++ out) := by
  have moves := ledger.sound.moves stepped
  have tickets := moves.tickets
  have nothing : ∀ {hooked : List Ticket} {n : ℕ}, Matched hooked n none none :=
    fun _ no => nomatch no
  have later := ledger.fair.mono (matched_later moves)
  obtain ⟨fair, told⟩ := moves.fair nothing (fun _ _ _ => nofun)
    (brings_matched moves ledger.spent) later
  have moved := moves.ledger ledger.sound nothing later
  refine ⟨moves.sound ledger.sound, fair, ?_, ?_, ?_, ?_, ?_, ?_⟩
  · have before := ledger.balanced
    rw [hooksApplied_append, dropped_concat, issued_concat, ← Multiset.coe_add,
      ← Multiset.coe_add, ← Multiset.coe_add, ← before]
    calc _ = (hooksApplied log : Multiset Ticket) + (dropped steps : Multiset Ticket) +
          ((hooksApplied out : Multiset Ticket) + w'.actor.hooks +
            (w.unheard e : Multiset Ticket)) := by abel
      _ = _ := by rw [moved]; abel
  · rw [issued_concat]
    refine List.Nodup.append ledger.unique (issues_nodup w e) fun k before now => ?_
    exact absurd (mem_issues now).1 (ledger.spent k before).ne
  · intro k member
    rw [issued_concat] at member
    rcases List.mem_append.mp member with before | now
    · exact lt_of_lt_of_le (ledger.spent k before) moves.tickets_le
    · obtain ⟨rfl, send⟩ := mem_issues now
      rw [tickets, if_pos send]
      exact Nat.lt_succ_self _
  · intro k member
    rw [callersAnswered_append] at member
    rcases List.mem_append.mp member with before | now
    · exact lt_of_lt_of_le (ledger.answered k before) moves.tickets_le
    · exact issued_of_toldBy told now
  · intro k member
    have second := agrees_of_toldBy told member
    rw [issued_concat] at member
    rcases List.mem_append.mp member with before | now
    · exact (ledger.agrees k before).append second
    · obtain ⟨rfl, -⟩ := mem_issues now
      refine (agrees_of_unanswered fun answered => ?_).append second
      exact absurd (ledger.answered _ answered) (lt_irrefl _)
  · intro gone
    rcases moves.gone gone with ⟨before, same⟩ | done
    · rw [same]
      exact ledger.gone before
    · exact done

/-- A hook is applied once, and a caller is answered at most once and as the hook was. -/
def ToldOnce (k : Ticket) (log : List Effect) : Prop :=
  (hooksApplied log).count k = 1 ∧ (callersAnswered log).count k ≤ 1 ∧
    ∀ outcome, .answered k outcome ∈ log → .ended k outcome ∈ log

/-- **Hooks are told once, where they are not dropped.** In a run to the end of the
connection, a hook a send has brought is applied exactly once, in agreement with what
its caller is answered, if and only if no step has dropped it unheard. -/
theorem told_once_iff (limit : ℕ) (timeouts : Timeouts) (es : List Event) (w : World)
    (log : List Effect) (ran : connection.run (new limit timeouts) es = some (w, log))
    (gone : w.phase = .gone) (k : Ticket)
    (issues : ∃ v ∈ connection.visits (new limit timeouts) es, k ∈ v.1.issues v.2) :
    ToldOnce k log ↔
      ∀ v ∈ connection.visits (new limit timeouts) es, k ∉ v.1.unheard v.2 := by
  have ledger : Ledger (connection.visits (new limit timeouts) es) w log :=
    Trace.Machine.run_induction (m := connection) (ledger_new limit timeouts)
      (fun _ _ _ _ _ _ ledger stepped => ledger.step stepped) ran
  have member : k ∈ issued (connection.visits (new limit timeouts) es) :=
      List.mem_flatMap.mpr issues
  have balanced := congrArg (Multiset.count k) ledger.balanced
  rw [ledger.gone gone, add_zero, Multiset.count_add, Multiset.coe_count, Multiset.coe_count,
    Multiset.coe_count, List.count_eq_one_of_mem ledger.unique member] at balanced
  have agrees := ledger.agrees k member
  have unheard : (∀ v ∈ connection.visits (new limit timeouts) es, k ∉ v.1.unheard v.2) ↔
      (dropped (connection.visits (new limit timeouts) es)).count k = 0 := by
    rw [List.count_eq_zero, dropped, List.mem_flatMap]
    exact ⟨fun never ⟨v, visited, here⟩ => never v visited here,
      fun never v visited here => never ⟨v, visited, here⟩⟩
  rw [unheard]
  have most := agrees.1
  refine ⟨fun told => ?_, fun never => ⟨by omega, by omega, agrees.2⟩⟩
  have once := told.1
  omega

/-- A request with a hook. -/
def hookedRequest : Request := ⟨Command.WRITE_ANDX, 0, 0, [], 0, 0, some 0⟩

/-- A connection of one request that has gone, with one ticket issued. -/
def goneWorld : World where
  actor := { Actor.new 1 ⟨1, 1⟩ with table := (RequestTable.new 1 ⟨1, 1⟩).failAll.1 }
  phase := .gone
  clock := 0
  tickets := 1

/-- A request whose caller goes before it is begun is told that it is lost. -/
theorem told_once_iff_forgone : ToldOnce 0 [.ended 0 (.error .lost)] := by
  refine (told_once_iff 1 ⟨1, 1⟩ [.request hookedRequest, .evaluate, .takeRequest true, .evaluate,
    .inbound (.error (.io .unexpectedEof)), .teardown] goneWorld _ rfl rfl 0
    ⟨_, .head _, List.mem_singleton_self 0⟩).mpr ?_
  decide

/-- A request waiting in the channel when the socket fails is never told. -/
theorem waiting_request_untold :
    ¬ ∀ (limit : ℕ) (timeouts : Timeouts) (es : List Event) (w : World) (log : List Effect),
      connection.run (new limit timeouts) es = some (w, log) → w.phase = .gone →
        ∀ k, (∃ v ∈ connection.visits (new limit timeouts) es, k ∈ v.1.issues v.2) →
          ToldOnce k log := by
  intro claimed
  have told := claimed 1 ⟨1, 1⟩ [.request hookedRequest, .evaluate,
    .inbound (.error (.io .unexpectedEof)), .teardown] goneWorld [] rfl rfl 0
    ⟨_, .head _, List.mem_singleton_self 0⟩
  exact absurd told.1 (by decide)

end World

end Smb1Client
