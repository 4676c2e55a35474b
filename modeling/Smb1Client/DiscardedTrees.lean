import Smb1Client.TreeCache

/-!
Trees the server has discarded, and that the cache does not hand one out again.

It does where nobody reads the status that says so: on a request whose caller has gone, and on
the pipe of an enumeration, which looks for one error of its own at its end. And it does until
somebody reads it, since a reply waits for its caller to be polled.
-/

namespace Smb1Client

def TreeRequest.isRap : TreeRequest → Bool
  | .rap _ _ => true
  | _ => false

namespace TreeCache

open Dialogue TreeCache.State

variable {listing : PipeVerb (List Share)} {s s' : State} {e : Event} {out : List Sight}

/-! ## The trees there are -/

theorem mem_of_lookup {cache : List (Text × ℕ)} {share : Text} {t : ℕ}
    (found : cache.lookup share = some t) : (share, t) ∈ cache := by
  obtain ⟨front, rest, rfl, -⟩ := List.lookup_eq_some_iff.mp found
  exact List.mem_append_right _ List.mem_cons_self

/-- All that is said of a tree is said of those that `P` holds of. -/
structure Within (P : ℕ → Prop) (s : State) : Prop where
  cached : ∀ share t, (share, t) ∈ s.cache → P t
  valued : ∀ value ∈ s.values, P value.tree
  outbound : ∀ o ∈ s.outbound, P o.tree
  unread : ∀ t ∈ s.unread, P t
  told : ∀ t ∈ s.told, P t

namespace Within

variable {P : ℕ → Prop}

theorem mono (within : Within P s) {Q : ℕ → Prop} (wider : ∀ t, P t → Q t) : Within Q s where
  cached share t member := wider t (within.cached share t member)
  valued value member := wider _ (within.valued value member)
  outbound o member := wider _ (within.outbound o member)
  unread t member := wider t (within.unread t member)
  told t member := wider t (within.told t member)

theorem init : Within P State.init where
  cached _ _ member := absurd member List.not_mem_nil
  valued _ member := absurd member List.not_mem_nil
  outbound _ member := absurd member List.not_mem_nil
  unread _ member := absurd member List.not_mem_nil
  told _ member := absurd member List.not_mem_nil

theorem of_lookup (within : Within P s) {share : Text} {t : ℕ}
    (found : s.cache.lookup share = some t) : P t :=
  within.cached share t (mem_of_lookup found)

theorem of_value (within : Within P s) {v t : ℕ} {kind : Kind}
    (found : s.values[v]? = some ⟨t, kind⟩) : P t :=
  within.valued _ (List.mem_of_getElem? found)

theorem enqueue (within : Within P s) {o : Outgoing} (allowed : P o.tree) :
    Within P (s.enqueue o) :=
  { within with
    outbound := fun o' member => by
      rcases List.mem_append.mp member with before | now
      · exact within.outbound o' before
      · cases List.mem_singleton.mp now
        exact allowed }

theorem letGo (within : Within P s) {t : ℕ} (allowed : P t) : Within P (s.letGo t) := by
  unfold State.letGo
  split
  · exact within
  · exact within.enqueue allowed

theorem setValue (within : Within P s) {v : ℕ} {value : Value} (allowed : P value.tree) :
    Within P (s.setValue v value) :=
  { within with
    valued := fun value' member => by
      rcases List.mem_or_eq_of_mem_set member with before | rfl
      · exact within.valued value' before
      · exact allowed }

theorem withValue (within : Within P s) {value : Value} (allowed : P value.tree) :
    Within P { s with values := s.values ++ [value] } :=
  { within with
    valued := fun value' member => by
      rcases List.mem_append.mp member with before | now
      · exact within.valued value' before
      · cases List.mem_singleton.mp now
        exact allowed }

theorem withUnread (within : Within P s) {t : ℕ} (allowed : P t) :
    Within P { s with unread := s.unread ++ [t] } :=
  { within with
    unread := fun t' member => by
      rcases List.mem_append.mp member with before | now
      · exact within.unread t' before
      · cases List.mem_singleton.mp now
        exact allowed }

theorem dispose (within : Within P s) {v t : ℕ} (allowed : P t) : Within P (s.dispose v t) :=
  (within.setValue allowed).letGo allowed

theorem remove (within : Within P s) (share : Text) : Within P (s.remove share) := by
  have fewer : Within P { s with cache := s.cache.filter (·.1 ≠ share) } :=
    { within with
      cached := fun share' t member => within.cached share' t (List.mem_of_mem_filter member) }
  unfold State.remove
  dsimp only
  split
  · next t found => exact fewer.letGo (within.of_lookup found)
  · exact fewer

theorem insert (within : Within P s) (share : Text) {t : ℕ} (allowed : P t) :
    Within P (s.insert share t) := by
  have changed : Within P { s with cache := (share, t) :: s.cache.filter (·.1 ≠ share) } :=
    { within with
      cached := fun share' t' member => by
        rcases List.mem_cons.mp member with same | member
        · cases same
          exact allowed
        · exact within.cached share' t' (List.mem_of_mem_filter member) }
  unfold State.insert
  dsimp only
  split
  · next old found => exact changed.letGo (within.of_lookup found)
  · exact changed

theorem tell (within : Within P s) {t : ℕ} (allowed : P t) (status : NtStatus) :
    Within P (s.tell t status) := by
  obtain ⟨told, same, members⟩ := tell_eq s t status
  rw [same]
  exact { within with
    told := fun t' member => by
      rcases (members t').mp member with before | ⟨rfl, -⟩
      · exact within.told t' before
      · exact allowed }

theorem deliver (within : Within P s) {d : Delivered} (allowed : P d.tree) (status : NtStatus) :
    Within P (s.deliver d status) :=
  { within.tell allowed status with }

theorem record (within : Within P s) (t : ℕ) (site : Site) (status : NtStatus) :
    Within P (s.record t site status) :=
  { within with }

theorem close (within : Within P s) {v t : ℕ} {kind : Kind} (allowed : P t)
    (closed : s.close v t kind = some s') : Within P s' := by
  unfold State.close at closed
  split at closed
  · cases closed
    exact (within.setValue allowed).enqueue allowed
  · cases closed
    exact (within.setValue allowed).enqueue allowed
  · cases closed
    exact (within.setValue allowed).enqueue allowed
  · cases closed
    exact within.dispose allowed
  · dsimp only at closed
    split at closed
    · cases closed
      exact within.setValue allowed
    · cases closed
      have shut : Within P { s.setValue v ⟨t, .closing⟩ with
          inners := s.inners.modify t ({ · with released := true }) } :=
        { within.setValue allowed with }
      exact shut.enqueue allowed
  · cases closed

theorem drop (within : Within P s) {v t : ℕ} {kind : Kind} (allowed : P t)
    (dropped : s.drop v t kind = some s') : Within P s' := by
  unfold State.drop at dropped
  split at dropped
  · cases dropped
    exact (within.enqueue allowed).dispose allowed
  · cases dropped
    exact (within.enqueue allowed).dispose allowed
  · cases dropped
    exact within.dispose allowed
  · cases dropped
    exact within.dispose allowed
  · cases dropped
    exact within.dispose allowed
  · cases dropped
    exact (within.withUnread allowed).dispose allowed
  · cases dropped
    exact (within.withUnread allowed).dispose allowed
  · cases dropped

theorem enumeration (within : Within P s) {v t : ℕ} (allowed : P t) (answers : List Answer) :
    Within P (s.enumeration listing v t answers) := by
  unfold State.enumeration
  split
  · unfold State.askClose
    split
    · exact (within.setValue allowed).enqueue allowed
    · exact within.setValue allowed
  · split
    · exact (within.remove IPC_SHARE).dispose allowed
    · exact within.dispose allowed

theorem treeOn (within : Within P s) (purpose : Purpose) : Within P (s.treeOn purpose).1 := by
  unfold State.treeOn
  split
  · next t found =>
      split
      · exact { within.remove purpose.share with }
      · exact within.withValue (within.of_lookup found)
  · exact { within with }

theorem remember (within : Within P s) (purpose : Purpose) {t : ℕ} (allowed : P t) :
    Within P (s.remember purpose t).1 := by
  unfold State.remember
  split
  · next existing found =>
      split
      · exact (within.insert purpose.share allowed).withValue allowed
      · exact (within.withValue (within.of_lookup found)).letGo allowed
  · exact (within.insert purpose.share allowed).withValue allowed

/-- **A step speaks of the trees there were**, and of the one it takes. -/
theorem step (within : Within P s) (stepped : s.step listing e = some (s', out))
    (takes : ∀ call purpose t, e = .taken call → s.connecting[call]? = some ⟨purpose, some t⟩ →
      P t) : Within P s' := by
  cases moves_of_step stepped with
  | @treeOn purpose _ _ taken =>
      have after := within.treeOn purpose
      rwa [taken] at after
  | connected tid called => exact { within with }
  | @taken call t purpose _ _ called kept =>
      have fewer : Within P { s with connecting := s.connecting.eraseIdx call } := { within with }
      have after := fewer.remember purpose (takes call purpose t rfl called)
      rwa [kept] at after
  | connectFailed call => exact { within with }
  | cloned found => exact within.withValue (within.of_value found)
  | opened found opens => exact within.withValue (within.of_value found)
  | paged found => exact within.setValue (within.of_value found)
  | answered site status found => exact within.deliver (within.of_value found) status
  | abandoned found => exact within.withUnread (within.of_value found)
  | enumeration answer found asked => exact within.deliver (within.of_value found) _
  | close found closed => exact within.close (within.of_value found) closed
  | closed status found => exact within.deliver (within.of_value found) status
  | readSite unread => exact { within with }
  | @readRelease i v t status unread found =>
      have fewer : Within P (s.without i) := { within with }
      exact (fewer.record t .checked status).dispose (within.of_value found)
  | @readEnumeration i v t answers before unread found =>
      have fewer : Within P (s.without i) := { within with }
      exact fewer.enumeration (within.of_value found) answers
  | lostReply unread => exact { within with }
  | @lostCall i d kind unread found live =>
      have fewer : Within P (s.without i) := { within with }
      exact fewer.dispose (within.of_value found)
  | drop found dropped => exact within.drop (within.of_value found) dropped
  | @write i o found =>
      have allowed := within.outbound o (List.mem_of_getElem? found)
      refine { within with
        outbound := fun o' member => within.outbound o' (List.mem_of_mem_eraseIdx member)
        unread := ?_ }
      split
      · exact (within.withUnread allowed).unread
      · exact within.unread
  | skip i =>
      exact { within with
        outbound := fun o' member => within.outbound o' (List.mem_of_mem_eraseIdx member) }
  | @unreadReply i t status found =>
      have fewer : Within P { s with unread := s.unread.eraseIdx i } := { within with
        unread := fun t' member => within.unread t' (List.mem_of_mem_eraseIdx member) }
      exact fewer.tell (within.unread _ (List.mem_of_getElem? found)) status
  | evict share => exact within.remove share

end Within

/-- The trees that were granted to calls which have not taken them yet. -/
def granted (s : State) : List ℕ := s.connecting.filterMap Connecting.granted

/-- What a step does to the trees there are: it is granted one, takes one, or leaves them. -/
inductive Grown (s s' : State) : Event → Prop
  | granted {call : ℕ} {tid : UInt16} (one : s'.inners.length = s.inners.length + 1)
      (perm : (granted s').Perm (s.inners.length :: granted s)) : Grown s s' (.connected call tid)
  | taken {call t : ℕ} {purpose : Purpose} (called : s.connecting[call]? = some ⟨purpose, some t⟩)
      (none : s'.inners.length = s.inners.length)
      (perm : (granted s).Perm (t :: granted s')) : Grown s s' (.taken call)
  | left {e : Event} (none : s'.inners.length = s.inners.length)
      (fewer : (granted s').Sublist (granted s)) (untaken : ∀ call, e ≠ .taken call) : Grown s s' e

theorem perm_eraseIdx {call : ℕ} {w : Connecting} (found : s.connecting[call]? = some w) :
    s.connecting.Perm (w :: s.connecting.eraseIdx call) := by
  obtain ⟨below, rfl⟩ := List.getElem?_eq_some_iff.mp found
  exact (List.getElem_cons_eraseIdx_perm below).symm

theorem grown_of_step (stepped : s.step listing e = some (s', out)) : Grown s s' e := by
  have left : ∀ {s₁ : State} {e : Event}, s₁.inners.length = s.inners.length →
      s₁.connecting = s.connecting → (∀ call, e ≠ .taken call) → Grown s s₁ e := by
    intro s₁ e none same untaken
    refine .left none ?_ untaken
    rw [granted, same]
    exact List.Sublist.refl _
  have told : ∀ {d : Delivered} {status : NtStatus} {e : Event}, (∀ call, e ≠ .taken call) →
      Grown s (s.deliver d status) e := by
    intro d status e untaken
    obtain ⟨_, same, -⟩ := deliver_eq s d status
    rw [same]
    exact left rfl rfl untaken
  cases moves_of_step stepped with
  | @treeOn purpose _ _ taken =>
      obtain ⟨_, connecting, _, _, same, calls⟩ := treeOn_eq s purpose
      rw [taken] at same
      obtain rfl : s' = _ := same
      refine .left rfl ?_ fun call same => by cases same
      rcases calls with rfl | rfl
      · exact List.Sublist.refl _
      · rw [granted, List.filterMap_append]
        exact (List.append_nil _).symm ▸ List.Sublist.refl _
  | @connected call purpose tid called =>
      refine .granted ?_ ?_
      · exact List.length_append
      · have placed := List.set_perm_cons_eraseIdx (List.getElem?_eq_some_iff.mp called).1
          (⟨purpose, some s.inners.length⟩ : Connecting)
        exact (placed.filterMap Connecting.granted).trans
          (((perm_eraseIdx called).filterMap Connecting.granted).symm.cons s.inners.length)
  | @taken call t purpose _ _ called kept =>
      obtain ⟨_, _, _, same⟩ := remember_eq
        { s with connecting := s.connecting.eraseIdx call } purpose t
      rw [kept] at same
      obtain rfl : s' = _ := same
      exact .taken called rfl ((perm_eraseIdx called).filterMap Connecting.granted)
  | connectFailed call =>
      exact .left rfl ((List.eraseIdx_sublist _ _).filterMap _) fun call same => by cases same
  | cloned found => exact left rfl rfl fun call same => by cases same
  | opened found opens => exact left rfl rfl fun call same => by cases same
  | paged found => exact left rfl rfl fun call same => by cases same
  | answered site status found => exact told fun call same => by cases same
  | abandoned found => exact left rfl rfl fun call same => by cases same
  | enumeration answer found asked => exact told fun call same => by cases same
  | close found closed =>
      obtain ⟨_, _, _, rfl, either⟩ := close_eq closed
      refine left ?_ rfl fun call same => by cases same
      rcases either with rfl | rfl
      · rfl
      · exact List.length_modify _ _ _
  | closed status found => exact told fun call same => by cases same
  | readSite unread => exact left (List.length_modify _ _ _) rfl fun call same => by cases same
  | @readRelease i v t status unread found =>
      obtain ⟨_, same⟩ := dispose_eq ((s.without i).record t .checked status) v t
      rw [same]
      exact left (List.length_modify _ _ _) rfl fun call same => by cases same
  | @readEnumeration i v t answers before unread found =>
      obtain ⟨_, _, _, same⟩ := enumeration_eq listing (s.without i) v t answers
      rw [same]
      exact left rfl rfl fun call same => by cases same
  | lostReply unread => exact left rfl rfl fun call same => by cases same
  | @lostCall i d kind unread found live =>
      obtain ⟨_, same⟩ := dispose_eq (s.without i) d.value d.tree
      rw [same]
      exact left rfl rfl fun call same => by cases same
  | drop found dropped =>
      obtain ⟨_, _, _, rfl⟩ := drop_eq dropped
      exact left rfl rfl fun call same => by cases same
  | write found => exact left rfl rfl fun call same => by cases same
  | skip i => exact left rfl rfl fun call same => by cases same
  | @unreadReply i t status found =>
      obtain ⟨_, same, -⟩ := tell_eq { s with unread := s.unread.eraseIdx i } t status
      rw [same]
      exact left rfl rfl fun call same => by cases same
  | evict share =>
      obtain ⟨_, same⟩ := remove_eq s share
      rw [same]
      exact left rfl rfl fun call same => by cases same

/-- All that is said of a tree is said of one that was granted, and nothing is of one that its call
has not taken yet. -/
structure Bounded (s : State) : Prop where
  within : Within (· < s.inners.length) s
  apart : (granted s).Nodup
  known : ∀ t ∈ granted s, t < s.inners.length
  fresh : ∀ t ∈ granted s, Within (· ≠ t) s

namespace Bounded

theorem init : Bounded State.init where
  within := Within.init
  apart := List.nodup_nil
  known _ member := absurd member List.not_mem_nil
  fresh _ member := absurd member List.not_mem_nil

theorem mem_granted {call t : ℕ} {purpose : Purpose}
    (called : s.connecting[call]? = some ⟨purpose, some t⟩) : t ∈ granted s :=
  List.mem_filterMap.mpr ⟨_, List.mem_of_getElem? called, rfl⟩

theorem step (bounded : Bounded s) (stepped : s.step listing e = some (s', out)) :
    Bounded s' := by
  have within : Within (· < s.inners.length) s' :=
    bounded.within.step stepped fun call purpose t _ called =>
      bounded.known t (mem_granted called)
  cases grown_of_step stepped with
  | granted one perm =>
      have wider : ∀ t, t < s.inners.length → t < s'.inners.length := fun t below => by omega
      refine ⟨within.mono wider, ?_, fun t member => ?_, fun t member => ?_⟩
      · rw [perm.nodup_iff, List.nodup_cons]
        exact ⟨fun again => Nat.lt_irrefl _ (bounded.known _ again), bounded.apart⟩
      · rcases List.mem_cons.mp (perm.mem_iff.mp member) with rfl | before
        · omega
        · exact wider t (bounded.known t before)
      · rcases List.mem_cons.mp (perm.mem_iff.mp member) with rfl | before
        · exact within.mono fun t below => Nat.ne_of_lt below
        · exact (bounded.fresh t before).step stepped fun call purpose t' same => by cases same
  | @taken call t' purpose called none perm =>
      have apart := List.nodup_cons.mp (perm.nodup_iff.mp bounded.apart)
      have before : ∀ t ∈ granted s', t ∈ granted s := fun t member =>
        perm.mem_iff.mpr (List.mem_cons_of_mem _ member)
      refine ⟨none ▸ within, apart.2, fun t member => ?_, fun t member => ?_⟩
      · rw [none]
        exact bounded.known t (before t member)
      · have fresh := bounded.fresh t (before t member)
        refine fresh.step stepped fun call' purpose' t'' same called' => ?_
        cases same
        cases called.symm.trans called'
        rintro rfl
        exact apart.1 member
  | left none fewer untaken =>
      refine ⟨none ▸ within, bounded.apart.sublist fewer, fun t member => ?_, fun t member => ?_⟩
      · rw [none]
        exact bounded.known t (fewer.subset member)
      · exact (bounded.fresh t (fewer.subset member)).step stepped fun call purpose t' same =>
          absurd same (untaken call)

end Bounded

/-! ## A discarded tree is not handed out again -/

/-- Whether whoever reads a reply learns from it that the tree is gone. An enumeration does by the
answer to its RAP request alone. -/
def Awaits.tells (listing : PipeVerb (List Share)) : Awaits → Bool
  | .site _ status => status = .NETWORK_NAME_DELETED
  | .release status => status = .NETWORK_NAME_DELETED
  | .enumeration [.ok reply] =>
      reply.status = .NETWORK_NAME_DELETED && (listing.asks []).any (·.isRap)
  | .enumeration _ => false

/-- A reply from which its caller will learn that the tree is gone is there to be read. -/
def Awaited (listing : PipeVerb (List Share)) (s : State) (t : ℕ) : Prop :=
  ∃ d ∈ s.delivered, d.tree = t ∧ d.awaits.tells listing = true

/-- The cache knows that the tree is gone, does not have it, or is still to be told by a reply that
has come. -/
def Known (listing : PipeVerb (List Share)) (s : State) (t : ℕ) : Prop :=
  s.isDisconnected t = true ∨ (∀ entry ∈ s.cache, entry.2 ≠ t) ∨ Awaited listing s t

/-- No reply that says that the tree the cache has for the share is gone lies unread, but where the
cache knows. -/
def Heard (listing : PipeVerb (List Share)) (s : State) (share : Text) : Prop :=
  ∀ t ∈ s.cache.lookup share, Awaited listing s t → s.isDisconnected t = true

/-- A reply that a tree is gone comes to a caller who learns from it, unless that is known
already; no such caller is dropped before it has, unless it is; and the share is not asked for
until one has. -/
def Noticed (listing : PipeVerb (List Share)) (s : State) : Event → Prop
  | .unreadReply i status =>
      status = .NETWORK_NAME_DELETED → ∀ t ∈ s.unread[i]?, Known listing s t
  | .enumeration v answer => answerStatus answer = .NETWORK_NAME_DELETED →
      ∀ value ∈ s.values[v]?,
        (Awaits.enumeration (value.kind.answers ++ [answer])).tells listing = true ∨
          Known listing s value.tree
  | .lose i => ∀ d ∈ s.delivered[i]?, d.awaits.tells listing = true →
      Known listing (s.without i) d.tree
  | .treeOn purpose => Heard listing s purpose.share
  | .taken call => ∀ w ∈ s.connecting[call]?, Heard listing s w.purpose.share
  | _ => True

section Decidability

variable (listing : PipeVerb (List Share)) (s : State)

instance (t : ℕ) : Decidable (Awaited listing s t) :=
  inferInstanceAs (Decidable (∃ d ∈ s.delivered, d.tree = t ∧ d.awaits.tells listing = true))

instance (t : ℕ) : Decidable (Known listing s t) :=
  inferInstanceAs (Decidable (_ ∨ _ ∨ _))

instance (share : Text) : Decidable (Heard listing s share) :=
  inferInstanceAs (Decidable (∀ t ∈ s.cache.lookup share, _ → _))

instance : (e : Event) → Decidable (Noticed listing s e)
  | .unreadReply i _ => inferInstanceAs (Decidable (_ → ∀ t ∈ s.unread[i]?, Known listing s t))
  | .enumeration v _ => inferInstanceAs (Decidable (_ → ∀ value ∈ s.values[v]?, _ ∨ _))
  | .lose i => inferInstanceAs (Decidable (∀ d ∈ s.delivered[i]?, _ → _))
  | .treeOn purpose => inferInstanceAs (Decidable (Heard listing s purpose.share))
  | .taken call => inferInstanceAs (Decidable (∀ w ∈ s.connecting[call]?, _))
  | .connected _ _ | .connectFailed _ | .clone _ | .opened _ _ | .paged _ _ _ | .answered _ _ _
  | .abandoned _ | .close _ | .closed _ _ | .read _ | .drop _ | .write _ | .skip _ | .evict _ =>
      inferInstanceAs (Decidable True)

end Decidability

/-- What RAP is told of its tree is what the enumeration comes to. -/
def Heeds (listing : PipeVerb (List Share)) : Prop :=
  ∀ (reply : Reply) (parameters data : Bytes), listing.asks [] = some (.rap parameters data) →
    reply.status = .NETWORK_NAME_DELETED →
      listing.outcome [.ok reply] = some (.error .treeDisconnected)

theorem Heeds.outcome (heeds : Heeds listing) {answers : List Answer}
    (tells : (Awaits.enumeration answers).tells listing = true) :
    listing.outcome answers = some (.error .treeDisconnected) := by
  unfold Awaits.tells at tells
  split at tells
  · next same => cases same
  · next same => cases same
  · next reply same =>
      cases same
      obtain ⟨deleted, rap⟩ := Bool.and_eq_true_iff.mp tells
      cases asked : listing.asks [] with
      | none =>
          rw [asked] at rap
          cases rap
      | some request =>
          rw [asked] at rap
          cases request with
          | rap parameters data =>
              exact heeds reply parameters data asked (of_decide_eq_true deleted)
          | create | close | read | write | findFirst | findNext | findClose | queryPath
          | pipeTransact => cases rap
  · cases tells

/-- What the cache knows of the trees in it, where every discard is noticed. -/
structure Current (listing : PipeVerb (List Share)) (s : State) : Prop where
  single : ∀ share share' t, (share, t) ∈ s.cache → (share', t) ∈ s.cache → share = share'
  ipc : ∀ value ∈ s.values, ∀ answers, value.kind = .enumerating answers →
    ∀ share, (share, value.tree) ∈ s.cache → share = IPC_SHARE
  recorded : ∀ t ∈ s.told, Known listing s t

theorem isDisconnected_record {t t' : ℕ} {site : Site} {status : NtStatus}
    (before : s.isDisconnected t' = true) :
    (s.record t site status).isDisconnected t' = true := by
  unfold isDisconnected State.record at *
  rw [List.getElem?_modify]
  cases found : s.inners[t']? with
  | none =>
      rw [found] at before
      cases before
  | some inner =>
      rw [found] at before
      simp only [Option.map_eq_map, Option.map_some, Option.any_some]
      split
      · exact site.disconnected_settle status before
      · exact before

theorem isDisconnected_record_deleted {t : ℕ} {site : Site} (below : t < s.inners.length) :
    (s.record t site .NETWORK_NAME_DELETED).isDisconnected t = true := by
  unfold isDisconnected State.record
  rw [List.getElem?_modify, List.getElem?_eq_getElem below]
  simp only [Option.map_eq_map, Option.map_some, Option.any_some, if_true]
  exact site.disconnected_settle_deleted _

theorem Known.mono {t : ℕ} (known : Known listing s t)
    (inners : s.isDisconnected t = true → s'.isDisconnected t = true)
    (fewer : ∀ entry ∈ s'.cache, entry.2 = t → entry ∈ s.cache)
    (later : ∀ d ∈ s.delivered, d ∈ s'.delivered) : Known listing s' t := by
  rcases known with gone | uncached | ⟨d, member, awaited⟩
  · exact Or.inl (inners gone)
  · exact Or.inr (Or.inl fun entry member same => uncached entry (fewer entry member same) same)
  · exact Or.inr (Or.inr ⟨d, later d member, awaited⟩)

/-- A reply that is taken from its channel was the last word of none but its own tree. -/
theorem Known.without {t i : ℕ} {d : Delivered} (known : Known listing s t)
    (unread : s.delivered[i]? = some d)
    (told : d.tree = t → d.awaits.tells listing = true → Known listing (s.without i) t) :
    Known listing (s.without i) t := by
  rcases known with gone | uncached | ⟨d', member, here, tells⟩
  · exact Or.inl gone
  · exact Or.inr (Or.inl uncached)
  · obtain ⟨j, found⟩ := List.mem_iff_getElem?.mp member
    by_cases same : j = i
    · subst same
      cases unread.symm.trans found
      exact told here tells
    · exact Or.inr (Or.inr
        ⟨d', List.mem_eraseIdx_iff_getElem?.mpr ⟨j, same, found⟩, here, tells⟩)

namespace Current

theorem init : Current listing State.init where
  single _ _ _ member := absurd member List.not_mem_nil
  ipc _ member := absurd member List.not_mem_nil
  recorded _ member := absurd member List.not_mem_nil

theorem withOutbound (current : Current listing s) (outbound : List Outgoing) :
    Current listing { s with outbound } := { current with }

theorem letGo (current : Current listing s) (t : ℕ) : Current listing (s.letGo t) := by
  obtain ⟨outbound, same⟩ := letGo_eq s t
  rw [same]
  exact current.withOutbound outbound

theorem setValue (current : Current listing s) {v : ℕ} {value : Value}
    (ipc : ∀ answers, value.kind = .enumerating answers →
      ∀ share, (share, value.tree) ∈ s.cache → share = IPC_SHARE) :
    Current listing (s.setValue v value) :=
  { current with
    ipc := fun value' member => by
      rcases List.mem_or_eq_of_mem_set member with before | rfl
      · exact current.ipc value' before
      · exact ipc }

theorem withValue (current : Current listing s) {value : Value}
    (ipc : ∀ answers, value.kind = .enumerating answers →
      ∀ share, (share, value.tree) ∈ s.cache → share = IPC_SHARE) :
    Current listing { s with values := s.values ++ [value] } :=
  { current with
    ipc := fun value' member => by
      rcases List.mem_append.mp member with before | now
      · exact current.ipc value' before
      · cases List.mem_singleton.mp now
        exact ipc }

theorem dispose (current : Current listing s) (v t : ℕ) : Current listing (s.dispose v t) :=
  (current.setValue fun _ same => by cases same).letGo t

theorem withCache (current : Current listing s) {cache : List (Text × ℕ)}
    (fewer : ∀ entry ∈ cache, entry ∈ s.cache) : Current listing { s with cache } where
  single share share' t member member' :=
    current.single share share' t (fewer _ member) (fewer _ member')
  ipc value member answers same share cached :=
    current.ipc value member answers same share (fewer _ cached)
  recorded t told := (current.recorded t told).mono id (fun entry member _ => fewer entry member)
    fun _ => id

theorem remove (current : Current listing s) (share : Text) : Current listing (s.remove share) := by
  obtain ⟨outbound, same⟩ := remove_eq s share
  rw [same]
  exact (current.withCache fun _ member => List.mem_of_mem_filter member).withOutbound outbound

theorem insert (current : Current listing s) (share : Text) {t : ℕ} (fresh : Within (· ≠ t) s) :
    Current listing (s.insert share t) := by
  obtain ⟨outbound, same⟩ := insert_eq s share t
  rw [same]
  refine ⟨fun share₁ share₂ t' cached₁ cached₂ => ?_,
    fun value member answers same share' cached => ?_, fun t' told => ?_⟩
  · rcases List.mem_cons.mp cached₁ with same | cached₁
    · cases same
      rcases List.mem_cons.mp cached₂ with same | cached₂
      · exact (Prod.mk.inj same).1.symm
      · exact absurd rfl (fresh.cached share₂ t (List.mem_of_mem_filter cached₂))
    · rcases List.mem_cons.mp cached₂ with same | cached₂
      · cases same
        exact absurd rfl (fresh.cached share₁ t (List.mem_of_mem_filter cached₁))
      · exact current.single share₁ share₂ t' (List.mem_of_mem_filter cached₁)
          (List.mem_of_mem_filter cached₂)
  · rcases List.mem_cons.mp cached with here | cached
    · exact absurd (Prod.mk.inj here).2 (fresh.valued value member)
    · exact current.ipc value member answers same share' (List.mem_of_mem_filter cached)
  · refine (current.recorded t' told).mono id (fun entry member here => ?_) fun _ => id
    rcases List.mem_cons.mp member with rfl | before
    · exact absurd here.symm (fresh.told t' told)
    · exact List.mem_of_mem_filter before

theorem record (current : Current listing s) (t : ℕ) (site : Site) (status : NtStatus) :
    Current listing (s.record t site status) where
  single := current.single
  ipc := current.ipc
  recorded t' told :=
    (current.recorded t' told).mono isDisconnected_record (fun _ member _ => member) fun _ => id

/-- A reply goes unread, or is read by somebody who does not learn from it what is not known. -/
theorem without (current : Current listing s) {i : ℕ} {d : Delivered}
    (unread : s.delivered[i]? = some d)
    (known : d.awaits.tells listing = true → Known listing (s.without i) d.tree) :
    Current listing (s.without i) where
  single := current.single
  ipc := current.ipc
  recorded t told := (current.recorded t told).without unread fun here tells => here ▸ known tells

/-- A reply comes for a caller who will learn from it that the tree is gone, where it says so. -/
theorem deliver (current : Current listing s) {d : Delivered} {status : NtStatus}
    (heard : status = .NETWORK_NAME_DELETED →
      d.awaits.tells listing = true ∨ Known listing s d.tree) :
    Current listing (s.deliver d status) := by
  obtain ⟨told, same, members⟩ := deliver_eq s d status
  rw [same]
  refine ⟨current.single, current.ipc, fun t member => ?_⟩
  have later : ∀ d' ∈ s.delivered, d' ∈ s.delivered ++ [d] := fun _ => List.mem_append_left _
  rcases (members t).mp member with before | ⟨rfl, deleted⟩
  · exact (current.recorded t before).mono id (fun _ member _ => member) later
  · rcases heard deleted with tells | known
    · exact Or.inr (Or.inr ⟨d, List.mem_append_right _ List.mem_cons_self, rfl, tells⟩)
    · exact known.mono id (fun _ member _ => member) later

theorem grant (current : Current listing s) (bounded : Bounded s) (connecting : List Connecting)
    (tid : UInt16) : Current listing ({ s with connecting }.grant tid) := by
  refine ⟨current.single, current.ipc, fun t told =>
    (current.recorded t told).mono (fun gone => ?_) (fun _ member _ => member) fun _ => id⟩
  unfold isDisconnected State.grant at *
  rw [List.getElem?_append_left (bounded.within.told t told)]
  exact gone

/-- A tree that the cache hands out is not one that the server has discarded. -/
theorem healthy (current : Current listing s) {share : Text} {t : ℕ} (heard : Heard listing s share)
    (found : s.cache.lookup share = some t) (healthy : ¬ s.isDisconnected t = true) :
    t ∉ s.told := by
  intro told
  rcases current.recorded t told with gone | uncached | awaited
  · exact healthy gone
  · exact uncached _ (mem_of_lookup found) rfl
  · exact healthy (heard t found awaited)

theorem hand (current : Current listing s) {purpose : Purpose} {t : ℕ}
    (cached : ∀ share, (share, t) ∈ s.cache → share = purpose.share) :
    Current listing (s.hand purpose t) := by
  refine current.withValue fun answers same share member => ?_
  cases purpose with
  | tree share => cases same
  | enumerate => exact cached share member

theorem treeOn (current : Current listing s) {purpose : Purpose}
    (heard : Heard listing s purpose.share) (taken : s.treeOn purpose = (s', out)) :
    Current listing s' ∧ ∀ t, .used t ∈ out → t ∉ s.told := by
  unfold State.treeOn at taken
  split at taken
  · next t found =>
      split at taken
      · cases taken
        exact ⟨{ current.remove purpose.share with }, fun t used => absurd used List.not_mem_nil⟩
      · next healthy =>
          cases taken
          refine ⟨current.hand fun share member =>
            current.single share purpose.share t member (mem_of_lookup found), fun t' used => ?_⟩
          cases List.mem_singleton.mp used
          exact current.healthy heard found healthy
  · cases taken
    exact ⟨{ current with }, fun t used => absurd used List.not_mem_nil⟩

/-- What is new is in the cache under its share alone. -/
theorem only_share {share share' : Text} {t : ℕ} (fresh : Within (· ≠ t) s)
    (member : (share', t) ∈ (s.insert share t).cache) : share' = share := by
  obtain ⟨outbound, same⟩ := insert_eq s share t
  rw [same] at member
  rcases List.mem_cons.mp member with here | before
  · exact (Prod.mk.inj here).1
  · exact absurd rfl (fresh.cached share' t (List.mem_of_mem_filter before))

theorem remember (current : Current listing s) {purpose : Purpose} {t : ℕ}
    (heard : Heard listing s purpose.share) (fresh : Within (· ≠ t) s)
    (kept : s.remember purpose t = (s', out)) :
    Current listing s' ∧ ∀ t', .used t' ∈ out → t' ∉ s.told := by
  have taken : Current listing ((s.insert purpose.share t).hand purpose t) :=
    (current.insert purpose.share fresh).hand fun share member => only_share fresh member
  unfold State.remember at kept
  split at kept
  · next existing found =>
      split at kept
      · cases kept
        refine ⟨taken, fun t' used told => ?_⟩
        cases List.mem_singleton.mp used
        exact fresh.told _ told rfl
      · next healthy =>
          cases kept
          have handed : Current listing (s.hand purpose existing) :=
            current.hand fun share member =>
              current.single share purpose.share existing member (mem_of_lookup found)
          refine ⟨handed.letGo t, fun t' used => ?_⟩
          cases List.mem_singleton.mp used
          exact current.healthy heard found healthy
  · cases kept
    refine ⟨taken, fun t' used told => ?_⟩
    cases List.mem_singleton.mp used
    exact fresh.told _ told rfl

theorem close (current : Current listing s) {v t : ℕ} {kind : Kind}
    (closed : s.close v t kind = some s') : Current listing s' := by
  have shut : Current listing (s.setValue v ⟨t, .closing⟩) :=
    current.setValue fun _ same => by cases same
  unfold State.close at closed
  split at closed
  · cases closed
    exact shut.withOutbound _
  · cases closed
    exact shut.withOutbound _
  · cases closed
    exact shut.withOutbound _
  · cases closed
    exact current.dispose v t
  · dsimp only at closed
    split at closed
    · cases closed
      exact current.setValue fun _ same => by cases same
    · cases closed
      refine ⟨shut.single, shut.ipc, fun t' told =>
        (current.recorded t' told).mono (fun gone => ?_) (fun _ member _ => member) fun _ => id⟩
      unfold isDisconnected at gone ⊢
      change ((s.inners.modify t _)[t']?).any _ = true
      rw [List.getElem?_modify]
      cases found : s.inners[t']? with
      | none =>
          rw [found] at gone
          cases gone
      | some inner =>
          rw [found] at gone
          simp only [Option.map_eq_map, Option.map_some, Option.any_some]
          split <;> exact gone
  · cases closed

theorem drop (current : Current listing s) {v t : ℕ} {kind : Kind}
    (dropped : s.drop v t kind = some s') : Current listing s' := by
  have unread : Current listing { s with unread := s.unread ++ [t] } := { current with }
  unfold State.drop at dropped
  split at dropped
  · cases dropped
    exact (current.withOutbound _).dispose v t
  · cases dropped
    exact (current.withOutbound _).dispose v t
  · cases dropped
    exact current.dispose v t
  · cases dropped
    exact current.dispose v t
  · cases dropped
    exact current.dispose v t
  · cases dropped
    exact unread.dispose v t
  · cases dropped
    exact unread.dispose v t
  · cases dropped

/-- A site reads its reply, and the cache knows what that says. -/
theorem readSite (current : Current listing s) (bounded : Bounded s) {i : ℕ} {d : Delivered}
    {site : Site} {status : NtStatus} (unread : s.delivered[i]? = some d)
    (settles : d.awaits.tells listing = true → status = .NETWORK_NAME_DELETED) :
    Current listing ((s.without i).record d.tree site status) := by
  refine (current.record d.tree site status).without (i := i) (d := d) unread fun tells => ?_
  cases settles tells
  by_cases below : d.tree < s.inners.length
  · exact Or.inl (isDisconnected_record_deleted below)
  · refine Or.inr (Or.inl fun entry member same => below ?_)
    exact same ▸ bounded.within.cached entry.1 entry.2 member

/-- An enumeration goes on, or ends: the cache keeps of its trees what it knew. -/
theorem enumeration (current : Current listing s) {v t : ℕ} {answers : List Answer}
    (found : s.values[v]? = some ⟨t, .enumerating answers⟩) (answers' : List Answer) :
    Current listing (s.enumeration listing v t answers') := by
  unfold State.enumeration
  split
  · obtain ⟨outbound, same⟩ :=
      askClose_eq (s.setValue v ⟨t, .enumerating answers'⟩) v t (listing.asks answers')
    rw [same]
    apply withOutbound
    exact current.setValue fun _ _ share cached =>
      current.ipc _ (List.mem_of_getElem? found) answers rfl share cached
  · split
    · exact (current.remove IPC_SHARE).dispose v t
    · exact current.dispose v t

/-- An enumeration reads its reply. That RAP is told of the discard ends it, and `IPC$` is no longer
cached. -/
theorem readEnumeration (current : Current listing s) (heeds : Heeds listing) {i v t : ℕ}
    {answers before : List Answer}
    (unread : s.delivered[i]? = some ⟨v, t, .enumeration answers⟩)
    (found : s.values[v]? = some ⟨t, .enumerating before⟩) :
    Current listing ((s.without i).enumeration listing v t answers) := by
  by_cases tells : (Awaits.enumeration answers).tells listing = true
  · rw [State.enumeration, heeds.outcome tells]
    dsimp only
    rw [if_pos rfl]
    apply dispose
    obtain ⟨outbound, removed⟩ := remove_eq (s.without i) IPC_SHARE
    rw [removed]
    have fewer : Current listing { s with cache := s.cache.filter (·.1 ≠ IPC_SHARE) } :=
      current.withCache fun _ member => List.mem_of_mem_filter member
    refine (fewer.without (i := i) unread fun _ => ?_).withOutbound outbound
    refine Or.inr (Or.inl ?_)
    rintro ⟨share, t'⟩ member rfl
    obtain ⟨cached, other⟩ := List.mem_filter.mp member
    have ipc := current.ipc _ (List.mem_of_getElem? found) before rfl share cached
    exact absurd ipc (of_decide_eq_true other)
  · exact (current.without unread fun told => absurd told tells).enumeration found answers

/-- **A step whose discards are noticed** keeps what the cache knows, and hands out no discarded
tree. -/
theorem step (current : Current listing s) (bounded : Bounded s) (heeds : Heeds listing)
    (noticed : Noticed listing s e) (stepped : s.step listing e = some (s', out)) :
    Current listing s' ∧ ∀ t, .used t ∈ out → t ∉ s.told := by
  have unused : ∀ {t t' : ℕ} {status : NtStatus}, .used t ∈ sight t' status → t ∉ s.told := by
    intro t t' status used
    rcases sight_cases t' status with same | same
    · exact absurd (same ▸ used) List.not_mem_nil
    · cases List.mem_singleton.mp (same ▸ used)
  have silent : ∀ t, .used t ∈ ([] : List Sight) → t ∉ s.told :=
    fun t used => absurd used List.not_mem_nil
  cases moves_of_step stepped with
  | treeOn taken => exact current.treeOn noticed taken
  | connected tid called =>
      refine ⟨current.grant bounded _ tid, fun t used => ?_⟩
      cases List.mem_singleton.mp used
  | @taken call t purpose _ _ called kept =>
      have fewer : Current listing { s with connecting := s.connecting.eraseIdx call } :=
        { current with }
      have fresh : Within (· ≠ t) { s with connecting := s.connecting.eraseIdx call } :=
        { bounded.fresh t (Bounded.mem_granted called) with }
      exact fewer.remember (noticed _ called) fresh kept
  | connectFailed call => exact ⟨{ current with }, silent⟩
  | cloned found => exact ⟨current.withValue fun _ same => (by cases same), silent⟩
  | @opened v t kind found opens =>
      refine ⟨current.withValue fun answers same => ?_, silent⟩
      rw [show kind = .enumerating answers from same] at opens
      cases opens
  | paged found => exact ⟨current.setValue fun _ same => (by cases same), silent⟩
  | answered site status found =>
      exact ⟨current.deliver fun deleted => Or.inl (decide_eq_true deleted), fun _ => unused⟩
  | abandoned found => exact ⟨{ current with }, silent⟩
  | enumeration answer found asked =>
      exact ⟨current.deliver fun deleted => noticed deleted _ found, fun _ => unused⟩
  | close found closed => exact ⟨current.close closed, silent⟩
  | closed status found =>
      exact ⟨current.deliver fun deleted => Or.inl (decide_eq_true deleted), fun _ => unused⟩
  | readSite unread => exact ⟨current.readSite bounded unread of_decide_eq_true, silent⟩
  | readRelease unread found =>
      exact ⟨(current.readSite bounded unread of_decide_eq_true).dispose _ _, silent⟩
  | readEnumeration unread found => exact ⟨current.readEnumeration heeds unread found, silent⟩
  | lostReply unread => exact ⟨current.without unread (noticed _ unread), silent⟩
  | lostCall unread found live =>
      exact ⟨(current.without unread (noticed _ unread)).dispose _ _, silent⟩
  | drop found dropped => exact ⟨current.drop dropped, silent⟩
  | write found =>
      refine ⟨{ current with }, fun t used => ?_⟩
      cases List.mem_singleton.mp used
  | skip i => exact ⟨{ current with }, silent⟩
  | @unreadReply i t status found =>
      refine ⟨?_, fun _ => unused⟩
      obtain ⟨told, same, members⟩ := tell_eq { s with unread := s.unread.eraseIdx i } t status
      rw [same]
      refine ⟨current.single, current.ipc, fun t' member => ?_⟩
      rcases (members t').mp member with before | ⟨rfl, deleted⟩
      · exact current.recorded t' before
      · exact noticed deleted _ found
  | evict share => exact ⟨current.remove share, silent⟩

end Current

/-! ### What a run has told -/

/-- What a step tells of is what it is seen to. -/
theorem told_of_step (stepped : s.step listing e = some (s', out)) :
    (∀ t, t ∈ s'.told ↔ t ∈ s.told ∨ .deleted t ∈ out) ∧
      ∀ t t', .deleted t ∈ out → .used t' ∉ out := by
  have quiet : ∀ {s₁ : State} {seen : List Sight}, s₁.told = s.told →
      (∀ t, Sight.deleted t ∉ seen) →
        (∀ t, t ∈ s₁.told ↔ t ∈ s.told ∨ .deleted t ∈ seen) ∧
          ∀ t t', .deleted t ∈ seen → .used t' ∉ seen := by
    intro s₁ seen same unseen
    refine ⟨fun t => ?_, fun t t' deleted => absurd deleted (unseen t)⟩
    rw [same]
    exact ⟨Or.inl, fun either => either.resolve_right (unseen t)⟩
  have loud : ∀ {s₁ s₂ : State} {t : ℕ} {status : NtStatus}, s₂.told = s.told →
      s₁.told = (s₂.tell t status).told →
        (∀ t', t' ∈ s₁.told ↔ t' ∈ s.told ∨ .deleted t' ∈ sight t status) ∧
          ∀ t' t'', .deleted t' ∈ sight t status → .used t'' ∉ sight t status := by
    intro s₁ s₂ t status before same
    obtain ⟨told, eq, members⟩ := tell_eq s₂ t status
    rw [eq] at same
    refine ⟨fun t' => ?_, fun t' t'' _ used => ?_⟩
    · rw [same]
      refine (members t').trans ?_
      rw [before]
      unfold sight
      split
      · next deleted =>
          rw [List.mem_singleton, Sight.deleted.injEq]
          exact or_congr_right (and_iff_left deleted)
      · next other =>
          exact or_congr_right
            ⟨fun told => absurd told.2 other, fun seen => absurd seen List.not_mem_nil⟩
    · rcases sight_cases t status with same | same
      · exact absurd (same ▸ used) List.not_mem_nil
      · cases List.mem_singleton.mp (same ▸ used)
  have none : ∀ t, Sight.deleted t ∉ ([] : List Sight) := fun t => List.not_mem_nil
  cases moves_of_step stepped with
  | @treeOn purpose _ _ taken =>
      obtain ⟨_, _, _, _, eq, -⟩ := treeOn_eq s purpose
      rw [taken] at eq
      obtain rfl : s' = _ := eq
      refine quiet rfl fun t seen => ?_
      rcases sights_of_treeOn taken with rfl | ⟨t', rfl⟩
      · exact none t seen
      · cases List.mem_singleton.mp seen
  | connected tid called =>
      refine quiet rfl fun t seen => ?_
      cases List.mem_singleton.mp seen
  | @taken call t purpose _ _ called kept =>
      obtain ⟨_, _, _, eq⟩ := remember_eq
        { s with connecting := s.connecting.eraseIdx call } purpose t
      rw [kept] at eq
      obtain rfl : s' = _ := eq
      refine quiet rfl fun t seen => ?_
      obtain ⟨t', rfl⟩ := sights_of_remember kept
      cases List.mem_singleton.mp seen
  | connectFailed call => exact quiet rfl none
  | cloned found => exact quiet rfl none
  | opened found opens => exact quiet rfl none
  | paged found => exact quiet rfl none
  | answered site status found => exact loud rfl rfl
  | abandoned found => exact quiet rfl none
  | enumeration answer found asked => exact loud rfl rfl
  | close found closed =>
      obtain ⟨_, _, _, rfl, -⟩ := close_eq closed
      exact quiet rfl none
  | closed status found => exact loud rfl rfl
  | readSite unread => exact quiet rfl none
  | @readRelease i v t status unread found =>
      obtain ⟨_, same⟩ := dispose_eq ((s.without i).record t .checked status) v t
      exact quiet (same ▸ rfl) none
  | @readEnumeration i v t answers before unread found =>
      obtain ⟨_, _, _, same⟩ := enumeration_eq listing (s.without i) v t answers
      exact quiet (same ▸ rfl) none
  | lostReply unread => exact quiet rfl none
  | @lostCall i d kind unread found live =>
      obtain ⟨_, same⟩ := dispose_eq (s.without i) d.value d.tree
      exact quiet (same ▸ rfl) none
  | drop found dropped =>
      obtain ⟨_, _, _, rfl⟩ := drop_eq dropped
      exact quiet rfl none
  | write found =>
      refine quiet rfl fun t seen => ?_
      cases List.mem_singleton.mp seen
  | skip i => exact quiet rfl none
  | @unreadReply i t status found =>
      have fewer : ({ s with unread := s.unread.eraseIdx i } : State).told = s.told := rfl
      exact loud fewer rfl
  | evict share =>
      obtain ⟨_, same⟩ := remove_eq s share
      exact quiet (same ▸ rfl) none

/-- In a run, a tree has been discarded where it is seen to have been. -/
theorem told_iff_append {log : List Sight} (seen : ∀ t, t ∈ s.told ↔ .deleted t ∈ log)
    (stepped : s.step listing e = some (s', out)) (t : ℕ) :
    t ∈ s'.told ↔ .deleted t ∈ log ++ out := by
  rw [(told_of_step stepped).1 t, seen t, List.mem_append]

end TreeCache

end Smb1Client
