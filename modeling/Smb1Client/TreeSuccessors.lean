import Smb1Client.DiscardedTrees

/-!
What is left of a discarded tree, and the tree its tid is granted to next.

What a value releases when it goes does not depend on whether its tree is still there. So
nothing keeps an old handle from releasing what a fresh tree of the same tid has, but that
there is no such handle by the time the tid is granted again.
-/

namespace Smb1Client

namespace TreeCache

open Dialogue TreeCache.State

variable {listing : PipeVerb (List Share)} {s s' : State} {e : Event} {out : List Sight}

/-- Nothing is left of a tree: no value on it, no place in the cache, and no release of it that
is still to be put on the wire. -/
structure Clear (s : State) (t : ℕ) : Prop where
  unvalued : ∀ value ∈ s.values, value.kind.live = true → value.tree ≠ t
  uncached : ∀ share, (share, t) ∉ s.cache
  unsent : ∀ o ∈ s.outbound, o.tree ≠ t

instance (s : State) (t : ℕ) : Decidable (Clear s t) :=
  decidable_of_iff ((∀ value ∈ s.values, value.kind.live = true → value.tree ≠ t) ∧
      (∀ entry ∈ s.cache, entry.2 ≠ t) ∧ ∀ o ∈ s.outbound, o.tree ≠ t)
    ⟨fun ⟨unvalued, uncached, unsent⟩ =>
      ⟨unvalued, fun share member => uncached (share, t) member rfl, unsent⟩,
    fun clear =>
      ⟨clear.unvalued, fun ⟨share, _⟩ member same => clear.uncached share (same ▸ member),
        clear.unsent⟩⟩

theorem live_of_close {v t : ℕ} {kind : Kind} (closed : s.close v t kind = some s') :
    kind.live = true := by
  cases kind with
  | gone => cases closed
  | tree => rfl
  | file => rfl
  | listing => rfl
  | opened => rfl
  | enumerating => rfl
  | closing => rfl

theorem live_of_drop {v t : ℕ} {kind : Kind} (dropped : s.drop v t kind = some s') :
    kind.live = true := by
  cases kind with
  | gone => cases dropped
  | tree => rfl
  | file => rfl
  | listing => rfl
  | opened => rfl
  | enumerating => rfl
  | closing => rfl

namespace Clear

variable {t t' : ℕ}

theorem ne_of_value (clear : Clear s t) {v : ℕ} {kind : Kind}
    (found : s.values[v]? = some ⟨t', kind⟩) (live : kind.live = true) : t' ≠ t :=
  clear.unvalued _ (List.mem_of_getElem? found) live

theorem ne_of_lookup (clear : Clear s t) {share : Text}
    (found : s.cache.lookup share = some t') : t' ≠ t := by
  rintro rfl
  exact clear.uncached share (mem_of_lookup found)

theorem enqueue (clear : Clear s t) {o : Outgoing} (other : o.tree ≠ t) : Clear (s.enqueue o) t :=
  { clear with
    unsent := fun o' member => by
      rcases List.mem_append.mp member with before | now
      · exact clear.unsent o' before
      · cases List.mem_singleton.mp now
        exact other }

theorem letGo (clear : Clear s t) (other : t' ≠ t) : Clear (s.letGo t') t := by
  unfold State.letGo
  split
  · exact clear
  · exact clear.enqueue other

theorem setValue (clear : Clear s t) {v : ℕ} {value : Value} (other : value.tree ≠ t) :
    Clear (s.setValue v value) t :=
  { clear with
    unvalued := fun value' member live => by
      rcases List.mem_or_eq_of_mem_set member with before | rfl
      · exact clear.unvalued value' before live
      · exact other }

theorem withValue (clear : Clear s t) {value : Value} (other : value.tree ≠ t) :
    Clear { s with values := s.values ++ [value] } t :=
  { clear with
    unvalued := fun value' member live => by
      rcases List.mem_append.mp member with before | now
      · exact clear.unvalued value' before live
      · cases List.mem_singleton.mp now
        exact other }

theorem dispose (clear : Clear s t) {v : ℕ} (other : t' ≠ t) : Clear (s.dispose v t') t :=
  (clear.setValue other).letGo other

theorem remove (clear : Clear s t) (share : Text) : Clear (s.remove share) t := by
  have fewer : Clear { s with cache := s.cache.filter (·.1 ≠ share) } t :=
    { clear with
      uncached := fun share' member => clear.uncached share' (List.mem_of_mem_filter member) }
  unfold State.remove
  dsimp only
  split
  · next found => exact fewer.letGo (clear.ne_of_lookup found)
  · exact fewer

theorem insert (clear : Clear s t) (share : Text) (other : t' ≠ t) :
    Clear (s.insert share t') t := by
  have changed : Clear { s with cache := (share, t') :: s.cache.filter (·.1 ≠ share) } t :=
    { clear with
      uncached := fun share' member => by
        rcases List.mem_cons.mp member with same | member
        · exact other (Prod.mk.inj same).2.symm
        · exact clear.uncached share' (List.mem_of_mem_filter member) }
  unfold State.insert
  dsimp only
  split
  · next found => exact changed.letGo (clear.ne_of_lookup found)
  · exact changed

theorem tell (clear : Clear s t) (t' : ℕ) (status : NtStatus) : Clear (s.tell t' status) t := by
  obtain ⟨_, same, -⟩ := tell_eq s t' status
  rw [same]
  exact { clear with }

theorem deliver (clear : Clear s t) (d : Delivered) (status : NtStatus) :
    Clear (s.deliver d status) t :=
  { clear.tell d.tree status with }

theorem close (clear : Clear s t) {v : ℕ} {kind : Kind} (other : t' ≠ t)
    (closed : s.close v t' kind = some s') : Clear s' t := by
  unfold State.close at closed
  split at closed
  · cases closed
    exact (clear.setValue other).enqueue other
  · cases closed
    exact (clear.setValue other).enqueue other
  · cases closed
    exact (clear.setValue other).enqueue other
  · cases closed
    exact clear.dispose other
  · dsimp only at closed
    split at closed
    · cases closed
      exact clear.setValue other
    · cases closed
      have shut : Clear { s.setValue v ⟨t', .closing⟩ with
          inners := s.inners.modify t' ({ · with released := true }) } t :=
        { clear.setValue other with }
      exact shut.enqueue other
  · cases closed

theorem drop (clear : Clear s t) {v : ℕ} {kind : Kind} (other : t' ≠ t)
    (dropped : s.drop v t' kind = some s') : Clear s' t := by
  have unread : Clear { s with unread := s.unread ++ [t'] } t := { clear with }
  unfold State.drop at dropped
  split at dropped
  · cases dropped
    exact (clear.enqueue other).dispose other
  · cases dropped
    exact (clear.enqueue other).dispose other
  · cases dropped
    exact clear.dispose other
  · cases dropped
    exact clear.dispose other
  · cases dropped
    exact clear.dispose other
  · cases dropped
    exact unread.dispose other
  · cases dropped
    exact unread.dispose other
  · cases dropped

theorem enumeration (clear : Clear s t) {v : ℕ} (other : t' ≠ t) (answers : List Answer) :
    Clear (s.enumeration listing v t' answers) t := by
  unfold State.enumeration
  split
  · unfold askClose
    split
    · exact (clear.setValue other).enqueue other
    · exact clear.setValue other
  · split
    · exact (clear.remove IPC_SHARE).dispose other
    · exact clear.dispose other

theorem treeOn (clear : Clear s t) (purpose : Purpose) : Clear (s.treeOn purpose).1 t := by
  unfold State.treeOn
  split
  · next found =>
      split
      · exact { clear.remove purpose.share with }
      · exact clear.withValue (clear.ne_of_lookup found)
  · exact { clear with }

theorem remember (clear : Clear s t) (purpose : Purpose) (other : t' ≠ t) :
    Clear (s.remember purpose t').1 t := by
  unfold State.remember
  split
  · next found =>
      split
      · exact (clear.insert purpose.share other).withValue other
      · exact (clear.withValue (clear.ne_of_lookup found)).letGo other
  · exact (clear.insert purpose.share other).withValue other

/-- **Once nothing is left of a tree, nothing comes of it again.** -/
theorem step (clear : Clear s t) (bounded : Bounded s) (gone : t ∈ s.told)
    (stepped : s.step listing e = some (s', out)) : Clear s' t := by
  cases moves_of_step stepped with
  | @treeOn purpose _ _ taken =>
      have after := clear.treeOn purpose
      rwa [taken] at after
  | connected tid called => exact { clear with }
  | @taken call t' purpose _ _ called kept =>
      have fewer : Clear { s with connecting := s.connecting.eraseIdx call } t := { clear with }
      have other : t ≠ t' := (bounded.fresh t' (Bounded.mem_granted called)).told t gone
      have after := fewer.remember purpose other.symm
      rwa [kept] at after
  | connectFailed call => exact { clear with }
  | cloned found => exact clear.withValue (clear.ne_of_value found rfl)
  | opened found opens => exact clear.withValue (clear.ne_of_value found rfl)
  | paged found => exact clear.setValue (clear.ne_of_value found rfl)
  | answered site status found => exact clear.deliver _ status
  | abandoned found => exact { clear with }
  | enumeration answer found asked => exact clear.deliver _ _
  | @close v value _ found closed =>
      exact clear.close (clear.unvalued value (List.mem_of_getElem? found) (live_of_close closed))
        closed
  | closed status found => exact clear.deliver _ status
  | readSite unread => exact { clear with }
  | @readRelease i v t' status unread found =>
      have fewer : Clear ((s.without i).record t' .checked status) t := { clear with }
      exact fewer.dispose (clear.ne_of_value found rfl)
  | @readEnumeration i v t' answers before unread found =>
      have fewer : Clear (s.without i) t := { clear with }
      exact fewer.enumeration (clear.ne_of_value found rfl) answers
  | lostReply unread => exact { clear with }
  | @lostCall i d kind unread found live =>
      have fewer : Clear (s.without i) t := { clear with }
      exact fewer.dispose (clear.ne_of_value found live)
  | @drop v value _ found dropped =>
      exact clear.drop (clear.unvalued value (List.mem_of_getElem? found) (live_of_drop dropped))
        dropped
  | write found =>
      exact { clear with
        unsent := fun o member => clear.unsent o (List.mem_of_mem_eraseIdx member) }
  | skip i =>
      exact { clear with
        unsent := fun o member => clear.unsent o (List.mem_of_mem_eraseIdx member) }
  | @unreadReply i t' status found =>
      have fewer : Clear { s with unread := s.unread.eraseIdx i } t := { clear with }
      exact fewer.tell t' status
  | evict share => exact clear.remove share

end Clear

/-! ## Tids that are granted again -/

/-- The tid that a tree was granted. -/
def tidOf (s : State) (t : ℕ) : Option UInt16 := s.inners[t]?.map (·.tid)

/-- A grant, as what it is seen to do and what it says of the trees there were. -/
structure Grants (s s' : State) (e : Event) (out : List Sight) : Prop where
  tids : ∀ t tid, tidOf s t = some tid → tidOf s' t = some tid
  reused : ∀ t ∈ s'.reused, t ∈ s.reused ∨ ∃ call tid, e = .connected call tid ∧ t ∈ s.told ∧
    tidOf s t = some tid
  again : ∀ t ∈ s.reused, t ∈ s'.reused
  granted : ∀ t tid, .granted t tid ∈ out → tidOf s' t = some tid ∧
    (∀ t', t' ∈ s.told → tidOf s t' = some tid → t' ∈ s'.reused) ∧ ∀ t', .deleted t' ∉ out

theorem tidOf_modify {t : ℕ} {f : TreeInner → TreeInner} (same : ∀ inner, (f inner).tid = inner.tid)
    (t' : ℕ) : ((s.inners.modify t f)[t']?.map (·.tid)) = tidOf s t' := by
  unfold tidOf
  rw [List.getElem?_modify]
  cases s.inners[t']? with
  | none => rfl
  | some inner =>
      simp only [Option.map_eq_map, Option.map_some]
      split
      · rw [same]
      · rfl

theorem grants_of_step (stepped : s.step listing e = some (s', out)) : Grants s s' e out := by
  have quiet : ∀ {s₁ : State} {seen : List Sight}, (∀ t, tidOf s₁ t = tidOf s t) →
      s₁.reused = s.reused → (∀ t tid, Sight.granted t tid ∉ seen) → Grants s s₁ e seen := by
    intro s₁ seen tids same unseen
    refine ⟨fun t tid had => (tids t).trans had, fun t again => ?_, fun t again => ?_,
      fun t tid granted => absurd granted (unseen t tid)⟩
    · rw [same] at again
      exact Or.inl again
    · rw [same]
      exact again
  have nothing : ∀ t tid, Sight.granted t tid ∉ ([] : List Sight) := fun t tid => List.not_mem_nil
  have answer : ∀ {t' : ℕ} {status : NtStatus}, ∀ t tid, Sight.granted t tid ∉ sight t' status := by
    intro t' status t tid seen
    rcases sight_cases t' status with same | same
    · rw [same] at seen
      exact List.not_mem_nil seen
    · rw [same] at seen
      cases List.mem_singleton.mp seen
  have told : ∀ {d : Delivered} {status : NtStatus},
      Grants s (s.deliver d status) e (sight d.tree status) := by
    intro d status
    obtain ⟨_, same, -⟩ := deliver_eq s d status
    rw [same]
    exact quiet (fun t => rfl) rfl answer
  cases moves_of_step stepped with
  | @treeOn purpose _ _ taken =>
      obtain ⟨_, _, _, _, same, -⟩ := treeOn_eq s purpose
      rw [taken] at same
      obtain rfl : s' = _ := same
      refine quiet (fun t => rfl) rfl fun t tid seen => ?_
      rcases sights_of_treeOn taken with rfl | ⟨t', rfl⟩
      · exact List.not_mem_nil seen
      · cases List.mem_singleton.mp seen
  | @connected call purpose tid called =>
      have kept : ∀ t tid', tidOf s t = some tid' →
          ((s.inners ++ [⟨tid, false, false⟩])[t]?.map (·.tid)) = some tid' := by
        intro t tid' had
        obtain ⟨inner, found, same⟩ := Option.map_eq_some_iff.mp had
        rw [List.getElem?_append_left (List.getElem?_eq_some_iff.mp found).1, found]
        exact congrArg some same
      have matching : ∀ t, (s.inners[t]?.any (·.tid = tid)) = true ↔ tidOf s t = some tid := by
        intro t
        unfold tidOf
        cases s.inners[t]? with
        | none => exact ⟨fun found => (by cases found), fun found => (by cases found)⟩
        | some inner => simp
      refine ⟨kept, fun t again => ?_, fun t again => List.mem_append_left _ again,
        fun t tid' seen => ?_⟩
      · rcases List.mem_append.mp again with before | now
        · exact Or.inl before
        · obtain ⟨told, same⟩ := List.mem_filter.mp now
          exact Or.inr ⟨call, tid, rfl, told, (matching t).mp same⟩
      · cases List.mem_singleton.mp seen
        refine ⟨?_, fun t' told had => ?_, fun t' deleted => ?_⟩
        · change (s.inners ++ [_])[s.inners.length]?.map _ = _
          rw [List.getElem?_concat_length]
          rfl
        · exact List.mem_append_right _ (List.mem_filter.mpr ⟨told, (matching t').mpr had⟩)
        · cases List.mem_singleton.mp deleted
  | @taken call t purpose _ _ called kept =>
      obtain ⟨_, _, _, same⟩ := remember_eq
        { s with connecting := s.connecting.eraseIdx call } purpose t
      rw [kept] at same
      obtain rfl : s' = _ := same
      refine quiet (fun t => rfl) rfl fun t tid seen => ?_
      obtain ⟨t', rfl⟩ := sights_of_remember kept
      cases List.mem_singleton.mp seen
  | connectFailed call => exact quiet (fun t => rfl) rfl nothing
  | cloned found => exact quiet (fun t => rfl) rfl nothing
  | opened found opens => exact quiet (fun t => rfl) rfl nothing
  | paged found => exact quiet (fun t => rfl) rfl nothing
  | answered site status found => exact told
  | abandoned found => exact quiet (fun t => rfl) rfl nothing
  | enumeration answer' found asked => exact told
  | close found closed =>
      obtain ⟨_, _, _, rfl, either⟩ := close_eq closed
      refine quiet (fun t => ?_) rfl nothing
      rcases either with same | same
      · exact congrArg (fun inners => inners[t]?.map (·.tid)) same
      · refine (congrArg (fun inners => inners[t]?.map (·.tid)) same).trans ?_
        exact tidOf_modify (f := ({ · with released := true })) (fun inner => rfl) t
  | closed status found => exact told
  | @readSite i v t site status unread =>
      exact quiet (tidOf_modify (site.tid_settle status)) rfl nothing
  | @readRelease i v t status unread found =>
      obtain ⟨_, same⟩ := dispose_eq ((s.without i).record t .checked status) v t
      rw [same]
      exact quiet (tidOf_modify (Site.checked.tid_settle status)) rfl nothing
  | @readEnumeration i v t answers before unread found =>
      obtain ⟨_, _, _, same⟩ := enumeration_eq listing (s.without i) v t answers
      rw [same]
      exact quiet (fun t => rfl) rfl nothing
  | lostReply unread => exact quiet (fun t => rfl) rfl nothing
  | @lostCall i d kind unread found live =>
      obtain ⟨_, same⟩ := dispose_eq (s.without i) d.value d.tree
      rw [same]
      exact quiet (fun t => rfl) rfl nothing
  | drop found dropped =>
      obtain ⟨_, _, _, rfl⟩ := drop_eq dropped
      exact quiet (fun t => rfl) rfl nothing
  | write found =>
      refine quiet (fun t => rfl) rfl fun t tid seen => ?_
      cases List.mem_singleton.mp seen
  | skip i => exact quiet (fun t => rfl) rfl nothing
  | @unreadReply i t status found =>
      obtain ⟨_, same, -⟩ := tell_eq { s with unread := s.unread.eraseIdx i } t status
      rw [same]
      exact quiet (fun t => rfl) rfl answer
  | evict share =>
      obtain ⟨_, same⟩ := remove_eq s share
      rw [same]
      exact quiet (fun t => rfl) rfl nothing

/-- What is put on the wire was handed over before. -/
theorem outbound_of_put {t : ℕ} {release : Release}
    (stepped : s.step listing e = some (s', out)) (put : .put t release ∈ out) :
    (∃ o ∈ s.outbound, o.tree = t) ∧ out = [.put t release] := by
  have never : ∀ {t' : ℕ} {status : NtStatus}, Sight.put t release ∉ sight t' status := by
    intro t' status seen
    rcases sight_cases t' status with same | same
    · rw [same] at seen
      exact List.not_mem_nil seen
    · rw [same] at seen
      cases List.mem_singleton.mp seen
  cases moves_of_step stepped with
  | treeOn taken =>
      rcases sights_of_treeOn taken with rfl | ⟨t', rfl⟩
      · exact absurd put List.not_mem_nil
      · cases List.mem_singleton.mp put
  | connected tid called => cases List.mem_singleton.mp put
  | taken called kept =>
      obtain ⟨used, rfl⟩ := sights_of_remember kept
      cases List.mem_singleton.mp put
  | connectFailed call => exact absurd put List.not_mem_nil
  | cloned found => exact absurd put List.not_mem_nil
  | opened found opens => exact absurd put List.not_mem_nil
  | paged found => exact absurd put List.not_mem_nil
  | answered site status found => exact absurd put never
  | abandoned found => exact absurd put List.not_mem_nil
  | enumeration answer found asked => exact absurd put never
  | close found closed => exact absurd put List.not_mem_nil
  | closed status found => exact absurd put never
  | readSite unread => exact absurd put List.not_mem_nil
  | readRelease unread found => exact absurd put List.not_mem_nil
  | readEnumeration unread found => exact absurd put List.not_mem_nil
  | lostReply unread => exact absurd put List.not_mem_nil
  | lostCall unread found live => exact absurd put List.not_mem_nil
  | drop found dropped => exact absurd put List.not_mem_nil
  | write found =>
      cases List.mem_singleton.mp put
      exact ⟨⟨_, List.mem_of_getElem? found, rfl⟩, rfl⟩
  | skip i => exact absurd put List.not_mem_nil
  | unreadReply status found => exact absurd put never
  | evict share => exact absurd put List.not_mem_nil

/-! ## A fresh tree is left alone -/

/-- The tid of a tree has been granted again since the server said the tree was gone. -/
def Reused (log : List Sight) (t : ℕ) : Prop :=
  ∃ before after tid t', log = before ++ .deleted t :: after ∧ .granted t tid ∈ before ∧
    t' ≠ t ∧ .granted t' tid ∈ after

/-- Nothing of a tree is released once its tid is another's. -/
def LeavesSuccessors (log : List Sight) : Prop :=
  ∀ before after t release, log = before ++ .put t release :: after → ¬ Reused before t

/-- The tid of a tree that is gone is granted again only when nothing is left of the tree. -/
def GrantedClear (s : State) : Event → Prop
  | .connected _ tid => ∀ t ∈ s.told, tidOf s t = some tid → Clear s t
  | _ => True

instance (s : State) : (e : Event) → Decidable (GrantedClear s e)
  | .connected _ tid =>
      inferInstanceAs (Decidable (∀ t ∈ s.told, tidOf s t = some tid → Clear s t))
  | .treeOn _ | .taken _ | .connectFailed _ | .clone _ | .opened _ _ | .paged _ _ _
  | .answered _ _ _ | .abandoned _ | .enumeration _ _ | .close _ | .closed _ _ | .read _ | .lose _
  | .drop _ | .write _ | .skip _ | .unreadReply _ _ | .evict _ => inferInstanceAs (Decidable True)

/-- What a run has seen, and what that says of the state it is in. -/
structure Seen (s : State) (log : List Sight) : Prop where
  told : ∀ t, t ∈ s.told ↔ .deleted t ∈ log
  granted : ∀ t tid, .granted t tid ∈ log → tidOf s t = some tid
  reused : ∀ t, Reused log t → t ∈ s.reused

theorem Seen.step {log : List Sight} (seen : Seen s log)
    (stepped : s.step listing e = some (s', out)) : Seen s' (log ++ out) := by
  have grants := grants_of_step stepped
  refine ⟨told_iff_append seen.told stepped, fun t tid member => ?_, fun t again => ?_⟩
  · rcases List.mem_append.mp member with before | now
    · exact grants.tids t tid (seen.granted t tid before)
    · exact (grants.granted t tid now).1
  · obtain ⟨before, after, tid, t', split, mine, other, later⟩ := again
    rcases Trace.split_append split with ⟨rest, earlier, rfl⟩ | ⟨front, rfl, now⟩
    · rcases List.mem_append.mp later with already | now
      · exact grants.again t (seen.reused t ⟨before, rest, tid, t', earlier, mine, other, already⟩)
      · have gone : t ∈ s.told :=
          (seen.told t).mpr (earlier ▸ List.mem_append_right _ List.mem_cons_self)
        have had : tidOf s t = some tid :=
          seen.granted t tid (earlier ▸ List.mem_append_left _ mine)
        exact (grants.granted t' tid now).2.1 t gone had
    · have deleted : Sight.deleted t ∈ out := now ▸ List.mem_append_right _ List.mem_cons_self
      have granted : Sight.granted t' tid ∈ out :=
        now ▸ List.mem_append_right _ (List.mem_cons_of_mem _ later)
      exact absurd deleted ((grants.granted t' tid granted).2.2 t)

/-- **Releases leave successors alone**, in every run in which the server grants the tid of a tree
it has discarded again only when nothing is left of that tree. -/
theorem releases_leave_successors {n : Negotiated} {turns : ℕ} {server : Text} {es : List Event}
    {log : List Sight}
    (ran : (machine (Ipc.listShares n turns server)).run State.init es = some (s, log))
    (clear : ∀ v ∈ (machine (Ipc.listShares n turns server)).visits State.init es,
      GrantedClear v.1 v.2) : LeavesSuccessors log := by
  generalize Ipc.listShares n turns server = listing at ran clear
  have general := Trace.Machine.run_induction (m := machine listing)
    (P := fun done s log => (∀ v ∈ done, GrantedClear v.1 v.2) →
      Bounded s ∧ Seen s log ∧ (∀ t ∈ s.reused, t ∈ s.told ∧ Clear s t) ∧
        LeavesSuccessors log) ?start ?step ran
  case start =>
    have nothing : ∀ {before after : List Sight} {x : Sight}, [] ≠ before ++ x :: after :=
      fun same => List.append_ne_nil_of_right_ne_nil _ (List.cons_ne_nil _ _) same.symm
    refine fun _ => ⟨Bounded.init, ⟨fun t => ?_, fun t tid member => ?_, fun t again => ?_⟩,
      fun t again => absurd again List.not_mem_nil, fun before after t release split => ?_⟩
    · exact ⟨fun told => absurd told List.not_mem_nil, fun seen => absurd seen List.not_mem_nil⟩
    · exact absurd member List.not_mem_nil
    · obtain ⟨_, _, _, _, split, -⟩ := again
      exact absurd split nothing
    · exact absurd split nothing
  case step =>
    intro done s log e s' out before stepped clear
    obtain ⟨bounded, seen, left, leaves⟩ :=
      before fun v member => clear v (List.mem_append_left _ member)
    have here := clear (s, e) (List.mem_append_right _ List.mem_cons_self)
    have grants := grants_of_step stepped
    refine ⟨bounded.step stepped, seen.step stepped, fun t again => ?_,
      fun front rest t release split again => ?_⟩
    · have told := (told_of_step stepped).1 t
      rcases grants.reused t again with before | ⟨call, tid, rfl, gone, had⟩
      · obtain ⟨gone, clear⟩ := left t before
        exact ⟨told.mpr (Or.inl gone), clear.step bounded gone stepped⟩
      · have clear : Clear s t := here t gone had
        have moved : s.step listing (.connected call tid) = some (s', out) := stepped
        exact ⟨told.mpr (Or.inl gone), clear.step bounded gone moved⟩
    · rcases Trace.split_append split with ⟨rest', earlier, -⟩ | ⟨front', rfl, now⟩
      · exact leaves front rest' t release earlier again
      · have put : Sight.put t release ∈ out := now ▸ List.mem_append_right _ List.mem_cons_self
        obtain ⟨⟨o, member, same⟩, alone⟩ := outbound_of_put stepped put
        have unmoved : front' = [] := by
          rw [alone] at now
          cases front' with
          | nil => rfl
          | cons x front' =>
              exact absurd (List.cons.inj now).2.symm
                (List.append_ne_nil_of_right_ne_nil _ (List.cons_ne_nil _ _))
        rw [unmoved, List.append_nil] at again
        exact (left t (seen.reused t again)).2.unsent o member same
  exact (general clear).2.2.2

/-- A file and its tree are let go before the tid is granted again. -/
def letGoFirst : List Event :=
  [.treeOn (.tree ['s']), .connected 0 1, .taken 0, .opened 0 (.file 5),
    .answered 0 .checked .NETWORK_NAME_DELETED, .read 0, .drop 1, .drop 0, .write 0,
    .treeOn (.tree ['s']), .write 0, .connected 0 1, .taken 0]

/-- What `letGoFirst` is seen to do. -/
def letGoSights : List Sight :=
  [.granted 0 1, .used 0, .deleted 0, .put 0 (.close 5), .put 0 .treeDisconnect, .granted 1 1,
    .used 1]

theorem releases_leave_successors_letGoFirst :
    ((machine (Ipc.listShares ⟨50, 16644, 0⟩ 4 ['s'])).run State.init letGoFirst).map (·.2) =
        some letGoSights ∧ LeavesSuccessors letGoSights := by
  have ran : ((machine (Ipc.listShares ⟨50, 16644, 0⟩ 4 ['s'])).run State.init letGoFirst).map
      (·.2) = some letGoSights := by
    decide +kernel
  obtain ⟨⟨s, log⟩, visited, same⟩ := Option.map_eq_some_iff.mp ran
  refine ⟨ran, ?_⟩
  cases same
  apply releases_leave_successors visited
  decide +kernel

/-- The file is still held when its tree's tid is granted again, and is dropped then. -/
def droppedAfter : List Event :=
  [.treeOn (.tree ['s']), .connected 0 1, .taken 0, .opened 0 (.file 5),
    .answered 0 .checked .NETWORK_NAME_DELETED, .read 0, .treeOn (.tree ['s']), .connected 0 1,
    .taken 0, .drop 1, .write 0]

/-- The close of the dropped file goes out under the tid of the fresh tree. -/
theorem release_reaches_successor : ¬ ∀ (n : Negotiated) (turns : ℕ) (server : Text)
    (es : List Event) (s : State) (log : List Sight),
      (machine (Ipc.listShares n turns server)).run State.init es = some (s, log) →
        LeavesSuccessors log := by
  intro claimed
  have ran : ((machine (Ipc.listShares ⟨50, 16644, 0⟩ 4 ['s'])).run State.init droppedAfter).map
      (·.2) = some
        [.granted 0 1, .used 0, .deleted 0, .granted 1 1, .used 1, .put 0 (.close 5)] := by
    decide +kernel
  obtain ⟨⟨s, log⟩, visited, same⟩ := Option.map_eq_some_iff.mp ran
  cases same
  have again : Reused [.granted 0 1, .used 0, .deleted 0, .granted 1 1, .used 1] 0 :=
    ⟨[.granted 0 1, .used 0], [.granted 1 1, .used 1], 1, 1, rfl, List.mem_cons_self, one_ne_zero,
      List.mem_cons_self⟩
  exact claimed _ _ _ _ _ _ visited _ [] 0 (.close 5) rfl again

end TreeCache

end Smb1Client
