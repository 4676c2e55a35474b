import Smb1Client.Resource.WriteGroup
import Smb1Client.Resource.WriteSpan

/-!
Writes that account for every byte: what `write_span` comes to, against what the replies
acknowledged and against the `WriteProgress` the actor keeps of the same replies.
-/

namespace Smb1Client

open Tiling Trace

namespace WriteSpan

variable {call : WriteCall} {s s' : WriteSpan} {c : WriteChunk} {log : List WriteOut} {p : ℕ}

/-! ## Spans that are put back for their size -/

/-- The spans that were put back for their size. -/
def putBacks (log : List WriteOut) : List (ℕ × ℕ) :=
  log.filterMap fun
    | .putBack start length => some (start, length)
    | _ => none

/-- The spans that are on the wire. -/
def inFlight (s : WriteSpan) : List (ℕ × ℕ) := s.issued.map WriteChunk.span

/-- A span is put back once: from then on it is issued small, and a small chunk that is refused
fails the call. -/
structure Once (call : WriteCall) (s : WriteSpan) (log : List WriteOut) : Prop where
  downgraded : putBacks log ≠ [] → s.downgraded = true
  apart : ∀ p, held p (s.spans.unasked call.data.length) + held p s.inFlight ≤ 1
  large : ∀ c ∈ s.issued, c.large = true → ∀ p, 0 < holds p c.start c.length →
    held p (putBacks log) = 0
  putBacks : ∀ p, held p (putBacks log) ≤ 1

theorem putBacks_append (log log' : List WriteOut) :
    putBacks (log ++ log') = putBacks log ++ putBacks log' := List.filterMap_append

theorem once_start {downgraded : Bool} {progress : WriteProgress} :
    Once call (start downgraded progress call.data) [] := by
  refine ⟨fun some => absurd rfl some, fun p => ?_, fun c none => absurd none List.not_mem_nil,
    fun p => Nat.zero_le 1⟩
  have one := @holds_le_one p 0 call.data.length
  simpa [inFlight, start, Spans.start, Spans.unasked] using one

theorem inFlight_eraseIdx {index : ℕ} (found : s.issued[index]? = some c) :
    held p s.inFlight = holds p c.start c.length +
      held p (inFlight { s with issued := s.issued.eraseIdx index }) := by
  have span : s.inFlight[index]? = some c.span := by
    rw [inFlight, List.getElem?_map, found]
    rfl
  have rest : inFlight { s with issued := s.issued.eraseIdx index } =
      s.inFlight.eraseIdx index := by
    rw [inFlight, inFlight, List.eraseIdx_map]
  rw [rest, held_eraseIdx span]
  rfl

/-- A part of a chunk is held no more often than the chunk. -/
theorem unasked_push_le {first length : ℕ} (inside : c.start ≤ first)
    (upto : first + length ≤ c.start + c.length) (q : Spans) (size : ℕ) :
    held p ((q.push first length).unasked size) ≤
      holds p c.start c.length + held p (q.unasked size) := by
  have part : holds p first length ≤ holds p c.start c.length := by
    unfold holds
    split_ifs <;> omega
  simp only [Spans.unasked, Spans.push, held_cons]
  omega

theorem Once.answer {index : ℕ} {outcome : Except Error Reply} {out : List WriteOut}
    (once : Once call s log) (found : s.issued[index]? = some c)
    (settled : Settled { s with issued := s.issued.eraseIdx index } c outcome s' out) :
    Once call s' (log ++ out) := by
  have before := fun p => @inFlight_eraseIdx s c p index found
  have rest : ∀ x ∈ s.issued.eraseIdx index, x ∈ s.issued := fun x => List.mem_of_mem_eraseIdx
  cases settled with
  | refused large nothing =>
      have more : WriteSpan.putBacks (log ++ [.putBack c.start c.length]) =
          WriteSpan.putBacks log ++ [c.span] := putBacks_append _ _
      have free := once.large c (List.mem_of_getElem? found) large
      refine ⟨fun _ => rfl, fun p => ?_, fun x member largeToo p inside => ?_, fun p => ?_⟩
      · have apart := once.apart p
        have push := @unasked_push_le c p c.start c.length le_rfl le_rfl s.spans call.data.length
        rw [before p] at apart
        refine le_trans (Nat.add_le_add_right push _) (le_of_eq_of_le ?_ apart)
        change _ + held p (inFlight { s with issued := s.issued.eraseIdx index }) = _
        omega
      · rw [more, held_append, held_cons, held_nil,
          once.large x (rest x member) largeToo p inside]
        -- two chunks on the wire have no position in common
        have apart := once.apart p
        rw [before p] at apart
        have other : 0 < held p (inFlight { s with issued := s.issued.eraseIdx index }) := by
          rw [held_pos_iff]
          exact ⟨x.span, List.mem_map_of_mem member, holds_pos_iff.mp inside⟩
        simp only [WriteChunk.span]
        omega
      · rw [more, held_append, held_cons, held_nil]
        have most := once.putBacks p
        have one := @holds_le_one p c.start c.length
        rcases Nat.eq_zero_or_pos (holds p c.start c.length) with outside | inside
        · simp only [WriteChunk.span]
          omega
        · rw [free p inside]
          simp only [WriteChunk.span]
          omega
  | @taken count took positive within =>
      rw [List.append_nil]
      refine ⟨once.downgraded, fun p => ?_, fun x member => once.large x (rest x member),
        once.putBacks⟩
      have apart := once.apart p
      rw [before p] at apart
      change _ + held p (inFlight { s with issued := s.issued.eraseIdx index }) ≤ 1
      dsimp only
      split
      · have push := @unasked_push_le c p (c.start + count) (c.length - count) (by omega) (by omega)
          s.spans call.data.length
        omega
      · omega
  | failed downgraded error keeps nothing =>
      rw [List.append_nil]
      refine ⟨fun some => keeps (once.downgraded some), fun p => ?_,
        fun x member => once.large x (rest x member), once.putBacks⟩
      have apart := once.apart p
      rw [before p] at apart
      change _ + held p (inFlight { s with issued := s.issued.eraseIdx index }) ≤ 1
      dsimp only
      omega

theorem Once.stepped {e : WriteEvent} {out : List WriteOut} (once : Once call s log)
    (accounted : Accounted call s log) (stepped : Stepped call s e s' out) :
    Once call s' (log ++ out) := by
  cases stepped with
  | downgrade large =>
      rw [List.append_nil]
      exact ⟨fun _ => rfl, once.apart, once.large, once.putBacks⟩
  | @issue between span spans running sound room took =>
      have none : WriteSpan.putBacks (log ++ [.asks (call.request span.1 span.2)]) =
          WriteSpan.putBacks log := by
        rw [putBacks_append]
        exact List.append_nil _
      refine ⟨fun some => ?_, fun p => ?_, fun x member large => ?_, fun p => ?_⟩
      · rw [none] at some
        dsimp only
        rw [once.downgraded some, Bool.true_or]
      · have apart := once.apart p
        have cut := (accounted.taken took).held p
        simp only [inFlight, List.map_append, held_append, List.map_cons, List.map_nil, held_cons,
          held_nil, WriteChunk.span] at apart ⊢
        omega
      · rw [none]
        rcases List.mem_append.mp member with old | new
        · exact once.large x old large
        · obtain rfl := List.mem_singleton.mp new
          intro p inside
          have empty : WriteSpan.putBacks log = [] := by
            by_contra some
            dsimp only at large
            rw [once.downgraded some] at large
            cases large
          rw [empty]
          rfl
      · rw [none]
        exact once.putBacks p
  | @reply index outcome c found waits =>
      have none : WriteSpan.putBacks (log ++ ((WriteProgress.accepted c.length outcome).map
          (.acknowledged c.request ·)).toList) = WriteSpan.putBacks log := by
        rw [putBacks_append]
        cases WriteProgress.accepted c.length outcome <;> exact List.append_nil _
      have span : s.inFlight[index]? = some c.span := by
        rw [inFlight, List.getElem?_map, found]
        rfl
      refine ⟨fun some => ?_, fun p => ?_, fun x member large => ?_, fun p => ?_⟩
      · rw [none] at some
        exact once.downgraded some
      · have same := @held_set p c.span s.inFlight index span c.span
        have apart := once.apart p
        rw [inFlight, List.map_set]
        change _ + held p (s.inFlight.set index c.span) ≤ 1
        dsimp only at same ⊢
        omega
      · rw [none]
        rcases List.mem_or_eq_of_mem_set member with old | rfl
        · exact once.large x old large
        · exact once.large c (List.mem_of_getElem? found) large
      · rw [none]
        exact once.putBacks p
  | @answer index outcome c running full found came =>
      have some := (accounted.issued c (List.mem_of_getElem? found)).1
      exact once.answer found (acknowledge_settled some outcome)
  | finish running full drained =>
      rw [List.append_nil]
      exact ⟨once.downgraded, once.apart, once.large, once.putBacks⟩

/-! ## The progress of a write -/

/-- The handle's own account: it covers what has been acknowledged, and counts what has not been
answered. -/
structure Recorded (call : WriteCall) (s : WriteSpan) (log : List WriteOut) : Prop where
  base : s.progress.base = call.offset
  issuing : s.progress.issuing = true
  registered : s.progress.registered = true
  undeclared : s.progress.finalPrefix = none
  outstanding : s.progress.outstanding = s.issued.countP (·.outcome.isNone)
  covered : ∀ p, p ∈ s.progress.covered.cells ↔ 0 < landed (call.offset.toNat + p) (acks log)

theorem recorded_start {downgraded : Bool} {progress : WriteProgress}
    (registers : WriteProgress.new.register call.offset = .ok progress) :
    Recorded call (start downgraded progress call.data) [] := by
  cases registers
  refine ⟨rfl, rfl, rfl, rfl, rfl, fun p => ?_⟩
  change p ∈ Coverage.empty.cells ↔ 0 < 0
  rw [Coverage.cells_empty]
  exact iff_of_false (Set.notMem_empty p) (lt_irrefl 0)

/-- While chunks are being issued, nothing is declared. -/
theorem ended_of_issuing {progress : WriteProgress} {offset : UInt64} {offered : ℕ}
    {outcome : Except Error Reply} (issuing : progress.issuing = true) :
    progress.ended offset offered outcome = (progress.record offset offered outcome).depart := by
  have same := (WriteGroup.sameAccount_record progress offset offered outcome).issuing
  rw [WriteProgress.ended, WriteProgress.settle, if_pos]
  · rfl
  · exact Or.inl (same.trans issuing)

/-- What stays the same in a handle when a chunk's range is recorded. -/
theorem record_base {progress : WriteProgress} {offset : UInt64} {offered : ℕ}
    {outcome : Except Error Reply} :
    (progress.record offset offered outcome).base = progress.base := by
  rw [WriteProgress.record]
  split <;> rfl

theorem Recorded.reply {index : ℕ} {outcome : Except Error Reply} (recorded : Recorded call s log)
    (accounted : Accounted call s log) (found : s.issued[index]? = some c)
    (waits : c.outcome = none) :
    Recorded call { s with
      progress := s.progress.ended c.request.offset c.length outcome
      issued := s.issued.set index { c with outcome := some outcome } }
      (log ++ ((WriteProgress.accepted c.length outcome).map
        (.acknowledged c.request ·)).toList) := by
  obtain ⟨-, -, request, low⟩ := accounted.issued c (List.mem_of_getElem? found)
  have same := WriteGroup.sameAccount_record s.progress c.request.offset c.length outcome
  have counted := @WriteGroup.countP_set_add _ _ _ _
    { c with outcome := some outcome } (fun x : WriteChunk => x.outcome.isNone) found
  simp only [waits, Option.isNone_none, Option.isNone_some, if_true, Bool.false_eq_true, if_false]
    at counted
  rw [ended_of_issuing recorded.issuing]
  refine ⟨record_base.trans recorded.base, same.issuing.trans recorded.issuing,
    same.registered.trans recorded.registered, same.finalPrefix.trans recorded.undeclared, ?_,
    fun p => ?_⟩
  · have outstanding := recorded.outstanding
    have kept := same.outstanding
    dsimp only [WriteProgress.depart]
    omega
  · have position : c.request.offset.toNat - s.progress.base.toNat = c.start := by
      rw [request, request_offset low, recorded.base]
      omega
    dsimp only [WriteProgress.depart]
    rw [WriteProgress.record, position, acks_append, landed_append]
    cases took : WriteProgress.accepted c.length outcome with
    | none =>
        change _ ↔ 0 < _ + 0
        exact recorded.covered p
    | some count =>
        have within := accepted_le took
        -- none of the chunk has been acknowledged before
        have fresh : Disjoint s.progress.covered.cells (Set.Ico c.start (c.start + count)) := by
          rw [Set.disjoint_left]
          intro q cell inside
          have landed := (recorded.covered q).mp cell
          have most := accounted.most q
          have left : s.leftovers[index]? = some c.span := by
            rw [leftovers, List.getElem?_map, found, ← left_of_waits waits]
            rfl
          have held := @holds_of_mem q c.start c.length inside.1
            (lt_of_lt_of_le inside.2 (Nat.add_le_add_left within _))
          rw [toCome, held_eraseIdx left] at most
          have one := @holds_le_one q 0 call.data.length
          simp only [WriteChunk.span] at most
          omega
        obtain ⟨covered, accepts, cells⟩ := Coverage.cover_of_disjoint fresh
        dsimp only
        rw [accepts, cells, Set.mem_union, recorded.covered p]
        change _ ↔ 0 < _ + (holds _ c.request.offset.toNat count + 0)
        rw [request, request_offset low, holds_shift, Nat.add_zero, Nat.add_pos_iff_pos_or_pos,
          holds_pos_iff]
        rfl

/-- Settling a chunk is the loop's business alone. -/
theorem Recorded.settled {outcome : Except Error Reply} {out : List WriteOut}
    (recorded : Recorded call s log) (settled : Settled s c outcome s' out) :
    Recorded call s' (log ++ out) := by
  have same : acks (log ++ out) = acks log := by
    rw [acks_append]
    cases settled <;> exact List.append_nil _
  obtain ⟨base, issuing, registered, undeclared, outstanding, covered⟩ := recorded
  cases settled with
  | refused large nothing =>
      refine ⟨base, issuing, registered, undeclared, outstanding, ?_⟩
      rw [same]
      exact covered
  | taken took positive within =>
      refine ⟨base, issuing, registered, undeclared, outstanding, ?_⟩
      rw [same]
      exact covered
  | failed downgraded error keeps nothing =>
      refine ⟨base, issuing, registered, undeclared, outstanding, ?_⟩
      rw [same]
      exact covered

theorem Recorded.stepped {e : WriteEvent} {out : List WriteOut} (recorded : Recorded call s log)
    (accounted : Accounted call s log) (stepped : Stepped call s e s' out) :
    Recorded call s' (log ++ out) := by
  cases stepped with
  | downgrade large =>
      rw [List.append_nil]
      exact ⟨recorded.base, recorded.issuing, recorded.registered, recorded.undeclared,
        recorded.outstanding, recorded.covered⟩
  | @issue between span spans running sound room took =>
      have none : acks (log ++ [.asks (call.request span.1 span.2)]) = acks log := by
        rw [acks_append]
        exact List.append_nil _
      refine ⟨recorded.base, recorded.issuing, recorded.registered, recorded.undeclared, ?_,
        fun p => ?_⟩
      · dsimp only [WriteProgress.chunk]
        rw [List.countP_append, recorded.outstanding]
        rfl
      · rw [none]
        exact recorded.covered p
  | reply found waits => exact recorded.reply accounted found waits
  | @answer index outcome c running full found came =>
      have some := (accounted.issued c (List.mem_of_getElem? found)).1
      have counted :=
          @WriteGroup.countP_eraseIdx_add _ _ _ _ (fun x : WriteChunk => x.outcome.isNone)
        found
      rw [came, Option.isNone_some, if_neg Bool.false_ne_true, Nat.add_zero] at counted
      apply Recorded.settled ?_ (acknowledge_settled some outcome)
      exact ⟨recorded.base, recorded.issuing, recorded.registered, recorded.undeclared,
        recorded.outstanding.trans counted, recorded.covered⟩
  | finish running full drained =>
      rw [List.append_nil]
      exact ⟨recorded.base, recorded.issuing, recorded.registered, recorded.undeclared,
        recorded.outstanding, recorded.covered⟩

/-- Where the call ends well, every byte of the data has been acknowledged once, in its place. -/
theorem tiles_of_ok (accounted : Accounted call s log) (finished : Finished call s)
    (came : s.result = some (.ok ())) (q : ℕ) :
    landed q (acks log) = holds q call.offset.toNat call.data.length := by
  obtain ⟨drained, concluded, rest⟩ := finished _ came
  have sound : s.failure = none := by
    rw [conclude] at concluded
    split at concluded
    · next sound => exact sound
    · cases concluded
  obtain ⟨queue, next⟩ := rest sound
  rcases Nat.lt_or_ge q call.offset.toNat with below | above
  · rw [accounted.landed_below below, holds, if_neg (by omega)]
  · obtain ⟨p, rfl⟩ := Nat.exists_eq_add_of_le above
    have all := accounted.all sound p
    have none : s.toCome call p = 0 := by
      have tail : call.data.length - s.spans.next = 0 := by omega
      rw [toCome, leftovers, drained, Spans.unasked, queue, tail]
      simp
    rw [none, Nat.add_zero] at all
    have shift := @holds_shift p 0 call.data.length call.offset.toNat
    rw [Nat.add_zero] at shift
    rw [all, shift]

end WriteSpan

/-- What a request of a write carries: the data's own bytes for its range. -/
theorem WriteSpan.carried_of_asked {call : WriteCall} {request : WriteAndxRequest} {length : ℕ}
    (asked : WriteSpan.Asked call request length) : ∃ start, start + length ≤ call.data.length ∧
      request.offset.toNat = call.offset.toNat + start ∧
      request.data = (call.data.drop start).take length := by
  obtain ⟨start, rfl, inside, low⟩ := asked
  exact ⟨start, inside, WriteSpan.request_offset low, rfl⟩

/-- **Writes account for every byte**, where no chunk is issued past 2^64. A call that is over
has nothing on the wire, and has put no byte back for its size twice. Where it ends well, the
acknowledged parts of its requests tile the span, each with the data's own bytes; where it
fails, it says how long the acknowledged run from the offset is, and so does the progress handle
from then on. -/
theorem writes_account {call : WriteCall} {downgraded : Bool} {progress : WriteProgress}
    {es : List WriteEvent} {s : WriteSpan} {log : List WriteOut} {result : Except ClientError Unit}
    (memory : call.data.length < 2 ^ 64) (deep : 1 ≤ call.depth)
    (registers : WriteProgress.new.register call.offset = .ok progress)
    (low : ∀ v ∈ (WriteSpan.machine call).visits (.start downgraded progress call.data) es,
      v.1.Low call v.2)
    (ran : (WriteSpan.machine call).run (.start downgraded progress call.data) es = some (s, log))
    (came : s.result = some result) :
    s.issued = [] ∧ s.progress.outstanding = 0 ∧
      (∀ p, held p (WriteSpan.putBacks log) ≤ 1) ∧
      (∀ ack ∈ WriteSpan.acks log, ∃ start length, ack.2 ≤ length ∧
        start + length ≤ call.data.length ∧ ack.1.offset.toNat = call.offset.toNat + start ∧
        ack.1.data = (call.data.drop start).take length) ∧
      (result = .ok () →
        ∀ q, WriteSpan.landed q (WriteSpan.acks log) =
          holds q call.offset.toNat call.data.length) ∧
      ∀ error, result = .error error → ∃ written source, error = .writePartial written source ∧
        (∀ p < written.toNat,
          WriteSpan.landed (call.offset.toNat + p) (WriteSpan.acks log) = 1) ∧
        WriteSpan.landed (call.offset.toNat + written.toNat) (WriteSpan.acks log) = 0 ∧
        ∀ later g out, WriteGroup.machine.run ⟨s.progress.release, [], .settle⟩ later =
          some (g, out) → g.progress.written = written.toNat := by
  have kept : (∀ v ∈ (WriteSpan.machine call).visits (.start downgraded progress call.data) es,
      v.1.Low call v.2) → s.Accounted call log ∧ s.Finished call ∧ s.Once call log ∧
        s.Recorded call log := by
    apply Machine.run_induction (P := fun done s log => (∀ v ∈ done, v.1.Low call v.2) →
      WriteSpan.Accounted call s log ∧ s.Finished call ∧ WriteSpan.Once call s log ∧
        WriteSpan.Recorded call s log) ?_ ?_ ran
    · exact fun _ => ⟨WriteSpan.accounted_start, WriteSpan.finished_start, WriteSpan.once_start,
        WriteSpan.recorded_start registers⟩
    · intro done s log e s' out before stepped within
      obtain ⟨accounted, finished, once, recorded⟩ :=
        before fun v member => within v (List.mem_append_left _ member)
      have stepped := WriteSpan.step_cases stepped
      exact ⟨accounted.stepped (within (s, e) (by simp)) stepped,
        finished.stepped accounted deep stepped, once.stepped accounted stepped,
        recorded.stepped accounted stepped⟩
  obtain ⟨accounted, finished, once, recorded⟩ := kept low
  obtain ⟨drained, concluded, -⟩ := finished result came
  refine ⟨drained, ?_, once.putBacks, fun ack member => ?_, fun fine => ?_, fun error failed => ?_⟩
  · rw [recorded.outstanding, drained]
    rfl
  · obtain ⟨length, asked, within⟩ := accounted.acks ack member
    obtain ⟨start, inside, offset, data⟩ := WriteSpan.carried_of_asked asked
    exact ⟨start, length, within, inside, offset, data⟩
  · rw [fine] at came
    exact WriteSpan.tiles_of_ok accounted finished came
  · rw [failed, WriteSpan.conclude] at concluded
    split at concluded
    · cases concluded
    · next source failure =>
        cases concluded
        have most : ∀ p, WriteSpan.landed (call.offset.toNat + p) (WriteSpan.acks log) ≤
            holds p 0 call.data.length :=
          fun p => le_trans (Nat.le_add_right _ _) (accounted.most p)
        have written : s.progress.written = s.progress.covered.prefixLen := by
          rw [WriteProgress.written, recorded.undeclared]
          rfl
        have short : s.progress.written < 2 ^ 64 := by
          rw [written]
          by_contra long
          have cell := Coverage.mem_of_lt_prefixLen (lt_of_lt_of_le memory (not_lt.mp long))
          have landed := (recorded.covered _).mp cell
          have none := most call.data.length
          rw [holds, if_neg (by omega)] at none
          omega
        have same : (UInt64.ofNat s.progress.written).toNat = s.progress.written :=
          UInt64.toNat_ofNat_of_lt' short
        refine ⟨_, source, rfl, fun p below => ?_, ?_, fun later g out ran' => ?_⟩
        · rw [same, written] at below
          have landed := (recorded.covered p).mp (Coverage.mem_of_lt_prefixLen below)
          have one := le_trans (most p) holds_le_one
          omega
        · rw [same, written]
          have hole := s.progress.covered.prefixLen_notMem
          rw [recorded.covered] at hole
          omega
        · rw [same]
          exact WriteGroup.written_of_released recorded.registered recorded.undeclared ran'

/-- A write of three bytes from the sixth on: two of them are taken, and then the third, of which
the reply claims more. -/
def threeBytesOut : WriteCall := ⟨⟨50, 16644, 0⟩, 1, 5, 4, [1, 2, 3]⟩

def takenInTwo : List WriteEvent :=
  [.issue false, .reply 0 (.ok (writeReply 2)), .answer 0, .issue false,
    .reply 0 (.ok (writeReply 9)), .answer 0, .finish]

theorem writes_account_three : ∃ progress s log,
    WriteProgress.new.register threeBytesOut.offset = .ok progress ∧
      (WriteSpan.machine threeBytesOut).run (.start false progress threeBytesOut.data) takenInTwo =
        some (s, log) ∧
      s.result = some (.ok ()) ∧
      ∀ q, WriteSpan.landed q (WriteSpan.acks log) = holds q 5 3 := by
  have happened : ((WriteSpan.machine threeBytesOut).run
      (.start false { WriteProgress.new with registered := true, issuing := true, base := 5 }
        [1, 2, 3])
      takenInTwo).map (fun end_ => (decide (end_.1.result = some (.ok ())))) = some true := by
    decide +kernel
  obtain ⟨⟨s, log⟩, ran, fine⟩ := Option.map_eq_some_iff.mp happened
  have came := of_decide_eq_true fine
  have writes :=
    @writes_account threeBytesOut false _ takenInTwo s log (.ok ()) (by decide) (by decide)
    rfl (by decide +kernel) ran came
  exact ⟨_, s, log, rfl, ran, came, writes.2.2.2.2.1 rfl⟩

/-- Two bytes at the last offset there is, a byte at a time: the second is put at the head of the
file, and the call succeeds. -/
theorem write_wraps_to_the_head : ¬ ∀ (call : WriteCall) (downgraded : Bool)
    (progress : WriteProgress) (es : List WriteEvent) (s : WriteSpan) (log : List WriteOut),
      call.data.length < 2 ^ 64 → 1 ≤ call.depth →
        WriteProgress.new.register call.offset = .ok progress →
          (WriteSpan.machine call).run (.start downgraded progress call.data) es = some (s, log) →
            s.result = some (.ok ()) → ∀ q, WriteSpan.landed q (WriteSpan.acks log) =
              holds q call.offset.toNat call.data.length := by
  intro claimed
  have happened : ((WriteSpan.machine ⟨⟨50, 16644, 0⟩, 1, 18446744073709551615, 1, [1, 2]⟩).run
      (.start false { WriteProgress.new with
        registered := true, issuing := true, base := 18446744073709551615 } [1, 2])
      [.issue false, .reply 0 (.ok (writeReply 1)), .answer 0, .issue false,
        .reply 0 (.ok (writeReply 1)), .answer 0, .finish]).map (fun end_ =>
          (decide (end_.1.result = some (.ok ())), (WriteSpan.acks end_.2).map fun ack =>
            (ack.1.offset.toNat, ack.2))) =
      some (true, [(18446744073709551615, 1), (0, 1)]) := by
    decide +kernel
  obtain ⟨⟨s, log⟩, ran, same⟩ := Option.map_eq_some_iff.mp happened
  obtain ⟨fine, acked⟩ := Prod.mk.inj same
  have tiles := claimed ⟨⟨50, 16644, 0⟩, 1, 18446744073709551615, 1, [1, 2]⟩ false _ _ s log
    (by decide) (by decide) rfl ran (of_decide_eq_true fine) 0
  rw [WriteSpan.landed, acked] at tiles
  exact absurd tiles (by decide)

end Smb1Client
