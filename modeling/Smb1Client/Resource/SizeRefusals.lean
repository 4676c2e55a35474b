import Smb1Client.Resource.ReadSpan
import Smb1Client.Resource.WriteSpan

/-!
What the chunk loops of `resource/file.rs` make of a size that is refused.

Whether a refused chunk has a second attempt to make is read off its `large`, which says when it
was issued and not how long it is. A chunk that is longer than the downgraded size is asked for
again in smaller ones; one that is not, and was issued before the downgrade, is asked for again as
it was.
-/

namespace Smb1Client

open Tiling Trace

/-- Two spans that have a position in common. -/
def Shares (a b : ℕ × ℕ) : Prop := ∃ q, 0 < holds q a.1 a.2 ∧ 0 < holds q b.1 b.2

theorem Spans.le_of_take {chunkSize length : ℕ} {more : Bool} {q q' : Spans} {s : ℕ × ℕ}
    (took : q.take chunkSize length more = some (s, q')) : s.2 ≤ chunkSize := by
  rw [take] at took
  split at took
  · cases took
    exact min_le_left _ _
  · split at took <;> cases took
    exact min_le_left _ _

theorem refusesTheSize_fails {status : NtStatus} (refused : refusesTheSize status = true) :
    status ≠ .END_OF_FILE ∧ status ≠ .SUCCESS := by
  constructor <;> rintro rfl <;> exact absurd refused (by decide)

/-! ## Reads -/

/-- The chunk size of a read after the downgrade. -/
def ReadCall.small (call : ReadCall) : ℕ := max (call.n.readChunkSize true) 1

namespace ReadSpan

/-- A step that asks for a span. -/
def Puts (call : ReadCall) (span : ℕ × ℕ) (s : ReadSpan) : ReadEvent → Prop
  | .issue _ => s.result = none ∧ ∃ next ∈ s.nextSpan call, next.1 = span
  | _ => False

/-- A reply that refuses a chunk for its size. -/
def Refuses (c : ReadChunk) (reply : Reply) (s : ReadSpan) (e : ReadEvent) : Prop :=
  ∃ index, e = .answer index (.ok reply) ∧ s.issued[index]? = some c ∧
    refusesTheSize reply.status = true

/-- What a refusal leads to: what is asked of the chunk later is smaller, and a chunk that was small
is not asked for again, does not record the connection small-buffer, and fails the read. -/
structure Heeded (call : ReadCall) (c : ReadChunk) (reply : Reply) (s s' : ReadSpan)
    (later : List (ReadSpan × ReadEvent)) : Prop where
  smaller : ∀ w ∈ later, ∀ span, Puts call span w.1 w.2 → Shares span c.span → span.2 < c.length
  reported : c.length ≤ call.small →
    (∀ w ∈ later, ∀ span, Puts call span w.1 w.2 → ¬ Shares span c.span) ∧
      s'.downgraded = s.downgraded ∧ s'.result = some (.error (.refused reply.status))

variable {call : ReadCall} {s s' : ReadSpan} {c : ReadChunk} {reply : Reply} {e : ReadEvent}
  {out : List ReadAndxRequest}

/-- A chunk on the wire that is not large was issued after the downgrade. -/
def Marked (s : ReadSpan) : Prop := ∀ c ∈ s.issued, c.large = false → s.downgraded = true

/-- A refused chunk is put back where it is large, and fails the read where it is not. -/
theorem settle_refused (refused : refusesTheSize reply.status = true) :
    s.settle c reply =
      if c.large then { s with downgraded := true, spans := s.spans.push c.start c.length }
      else { s with downgraded := true, result := some (.error (.refused reply.status)) } := by
  obtain ⟨notEnded, notSuccess⟩ := refusesTheSize_fails refused
  rw [settle]
  simp only [refused, Bool.or_true, Bool.true_and]
  split
  · rfl
  · rfl

/-- An answer leaves the flag set and the other chunks where they are. -/
theorem answered_keeps (outcome : Except Error Reply) :
    (s.answered c outcome).issued = s.issued ∧
      (s.downgraded = true → (s.answered c outcome).downgraded = true) := by
  cases outcome with
  | error error => exact ⟨rfl, id⟩
  | ok reply =>
      rw [answered, settle]
      dsimp only
      split
      · exact ⟨rfl, fun small => by rw [small, Bool.true_or]⟩
      · split
        · exact ⟨rfl, fun small => by rw [small, Bool.true_or]⟩
        · split
          · exact ⟨rfl, fun small => by rw [small, Bool.true_or]⟩
          · split
            · exact ⟨rfl, fun small => by rw [small, Bool.true_or]⟩
            · rw [takeData]
              split
              · exact ⟨rfl, fun small => by rw [small, Bool.true_or]⟩
              · dsimp only
                split <;> exact ⟨rfl, fun small => by rw [small, Bool.true_or]⟩

theorem downgraded_of_stepped (stepped : Stepped call s e s' out) (small : s.downgraded = true) :
    s'.downgraded = true := by
  cases stepped with
  | downgrade large => rfl
  | issue running room took => rw [small, Bool.true_or]
  | answer running full found => exact (answered_keeps _).2 small
  | finish running full none => exact small

theorem Marked.stepped (marked : s.Marked) (stepped : Stepped call s e s' out) : s'.Marked := by
  have kept := downgraded_of_stepped stepped
  intro c member notLarge
  cases stepped with
  | downgrade large => rfl
  | issue running room took =>
      rcases List.mem_append.mp member with before | new
      · exact kept (marked c before notLarge)
      · obtain rfl := List.mem_singleton.mp new
        rwa [Bool.not_eq_false'] at notLarge
  | answer running full found =>
      rw [(answered_keeps _).1] at member
      exact kept (marked c (List.mem_of_mem_eraseIdx member) notLarge)
  | finish running full none => exact kept (marked c member notLarge)

/-- What is asked for after the downgrade is small. -/
theorem Puts.le {span : ℕ × ℕ} (puts : Puts call span s e) (small : s.downgraded = true) :
    span.2 ≤ call.small := by
  cases e with
  | issue between =>
      obtain ⟨-, ⟨taken, spans⟩, next, rfl⟩ := puts
      rw [Option.mem_def, nextSpan, small] at next
      split at next
      · exact Spans.le_of_take next
      · cases next
  | downgrade => exact absurd puts id
  | answer index outcome => exact absurd puts id
  | finish => exact absurd puts id

theorem Puts.running {span : ℕ × ℕ} (puts : Puts call span s e) : s.result = none := by
  cases e with
  | issue between => exact puts.1
  | downgrade => exact absurd puts id
  | answer index outcome => exact absurd puts id
  | finish => exact absurd puts id

theorem Refuses.stepped (refuses : Refuses c reply s e)
    (stepped : (machine call).step s e = some (s', out)) :
    s.result = none ∧ c ∈ s.issued ∧ ∃ issued, s' =
      if c.large then { s with issued, downgraded := true, spans := s.spans.push c.start c.length }
      else
        { s with issued, downgraded := true, result := some (.error (.refused reply.status)) } := by
  obtain ⟨index, rfl, found, refused⟩ := refuses
  have stepped : step call s (.answer index (.ok reply)) = some (s', out) := stepped
  cases step_cases stepped with
  | answer running full found' =>
      cases found.symm.trans found'
      exact ⟨running, List.mem_of_getElem? found, _, settle_refused refused⟩

/-- After a refusal that is heeded, whatever is asked for is smaller, or the read has failed. -/
def Heeding (call : ReadCall) (c : ReadChunk) (s : ReadSpan) : Prop :=
  s.downgraded = true ∧ call.small < c.length ∨ s.result.isSome = true

theorem Heeding.stepped (heeding : Heeding call c s) (stepped : Stepped call s e s' out) :
    Heeding call c s' := by
  rcases heeding with ⟨small, longer⟩ | ended
  · exact Or.inl ⟨downgraded_of_stepped stepped small, longer⟩
  · cases stepped with
    | downgrade large => exact Or.inr ended
    | issue running room took => exact Or.inr ended
    | answer running full found => rw [running] at ended; cases ended
    | finish running full none => exact Or.inr rfl

/-- **A refused read is heeded** exactly where the chunk, if it is large, is longer than the
downgraded size. -/
theorem heeded_iff {downgraded : Bool} {buffer : Bytes} {es : List ReadEvent} {final : ReadSpan}
    {log : List ReadAndxRequest} {before after : List (ReadSpan × ReadEvent)}
    (ran : (machine call).run (start downgraded buffer) es = some (final, log))
    (split : (machine call).visits (start downgraded buffer) es = before ++ (s, e) :: after)
    (refuses : Refuses c reply s e) (stepped : (machine call).step s e = some (s', out)) :
    Heeded call c reply s s' after ↔ (c.large = true → call.small < c.length) := by
  obtain ⟨running, member, issued, rfl⟩ := refuses.stepped stepped
  constructor
  · intro heeded large
    by_contra small
    have failed := (heeded.reported (not_lt.mp small)).2.2
    rw [if_pos large] at failed
    cases running.symm.trans failed
  · intro shrinks
    have heeding : ∀ w ∈ after, Heeding call c w.1 := by
      intro w later
      obtain ⟨mid, after, rfl⟩ := List.append_of_mem later
      have held := Machine.holds_until (Refuses c reply) (fun _ _ => False) (P := fun _ => True)
        (Q := Heeding call c) trivial (fun _ _ _ _ _ _ => trivial) ?_
        (fun s e s' out _ heeding _ stepped => heeding.stepped (step_cases stepped))
        ran split refuses
      · rcases held with ⟨-, heeding | ⟨_, _, never⟩⟩
        · exact heeding
        · exact absurd never id
      · intro s e s' out _ refuses stepped
        obtain ⟨-, -, issued, rfl⟩ := refuses.stepped stepped
        split
        · next large => exact Or.inl ⟨rfl, shrinks large⟩
        · exact Or.inr rfl
    constructor
    · intro w later span puts _
      rcases heeding w later with ⟨small, longer⟩ | ended
      · exact lt_of_le_of_lt (puts.le small) longer
      · rw [puts.running] at ended
        cases ended
    · intro small
      have notLarge : c.large = false :=
        Bool.eq_false_iff.mpr fun large => absurd (shrinks large) (not_lt.mpr small)
      have marked : Marked s := Machine.visits_invariant (P := Marked) (v := (s, e))
        (fun c none => absurd none List.not_mem_nil)
        (fun s e s' out marked stepped => marked.stepped (step_cases stepped))
        (by rw [split]; simp)
      rw [if_neg (Bool.eq_false_iff.mp notLarge)]
      refine ⟨fun w later span puts _ => ?_, (marked c member notLarge).symm, rfl⟩
      rcases heeding w later with ⟨-, longer⟩ | ended
      · exact absurd longer (not_lt.mpr small)
      · rw [puts.running] at ended
        cases ended

end ReadSpan

/-! ## Writes -/

/-- The chunk size of a write after the downgrade. -/
def WriteCall.small (call : WriteCall) : ℕ := max (call.n.writeChunkSize true) 1

namespace WriteSpan

/-- A step that asks for a span. -/
def Puts (call : WriteCall) (span : ℕ × ℕ) (s : WriteSpan) : WriteEvent → Prop
  | .issue _ => s.result = none ∧ ∃ next ∈ s.nextSpan call, next.1 = span
  | _ => False

/-- A chunk that was refused for its size, and that the loop gets to. -/
def Refuses (c : WriteChunk) (reply : Reply) (s : WriteSpan) (e : WriteEvent) : Prop :=
  ∃ index, e = .answer index ∧ s.issued[index]? = some c ∧ c.outcome = some (.ok reply) ∧
    refusesTheSize reply.status = true

/-- What a refusal leads to: what is asked of the chunk later is smaller, and a chunk that was small
is not asked for again, does not record the connection small-buffer, and is what the write fails
with, unless it had failed before. -/
structure Heeded (call : WriteCall) (c : WriteChunk) (reply : Reply) (s s' : WriteSpan)
    (later : List (WriteSpan × WriteEvent)) : Prop where
  smaller : ∀ w ∈ later, ∀ span, Puts call span w.1 w.2 → Shares span c.span → span.2 < c.length
  reported : c.length ≤ call.small →
    (∀ w ∈ later, ∀ span, Puts call span w.1 w.2 → ¬ Shares span c.span) ∧
      s'.downgraded = s.downgraded ∧
      (s.failure = none → s'.failure = some (.refused reply.status) ∧
        ∀ w ∈ later, w.2 = .finish → ∃ written,
          w.1.conclude = .error (.writePartial written (.refused reply.status)))

variable {call : WriteCall} {s s' : WriteSpan} {c : WriteChunk} {reply : Reply} {e : WriteEvent}
  {out : List WriteOut}

/-- A chunk on the wire that is not large was issued after the downgrade. -/
def Marked (s : WriteSpan) : Prop := ∀ c ∈ s.issued, c.large = false → s.downgraded = true

/-- A refused chunk is put back where it is large, and fails the write where it is not. -/
theorem acknowledge_refused (refused : refusesTheSize reply.status = true) :
    (s.acknowledge c (.ok reply)).1 =
      if c.large then { s with downgraded := true, spans := s.spans.push c.start c.length }
      else { s with
        downgraded := true
        failure := s.failure.or (some (.refused reply.status)) } := by
  obtain ⟨-, notSuccess⟩ := refusesTheSize_fails refused
  rw [acknowledge]
  simp only [refused, Bool.or_true, Bool.true_and]
  split
  · rfl
  · rfl

theorem downgraded_of_stepped (stepped : Stepped call s e s' out) (small : s.downgraded = true) :
    s'.downgraded = true := by
  cases stepped with
  | downgrade large => rfl
  | issue running sound room took => rw [small, Bool.true_or]
  | reply found waits => exact small
  | answer running full found came => exact (acknowledge_keeps _).2.1 small
  | finish running full none => exact small

theorem failure_of_stepped {error : ClientError} (stepped : Stepped call s e s' out)
    (failed : s.failure = some error) : s'.failure = some error := by
  cases stepped with
  | downgrade large => exact failed
  | issue running sound room took => exact failed
  | reply found waits => exact failed
  | answer running full found came => exact (acknowledge_keeps _).2.2 error failed
  | finish running full none => exact failed

theorem Marked.stepped (marked : s.Marked) (stepped : Stepped call s e s' out) : s'.Marked := by
  have kept := downgraded_of_stepped stepped
  intro c member notLarge
  cases stepped with
  | downgrade large => rfl
  | issue running sound room took =>
      rcases List.mem_append.mp member with before | new
      · exact kept (marked c before notLarge)
      · obtain rfl := List.mem_singleton.mp new
        rwa [Bool.not_eq_false'] at notLarge
  | @reply index outcome c' found waits =>
      rcases List.mem_or_eq_of_mem_set member with before | rfl
      · exact marked c before notLarge
      · exact marked c' (List.mem_of_getElem? found) notLarge
  | answer running full found came =>
      rw [(acknowledge_keeps _).1] at member
      exact kept (marked c (List.mem_of_mem_eraseIdx member) notLarge)
  | finish running full none => exact kept (marked c member notLarge)

/-- What is asked for after the downgrade is small. -/
theorem Puts.le {span : ℕ × ℕ} (puts : Puts call span s e) (small : s.downgraded = true) :
    span.2 ≤ call.small := by
  cases e with
  | issue between =>
      obtain ⟨-, ⟨taken, spans⟩, next, rfl⟩ := puts
      rw [Option.mem_def, nextSpan, small] at next
      split at next
      · exact Spans.le_of_take next
      · cases next
  | _ => exact absurd puts id

theorem Puts.sound {span : ℕ × ℕ} (puts : Puts call span s e) : s.failure = none := by
  cases e with
  | issue between =>
      obtain ⟨-, next, taken, -⟩ := puts
      rw [Option.mem_def, nextSpan] at taken
      split at taken
      · next room => exact room.1
      · cases taken
  | _ => exact absurd puts id

theorem Refuses.stepped (refuses : Refuses c reply s e)
    (stepped : (machine call).step s e = some (s', out)) :
    c ∈ s.issued ∧ ∃ issued, s' =
      if c.large then { s with issued, downgraded := true, spans := s.spans.push c.start c.length }
      else { s with
        issued
        downgraded := true
        failure := s.failure.or (some (.refused reply.status)) } := by
  obtain ⟨index, rfl, found, came, refused⟩ := refuses
  have stepped : step call s (.answer index) = some (s', out) := stepped
  cases step_cases stepped with
  | answer running full found' came' =>
      cases found.symm.trans found'
      cases came.symm.trans came'
      exact ⟨List.mem_of_getElem? found, _, acknowledge_refused refused⟩

/-- After a refusal that is heeded, whatever is asked for is smaller, or the write has failed. -/
def Heeding (call : WriteCall) (c : WriteChunk) (s : WriteSpan) : Prop :=
  s.downgraded = true ∧ call.small < c.length ∨ s.failure.isSome = true

theorem Heeding.stepped (heeding : Heeding call c s) (stepped : Stepped call s e s' out) :
    Heeding call c s' := by
  rcases heeding with ⟨small, longer⟩ | failed
  · exact Or.inl ⟨downgraded_of_stepped stepped small, longer⟩
  · obtain ⟨error, failed⟩ := Option.isSome_iff_exists.mp failed
    exact Or.inr (by rw [failure_of_stepped stepped failed]; rfl)

/-- What a refusal does to the rest of the run. A chunk that is put back while the write has failed
already is not asked for again. -/
theorem heeded_iff {downgraded : Bool} {progress : WriteProgress} {es : List WriteEvent}
    {final : WriteSpan} {log : List WriteOut} {before after : List (WriteSpan × WriteEvent)}
    (ran : (machine call).run (start downgraded progress call.data) es = some (final, log))
    (split : (machine call).visits (start downgraded progress call.data) es =
      before ++ (s, e) :: after)
    (refuses : Refuses c reply s e) (stepped : (machine call).step s e = some (s', out)) :
    Heeded call c reply s s' after ↔ (c.large = true → call.small < c.length ∨
      s.failure.isSome = true ∧ s.downgraded = true) := by
  obtain ⟨member, issued, rfl⟩ := refuses.stepped stepped
  constructor
  · intro heeded large
    by_contra neither
    obtain ⟨longer, before⟩ := not_or.mp neither
    obtain ⟨-, same, failed⟩ := heeded.reported (not_lt.mp longer)
    rw [if_pos large] at same failed
    refine before ⟨?_, same.symm⟩
    cases sound : s.failure with
    | none => cases sound.symm.trans (failed sound).1
    | some error => rfl
  · intro shrinks
    have heeding : ∀ w ∈ after, Heeding call c w.1 := by
      intro w later
      obtain ⟨mid, after, rfl⟩ := List.append_of_mem later
      have held := Machine.holds_until (fun s e => Refuses c reply s e ∧
          (c.large = true → call.small < c.length ∨ s.failure.isSome = true)) (fun _ _ => False)
        (P := fun _ => True) (Q := Heeding call c) trivial (fun _ _ _ _ _ _ => trivial) ?_
        (fun s e s' out _ heeding _ stepped => heeding.stepped (step_cases stepped))
        ran split ⟨refuses, fun large => (shrinks large).imp_right And.left⟩
      · rcases held with ⟨-, heeding | ⟨_, _, never⟩⟩
        · exact heeding
        · exact absurd never id
      · rintro s e s' out _ ⟨refuses, shrinks⟩ stepped
        obtain ⟨-, issued, rfl⟩ := refuses.stepped stepped
        split
        · next large => exact (shrinks large).imp_left fun longer => ⟨rfl, longer⟩
        · refine Or.inr ?_
          cases s.failure <;> rfl
    have unasked : c.length ≤ call.small →
        ∀ w ∈ after, ∀ span, ¬ Puts call span w.1 w.2 := by
      intro small w later span puts
      rcases heeding w later with ⟨-, longer⟩ | failed
      · exact absurd longer (not_lt.mpr small)
      · rw [puts.sound] at failed
        cases failed
    constructor
    · intro w later span puts _
      rcases heeding w later with ⟨small, longer⟩ | failed
      · exact lt_of_le_of_lt (puts.le small) longer
      · rw [puts.sound] at failed
        cases failed
    · intro small
      refine ⟨fun w later span puts _ => unasked small w later span puts, ?_⟩
      cases large : c.large with
      | true =>
          obtain ⟨failed, downgraded⟩ := (shrinks large).resolve_left (not_lt.mpr small)
          refine ⟨downgraded.symm, fun sound => ?_⟩
          rw [sound] at failed
          cases failed
      | false =>
          have marked : Marked s := Machine.visits_invariant (P := Marked) (v := (s, e))
            (fun c none => absurd none List.not_mem_nil)
            (fun s e s' out marked stepped => marked.stepped (step_cases stepped))
            (by rw [split]; simp)
          refine ⟨(marked c member large).symm, fun sound => ⟨?_, fun w later last => ?_⟩⟩
          · rw [if_neg Bool.false_ne_true, sound]
            rfl
          · obtain ⟨mid, after, rfl⟩ := List.append_of_mem later
            have held := Machine.holds_until (fun s e => Refuses c reply s e ∧ s.failure = none)
              (fun _ _ => False) (P := fun _ => True)
              (Q := fun s => s.failure = some (.refused reply.status)) trivial
              (fun _ _ _ _ _ _ => trivial) ?_
              (fun s e s' out _ failed _ stepped =>
                failure_of_stepped (step_cases stepped) failed)
              ran split ⟨refuses, sound⟩
            · rcases held with ⟨-, failed | ⟨_, _, never⟩⟩
              · exact ⟨_, by rw [conclude, failed]⟩
              · exact absurd never id
            · rintro s e s' out _ ⟨refuses, sound⟩ stepped
              obtain ⟨-, issued, rfl⟩ := refuses.stepped stepped
              rw [if_neg (Bool.eq_false_iff.mp large)]
              dsimp only
              rw [sound]
              rfl

end WriteSpan

/-- **A size refusal is heeded**, in every run of a read or a write, exactly where the chunk it
comes to, if that was issued before the downgrade, is longer than the downgraded size; or where the
write had failed and the connection was downgraded already. -/
theorem size_refusals_heeded (downgraded : Bool) :
    (∀ call buffer es final log before s e after c reply s' out,
      (ReadSpan.machine call).run (.start downgraded buffer) es = some (final, log) →
      (ReadSpan.machine call).visits (.start downgraded buffer) es = before ++ (s, e) :: after →
      ReadSpan.Refuses c reply s e → (ReadSpan.machine call).step s e = some (s', out) →
        (ReadSpan.Heeded call c reply s s' after ↔ (c.large = true → call.small < c.length))) ∧
    ∀ call progress es final log before s e after c reply s' out,
      (WriteSpan.machine call).run (.start downgraded progress call.data) es = some (final, log) →
      (WriteSpan.machine call).visits (.start downgraded progress call.data) es =
        before ++ (s, e) :: after →
      WriteSpan.Refuses c reply s e → (WriteSpan.machine call).step s e = some (s', out) →
        (WriteSpan.Heeded call c reply s s' after ↔ (c.large = true → call.small < c.length ∨
          s.failure.isSome = true ∧ s.downgraded = true)) :=
  ⟨fun _ _ _ _ _ _ _ _ _ _ _ _ _ => ReadSpan.heeded_iff,
    fun _ _ _ _ _ _ _ _ _ _ _ _ _ => WriteSpan.heeded_iff⟩

/-- `STATUS_INVALID_PARAMETER`. -/
def refusal (command : UInt8) : Reply where
  message :=
    { header := { SmbHeader.request command with status := .INVALID_PARAMETER }
      bytes := .replicate 35 0
      wordCount := 0
      byteCount := 0
      fits := by decide }
  transaction := none

/-- A read and a write of a byte more than the downgraded size. -/
def longRead : ReadCall := ⟨⟨50, 4356, CAP_LARGE_READX⟩, 1, 0, 4⟩

def longWrite : WriteCall := ⟨⟨50, 4356, CAP_LARGE_WRITEX⟩, 1, 0, 4, .replicate 3333 7⟩

theorem size_refusals_heeded_long :
    (∃ s s' c later, ReadSpan.Refuses c (refusal Command.READ_ANDX) s
        (.answer 0 (.ok (refusal Command.READ_ANDX))) ∧ c.length = 3333 ∧ later ≠ [] ∧
        ReadSpan.Heeded longRead c (refusal Command.READ_ANDX) s s' later) ∧
      ∃ s s' c later, WriteSpan.Refuses c (refusal Command.WRITE_ANDX) s (.answer 0) ∧
        c.length = 3333 ∧ later ≠ [] ∧
          WriteSpan.Heeded longWrite c (refusal Command.WRITE_ANDX) s s' later := by
  constructor
  · have happened : ((ReadSpan.machine longRead).run (.start false (.replicate 3333 0))
        [.issue false, .answer 0 (.ok (refusal Command.READ_ANDX)),
          .issue false]).isSome = true := by
      decide +kernel
    have first : ((ReadSpan.machine longRead).step (.start false (.replicate 3333 0))
        (.issue false)).map (·.1.issued.map (·.length)) = some [3333] := by decide +kernel
    obtain ⟨⟨final, log⟩, ran⟩ := Option.isSome_iff_exists.mp happened
    obtain ⟨s, _, _, issued, tail, -⟩ := Machine.run_cons ran
    obtain ⟨s', _, _, refused, more, -⟩ := Machine.run_cons tail
    obtain ⟨_, _, _, again, -, -⟩ := Machine.run_cons more
    rw [issued] at first
    obtain ⟨c, only, long⟩ := List.map_eq_singleton_iff.mp (Option.some.inj first)
    have refuses : ReadSpan.Refuses c (refusal Command.READ_ANDX) s
        (.answer 0 (.ok (refusal Command.READ_ANDX))) := ⟨0, rfl, by rw [only]; rfl, by decide⟩
    refine ⟨s, s', c, (ReadSpan.machine longRead).visits s' [.issue false], refuses, long,
      by rw [Machine.visits_cons again]; exact List.cons_ne_nil _ _, ?_⟩
    refine ((size_refusals_heeded false).1 longRead (.replicate 3333 0) _ final log
      [(.start false (.replicate 3333 0), .issue false)] s _ _ c _ s' _ ran ?_ refuses refused).mpr
        fun _ => by rw [long]; decide
    rw [Machine.visits_cons issued, Machine.visits_cons refused]
    rfl
  · have happened : ((WriteSpan.machine longWrite).run (.start false .new longWrite.data)
        [.issue false, .reply 0 (.ok (refusal Command.WRITE_ANDX)), .answer 0,
          .issue false]).isSome = true := by
      decide +kernel
    have first : (((WriteSpan.machine longWrite).step (.start false .new longWrite.data)
        (.issue false)).bind fun result => (WriteSpan.machine longWrite).step result.1
          (.reply 0 (.ok (refusal Command.WRITE_ANDX)))).map
            (·.1.issued.map fun c => (c.length, c.outcome)) =
          some [(3333, some (.ok (refusal Command.WRITE_ANDX)))] := by
      decide +kernel
    obtain ⟨⟨final, log⟩, ran⟩ := Option.isSome_iff_exists.mp happened
    obtain ⟨s₁, _, _, issued, tail, -⟩ := Machine.run_cons ran
    obtain ⟨s, _, _, replied, tail, -⟩ := Machine.run_cons tail
    obtain ⟨s', _, _, refused, more, -⟩ := Machine.run_cons tail
    obtain ⟨_, _, _, again, -, -⟩ := Machine.run_cons more
    rw [issued, Option.bind_some, replied] at first
    obtain ⟨c, only, of⟩ := List.map_eq_singleton_iff.mp (Option.some.inj first)
    obtain ⟨long, came⟩ := Prod.ext_iff.mp of
    have long : c.length = 3333 := long
    have refuses : WriteSpan.Refuses c (refusal Command.WRITE_ANDX) s (.answer 0) :=
      ⟨0, rfl, by rw [only]; rfl, came, by decide⟩
    refine ⟨s, s', c, (WriteSpan.machine longWrite).visits s' [.issue false], refuses, long,
      by rw [Machine.visits_cons again]; exact List.cons_ne_nil _ _, ?_⟩
    refine ((size_refusals_heeded false).2 longWrite .new _ final log
      [(.start false .new longWrite.data, .issue false),
        (s₁, .reply 0 (.ok (refusal Command.WRITE_ANDX)))] s _ _ c _ s' _ ran ?_ refuses
          refused).mpr
        fun _ => Or.inl (by rw [long]; decide)
    rw [Machine.visits_cons issued, Machine.visits_cons replied, Machine.visits_cons refused]
    rfl

/-- A write of a byte that is refused for its size is asked for again as it was, and records the
connection small-buffer. -/
def oneByte : WriteCall := ⟨⟨50, 16644, 0⟩, 1, 0, 4, [7]⟩

theorem small_refusal_is_asked_again :
    1 ≤ oneByte.small ∧
      ((WriteSpan.machine oneByte).run (.start false .new oneByte.data)
        [.issue false, .reply 0 (.ok (refusal Command.WRITE_ANDX)), .answer 0, .issue false]).map
          (fun result => (result.1.downgraded, result.1.failure.isSome, result.2)) =
        some (true, false, [.asks (oneByte.request 0 1), .putBack 0 1,
          .asks (oneByte.request 0 1)]) := by
  decide +kernel

end Smb1Client
