import Smb1Client.Resource.Reader

/-!
What a hole in a fill comes to: bytes that came with an uncovered position before them.

`read_to_end` fails on it. A reader keeps what lies before the hole; whether a fill has one,
and what the reader then makes of it, is read off the answers to its chunks.
-/

namespace Smb1Client

open Tiling Trace

/-- Bytes came with a hole before them. -/
def Fill.Beyond (fill : Fill) : Prop :=
  ∃ hole p, hole < p ∧ hole ∉ fill.covered.cells ∧ p ∈ fill.covered.cells

/-- `read_to_end` does not cut a file short at a hole. -/
theorem readToEnd_of_beyond {fill : Fill} {buffer : Bytes} (beyond : fill.Beyond)
    (within : ∀ p ∈ fill.covered.cells, p < buffer.length) :
    ∃ start length, readToEnd buffer (.ok fill) = .error (.unfilledSpan start length) := by
  obtain ⟨hole, p, before, uncovered, covered⟩ := beyond
  have below := within p covered
  have spec := fill.covered.gap_spec (Nat.zero_lt_of_lt below)
  rw [readToEnd]
  cases gap : fill.covered.gap buffer.length with
  | none =>
      rw [gap] at spec
      exact absurd (spec hole (lt_trans before below)) uncovered
  | some span =>
      obtain ⟨first, stop⟩ := span
      rw [gap] at spec
      obtain ⟨-, upto, filled, missing, -⟩ := spec
      have short : stop < buffer.length := by
        by_contra past
        have first_le : first ≤ hole := by
          by_contra after
          exact uncovered (filled hole (not_le.mp after))
        exact missing p (by dsimp only; omega) (by dsimp only at past ⊢; omega) covered
      exact ⟨first, stop - first, if_pos short⟩

namespace ReadSpan

/-- A chunk that begins at a position is answered without bytes. -/
def EmptyAt (v : ReadSpan × ReadEvent) (a : ℕ) : Prop :=
  ∃ index reply, v.2 = .answer index (.ok reply) ∧ ∃ c, v.1.issued[index]? = some c ∧ c.start = a ∧
    (reply.status = .END_OF_FILE ∨ reply.readData = some [])

/-- An answer brings the byte of a position. -/
def BringsAt (v : ReadSpan × ReadEvent) (p : ℕ) : Prop :=
  ∃ index reply, v.2 = .answer index (.ok reply) ∧ ∃ c, v.1.issued[index]? = some c ∧
    ∃ data, reply.readData = some data ∧ c.start ≤ p ∧ p < c.start + (data.take c.length).length

/-- What has come of a span, in terms of the answers so far: `brought` are the positions they
brought, and `ended` those at which they brought nothing. A position given up without an
error lies behind one of these. -/
structure Traced (brought ended : Set ℕ) (s : ReadSpan) : Prop where
  covered : s.covered.cells = brought
  given : ∀ a ∈ ended, s.atEnd = true ∧ a < s.spans.next ∧ a ∉ brought ∧ s.toCome a = 0
  holes : (∀ error, s.result ≠ some (.error error)) → ∀ p < s.spans.next, p ∉ brought →
    s.toCome p = 0 → ∃ a ∈ ended, a ≤ p

variable {call : ReadCall} {size : ℕ} {s s' : ReadSpan} {c : ReadChunk} {e : ReadEvent}
  {brought ended : Set ℕ}

theorem traced_start {downgraded : Bool} {buffer : Bytes} :
    Traced ∅ ∅ (start downgraded buffer) := by
  refine ⟨Coverage.cells_empty, fun a none => absurd none (Set.notMem_empty a), ?_⟩
  intro _ p below
  exact absurd below (Nat.not_lt_zero p)

/-- An answer brings bytes, or none, to its own chunk. -/
theorem emptyAt_answer {index : ℕ} {outcome : Except Error Reply} {a : ℕ}
    (found : s.issued[index]? = some c) :
    EmptyAt (s, .answer index outcome) a ↔ c.start = a ∧ ∃ reply, outcome = .ok reply ∧
      (reply.status = .END_OF_FILE ∨ reply.readData = some []) := by
  constructor
  · rintro ⟨index, reply, same, c', found', begins, empty⟩
    cases same
    cases found.symm.trans found'
    exact ⟨begins, reply, rfl, empty⟩
  · rintro ⟨begins, reply, rfl, empty⟩
    exact ⟨index, reply, rfl, c, found, begins, empty⟩

theorem bringsAt_answer {index : ℕ} {outcome : Except Error Reply} {p : ℕ}
    (found : s.issued[index]? = some c) :
    BringsAt (s, .answer index outcome) p ↔ ∃ reply, outcome = .ok reply ∧
      ∃ data, reply.readData = some data ∧
        p ∈ Set.Ico c.start (c.start + (data.take c.length).length) := by
  constructor
  · rintro ⟨index, reply, same, c', found', data, came, inside⟩
    cases same
    cases found.symm.trans found'
    exact ⟨reply, rfl, data, came, inside⟩
  · rintro ⟨reply, rfl, data, came, inside⟩
    exact ⟨index, reply, rfl, c, found, data, came, inside⟩

/-- A step that is no answer brings nothing, and nothing that is nothing. -/
theorem unanswered (other : ∀ index outcome, e ≠ .answer index outcome) :
    {p | BringsAt (s, e) p} = ∅ ∧ {a | EmptyAt (s, e) a} = ∅ := by
  constructor <;> rw [Set.eq_empty_iff_forall_notMem]
  · rintro p ⟨index, reply, same, -⟩
    exact other index _ same
  · rintro a ⟨index, reply, same, -⟩
    exact other index _ same

/-- An answer that brings no bytes, and does not say so either. -/
theorem Traced.silent {index : ℕ} {outcome : Except Error Reply}
    (found : s.issued[index]? = some c)
    (unread : ∀ reply, outcome = .ok reply → reply.status ≠ .END_OF_FILE ∧ reply.readData = none) :
    {p | BringsAt (s, .answer index outcome) p} = ∅ ∧
      {a | EmptyAt (s, .answer index outcome) a} = ∅ := by
  constructor <;> rw [Set.eq_empty_iff_forall_notMem] <;> intro p member
  · obtain ⟨reply, came, data, brings, -⟩ := (bringsAt_answer found).mp member
    rw [(unread reply came).2] at brings
    cases brings
  · obtain ⟨-, reply, came, empty⟩ := (emptyAt_answer found).mp member
    obtain ⟨uneof, none⟩ := unread reply came
    rcases empty with eof | nothing
    · exact uneof eof
    · rw [none] at nothing
      cases nothing

theorem Traced.answered {index : ℕ} {outcome : Except Error Reply}
    (traced : Traced brought ended s) (accounted : Accounted call size s)
    (running : s.result = none)
    (found : s.issued[index]? = some c)
    (settled : Settled { s with issued := s.issued.eraseIdx index } c outcome s') :
    Traced (brought ∪ {p | BringsAt (s, .answer index outcome) p})
      (ended ∪ {a | EmptyAt (s, .answer index outcome) a}) s' := by
  have loose := accounted.loose found
  have before := fun p => @toCome_eraseIdx s c p index found
  have unfailed : ∀ error, s.result ≠ some (.error error) := by
    rw [running]
    exact fun error failed => by cases failed
  have holes := traced.holes unfailed
  have some := loose.some
  have inside := loose.inside
  have start : holds c.start c.start c.length = 1 := holds_of_mem le_rfl (by omega)
  cases settled with
  | @refused reply refuses large =>
      obtain ⟨nothing, silent⟩ := @Traced.silent s c index (.ok reply) found fun reply' came => by
        cases came
        exact refusesTheSize_unread refuses
      rw [nothing, silent, Set.union_empty, Set.union_empty]
      refine ⟨traced.covered, fun a member => ?_, fun _ p below missing none => ?_⟩
      · obtain ⟨atEnd, below, missing, none⟩ := traced.given a member
        refine ⟨atEnd, below, missing, ?_⟩
        rw [toCome_push, ← before a]
        exact none
      · rw [toCome_push, ← before p] at none
        exact holes p below missing none
  | @ended reply empty =>
      have nothing : {p | BringsAt (s, .answer index (.ok reply)) p} = ∅ := by
        rw [Set.eq_empty_iff_forall_notMem]
        intro p member
        obtain ⟨reply', came, data, brings, upto⟩ := (bringsAt_answer found).mp member
        cases came
        rcases empty with eof | none
        · rw [readData_of_endOfFile eof] at brings
          cases brings
        · rw [none] at brings
          cases brings
          rw [List.take_nil, List.length_nil, Nat.add_zero, Set.Ico_self] at upto
          exact upto
      have here : {a | EmptyAt (s, .answer index (.ok reply)) a} = {c.start} := by
        ext a
        rw [Set.mem_ofPred_eq, emptyAt_answer found, Set.mem_singleton_iff]
        exact ⟨fun both => both.1.symm, fun same => ⟨same.symm, reply, rfl, empty⟩⟩
      rw [nothing, here, Set.union_empty]
      refine ⟨traced.covered, fun a member => ?_, fun _ p below missing none => ?_⟩
      · rcases member with old | rfl
        · obtain ⟨-, below, missing, none⟩ := traced.given a old
          rw [before a] at none
          exact ⟨rfl, below, missing, (Nat.add_eq_zero_iff.mp none).2⟩
        · refine ⟨rfl, lt_of_lt_of_le (by omega) inside, ?_, ?_⟩
          · rw [← traced.covered]
            intro cell
            rw [loose.fresh c.start cell] at start
            cases start
          · have once := loose.once c.start
            rw [start] at once
            exact Nat.le_zero.mp (Nat.le_of_add_le_add_left once)
      · by_cases chunk : c.start ≤ p ∧ p < c.start + c.length
        · exact ⟨c.start, Or.inr rfl, chunk.1⟩
        · have apart := before p
          rw [holds, if_neg chunk, Nat.zero_add] at apart
          obtain ⟨a, member, upto⟩ := holes p below missing (apart.trans none)
          exact ⟨a, Or.inl member, upto⟩
  | @data reply whole got covered brings cut nonempty covers =>
      have short : got.length ≤ c.length := by
        rw [cut]
        exact List.length_take_le _ _
      have room : c.start + got.length ≤ s.buffer.length := by
        have next := accounted.spans.next
        rw [accounted.sized]
        dsimp only at inside
        omega
      have here : {p | BringsAt (s, .answer index (.ok reply)) p} =
          Set.Ico c.start (c.start + got.length) := by
        ext p
        rw [Set.mem_ofPred_eq, bringsAt_answer found]
        constructor
        · rintro ⟨reply', came, data, brings', upto⟩
          cases came
          cases brings.symm.trans brings'
          rw [cut]
          exact upto
        · intro upto
          refine ⟨reply, rfl, whole, brings, ?_⟩
          rw [← cut]
          exact upto
      have nothing : {a | EmptyAt (s, .answer index (.ok reply)) a} = ∅ := by
        rw [Set.eq_empty_iff_forall_notMem]
        intro a member
        obtain ⟨-, reply', came, empty⟩ := (emptyAt_answer found).mp member
        cases came
        rcases empty with eof | none
        · rw [readData_of_endOfFile eof] at brings
          cases brings
        · rw [none] at brings
          cases brings
          rw [List.take_nil] at cut
          exact nonempty cut
      rw [here, nothing, Set.union_empty]
      have cells := covers.trans (congrArg (· ∪ _) traced.covered)
      have toCome' := fun p => @toCome_data { s with issued := s.issued.eraseIdx index } p c.start
        c.length got covered short (length_copyAt room)
      have apart : ∀ p, holds p c.start c.length = holds p c.start got.length +
          holds p (c.start + got.length) (c.length - got.length) := by
        intro p
        rw [← holds_add]
        congr 1
        omega
      have next : (if got.length < c.length then
          s.spans.push (c.start + got.length) (c.length - got.length) else s.spans).next =
            s.spans.next := by split <;> rfl
      refine ⟨cells, fun a member => ?_, fun _ p below missing none => ?_⟩
      · obtain ⟨atEnd, below, missing, none⟩ := traced.given a member
        rw [before a, apart a] at none
        refine ⟨atEnd, lt_of_lt_of_eq below next.symm, ?_, ?_⟩
        · rintro (old | new)
          · exact missing old
          · rw [holds_of_mem new.1 new.2] at none
            omega
        · rw [toCome']
          omega
      · rw [toCome'] at none
        obtain ⟨old, new⟩ := not_or.mp missing
        apply holes p (lt_of_lt_of_eq below next) old
        have outside : holds p c.start got.length = 0 := if_neg new
        rw [before p, apart p, outside]
        omega
  | failed downgraded error keeps unread =>
      obtain ⟨nothing, silent⟩ := Traced.silent found fun reply came =>
        ⟨(unread reply came).1, (unread reply came).2.1⟩
      rw [nothing, silent, Set.union_empty, Set.union_empty]
      refine ⟨traced.covered, fun a member => ?_, fun sound => absurd rfl (sound error)⟩
      obtain ⟨atEnd, below, missing, none⟩ := traced.given a member
      rw [before a] at none
      exact ⟨atEnd, below, missing, (Nat.add_eq_zero_iff.mp none).2⟩

theorem Traced.stepped {out : List ReadAndxRequest} (traced : Traced brought ended s)
    (accounted : Accounted call size s) (stepped : Stepped call s e s' out) :
    Traced (brought ∪ {p | BringsAt (s, e) p}) (ended ∪ {a | EmptyAt (s, e) a}) s' := by
  cases stepped with
  | downgrade large =>
      obtain ⟨nothing, silent⟩ := @unanswered s .downgrade fun index outcome same => by cases same
      rw [nothing, silent, Set.union_empty, Set.union_empty]
      exact ⟨traced.covered, traced.given, traced.holes⟩
  | @issue between span spans running room took =>
      obtain ⟨nothing, silent⟩ :=
        @unanswered s (.issue between) fun index outcome same => by cases same
      rw [nothing, silent, Set.union_empty, Set.union_empty]
      have taken := accounted.taken took
      have apart := fun p => @toCome_issue call s p between span spans taken
      refine ⟨traced.covered, fun a member => ?_, fun sound p below missing none => ?_⟩
      · obtain ⟨atEnd, below, missing, none⟩ := traced.given a member
        exact ⟨atEnd, lt_of_lt_of_le below taken.next, missing, (apart a).trans none⟩
      · rw [apart p] at none
        apply traced.holes sound p ?_ missing none
        -- what is past the tail's beginning is to come
        by_contra tail
        have next := taken.within.next
        have held := @holds_of_mem p s.spans.next (s.buffer.length - s.spans.next) (not_lt.mp tail)
          (by dsimp only at below; omega)
        rw [toCome, Spans.unasked, held_cons, held] at none
        omega
  | answer running full found => exact traced.answered accounted running found (answered_settled
      (accounted.loose found) _)
  | finish running full none =>
      obtain ⟨nothing, silent⟩ := @unanswered s .finish fun index outcome same => by cases same
      rw [nothing, silent, Set.union_empty, Set.union_empty]
      refine ⟨traced.covered, traced.given, fun _ => traced.holes ?_⟩
      rw [running]
      exact fun error failed => by cases failed

/-- A fill has a hole before bytes that came exactly where an answer without bytes was to a
chunk that begins below a byte another one brought. -/
theorem Traced.beyond_iff {fill : Fill} (traced : Traced brought ended s)
    (accounted : Accounted call size s) (finished : Finished size s)
    (came : s.result = some (.ok fill)) :
    fill.Beyond ↔ ∃ a ∈ ended, ∃ p ∈ brought, a ≤ p := by
  have sound : ∀ error, s.result ≠ some (.error error) := by
    rw [came]
    exact fun error failed => by cases failed
  obtain ⟨rfl, issued, queue, -⟩ := finished fill came
  constructor
  · rintro ⟨hole, p, before, uncovered, covered⟩
    have below := (accounted.covered p covered).1
    rw [traced.covered] at uncovered covered
    have none : s.toCome hole = 0 := by
      have outside : holds hole s.spans.next (s.buffer.length - s.spans.next) = 0 :=
        if_neg (by omega)
      simp only [toCome, inFlight, issued, Spans.unasked, queue, held_cons, held_nil, List.map_nil,
        outside]
    obtain ⟨a, member, upto⟩ := traced.holes sound hole (lt_trans before below) uncovered none
    exact ⟨a, member, p, covered, le_trans upto (le_of_lt before)⟩
  · rintro ⟨a, member, p, covered, upto⟩
    have missing := (traced.given a member).2.2.1
    refine ⟨a, p, lt_of_le_of_ne upto ?_, ?_, ?_⟩
    · rintro rfl
      exact missing covered
    · rw [traced.covered]
      exact missing
    · rw [traced.covered]
      exact covered

theorem traced_run {downgraded : Bool} {buffer : Bytes} {es : List ReadEvent}
    {log : List ReadAndxRequest} (deep : 1 ≤ call.depth)
    (ran : (machine call).run (start downgraded buffer) es = some (s, log)) :
    Traced {p | ∃ v ∈ (machine call).visits (start downgraded buffer) es, BringsAt v p}
      {a | ∃ v ∈ (machine call).visits (start downgraded buffer) es, EmptyAt v a} s ∧
        Accounted call buffer.length s ∧ Finished buffer.length s := by
  apply Machine.run_induction (P := fun done s _ =>
    Traced {p | ∃ v ∈ done, BringsAt v p} {a | ∃ v ∈ done, EmptyAt v a} s ∧
      Accounted call buffer.length s ∧ Finished buffer.length s) ?_ ?_ ran
  · refine ⟨?_, accounted_start, finished_start⟩
    simpa using traced_start
  · intro done s log e s' out ⟨traced, accounted, finished⟩ stepped
    have stepped := step_cases stepped
    refine ⟨?_, accounted.stepped stepped, finished.stepped accounted deep stepped⟩
    have more : ∀ W : ReadSpan × ReadEvent → ℕ → Prop,
        {p | ∃ v ∈ done ++ [(s, e)], W v p} = {p | ∃ v ∈ done, W v p} ∪ {p | W (s, e) p} := by
      intro W
      ext p
      simp [or_and_right, exists_or]
    rw [more, more]
    exact traced.stepped accounted stepped

end ReadSpan

namespace FileReader

variable {n : Negotiated} {fid : UInt16} {depth : ℕ} {r : FileReader}

/-- The fill a poll starts where there is nothing to give. -/
def fillStart (n : Negotiated) (depth : ℕ) (r : FileReader) : ReadSpan :=
  .start r.downgraded (.replicate (r.fillSize n depth) 0)

/-- Polls alone bring a reader to the end of the file. -/
def Ends (n : Negotiated) (fid : UInt16) (depth : ℕ) (r : FileReader) : Prop :=
  ∃ (rooms : List ℕ) (r' : FileReader) (log : List ReaderOut),
    (machine n fid depth).run r (rooms.map .poll) = some (r', log) ∧
      ∃ room, 1 ≤ room ∧ .ready room [] ∈ log

/-- A fill that is over is taken up, and told to have reached the end where it did. -/
theorem ends_of_atEnd {filled : ReadSpan} {fill : Fill} (empty : r.unread = [])
    (unended : r.atEnd = false) (came : filled.result = some (.ok fill))
    (sized : fill.covered.prefixLen ≤ filled.buffer.length) (atEnd : fill.atEnd = true) :
    Ends n fid depth { r with filling := some filled } := by
  let r₁ := r.takeUp filled fill
  have held : r₁.buffer.length - r₁.taken = fill.covered.prefixLen := by
    change (filled.buffer.take _).length - 0 = _
    rw [List.length_take, Nat.sub_zero, Nat.min_eq_left sized]
  have ended : r₁.atEnd = true := by
    change (fill.atEnd || _) = true
    rw [atEnd, Bool.true_or]
  have idle : ∀ room, serve { r with filling := some filled } room = none := by
    intro room
    rw [serve_eq_none_iff]
    exact ⟨empty, unended⟩
  have first : poll n depth { r with filling := some filled } fill.covered.prefixLen =
      (r₁.serve fill.covered.prefixLen).getD (r₁, .pending) := by
    rw [poll, idle]
    dsimp only [Option.getD_some]
    rw [came]
    rfl
  -- the first poll takes all there is before the hole, and the second finds the end
  obtain ⟨r₂, out, served, gone, ended₂⟩ : ∃ r₂ out,
      r₁.serve fill.covered.prefixLen = some (r₂, out) ∧ r₂.buffer.length - r₂.taken = 0 ∧
        r₂.atEnd = true := by
    rw [serve, held]
    dsimp only
    split
    · refine ⟨_, _, rfl, ?_, ended⟩
      dsimp only
      omega
    · exact ⟨_, _, rfl, by omega, ended⟩
  have second : poll n depth r₂ 1 = (r₂, .ready 1 []) := by
    rw [poll, serve, gone, if_neg (lt_irrefl 0), if_pos ended₂]
  rw [served, Option.getD_some] at first
  refine ⟨[fill.covered.prefixLen, 1], r₂, [out, .ready 1 []], ?_, 1, le_rfl, by simp⟩
  rw [List.map_cons, List.map_cons, List.map_nil, Machine.run, machine]
  dsimp only
  rw [step, first, Option.bind_some, Machine.run]
  dsimp only
  rw [step, second, Option.bind_some, Machine.run]
  rfl

end FileReader

/-- **Holes in a fill.** A reader that fills goes on past a hole before bytes that came, or
fails, exactly where there is none to go past: where no chunk answered without bytes begins
below a byte that another answer brought. -/
theorem holes_end_streams {n : Negotiated} {fid : UInt16} {depth : ℕ} {r : FileReader}
    {es : List ReadEvent} {s : ReadSpan} {log : List ReadAndxRequest} {fill : Fill}
    (deep : 1 ≤ depth) (empty : r.unread = []) (unended : r.atEnd = false)
    (ran : (ReadSpan.machine (r.call n fid depth)).run (r.fillStart n depth) es = some (s, log))
    (came : s.result = some (.ok fill)) :
    (fill.Beyond → ¬ FileReader.Ends n fid depth { r with filling := some s }) ↔
      ∀ v ∈ (ReadSpan.machine (r.call n fid depth)).visits (r.fillStart n depth) es,
        ∀ w ∈ (ReadSpan.machine (r.call n fid depth)).visits (r.fillStart n depth) es,
          ∀ a p, ReadSpan.EmptyAt v a → ReadSpan.BringsAt w p → p < a := by
  obtain ⟨traced, accounted, finished⟩ :=
    @ReadSpan.traced_run (r.call n fid depth) s _ _ es log deep ran
  have beyond := traced.beyond_iff accounted finished came
  constructor
  · intro passes v visited w visited' a p nothing brings
    by_contra below
    have hole : fill.Beyond :=
      beyond.mpr ⟨a, ⟨v, visited, nothing⟩, p, ⟨w, visited', brings⟩, not_lt.mp below⟩
    have atEnd := (traced.given a ⟨v, visited, nothing⟩).1
    obtain ⟨rfl, -⟩ := finished fill came
    have sized : s.covered.prefixLen ≤ s.buffer.length := by
      by_contra past
      have covered := s.covered.mem_of_lt_prefixLen (not_le.mp past)
      have below := (accounted.covered _ covered).1
      have next := accounted.spans.next
      rw [accounted.sized] at below
      omega
    exact passes hole (FileReader.ends_of_atEnd empty unended came sized atEnd)
  · intro apart hole
    obtain ⟨a, ⟨v, visited, nothing⟩, p, ⟨w, visited', brings⟩, upto⟩ := beyond.mp hole
    exact absurd (apart v visited w visited' a p nothing brings) (not_lt.mpr upto)

/-- Two chunks, of which the first is answered without bytes and the second with one. -/
def holed : List ReadEvent :=
  [.issue false, .issue false, .answer 0 (.ok endReply), .answer 0 (.ok (readReply [9])),
    .issue false, .answer 0 (.ok endReply), .finish]

theorem holes_end_streams_holed : ∃ s log fill,
    (ReadSpan.machine ((FileReader.new false).call ⟨50, 4356, 0⟩ 1 2)).run
        ((FileReader.new false).fillStart ⟨50, 4356, 0⟩ 2) holed = some (s, log) ∧
      s.result = some (.ok fill) ∧
      ((fill.Beyond → ¬ FileReader.Ends ⟨50, 4356, 0⟩ 1 2
          { FileReader.new false with filling := some s }) ↔
        ∀ v ∈ (ReadSpan.machine ((FileReader.new false).call ⟨50, 4356, 0⟩ 1 2)).visits
            ((FileReader.new false).fillStart ⟨50, 4356, 0⟩ 2) holed,
          ∀ w ∈ (ReadSpan.machine ((FileReader.new false).call ⟨50, 4356, 0⟩ 1 2)).visits
              ((FileReader.new false).fillStart ⟨50, 4356, 0⟩ 2) holed,
            ∀ a p, ReadSpan.EmptyAt v a → ReadSpan.BringsAt w p → p < a) := by
  have happened : ((ReadSpan.machine ((FileReader.new false).call ⟨50, 4356, 0⟩ 1 2)).run
      ((FileReader.new false).fillStart ⟨50, 4356, 0⟩ 2) holed).map (·.1.result.map (·.isOk)) =
        some (some true) := by decide +kernel
  obtain ⟨⟨s, log⟩, ran, ended⟩ := Option.map_eq_some_iff.mp happened
  obtain ⟨result, came, fine⟩ := Option.map_eq_some_iff.mp ended
  cases result with
  | error error => cases fine
  | ok fill =>
      exact ⟨s, log, fill, ran, came,
        @holes_end_streams ⟨50, 4356, 0⟩ 1 2 (.new false) holed s log fill (by decide) rfl rfl ran
          came⟩

/-- The reader ends before the byte that came: there is a hole of one chunk before it. -/
theorem reader_ends_at_a_hole : ¬ ∀ (n : Negotiated) (fid : UInt16) (depth : ℕ) (r : FileReader)
    (es : List ReadEvent) (s : ReadSpan) (log : List ReadAndxRequest) (fill : Fill),
      1 ≤ depth → r.unread = [] → r.atEnd = false →
        (ReadSpan.machine (r.call n fid depth)).run (r.fillStart n depth) es = some (s, log) →
          s.result = some (.ok fill) → fill.Beyond →
            ¬ FileReader.Ends n fid depth { r with filling := some s } := by
  intro claimed
  have happened : ((ReadSpan.machine ((FileReader.new false).call ⟨50, 4356, 0⟩ 1 2)).run
      ((FileReader.new false).fillStart ⟨50, 4356, 0⟩ 2) holed).map
        (fun end_ => end_.1.result.map fun result => result.toOption.map fun fill =>
          (fill.covered.ranges, fill.atEnd)) = some (some (some ([(3332, 3333)], true))) := by
    decide +kernel
  obtain ⟨⟨s, log⟩, ran, ended⟩ := Option.map_eq_some_iff.mp happened
  obtain ⟨result, came, fine⟩ := Option.map_eq_some_iff.mp ended
  cases result with
  | error error => cases fine
  | ok fill =>
      obtain ⟨ranges, atEnd⟩ := Prod.mk.inj (Option.some.inj fine)
      have covered : fill.covered.cells = {3332} := by
        rw [Coverage.cells, ranges]
        ext p
        simp [RangeList.cells]
        omega
      have beyond : fill.Beyond :=
          ⟨0, 3332, by decide, by rw [covered]; simp, by rw [covered]; simp⟩
      apply claimed _ 1 2 (.new false) holed s log fill (by decide) rfl rfl ran came beyond
      apply FileReader.ends_of_atEnd rfl rfl came ?_ atEnd
      have front : fill.covered.prefixLen = 0 := by
        rw [Coverage.prefixLen_eq_iff, covered]
        exact ⟨fun m below => absurd below (Nat.not_lt_zero m), by simp⟩
      rw [front]
      exact Nat.zero_le _

end Smb1Client
