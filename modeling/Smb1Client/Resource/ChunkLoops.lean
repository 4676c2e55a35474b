import Smb1Client.Resource.ReadSpan
import Smb1Client.Resource.WriteSpan

/-!
What both chunk loops of `resource/file.rs` do with a span, whatever the server answers.

A `Pump` is what they have in common: what is still to be asked for, what is on the wire, and
the connection's small-buffer flag. An answer brings some of a chunk's bytes, ends the chunk, or
puts all of it back, which happens to a chunk once and only while it is large; so a pump asks
no more often than there are bytes, and twice its depth (`Pump.Budget.moves`). Both loops are
pumps, a read as `ReadSpan.pump` and a write as `WriteSpan.pump`.
-/

namespace Smb1Client

open Tiling Trace

/-- A chunk on the wire, and whether it was issued before the downgrade. -/
structure Flying where
  start : ℕ
  length : ℕ
  large : Bool

def Flying.span (c : Flying) : ℕ × ℕ := (c.start, c.length)

/-- What is still to be asked for of a span and what is on the wire of it, with the
connection's small-buffer flag. -/
structure Pump where
  spans : Spans
  flight : List Flying
  downgraded : Bool

namespace Pump

inductive Move where
  | quiet
  | ask (span : ℕ × ℕ)
  | back (c : Flying)
  | short (c : Flying) (count : ℕ)
  | gone (c : Flying)

variable {length depth : ℕ} {p p' : Pump} {move : Move} {c : Flying} {q : ℕ}

/-- What a move does. A chunk comes off the wire with all of it put back, where it was large;
with what is behind some bytes of it put back; or for good. -/
inductive Moves (length depth : ℕ) (p : Pump) : Move → Pump → Prop
  | quiet {downgraded : Bool} (keeps : p.downgraded = true → downgraded = true) :
      Moves length depth p .quiet { p with downgraded }
  | ask {downgraded : Bool} {chunkSize : ℕ} {span : ℕ × ℕ} {spans : Spans}
      (keeps : p.downgraded = true → downgraded = true) (room : p.flight.length < depth)
      (taken : p.spans.Taken chunkSize length span spans) :
      Moves length depth p (.ask span)
        ⟨spans, p.flight ++ [⟨span.1, span.2, !downgraded⟩], downgraded⟩
  | back {index : ℕ} {c : Flying} (found : p.flight[index]? = some c) (large : c.large = true) :
      Moves length depth p (.back c)
        ⟨p.spans.push c.start c.length, p.flight.eraseIdx index, true⟩
  | short {index count : ℕ} {c : Flying} (found : p.flight[index]? = some c) (some : 1 ≤ count)
      (less : count < c.length) :
      Moves length depth p (.short c count)
        { p with
          spans := p.spans.push (c.start + count) (c.length - count)
          flight := p.flight.eraseIdx index }
  | gone {index : ℕ} {c : Flying} {downgraded : Bool} (found : p.flight[index]? = some c)
      (keeps : p.downgraded = true → downgraded = true) :
      Moves length depth p (.gone c) { p with flight := p.flight.eraseIdx index, downgraded }

/-! ## What is asked for, and what is put back -/

/-- How many spans still to be asked for hold a position, and how many on the wire. -/
def unasked (length : ℕ) (p : Pump) (q : ℕ) : ℕ := held q (p.spans.unasked length)
def flying (p : Pump) (q : ℕ) : ℕ := held q (p.flight.map Flying.span)

/-- A position is still to be asked for or on the wire once at most. -/
structure Account (length : ℕ) (p : Pump) : Prop where
  spans : p.spans.Within length
  flight : ∀ c ∈ p.flight, 1 ≤ c.length ∧ c.start + c.length ≤ p.spans.next
  once : ∀ q, p.unasked length q + p.flying q ≤ 1

theorem account_start (downgraded : Bool) : Account length ⟨.start, [], downgraded⟩ where
  spans := Spans.within_start
  flight := fun c none => absurd none List.not_mem_nil
  once q := by
    have one := @holds_le_one q 0 length
    simpa [unasked, flying, Spans.start, Spans.unasked] using one

theorem flying_eraseIdx {index : ℕ} (found : p.flight[index]? = some c) (q : ℕ) :
    p.flying q = holds q c.start c.length +
      held q ((p.flight.eraseIdx index).map Flying.span) := by
  have span : (p.flight.map Flying.span)[index]? = some c.span := by
    rw [List.getElem?_map, found]
    rfl
  rw [flying, held_eraseIdx span, List.eraseIdx_map]
  rfl

/-- What a move puts back of a position. -/
def Move.backs (q : ℕ) : Move → ℕ
  | .back c => holds q c.start c.length
  | .short c count => holds q (c.start + count) (c.length - count)
  | _ => 0

/-- What a move asks for of a position. -/
def Move.asks (q : ℕ) : Move → ℕ
  | .ask span => holds q span.1 span.2
  | _ => 0

theorem Move.backs_of_asks {move : Move} (asks : 0 < move.asks q) : move.backs q = 0 := by
  cases move with
  | ask span => rfl
  | _ => exact absurd asks (lt_irrefl 0)

/-- What is asked for goes to the wire, and nothing is to be asked for again unless it is put
back. -/
theorem Moves.unasked_add (moves : Moves length depth p move p') (q : ℕ) :
    p'.unasked length q + move.asks q = p.unasked length q + move.backs q := by
  cases moves with
  | ask keeps room taken =>
      have apart := taken.held q
      simp only [unasked, Move.asks, Move.backs]
      omega
  | quiet keeps => rfl
  | gone found keeps => rfl
  | _ =>
      simp only [unasked, Spans.unasked, Spans.push, held_cons, Move.asks, Move.backs]
      omega

/-- What comes off the wire is put back at most. -/
theorem Moves.toCome_le (moves : Moves length depth p move p') (q : ℕ) :
    p'.unasked length q + p'.flying q ≤ p.unasked length q + p.flying q := by
  have conserved := moves.unasked_add q
  cases moves with
  | quiet keeps => exact le_rfl
  | ask keeps room taken =>
      simp only [flying, List.map_append, held_append, List.map_cons, List.map_nil, held_cons,
        held_nil, Flying.span, Move.asks, Move.backs] at conserved ⊢
      omega
  | back found large =>
      have apart := flying_eraseIdx found q
      simp only [flying, Move.asks, Move.backs] at conserved apart ⊢
      omega
  | @short index count c found some less =>
      have apart := flying_eraseIdx found q
      have cut := @holds_add q c.start count (c.length - count)
      rw [Nat.add_sub_cancel' (Nat.le_of_lt less)] at cut
      simp only [flying, Move.asks, Move.backs] at conserved apart ⊢
      omega
  | gone found keeps =>
      have apart := flying_eraseIdx found q
      simp only [flying, Move.asks, Move.backs] at conserved apart ⊢
      omega

theorem Account.moves (account : p.Account length) (moves : Moves length depth p move p') :
    p'.Account length := by
  have once q := (moves.toCome_le q).trans (account.once q)
  have rest {index : ℕ} (c : Flying) (member : c ∈ p.flight.eraseIdx index) :=
    account.flight c (List.mem_of_mem_eraseIdx member)
  cases moves with
  | quiet keeps => exact ⟨account.spans, account.flight, once⟩
  | ask keeps room taken =>
      refine ⟨taken.within, fun c member => ?_, once⟩
      rcases List.mem_append.mp member with before | new
      · exact ⟨(account.flight c before).1, (account.flight c before).2.trans taken.next⟩
      · obtain rfl := List.mem_singleton.mp new
        exact ⟨taken.some, taken.inside⟩
  | back found large =>
      obtain ⟨some, inside⟩ := account.flight _ (List.mem_of_getElem? found)
      exact ⟨account.spans.push some inside, rest, once⟩
  | short found some less =>
      obtain ⟨-, inside⟩ := account.flight _ (List.mem_of_getElem? found)
      exact ⟨account.spans.push (by omega) (by omega), rest, once⟩
  | gone found keeps => exact ⟨account.spans, rest, once⟩

/-! ## How often is asked -/

/-- How many bytes are still to come. -/
def work (length : ℕ) (p : Pump) : ℕ :=
  total (p.spans.unasked length) + total (p.flight.map Flying.span)

/-- How many chunks may still be put back whole: the large ones on the wire, and before the
downgrade as many as the wire holds. -/
def refusable (depth : ℕ) (p : Pump) : ℕ :=
  if p.downgraded then p.flight.countP (·.large) else depth

/-- What `asked` requests have been spent on: bytes that have come, chunks that were put back
whole, and what is on the wire. -/
structure Budget (length depth : ℕ) (p : Pump) (asked : ℕ) : Prop where
  room : p.flight.length ≤ depth
  spent : asked + p.work length + p.refusable depth ≤ length + depth + p.flight.length

theorem budget_start (downgraded : Bool) : Budget length depth ⟨.start, [], downgraded⟩ 0 where
  room := Nat.zero_le _
  spent := by
    simp only [work, refusable, Spans.start, Spans.unasked, List.map_nil, total_cons, total_nil,
      List.countP_nil, List.length_nil]
    split <;> omega

/-- The requests a move puts. -/
def Move.requests : Move → ℕ
  | .ask _ => 1
  | _ => 0

theorem work_eraseIdx {index : ℕ} (found : p.flight[index]? = some c) :
    total (p.flight.map Flying.span) =
      c.length + total ((p.flight.eraseIdx index).map Flying.span) := by
  have span : (p.flight.map Flying.span)[index]? = some c.span := by
    rw [List.getElem?_map, found]
    rfl
  rw [total_eraseIdx span, List.eraseIdx_map]
  rfl

theorem length_eraseIdx {index : ℕ} (found : p.flight[index]? = some c) :
    p.flight.length = (p.flight.eraseIdx index).length + 1 := by
  obtain ⟨below, -⟩ := List.getElem?_eq_some_iff.mp found
  rw [List.length_eraseIdx_of_lt below]
  omega

theorem countP_eraseIdx {index : ℕ} (found : p.flight[index]? = some c) :
    p.flight.countP (·.large) =
      (p.flight.eraseIdx index).countP (·.large) + if c.large then 1 else 0 := by
  generalize p.flight = flight at found
  induction flight generalizing index with
  | nil => cases found
  | cons c' flight ih =>
      cases index with
      | zero =>
          cases found
          rw [List.eraseIdx_cons_zero, List.countP_cons]
      | succ index =>
          rw [List.eraseIdx_cons_succ, List.countP_cons, List.countP_cons, ih found]
          omega

/-- What may still be put back does not grow while nothing is issued. -/
theorem refusable_mono (p' : Pump) (room : p.flight.length ≤ depth)
    (fewer : p'.flight.countP (·.large) ≤ p.flight.countP (·.large))
    (keeps : p.downgraded = true → p'.downgraded = true) :
    p'.refusable depth ≤ p.refusable depth := by
  have most := List.countP_le_length (p := fun c : Flying => c.large) (l := p.flight)
  rw [refusable, refusable]
  cases before : p.downgraded with
  | true =>
      rw [keeps before, if_pos rfl, if_pos rfl]
      exact fewer
  | false =>
      rw [if_neg Bool.false_ne_true]
      split
      · exact fewer.trans (most.trans room)
      · exact le_rfl

theorem work_push {start left : ℕ} {flight : List Flying} {downgraded : Bool} :
    work length ⟨p.spans.push start left, flight, downgraded⟩ =
      left + work length { p with flight } := by
  simp only [work, Spans.unasked, Spans.push, total_cons]
  omega

theorem work_of_found (length : ℕ) {index : ℕ} (found : p.flight[index]? = some c) :
    p.work length = c.length + work length { p with flight := p.flight.eraseIdx index } := by
  have same := work_eraseIdx found
  simp only [work]
  omega

/-- **A move keeps the budget**: it spends a byte, a whole chunk put back, or the wire's room. -/
theorem Budget.moves {asked : ℕ} (budget : p.Budget length depth asked) (account : p.Account length)
    (moves : Moves length depth p move p') : p'.Budget length depth (asked + move.requests) := by
  obtain ⟨room, spent⟩ := budget
  cases moves with
  | @quiet downgraded keeps =>
      have less := refusable_mono { p with downgraded } room le_rfl keeps
      exact ⟨room, (Nat.add_le_add_left less _).trans spent⟩
  | @ask downgraded chunkSize span spans keeps space taken =>
      have same := taken.total
      have refuses : refusable depth
          ⟨spans, p.flight ++ [⟨span.1, span.2, !downgraded⟩], downgraded⟩ ≤ p.refusable depth := by
        cases downgraded with
        | true => exact refusable_mono _ room (by simp) fun _ => rfl
        | false =>
            have large : p.downgraded = false :=
                Bool.eq_false_iff.mpr fun small => nomatch keeps small
            rw [refusable, refusable, large]
            exact le_rfl
      have worked : work length ⟨spans, p.flight ++ [⟨span.1, span.2, !downgraded⟩], downgraded⟩ =
          p.work length := by
        simp only [work, List.map_append, total_append, List.map_cons, List.map_nil, total_cons,
          total_nil, Flying.span]
        omega
      have longer : (p.flight ++ [(⟨span.1, span.2, !downgraded⟩ : Flying)]).length =
          p.flight.length + 1 :=
        List.length_append
      refine ⟨le_of_eq_of_le longer space, ?_⟩
      rw [worked, longer, Move.requests]
      omega
  | @back index c found large =>
      have fewer := length_eraseIdx found
      have counted := countP_eraseIdx found
      have most := List.countP_le_length (p := fun c : Flying => c.large)
        (l := p.flight.eraseIdx index)
      rw [large, if_pos rfl] at counted
      have refuses :
          refusable depth ⟨p.spans.push c.start c.length, p.flight.eraseIdx index, true⟩ + 1 ≤
          p.refusable depth := by
        rw [refusable, refusable, if_pos rfl]
        split <;> dsimp only <;> omega
      refine ⟨by dsimp only; omega, ?_⟩
      have worked := work_of_found length found
      rw [work_push, ← worked]
      change asked + 0 + _ + _ ≤ _
      dsimp only
      omega
  | @short index count c found some less =>
      have fewer := length_eraseIdx found
      have counted := countP_eraseIdx found
      have refuses := refusable_mono { p with
        spans := p.spans.push (c.start + count) (c.length - count)
        flight := p.flight.eraseIdx index } room (by dsimp only; omega) id
      refine ⟨by dsimp only; omega, ?_⟩
      have worked := work_of_found length found
      rw [work_push]
      change asked + 0 + _ + _ ≤ _
      dsimp only
      omega
  | @gone index c downgraded found keeps =>
      have fewer := length_eraseIdx found
      have counted := countP_eraseIdx found
      have some := (account.flight c (List.mem_of_getElem? found)).1
      have refuses := refusable_mono { p with
        flight := p.flight.eraseIdx index
        downgraded } room (by dsimp only; omega) keeps
      refine ⟨by dsimp only; omega, ?_⟩
      have worked := work_of_found length found
      change asked + 0 + work length { p with flight := p.flight.eraseIdx index } + _ ≤ _
      dsimp only
      omega

/-- A pump asks no more often than there are bytes, and twice its depth. -/
theorem Budget.asked_le {asked : ℕ} (budget : p.Budget length depth asked) :
    asked ≤ length + 2 * depth := by
  have room := budget.room
  have spent := budget.spent
  omega

end Pump

/-! ## Reads -/

def ReadChunk.flying (c : ReadChunk) : Flying := ⟨c.start, c.length, c.large⟩

namespace ReadSpan

variable {call : ReadCall} {size q : ℕ} {s s' : ReadSpan} {c : ReadChunk} {e : ReadEvent}
  {out : List ReadAndxRequest}

def pump (s : ReadSpan) : Pump where
  spans := s.spans
  flight := s.issued.map ReadChunk.flying
  downgraded := s.downgraded

/-- A step that asks for a position. -/
def Asks (call : ReadCall) (q : ℕ) (s : ReadSpan) : ReadEvent → Prop
  | .issue _ => ∃ next ∈ s.nextSpan call, 0 < holds q next.1.1 next.1.2
  | _ => False

/-- A reply to a chunk that holds a position. -/
def Answers (q : ℕ) (s : ReadSpan) (e : ReadEvent) (c : ReadChunk) (reply : Reply) : Prop :=
  ∃ index, e = .answer index (.ok reply) ∧ s.issued[index]? = some c ∧ 0 < holds q c.start c.length

/-- A step that puts a position back: its chunk was refused for its size and had been issued before
the downgrade, or was answered with some bytes, and none of them the position's. -/
def PutsBack (q : ℕ) (s : ReadSpan) (e : ReadEvent) : Prop :=
  ∃ c reply, Answers q s e c reply ∧
    (refusesTheSize reply.status = true ∧ c.large = true ∨
      ∃ data, reply.readData = some data ∧ 1 ≤ data.length ∧ c.start + data.length ≤ q)

/-- A step that finds no bytes at a position. -/
def Empties (q : ℕ) (s : ReadSpan) (e : ReadEvent) : Prop :=
  ∃ c reply, Answers q s e c reply ∧ (reply.status = .END_OF_FILE ∨ reply.readData = some [])

theorem unasked_eq (sized : s.buffer.length = size) :
    s.pump.unasked size q = Tiling.held q (s.spans.unasked s.buffer.length) := by
  rw [Pump.unasked, sized]
  rfl

theorem toCome_eq (sized : s.buffer.length = size) :
    s.toCome q = s.pump.unasked size q + s.pump.flying q := by
  rw [unasked_eq sized, Pump.flying, toCome, inFlight, pump, List.map_map]
  rfl

theorem account_pump (accounted : Accounted call size s) : s.pump.Account size where
  spans := accounted.spans
  flight c member := by
    obtain ⟨c, issued, rfl⟩ := List.mem_map.mp member
    obtain ⟨some, inside, -⟩ := accounted.issued c issued
    exact ⟨some, inside⟩
  once q := by
    rw [← toCome_eq accounted.sized]
    exact accounted.once q

theorem asks_iff {between : Bool} {span : ℕ × ℕ} {spans : Spans}
    (next : s.nextSpan call = some (span, spans)) :
    Asks call q s (.issue between) ↔ 0 < holds q span.1 span.2 := by
  constructor
  · rintro ⟨next', came, holds⟩
    cases next.symm.trans came
    exact holds
  · exact fun holds => ⟨(span, spans), next, holds⟩

/-- An answer takes its chunk off the wire. -/
theorem moves_of_settled (size : ℕ) {index : ℕ} {outcome : Except Error Reply}
    (found : s.issued[index]? = some c)
    (settled : Settled { s with issued := s.issued.eraseIdx index } c outcome s') :
    ∃ move, Pump.Moves size call.depth s.pump move s'.pump ∧ move.requests = 0 ∧
      (∀ q, move.asks q = 0) ∧ ∀ q, 0 < move.backs q → PutsBack q s (.answer index outcome) := by
  have flies : s.pump.flight[index]? = some c.flying := by
    rw [pump, List.getElem?_map, found]
    rfl
  have rest : (s.issued.eraseIdx index).map ReadChunk.flying = s.pump.flight.eraseIdx index := by
    rw [pump, List.eraseIdx_map]
  cases settled with
  | @refused reply refuses large =>
      refine ⟨.back c.flying, ?_, rfl, fun q => rfl, fun q back => ?_⟩
      · change Pump.Moves size call.depth s.pump _
          ⟨_, (s.issued.eraseIdx index).map ReadChunk.flying, true⟩
        rw [rest]
        exact .back flies large
      · exact ⟨c, reply, ⟨index, rfl, found, back⟩, Or.inl ⟨refuses, large⟩⟩
  | ended empty =>
      refine ⟨.gone c.flying, ?_, rfl, fun q => rfl, fun q none => absurd none (lt_irrefl 0)⟩
      change Pump.Moves size call.depth s.pump _
        ⟨_, (s.issued.eraseIdx index).map ReadChunk.flying, s.downgraded⟩
      rw [rest]
      exact .gone flies id
  | failed downgraded error keeps unread =>
      refine ⟨.gone c.flying, ?_, rfl, fun q => rfl, fun q none => absurd none (lt_irrefl 0)⟩
      change Pump.Moves size call.depth s.pump _
        ⟨_, (s.issued.eraseIdx index).map ReadChunk.flying, downgraded⟩
      rw [rest]
      exact .gone flies keeps
  | @data reply whole got covered brought cut some covers =>
      have positive : 1 ≤ got.length := List.length_pos_iff.mpr some
      by_cases less : got.length < c.length
      · refine ⟨.short c.flying got.length, ?_, rfl, fun q => rfl, fun q back => ?_⟩
        · rw [if_pos less]
          change Pump.Moves size call.depth s.pump _
            ⟨_, (s.issued.eraseIdx index).map ReadChunk.flying, s.downgraded⟩
          rw [rest]
          exact .short flies positive less
        · have all : got = whole := by
            rw [cut]
            refine List.take_of_length_le ?_
            rw [cut, List.length_take] at less
            omega
          have back : 0 < holds q (c.start + got.length) (c.length - got.length) := back
          obtain ⟨above, below⟩ := holds_pos_iff.mp back
          have inside : 0 < holds q c.start c.length := holds_pos_iff.mpr ⟨by omega, by omega⟩
          refine ⟨c, reply, ⟨index, rfl, found, inside⟩, Or.inr ⟨got, ?_, positive, above⟩⟩
          rw [brought, all]
      · refine ⟨.gone c.flying, ?_, rfl, fun q => rfl, fun q none => absurd none (lt_irrefl 0)⟩
        rw [if_neg less]
        change Pump.Moves size call.depth s.pump _
          ⟨_, (s.issued.eraseIdx index).map ReadChunk.flying, s.downgraded⟩
        rw [rest]
        exact .gone flies id

/-- A step of a read is a move of its pump, and puts the requests of that. -/
theorem moves_of_stepped (accounted : Accounted call size s) (stepped : Stepped call s e s' out) :
    ∃ move, Pump.Moves size call.depth s.pump move s'.pump ∧ out.length = move.requests ∧
      (∀ q, Asks call q s e ↔ 0 < move.asks q) ∧ ∀ q, 0 < move.backs q → PutsBack q s e := by
  cases stepped with
  | downgrade large =>
      exact ⟨.quiet, .quiet fun _ => rfl, rfl, fun q => iff_of_false id (lt_irrefl 0),
        fun q none => absurd none (lt_irrefl 0)⟩
  | @issue between span spans running room took =>
      have taken := accounted.taken took
      rw [accounted.sized] at taken
      have next : s.nextSpan call = some (span, spans) := by
        rw [nextSpan, if_pos room]
        exact took
      refine ⟨.ask span, ?_, rfl, fun q => asks_iff next, fun q none => absurd none (lt_irrefl 0)⟩
      change Pump.Moves size call.depth s.pump _
        ⟨_, (s.issued ++ [_]).map ReadChunk.flying, s.downgraded || between⟩
      rw [List.map_append]
      refine .ask (fun small => ?_) ?_ taken
      · have small : s.downgraded = true := small
        rw [small, Bool.true_or]
      · rw [pump, List.length_map]
        exact room
  | @answer index outcome c running full found =>
      obtain ⟨move, moves, none, asks, backs⟩ := moves_of_settled size found
        (answered_settled (accounted.loose found) outcome)
      exact ⟨move, moves, none.symm, fun q => iff_of_false id (by rw [asks q]; exact lt_irrefl 0),
        backs⟩
  | finish running full none =>
      exact ⟨.quiet, .quiet id, rfl, fun q => iff_of_false id (lt_irrefl 0),
        fun q none => absurd none (lt_irrefl 0)⟩

/-- What a call that has taken the events `es` has done: what it has asked for and why, and that it
is over or goes on. -/
structure Ends (call : ReadCall) (start : ReadSpan) (es : List ReadEvent) (s : ReadSpan)
    (log : List ReadAndxRequest) : Prop where
  requests : log.length ≤ start.buffer.length + 2 * call.depth
  steps : es.length ≤ bound start.buffer.length
  goes_on : s.result = none →
    (∃ e, (e = .issue false ∨ e = .finish) ∧ (step call s e).isSome = true) ∨
      s.issued ≠ [] ∧ ∀ index < s.issued.length, ∀ outcome,
        (step call s (.answer index outcome)).isSome = true
  again : ∀ before v mid w after q,
    (machine call).visits start es = before ++ v :: (mid ++ w :: after) →
      Asks call q v.1 v.2 → Asks call q w.1 w.2 → ∃ u ∈ mid, PutsBack q u.1 u.2
  never : ∀ before v mid w after q,
    (machine call).visits start es = before ++ v :: (mid ++ w :: after) →
      Empties q v.1 v.2 → ¬ Asks call q w.1 w.2

theorem Asks.unasked (accounted : Accounted call size s) (asks : Asks call q s e) :
    0 < s.pump.unasked size q := by
  cases e with
  | issue between =>
      obtain ⟨⟨span, spans⟩, next, holds⟩ := asks
      rw [Option.mem_def, nextSpan] at next
      split at next
      · have taken := accounted.taken next
        have apart := taken.held q
        rw [unasked_eq accounted.sized]
        dsimp only at holds apart
        omega
      · cases next
  | _ => exact absurd asks id

theorem budget_run {downgraded : Bool} {buffer : Bytes} {es : List ReadEvent}
    {log : List ReadAndxRequest}
    (ran : (machine call).run (start downgraded buffer) es = some (s, log)) :
    s.pump.Budget buffer.length call.depth log.length := by
  have kept : Accounted call buffer.length s ∧
      s.pump.Budget buffer.length call.depth log.length := by
    apply Machine.run_induction (P := fun _ s log => Accounted call buffer.length s ∧
      s.pump.Budget buffer.length call.depth log.length) ?_ ?_ ran
    · exact ⟨accounted_start, Pump.budget_start downgraded⟩
    · rintro done s log e s' out ⟨accounted, budget⟩ stepped
      have stepped := step_cases stepped
      obtain ⟨move, moves, asked, -⟩ := moves_of_stepped accounted stepped
      refine ⟨accounted.stepped stepped, ?_⟩
      rw [List.length_append, asked]
      exact budget.moves (account_pump accounted) moves
  exact kept.2

/-- Where no bytes were found, nothing is to come any more. -/
theorem toCome_of_empties (accounted : Accounted call size s) (empties : Empties q s e)
    (stepped : Stepped call s e s' out) : s'.toCome q = 0 := by
  obtain ⟨c, reply, ⟨index, rfl, found, holds⟩, empty⟩ := empties
  cases stepped with
  | answer running full found' =>
      cases found.symm.trans found'
      have loose := accounted.loose found
      have once := loose.once q
      have settled := answered_settled loose (.ok reply)
      generalize answered _ c (.ok reply) = s' at settled
      cases settled with
      | ended _ =>
          change toCome { s with issued := s.issued.eraseIdx index } q = 0
          omega
      | refused refuses large =>
          obtain ⟨unended, unread⟩ := refusesTheSize_unread refuses
          rw [unread] at empty
          rcases empty with ended | none
          · exact absurd ended unended
          · cases none
      | @data reply whole got covered brought cut some covers =>
          exfalso
          rcases empty with ended | none
          · cases brought.symm.trans (readData_of_endOfFile ended)
          · cases brought.symm.trans none
            exact some (cut.trans List.take_nil)
      | failed downgraded error keeps unread =>
          obtain ⟨unended, unread, -⟩ := unread reply rfl
          rw [unread] at empty
          rcases empty with ended | none
          · exact absurd ended unended
          · cases none

/-- **A read ends**: it asks a bounded number of times, and for a position again only where it
had been put back. -/
theorem ends_of_run {downgraded : Bool} {buffer : Bytes} {es : List ReadEvent}
    {log : List ReadAndxRequest}
    (ran : (machine call).run (start downgraded buffer) es = some (s, log)) :
    Ends call (start downgraded buffer) es s log where
  requests := (budget_run ran).asked_le
  steps := length_le_bound ran
  goes_on := goes_on
  again before v mid w after q split asked again := by
    have held := Machine.holds_until (Asks call q) (PutsBack q)
      (P := fun s => Accounted call buffer.length s)
      (Q := fun s => s.pump.unasked buffer.length q = 0) accounted_start
        (fun s e s' out accounted stepped => accounted.stepped (step_cases stepped))
      ?_ ?_ ran split asked
    · obtain ⟨accounted, none | back⟩ := held
      · exact absurd (again.unasked accounted) (by rw [none]; exact lt_irrefl 0)
      · exact back
    · intro s e s' out accounted asks stepped
      obtain ⟨move, moves, -, asked, -⟩ := moves_of_stepped accounted (step_cases stepped)
      have asks := (asked q).mp asks
      have once := (account_pump accounted).once q
      have conserved := moves.unasked_add q
      rw [Pump.Move.backs_of_asks asks] at conserved
      omega
    · intro s e s' out accounted none kept stepped
      obtain ⟨move, moves, -, -, backs⟩ := moves_of_stepped accounted (step_cases stepped)
      have conserved := moves.unasked_add q
      have still : ¬ 0 < move.backs q := fun back => kept (backs q back)
      omega
  never before v mid w after q split empties asks := by
    have held := Machine.holds_until (Empties q) (fun _ _ => False)
      (P := fun s => Accounted call buffer.length s) (Q := fun s => s.toCome q = 0) accounted_start
        (fun s e s' out accounted stepped => accounted.stepped (step_cases stepped))
      (fun s e s' out accounted empties stepped =>
        toCome_of_empties accounted empties (step_cases stepped))
      ?_ ran split empties
    · obtain ⟨accounted, none | ⟨_, _, never⟩⟩ := held
      · have some := asks.unasked accounted
        rw [toCome_eq accounted.sized] at none
        omega
      · exact never
    · intro s e s' out accounted none _ stepped
      have stepped := step_cases stepped
      obtain ⟨move, moves, -⟩ := moves_of_stepped accounted stepped
      have less := moves.toCome_le q
      rw [toCome_eq (accounted.stepped stepped).sized]
      rw [toCome_eq accounted.sized] at none
      omega

end ReadSpan

/-! ## Writes -/

def WriteChunk.flying (c : WriteChunk) : Flying := ⟨c.start, c.length, c.large⟩

namespace WriteSpan

variable {call : WriteCall} {q : ℕ} {s s' : WriteSpan} {c : WriteChunk} {e : WriteEvent}
  {out : List WriteOut}

def pump (s : WriteSpan) : Pump where
  spans := s.spans
  flight := s.issued.map WriteChunk.flying
  downgraded := s.downgraded

/-- A step that asks for a position. -/
def Asks (call : WriteCall) (q : ℕ) (s : WriteSpan) : WriteEvent → Prop
  | .issue _ => ∃ next ∈ s.nextSpan call, 0 < holds q next.1.1 next.1.2
  | _ => False

/-- A step that puts a position back: its chunk was refused for its size and had been issued before
the downgrade, or some of its bytes were taken, and none of them the position's. -/
def PutsBack (q : ℕ) (s : WriteSpan) (e : WriteEvent) : Prop :=
  ∃ index c reply, e = .answer index ∧ s.issued[index]? = some c ∧ c.outcome = some (.ok reply) ∧
    0 < holds q c.start c.length ∧ (refusesTheSize reply.status = true ∧ c.large = true ∨
      ∃ count, reply.acknowledged = some count ∧ 1 ≤ count ∧ c.start + count ≤ q)

/-- A reply that takes no bytes of a chunk that holds a position. -/
def Empties (q : ℕ) (s : WriteSpan) (e : WriteEvent) : Prop :=
  ∃ index c reply, e = .reply index (.ok reply) ∧ s.issued[index]? = some c ∧
    0 < holds q c.start c.length ∧ reply.acknowledged = some 0

/-- What is put back whole was refused for its size, and had been issued before the downgrade. -/
theorem refuses_of_putBack {outcome : Except Error Reply} {start length : ℕ}
    (put : .putBack start length ∈ (s.acknowledge c outcome).2) :
    ∃ reply, outcome = .ok reply ∧ refusesTheSize reply.status = true ∧ c.large = true := by
  cases outcome with
  | error error => cases put
  | ok reply =>
      rw [acknowledge] at put
      dsimp only at put
      split at put
      · next both => exact ⟨reply, rfl, Bool.and_eq_true_iff.mp both⟩
      · split at put
        · cases put
        · split at put
          · cases put
          · split at put <;> cases put

theorem acknowledged_of_accepted {outcome : Except Error Reply} {length count : ℕ}
    (took : WriteProgress.accepted length outcome = some count) :
    ∃ reply all, outcome = .ok reply ∧ reply.acknowledged = some all ∧ count = min all length := by
  cases outcome with
  | error error => cases took
  | ok reply =>
      rw [WriteProgress.accepted] at took
      split at took
      · next all came =>
          split at took <;> cases took
          exact ⟨reply, all, rfl, came, rfl⟩
      · cases took

theorem asks_iff {between : Bool} {span : ℕ × ℕ} {spans : Spans}
    (next : s.nextSpan call = some (span, spans)) :
    Asks call q s (.issue between) ↔ 0 < holds q span.1 span.2 := by
  constructor
  · rintro ⟨next', came, holds⟩
    cases next.symm.trans came
    exact holds
  · exact fun holds => ⟨(span, spans), next, holds⟩

/-- How many requests a log holds. -/
def requests (log : List WriteOut) : ℕ :=
  log.countP fun
    | .asks _ => true
    | _ => false

/-- An answer takes its chunk off the wire. -/
theorem moves_of_answer (call : WriteCall) {index : ℕ} {outcome : Except Error Reply} (size : ℕ)
    (nonempty : 1 ≤ c.length) (found : s.issued[index]? = some c)
    (came : c.outcome = some outcome) :
    ∃ move, Pump.Moves size call.depth s.pump move
        ({ s with issued := s.issued.eraseIdx index }.acknowledge c outcome).1.pump ∧
      requests ({ s with issued := s.issued.eraseIdx index }.acknowledge c outcome).2 =
        move.requests ∧
      (∀ q, move.asks q = 0) ∧ ∀ q, 0 < move.backs q → PutsBack q s (.answer index) := by
  have flies : s.pump.flight[index]? = some c.flying := by
    rw [pump, List.getElem?_map, found]
    rfl
  have rest : (s.issued.eraseIdx index).map WriteChunk.flying = s.pump.flight.eraseIdx index := by
    rw [pump, List.eraseIdx_map]
  have settled := acknowledge_settled (s := { s with issued := s.issued.eraseIdx index })
    nonempty outcome
  have putBack := fun start length =>
    @refuses_of_putBack { s with issued := s.issued.eraseIdx index } c outcome start length
  generalize acknowledge _ c outcome = acknowledged at settled putBack
  obtain ⟨s', out⟩ := acknowledged
  cases settled with
  | refused large nothing =>
      obtain ⟨reply, rfl, refuses, -⟩ := putBack _ _ (List.mem_singleton.mpr rfl)
      refine ⟨.back c.flying, ?_, rfl, fun q => rfl, fun q back => ?_⟩
      · change Pump.Moves size call.depth s.pump _
          ⟨_, (s.issued.eraseIdx index).map WriteChunk.flying, true⟩
        rw [rest]
        exact .back flies large
      · exact ⟨index, c, reply, rfl, found, came, back, Or.inl ⟨refuses, large⟩⟩
  | @taken count took positive within =>
      by_cases less : count < c.length
      · refine ⟨.short c.flying count, ?_, rfl, fun q => rfl, fun q back => ?_⟩
        · rw [if_pos less]
          change Pump.Moves size call.depth s.pump _
            ⟨_, (s.issued.eraseIdx index).map WriteChunk.flying, s.downgraded⟩
          rw [rest]
          exact .short flies positive less
        · have back : 0 < holds q (c.start + count) (c.length - count) := back
          obtain ⟨above, below⟩ := holds_pos_iff.mp back
          obtain ⟨reply, all, rfl, acknowledged, cut⟩ := acknowledged_of_accepted took
          have inside : 0 < holds q c.start c.length := holds_pos_iff.mpr ⟨by omega, by omega⟩
          exact ⟨index, c, reply, rfl, found, came, inside,
            Or.inr ⟨all, acknowledged, by omega, by omega⟩⟩
      · refine ⟨.gone c.flying, ?_, rfl, fun q => rfl, fun q none => absurd none (lt_irrefl 0)⟩
        rw [if_neg less]
        change Pump.Moves size call.depth s.pump _
          ⟨_, (s.issued.eraseIdx index).map WriteChunk.flying, s.downgraded⟩
        rw [rest]
        exact .gone flies id
  | failed downgraded error keeps nothing =>
      refine ⟨.gone c.flying, ?_, rfl, fun q => rfl, fun q none => absurd none (lt_irrefl 0)⟩
      change Pump.Moves size call.depth s.pump _
        ⟨_, (s.issued.eraseIdx index).map WriteChunk.flying, downgraded⟩
      rw [rest]
      exact .gone flies keeps

/-- A step of a write is a move of its pump, and puts the requests of that. -/
theorem moves_of_stepped (account : s.pump.Account call.data.length)
    (stepped : Stepped call s e s' out) :
    ∃ move, Pump.Moves call.data.length call.depth s.pump move s'.pump ∧
      requests out = move.requests ∧
      (∀ q, Asks call q s e ↔ 0 < move.asks q) ∧ ∀ q, 0 < move.backs q → PutsBack q s e := by
  cases stepped with
  | downgrade large =>
      exact ⟨.quiet, .quiet fun _ => rfl, rfl, fun q => iff_of_false id (lt_irrefl 0),
        fun q none => absurd none (lt_irrefl 0)⟩
  | @issue between span spans running sound room took =>
      have taken := Spans.take_spec (le_max_right _ _) account.spans took
      have next : s.nextSpan call = some (span, spans) := by
        rw [nextSpan, if_pos ⟨sound, room⟩]
        exact took
      refine ⟨.ask span, ?_, rfl, fun q => asks_iff next, fun q none => absurd none (lt_irrefl 0)⟩
      change Pump.Moves _ call.depth s.pump _
        ⟨_, (s.issued ++ [_]).map WriteChunk.flying, s.downgraded || between⟩
      rw [List.map_append]
      refine .ask (fun small => ?_) ?_ taken
      · have small : s.downgraded = true := small
        rw [small, Bool.true_or]
      · rw [pump, List.length_map]
        exact room
  | @reply index outcome c found waits =>
      have flies : (s.issued.map WriteChunk.flying)[index]? = some c.flying := by
        rw [List.getElem?_map, found]
        rfl
      have same : (s.issued.set index { c with outcome := some outcome }).map WriteChunk.flying =
          s.issued.map WriteChunk.flying := by
        obtain ⟨below, here⟩ := List.getElem?_eq_some_iff.mp flies
        rw [List.map_set]
        change (s.issued.map WriteChunk.flying).set index c.flying = _
        rw [← here, List.set_getElem_self]
      refine ⟨.quiet, ?_, ?_, fun q => iff_of_false id (lt_irrefl 0),
        fun q none => absurd none (lt_irrefl 0)⟩
      · change Pump.Moves _ call.depth s.pump _ ⟨s.spans, (s.issued.set index _).map _,
          s.downgraded⟩
        rw [same]
        exact .quiet id
      · cases WriteProgress.accepted c.length outcome <;> rfl
  | @answer index outcome c running full found came =>
      have some := (account.flight c.flying
        (List.mem_map_of_mem (List.mem_of_getElem? found))).1
      obtain ⟨move, moves, asked, asks, backs⟩ := moves_of_answer call call.data.length
        some found came
      exact ⟨move, moves, asked, fun q => iff_of_false id (by rw [asks q]; exact lt_irrefl 0),
        backs⟩
  | finish running full drained =>
      exact ⟨.quiet, .quiet id, rfl, fun q => iff_of_false id (lt_irrefl 0),
        fun q none => absurd none (lt_irrefl 0)⟩

/-- How many steps of its own each chunk on the wire has still to take. -/
def pending (s : WriteSpan) : ℕ := (s.issued.map fun c => if c.outcome.isSome then 1 else 2).sum

/-- What a call that has taken the events `es` has done: what it has asked for and why, and that it
is over or goes on. -/
structure Ends (call : WriteCall) (start : WriteSpan) (es : List WriteEvent) (s : WriteSpan)
    (log : List WriteOut) : Prop where
  requests : requests log ≤ call.data.length + 2 * call.depth
  steps : es.length ≤ 3 * (call.data.length + 2 * call.depth) + 2
  goes_on : s.result = none →
    (∃ e, (e = .issue false ∨ e = .finish) ∧ (step call s e).isSome = true) ∨
      s.issued ≠ [] ∧ ∀ index c, s.issued[index]? = some c →
        (c.outcome = none → ∀ outcome, (step call s (.reply index outcome)).isSome = true) ∧
        (c.outcome.isSome = true → (step call s (.answer index)).isSome = true)
  again : ∀ before v mid w after q,
    (machine call).visits start es = before ++ v :: (mid ++ w :: after) →
      Asks call q v.1 v.2 → Asks call q w.1 w.2 → ∃ u ∈ mid, PutsBack q u.1 u.2
  never : ∀ before v mid w after q,
    (machine call).visits start es = before ++ v :: (mid ++ w :: after) →
      Empties q v.1 v.2 → ¬ Asks call q w.1 w.2

theorem Asks.unasked (account : s.pump.Account call.data.length) (asks : Asks call q s e) :
    s.failure = none ∧ 0 < s.pump.unasked call.data.length q := by
  cases e with
  | issue between =>
      obtain ⟨⟨span, spans⟩, next, holds⟩ := asks
      rw [Option.mem_def, nextSpan] at next
      split at next
      · next room =>
          have taken := Spans.take_spec (le_max_right _ _) account.spans next
          have apart := taken.held q
          refine ⟨room.1, ?_⟩
          rw [Pump.unasked]
          dsimp only at holds apart
          omega
      · cases next
  | _ => exact absurd asks id

theorem pending_eraseIdx {index : ℕ} (found : s.issued[index]? = some c) :
    s.pending = (if c.outcome.isSome then 1 else 2) +
      pending { s with issued := s.issued.eraseIdx index } := by
  rw [pending, pending]
  generalize s.issued = issued at found
  induction issued generalizing index with
  | nil => cases found
  | cons c' issued ih =>
      cases index with
      | zero =>
          cases found
          rfl
      | succ index =>
          rw [List.eraseIdx_cons_succ, List.map_cons, List.sum_cons, List.map_cons, List.sum_cons,
            ih found]
          dsimp only
          omega

theorem pending_set (outcome : Except Error Reply) {index : ℕ} (found : s.issued[index]? = some c)
    (waits : c.outcome = none) :
    pending { s with issued := s.issued.set index { c with outcome := some outcome } } + 1 =
      s.pending := by
  rw [pending, pending]
  generalize s.issued = issued at found
  induction issued generalizing index with
  | nil => cases found
  | cons c' issued ih =>
      cases index with
      | zero =>
          cases found
          rw [List.set_cons_zero, List.map_cons, List.sum_cons, List.map_cons, List.sum_cons, waits]
          simp only [Option.isSome_some, Option.isSome_none, if_true, Bool.false_eq_true, if_false]
          omega
      | succ index =>
          have rest := ih found
          rw [List.set_cons_succ, List.map_cons, List.sum_cons, List.map_cons, List.sum_cons]
          dsimp only at rest ⊢
          omega

theorem Settled.keeps {outcome : Except Error Reply} (settled : Settled s c outcome s' out) :
    s'.issued = s.issued ∧ (s.failure ≠ none → s'.failure ≠ none) ∧
      (s.downgraded = true → s'.downgraded = true) := by
  cases settled with
  | refused large nothing => exact ⟨rfl, id, fun _ => rfl⟩
  | taken took some within => exact ⟨rfl, id, id⟩
  | failed downgraded error keeps nothing =>
      refine ⟨rfl, fun _ => ?_, keeps⟩
      cases s.failure <;> exact Option.some_ne_none _

/-- Each step is paid for by a request, once that is put, answered and settled; but for the
downgrade and the end. -/
def Paid (done : ℕ) (s : WriteSpan) (log : List WriteOut) : Prop :=
  done + s.pending ≤ 3 * requests log + s.downgraded.toNat + s.result.isSome.toNat

theorem toNat_le_of_imp {a b : Bool} (keeps : a = true → b = true) : a.toNat ≤ b.toNat := by
  cases a with
  | false => exact Nat.zero_le _
  | true => rw [keeps rfl]

theorem Paid.stepped {done : ℕ} {log : List WriteOut} (account : s.pump.Account call.data.length)
    (paid : Paid done s log) (stepped : Stepped call s e s' out) :
    Paid (done + 1) s' (log ++ out) := by
  have counted : requests (log ++ out) = requests log + requests out := List.countP_append
  rw [Paid, counted]
  rw [Paid] at paid
  cases stepped with
  | downgrade large =>
      rw [large, Bool.toNat_false] at paid
      change done + 1 + s.pending ≤ 3 * (requests log + 0) + 1 + s.result.isSome.toNat
      omega
  | @issue between span spans running sound room took =>
      have more : pending { s with
          downgraded := s.downgraded || between
          spans
          progress := s.progress.chunk
          issued := s.issued ++ [⟨span.1, span.2, !(s.downgraded || between),
            call.request span.1 span.2, none⟩] } = s.pending + 2 := by
        simp [pending]
      have asked : requests [.asks (call.request span.1 span.2)] = 1 := rfl
      have small : s.downgraded.toNat ≤ (s.downgraded || between).toNat :=
        toNat_le_of_imp fun small => by rw [small, Bool.true_or]
      rw [more, asked]
      dsimp only
      omega
  | @reply index outcome c found waits =>
      have fewer := pending_set outcome found waits
      change done + 1 + pending { s with
        issued := s.issued.set index { c with outcome := some outcome } } ≤
          _ + s.downgraded.toNat + s.result.isSome.toNat
      omega
  | @answer index outcome c running full found came =>
      have fewer := pending_eraseIdx found
      have nonempty := (account.flight c.flying
        (List.mem_map_of_mem (List.mem_of_getElem? found))).1
      have settled := acknowledge_settled (s := { s with issued := s.issued.eraseIdx index })
        nonempty outcome
      have result := settled.result_eq
      obtain ⟨same, -, small⟩ := settled.keeps
      rw [came, Option.isSome_some, if_pos rfl] at fewer
      rw [pending, same, result]
      have small := toNat_le_of_imp small
      change done + 1 + pending { s with issued := s.issued.eraseIdx index } ≤ _
      dsimp only at small ⊢
      omega
  | finish running full drained =>
      rw [running, Option.isSome_none, Bool.toNat_false] at paid
      change done + 1 + s.pending ≤ 3 * (requests log + 0) + s.downgraded.toNat + 1
      omega

theorem progresses (running : s.result = none) :
    (∃ e, (e = .issue false ∨ e = .finish) ∧ (step call s e).isSome = true) ∨
      s.issued ≠ [] ∧ ∀ index c, s.issued[index]? = some c →
        (c.outcome = none → ∀ outcome, (step call s (.reply index outcome)).isSome = true) ∧
        (c.outcome.isSome = true → (step call s (.answer index)).isSome = true) := by
  cases next : s.nextSpan call with
  | some span =>
      left
      refine ⟨.issue false, Or.inl rfl, ?_⟩
      rw [step, running, next]
      rfl
  | none =>
      by_cases empty : s.issued = []
      · left
        refine ⟨.finish, Or.inr rfl, ?_⟩
        rw [step, running, next, if_neg (by simp [empty])]
        rfl
      · right
        refine ⟨empty, fun index c found => ⟨fun waits outcome => ?_, fun came => ?_⟩⟩
        · rw [step, found]
          dsimp only
          rw [waits]
          rfl
        · rw [step, running, next, if_neg (by simp), found]
          dsimp only
          rw [Option.isSome_map, came]

/-- A write that fails, or that is going to: a chunk that holds the position was answered with no
bytes taken. -/
def Barren (q : ℕ) (s : WriteSpan) : Prop :=
  s.failure ≠ none ∨ ∃ (index : ℕ) (c : WriteChunk) (reply : Reply), s.issued[index]? = some c ∧
    0 < holds q c.start c.length ∧ c.outcome = some (.ok reply) ∧ reply.acknowledged = some 0

theorem fails_of_acknowledged {reply : Reply} (nothing : reply.acknowledged = some 0) :
    (s.acknowledge c (.ok reply)).1.failure ≠ none := by
  rw [Reply.acknowledged] at nothing
  split at nothing
  · cases nothing
  · next success =>
      have success := not_not.mp success
      have accepts : refusesTheSize reply.status = false := by rw [success]; decide
      rw [acknowledge]
      dsimp only
      rw [accepts, Bool.or_false, Bool.false_and, if_neg Bool.false_ne_true,
        if_neg (not_not.mpr success)]
      have failed (error : ClientError) : s.failure.or (some error) ≠ none := by
        cases s.failure <;> exact Option.some_ne_none _
      cases decoded : WriteAndxResponse.decode reply.message with
      | error error => exact failed _
      | ok response =>
          rw [decoded] at nothing
          have zero : response.count.toNat = 0 := Option.some.inj nothing
          dsimp only
          rw [if_pos (by rw [zero, Nat.zero_min])]
          exact failed _

theorem Barren.stepped (account : s.pump.Account call.data.length) (barren : Barren q s)
    (stepped : Stepped call s e s' out) : Barren q s' := by
  rcases barren with failed | ⟨place, c, reply, found, holds, came, nothing⟩
  · left
    cases stepped with
    | @answer index outcome c running full found came =>
        have nonempty := (account.flight c.flying
          (List.mem_map_of_mem (List.mem_of_getElem? found))).1
        exact (acknowledge_settled nonempty outcome).keeps.2.1 failed
    | _ => exact failed
  · cases stepped with
    | downgrade large => exact Or.inr ⟨place, c, reply, found, holds, came, nothing⟩
    | issue running sound room took =>
        refine Or.inr ⟨place, c, reply, ?_, holds, came, nothing⟩
        have below := (List.getElem?_eq_some_iff.mp found).1
        exact (List.getElem?_append_left below).trans found
    | @reply index outcome c' found' waits =>
        refine Or.inr ⟨place, c, reply, ?_, holds, came, nothing⟩
        have apart : index ≠ place := by
          rintro rfl
          cases found.symm.trans found'
          cases waits.symm.trans came
        exact (List.getElem?_set_ne apart).trans found
    | @answer index outcome c' running full found' came' =>
        have nonempty := (account.flight c'.flying
          (List.mem_map_of_mem (List.mem_of_getElem? found'))).1
        by_cases same : index = place
        · subst same
          cases found.symm.trans found'
          cases came.symm.trans came'
          exact Or.inl (fails_of_acknowledged nothing)
        · right
          have member : c ∈ s.issued.eraseIdx index :=
            List.mem_eraseIdx_iff_getElem?.mpr ⟨place, fun same' => same same'.symm, found⟩
          obtain ⟨place', found⟩ := List.getElem?_of_mem member
          refine ⟨place', c, reply, ?_, holds, came, nothing⟩
          rw [(acknowledge_settled nonempty outcome).keeps.1]
          exact found
    | finish running full drained => exact Or.inr ⟨place, c, reply, found, holds, came, nothing⟩

/-- A position of which nothing was taken is not asked for again. -/
theorem Barren.not_asks (account : s.pump.Account call.data.length) (barren : Barren q s) :
    ¬ Asks call q s e := by
  intro asks
  obtain ⟨sound, some⟩ := asks.unasked account
  rcases barren with failed | ⟨place, c, reply, found, holds, came, nothing⟩
  · exact failed sound
  · have flies : s.pump.flight[place]? = Option.some c.flying := by
      rw [pump, List.getElem?_map, found]
      rfl
    have once := account.once q
    have apart := Pump.flying_eraseIdx flies q
    change s.pump.flying q = Tiling.holds q c.start c.length + _ at apart
    omega

theorem account_run {downgraded : Bool} {progress : WriteProgress} {es : List WriteEvent}
    {log : List WriteOut}
    (ran : (machine call).run (start downgraded progress call.data) es = some (s, log)) :
    s.pump.Account call.data.length ∧
      s.pump.Budget call.data.length call.depth (requests log) ∧
      Paid ((machine call).visits (start downgraded progress call.data) es).length s log := by
  apply Machine.run_induction (P := fun done s log => s.pump.Account call.data.length ∧
    s.pump.Budget call.data.length call.depth (requests log) ∧ Paid done.length s log) ?_ ?_ ran
  · exact ⟨Pump.account_start downgraded, Pump.budget_start downgraded, Nat.zero_le _⟩
  · rintro done s log e s' out ⟨account, budget, paid⟩ stepped
    have stepped := step_cases stepped
    obtain ⟨move, moves, asked, -⟩ := moves_of_stepped account stepped
    have counted : requests (log ++ out) = requests log + requests out := List.countP_append
    refine ⟨account.moves moves, ?_, ?_⟩
    · rw [counted, asked]
      exact budget.moves account moves
    · rw [List.length_append]
      exact paid.stepped account stepped

theorem kept_account {call : WriteCall} (s : WriteSpan) (e : WriteEvent) (s' : WriteSpan)
    (out : List WriteOut) (account : s.pump.Account call.data.length)
    (stepped : (machine call).step s e = some (s', out)) : s'.pump.Account call.data.length := by
  obtain ⟨move, moves, -⟩ := moves_of_stepped account (step_cases stepped)
  exact account.moves moves

/-- **A write ends**: it asks a bounded number of times, and for a position again only where it
had been put back. -/
theorem ends_of_run {downgraded : Bool} {progress : WriteProgress} {es : List WriteEvent}
    {log : List WriteOut}
    (ran : (machine call).run (start downgraded progress call.data) es = some (s, log)) :
    Ends call (start downgraded progress call.data) es s log where
  requests := (account_run ran).2.1.asked_le
  steps := by
    obtain ⟨-, budget, paid⟩ := account_run ran
    have asked := budget.asked_le
    have small := s.downgraded.toNat_le
    have finished := s.result.isSome.toNat_le
    rw [Machine.length_visits ran, Paid] at paid
    omega
  goes_on := progresses
  again before v mid w after q split asked again := by
    have held := Machine.holds_until (Asks call q) (PutsBack q)
      (P := fun s => s.pump.Account call.data.length)
      (Q := fun s => s.pump.unasked call.data.length q = 0)
      (Pump.account_start downgraded) kept_account ?_ ?_ ran split asked
    · obtain ⟨account, none | back⟩ := held
      · exact absurd (again.unasked account).2 (by rw [none]; exact lt_irrefl 0)
      · exact back
    · intro s e s' out account asks stepped
      obtain ⟨move, moves, -, asked, -⟩ := moves_of_stepped account (step_cases stepped)
      have asks := (asked q).mp asks
      have once := account.once q
      have conserved := moves.unasked_add q
      rw [Pump.Move.backs_of_asks asks] at conserved
      omega
    · intro s e s' out account none kept stepped
      obtain ⟨move, moves, -, -, backs⟩ := moves_of_stepped account (step_cases stepped)
      have conserved := moves.unasked_add q
      have still : ¬ 0 < move.backs q := fun back => kept (backs q back)
      omega
  never before v mid w after q split empties := by
    have held := Machine.holds_until (Empties q) (fun _ _ => False)
      (P := fun s => s.pump.Account call.data.length) (Q := Barren q)
      (Pump.account_start downgraded) kept_account ?_
      (fun s e s' out account barren _ stepped => barren.stepped account (step_cases stepped))
      ran split empties
    · obtain ⟨account, barren | ⟨_, _, never⟩⟩ := held
      · exact barren.not_asks account
      · exact absurd never id
    · rintro s e s' out account ⟨index, c, reply, rfl, found, holds, nothing⟩ stepped
      have stepped : step call s (.reply index (.ok reply)) = some (s', out) := stepped
      cases step_cases stepped with
      | reply found' waits =>
          cases found.symm.trans found'
          refine Or.inr ⟨index, { c with outcome := some (.ok reply) }, reply, ?_, holds, rfl,
            nothing⟩
          exact List.getElem?_set_self (List.getElem?_eq_some_iff.mp found).1

end WriteSpan

/-- **The chunk loops end**, whatever the server answers: with as many requests as there are bytes
and twice the depth at most, and no position asked for again for nothing. -/
theorem chunk_loops_end :
    (∀ call downgraded buffer es s log,
      (ReadSpan.machine call).run (.start downgraded buffer) es = some (s, log) →
        ReadSpan.Ends call (.start downgraded buffer) es s log) ∧
    ∀ call downgraded progress es s log,
      (WriteSpan.machine call).run (.start downgraded progress call.data) es = some (s, log) →
        WriteSpan.Ends call (.start downgraded progress call.data) es s log :=
  ⟨fun _ _ _ _ _ _ ran => ReadSpan.ends_of_run ran,
    fun _ _ _ _ _ _ ran => WriteSpan.ends_of_run ran⟩

/-- A read and a write of which two bytes are asked for again. -/
def shortRead : ReadCall := ⟨⟨50, 16644, 0⟩, 1, 1, 4⟩

def shortWrite : WriteCall := ⟨⟨50, 16644, 0⟩, 1, 1, 4, [7, 8, 9]⟩

/-- One of three bytes comes, and then the rest. -/
def readAgain : List ReadEvent :=
  [.issue false, .answer 0 (.ok (readReply [7])), .issue false, .answer 0 (.ok (readReply [8, 9])),
    .finish]

def writeAgain : List WriteEvent :=
  [.issue false, .reply 0 (.ok (writeReply 1)), .answer 0, .issue false,
    .reply 0 (.ok (writeReply 2)), .answer 0, .finish]

theorem chunk_loops_end_again :
    (∃ s log, ReadSpan.Ends shortRead (.start false [0, 0, 0]) readAgain s log ∧
      log.map (fun r => (r.offset, r.maxCount)) = [(1, 3), (2, 2)] ∧ s.result.isSome = true) ∧
    ∃ s log, WriteSpan.Ends shortWrite (.start false .new shortWrite.data) writeAgain s log ∧
      log.filterMap (fun
        | .asks r => some (r.offset, r.data)
        | _ => none) = [(1, [7, 8, 9]), (2, [8, 9])] ∧ s.result.isSome = true := by
  have read : ((ReadSpan.machine shortRead).run (.start false [0, 0, 0]) readAgain).map
      (fun result => (result.2.map (fun r => (r.offset, r.maxCount)), result.1.result.isSome)) =
        some ([(1, 3), (2, 2)], true) := by
    decide +kernel
  have wrote : ((WriteSpan.machine shortWrite).run (.start false .new shortWrite.data)
      writeAgain).map (fun result => (result.2.filterMap (fun
        | .asks r => some (r.offset, r.data)
        | _ => none), result.1.result.isSome)) = some ([(1, [7, 8, 9]), (2, [8, 9])], true) := by
    decide +kernel
  obtain ⟨⟨s, log⟩, ran, facts⟩ := Option.map_eq_some_iff.mp read
  obtain ⟨⟨s', log'⟩, ran', facts'⟩ := Option.map_eq_some_iff.mp wrote
  obtain ⟨asked, ended⟩ := Prod.ext_iff.mp facts
  obtain ⟨asked', ended'⟩ := Prod.ext_iff.mp facts'
  exact ⟨⟨s, log, chunk_loops_end.1 _ _ _ _ _ _ ran, asked, ended⟩,
    s', log', chunk_loops_end.2 _ _ _ _ _ _ ran', asked', ended'⟩

end Smb1Client
