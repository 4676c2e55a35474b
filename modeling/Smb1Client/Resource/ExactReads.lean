import Smb1Client.Resource.ReadSpan

/-!
Reads of a file that does not change, from a server that answers each chunk with some of
the bytes it asks for.

The positions of the span that the file holds are at every moment covered, with the file's
bytes, or still to come; when nothing is to come any more they are covered, and no others.
-/

namespace Smb1Client

open Tiling Trace

/-! ## `File::read_exact_at` and `File::read_to_end` -/

/-- `READ_PIPELINE_THRESHOLD`. -/
def READ_PIPELINE_THRESHOLD : ℕ := 128 * 1024

/-- How deep a one-shot read pipelines. -/
def readDepth (length : ℕ) : ℕ := if length ≥ READ_PIPELINE_THRESHOLD then PIPELINE_DEPTH else 1

/-- What `read_exact_at` makes of a fill. -/
def readExactAt (wanted : ℕ) : Except ClientError Fill → Except ClientError Unit
  | .error error => .error error
  | .ok fill =>
      match fill.covered.gap wanted with
      | none => .ok ()
      | some (first, stop) => .error (.unfilledSpan first (stop - first))

/-- What `read_to_end` makes of a fill: a short far end is the end of the file, a hole before
bytes that came is not. -/
def readToEnd (buffer : Bytes) : Except ClientError Fill → Except ClientError Bytes
  | .error error => .error error
  | .ok fill =>
      match fill.covered.gap buffer.length with
      | none => .ok (buffer.take fill.covered.prefixLen)
      | some (first, stop) =>
          if stop < buffer.length then .error (.unfilledSpan first (stop - first))
          else .ok (buffer.take fill.covered.prefixLen)

/-! ## The server -/

/-- An honest answer to a read of a file of these bytes: some of what it asks for, or none
where the file ends before; a size is refused only of a chunk issued before the downgrade. -/
inductive HonestRead (F : Bytes) (large : Bool) (request : ReadAndxRequest) (reply : Reply) : Prop
  | refuses (before : large = true) (refused : refusesTheSize reply.status = true)
  | brings {data : Bytes} (inside : request.offset.toNat < F.length)
      (brought : reply.readData = some data) (nonempty : data ≠ [])
      (asked : data <+: (F.drop request.offset.toNat).take request.maxCount.toNat)
  | ends (past : F.length ≤ request.offset.toNat)
      (empty : reply.status = .END_OF_FILE ∨ reply.readData = some [])

theorem honestRead_iff {F : Bytes} {large : Bool} {request : ReadAndxRequest} {reply : Reply} :
    HonestRead F large request reply ↔
      (large = true ∧ refusesTheSize reply.status = true) ∨
        (request.offset.toNat < F.length ∧ ∃ data ∈ reply.readData, data ≠ [] ∧
          data <+: (F.drop request.offset.toNat).take request.maxCount.toNat) ∨
        (F.length ≤ request.offset.toNat ∧
          (reply.status = .END_OF_FILE ∨ reply.readData = some [])) := by
  constructor
  · intro honest
    cases honest with
    | refuses before refused => exact Or.inl ⟨before, refused⟩
    | brings inside brought nonempty asked =>
        exact Or.inr (Or.inl ⟨inside, _, brought, nonempty, asked⟩)
    | ends past empty => exact Or.inr (Or.inr ⟨past, empty⟩)
  · rintro (⟨before, refused⟩ | ⟨inside, data, brought, nonempty, asked⟩ | ⟨past, empty⟩)
    · exact HonestRead.refuses before refused
    · exact HonestRead.brings inside brought nonempty asked
    · exact HonestRead.ends past empty

instance (F : Bytes) (large : Bool) (request : ReadAndxRequest) (reply : Reply) :
    Decidable (HonestRead F large request reply) := decidable_of_iff' _ honestRead_iff

namespace ReadSpan

/-- Every reply is an honest one to the chunk it is for. -/
def Truthful (F : Bytes) (s : ReadSpan) : ReadEvent → Prop
  | .answer index outcome => ∀ c ∈ s.issued[index]?, ∀ reply ∈ outcome.toOption,
      HonestRead F c.large c.request reply
  | _ => True

/-- Every request is replied to. -/
def Replied : ReadEvent → Prop
  | .answer _ outcome => outcome.isOk = true
  | _ => True

instance (F : Bytes) (s : ReadSpan) (e : ReadEvent) : Decidable (s.Truthful F e) := by
  cases e <;> unfold Truthful <;> infer_instance

instance (e : ReadEvent) : Decidable (Replied e) := by
  cases e <;> unfold Replied <;> infer_instance

/-- No chunk's offset is past 2^64, or the file ends before that. -/
def Fits (F : Bytes) (call : ReadCall) (size : ℕ) : Prop :=
  call.offset.toNat + size ≤ 2 ^ 64 ∨ F.length < 2 ^ 64

/-- The account of a call on a file that does not change: what is covered is the file's, and
what the file holds of the span is covered or to come, until the call fails. -/
structure Exact (F : Bytes) (call : ReadCall) (size : ℕ) (s : ReadSpan) : Prop where
  accounted : Accounted call size s
  filled : ∀ p ∈ s.covered.cells, call.offset.toNat + p < 2 ^ 64 →
    call.offset.toNat + p < F.length ∧ s.buffer[p]? = F[call.offset.toNat + p]?
  all : (∀ error, s.result ≠ some (.error error)) → ∀ p < size, call.offset.toNat + p < F.length →
    p ∈ s.covered.cells ∨ 0 < s.toCome p
  ended : s.atEnd = true → F.length ≤ call.offset.toNat + s.spans.next
  done : Finished size s

variable {F : Bytes} {call : ReadCall} {size : ℕ} {s s' : ReadSpan} {c : ReadChunk} {p : ℕ}

theorem exact_start {downgraded : Bool} {buffer : Bytes} :
    Exact F call buffer.length (start downgraded buffer) := by
  refine ⟨accounted_start, fun p none => ?_, fun _ p below inside => ?_,
    fun none => (by cases none), finished_start⟩
  · rw [start, Coverage.cells_empty] at none
    exact absurd none (Set.notMem_empty p)
  · right
    have held := @holds_of_mem p 0 buffer.length (Nat.zero_le p) (by omega)
    simp [toCome, inFlight, start, Spans.start, Spans.unasked, held]

theorem unfailed_start {downgraded : Bool} {buffer : Bytes} :
    ∀ error, (start downgraded buffer).result ≠ some (.error error) := by
  intro error failed
  rw [start] at failed
  dsimp only at failed
  split at failed <;> cases failed

/-- A chunk asks for its own span, up to 2^64. -/
theorem request_offset {start length : ℕ} : (call.request start length).offset.toNat =
    (call.offset.toNat + start) % 2 ^ 64 := by
  change (call.offset + UInt64.ofNat start).toNat = _
  rw [UInt64.toNat_add, UInt64.toNat_ofNat', Nat.add_mod_mod]

/-- What an honest answer to a chunk does: what is covered is the file's, and nothing the file
holds is given up. -/
theorem Exact.of_settled {outcome : Except Error Reply} (loose : Loose call size s c)
    (fits : Fits F call size) (running : s.result = none)
    (small : c.length < 2 ^ 32) (asked : c.request = call.request c.start c.length)
    (filled : ∀ p ∈ s.covered.cells, call.offset.toNat + p < 2 ^ 64 →
      call.offset.toNat + p < F.length ∧ s.buffer[p]? = F[call.offset.toNat + p]?)
    (all : ∀ p < size, call.offset.toNat + p < F.length →
      p ∈ s.covered.cells ∨ 0 < holds p c.start c.length + s.toCome p)
    (ended : s.atEnd = true → F.length ≤ call.offset.toNat + s.spans.next)
    (truthful : ∀ reply ∈ outcome.toOption, HonestRead F c.large c.request reply)
    (settled : Settled s c outcome s') : Exact F call size s' := by
  have accounted := loose.settled settled
  have some := loose.some
  have inside := loose.inside
  have within : c.start + c.length ≤ size := le_trans inside loose.accounted.spans.next
  have offset := @request_offset call c.start c.length
  have count : (call.request c.start c.length).maxCount.toNat = c.length :=
    UInt32.toNat_ofNat_of_lt' small
  rw [asked] at truthful
  have unfinished : Finished size s' := finished_of_running (running_settled running settled)
  cases settled with
  | refused refuses large =>
      refine ⟨accounted, filled, fun _ p below held => ?_, ended, unfinished⟩
      rcases all p below held with cell | come
      · exact Or.inl cell
      · right
        rwa [toCome_push]
  | @ended reply empty =>
      have past : F.length ≤ call.offset.toNat + c.start := by
        cases truthful reply rfl with
        | ends past _ =>
            rw [offset] at past
            rcases fits with below | file
            · rwa [Nat.mod_eq_of_lt (by omega)] at past
            · rcases Nat.lt_or_ge (call.offset.toNat + c.start) (2 ^ 64) with low | high
              · rwa [Nat.mod_eq_of_lt low] at past
              · omega
        | refuses _ refused =>
            obtain ⟨uneof, unread⟩ := refusesTheSize_unread refused
            rcases empty with eof | none
            · exact absurd eof uneof
            · rw [unread] at none
              cases none
        | brings _ brought nonempty _ =>
            rcases empty with eof | none
            · rw [readData_of_endOfFile eof] at brought
              cases brought
            · rw [none] at brought
              cases brought
              exact absurd rfl nonempty
      refine ⟨accounted, filled, fun _ p below held => ?_, fun _ => ?_, unfinished⟩
      · rcases all p below held with cell | come
        · exact Or.inl cell
        · right
          have none : holds p c.start c.length = 0 := by
            rw [holds, if_neg]
            omega
          rwa [none, Nat.zero_add] at come
      · apply le_trans past
        dsimp only
        omega
  | @data reply whole got covered brought cut nonempty covers =>
      cases truthful reply rfl with
      | refuses _ refused =>
          rw [(refusesTheSize_unread refused).2] at brought
          cases brought
      | ends _ empty =>
          rcases empty with eof | none
          · rw [readData_of_endOfFile eof] at brought
            cases brought
          · rw [none] at brought
            cases brought
            rw [List.take_nil] at cut
            exact absurd cut nonempty
      | @brings data held brought' _ prefixed =>
          rw [brought'] at brought
          cases brought
          rw [offset, count] at prefixed
          have short : whole.length ≤ c.length :=
            le_trans prefixed.length_le (List.length_take_le _ _)
          rw [List.take_of_length_le short] at cut
          subst cut
          have room : c.start + got.length ≤ s.buffer.length := by
            rw [loose.accounted.sized]
            omega
          -- the bytes that came are the file's, at their own positions
          have file : call.offset.toNat + c.start < 2 ^ 64 → ∀ i < got.length,
              got[i]? = F[call.offset.toNat + c.start + i]? := by
            intro low i inside
            obtain ⟨rest, whole⟩ := prefixed
            have here : (got ++ rest)[i]? = got[i]? := List.getElem?_append_left inside
            rw [← here, whole, List.getElem?_take_of_lt (lt_of_lt_of_le inside short),
              List.getElem?_drop, Nat.mod_eq_of_lt low]
          refine ⟨accounted, fun p cell low => ?_, fun _ p below held => ?_, fun past => ?_,
            unfinished⟩
          · dsimp only at cell ⊢
            rw [getElem?_copyAt room]
            rw [covers] at cell
            rcases cell with old | new
            · have outside : ¬ (c.start ≤ p ∧ p < c.start + got.length) := by
                rintro ⟨above, upto⟩
                have one := @holds_of_mem p c.start c.length above (by omega)
                rw [loose.fresh p old] at one
                cases one
              rw [if_neg outside]
              exact filled p old low
            · obtain ⟨above, upto⟩ := new
              have byte := file (by omega) (p - c.start) (by omega)
              have here : call.offset.toNat + c.start + (p - c.start) = call.offset.toNat + p := by
                omega
              rw [here] at byte
              refine ⟨?_, by rw [if_pos ⟨above, upto⟩, byte]⟩
              rw [List.getElem?_eq_getElem (by omega)] at byte
              exact (List.getElem?_eq_some_iff.mp byte.symm).1
          · rw [toCome_data short (length_copyAt room)]
            rcases all p below held with cell | come
            · left
              rw [covers]
              exact Or.inl cell
            · by_cases chunk : c.start ≤ p ∧ p < c.start + c.length
              · by_cases came : p < c.start + got.length
                · left
                  rw [covers]
                  exact Or.inr ⟨chunk.1, came⟩
                · right
                  have kept := @holds_of_mem p (c.start + got.length) (c.length - got.length)
                    (by omega) (by omega)
                  omega
              · right
                rw [holds, if_neg chunk] at come
                omega
          · apply le_trans (ended past)
            dsimp only
            split <;> exact le_rfl
  | failed downgraded error keeps unread =>
      exact ⟨accounted, filled, fun sound => absurd rfl (sound error), ended, unfinished⟩

/-- What a failure of a chunk is: the connection's, where the replies are honest. -/
theorem unfailed_settled {outcome : Except Error Reply} (running : s.result = none)
    (truthful : ∀ reply ∈ outcome.toOption, HonestRead F c.large c.request reply)
    (replied : outcome.isOk = true) (settled : Settled s c outcome s') :
    ∀ error, s'.result ≠ some (.error error) := by
  have unfailed : ∀ error, s.result ≠ some (.error error) := by
    rw [running]
    exact fun error failed => by cases failed
  cases settled with
  | refused refuses large => exact unfailed
  | ended empty => exact unfailed
  | data brought cut nonempty covers => exact unfailed
  | failed downgraded error keeps unread =>
      exfalso
      cases outcome with
      | error gone => cases replied
      | ok reply =>
          obtain ⟨uneof, none, small⟩ := unread reply rfl
          cases truthful reply rfl with
          | refuses large refused =>
              rw [small refused] at large
              cases large
          | brings _ brought _ _ =>
              rw [none] at brought
              cases brought
          | ends _ empty =>
              rcases empty with eof | brought
              · exact absurd eof uneof
              · rw [none] at brought
                cases brought

/-- **Steps keep reads exact**, where the replies are honest. -/
theorem Exact.stepped {e : ReadEvent} {out : List ReadAndxRequest} (faithful : Exact F call size s)
    (fits : Fits F call size) (deep : 1 ≤ call.depth) (truthful : s.Truthful F e)
    (stepped : Stepped call s e s' out) : Exact F call size s' := by
  have accounted := faithful.accounted.stepped stepped
  have done := faithful.done.stepped faithful.accounted deep stepped
  cases stepped with
  | downgrade large =>
      exact ⟨accounted, faithful.filled, faithful.all, faithful.ended, done⟩
  | @issue between span spans running room took =>
      have taken := faithful.accounted.taken took
      refine ⟨accounted, faithful.filled, fun sound p below held => ?_, fun past => ?_, done⟩
      · rw [toCome_issue taken]
        exact faithful.all sound p below held
      · exact le_trans (faithful.ended past) (Nat.add_le_add_left taken.next _)
  | @answer index outcome c running full found =>
      have loose := faithful.accounted.loose found
      have before := fun p => @toCome_eraseIdx s c p index found
      obtain ⟨some, inside, small, asked⟩ :=
        faithful.accounted.issued c (List.mem_of_getElem? found)
      apply Exact.of_settled loose fits running small asked faithful.filled ?_ faithful.ended
        (truthful c found) (answered_settled loose outcome)
      intro p below held
      rw [← before p]
      apply faithful.all ?_ p below held
      rw [running]
      exact fun error failed => by cases failed
  | finish running full none =>
      refine ⟨accounted, faithful.filled, fun _ => faithful.all ?_, faithful.ended, done⟩
      rw [running]
      exact fun error failed => by cases failed

/-- Where every request is replied to, honestly, a step does not fail. -/
theorem unfailed_stepped {e : ReadEvent} {out : List ReadAndxRequest}
    (accounted : Accounted call size s) (unfailed : ∀ error, s.result ≠ some (.error error))
    (truthful : s.Truthful F e) (replied : Replied e) (stepped : Stepped call s e s' out) :
    ∀ error, s'.result ≠ some (.error error) := by
  cases stepped with
  | downgrade large => exact unfailed
  | issue running room took => exact unfailed
  | answer running full found =>
      apply unfailed_settled ?_ (truthful _ found) replied
        (answered_settled (accounted.loose found) _)
      exact running
  | finish running full none => exact fun error failed => by cases failed

/-- Where the file ends within the span of a call. -/
def held (F : Bytes) (call : ReadCall) (size : ℕ) : ℕ := min size (F.length - call.offset.toNat)

/-- A fill that is over has covered what the file holds of the span. -/
theorem Exact.covers {fill : Fill} (faithful : Exact F call size s)
    (came : s.result = some (.ok fill)) (low : call.offset.toNat + p < 2 ^ 64) :
    p ∈ fill.covered.cells ↔ p < held F call size := by
  have all := faithful.all (by rw [came]; exact fun error failed => by cases failed)
  obtain ⟨rfl, issued, queue, ended⟩ := faithful.done fill came
  have next := faithful.accounted.spans.next
  rw [held, lt_min_iff]
  constructor
  · intro cell
    have file := (faithful.filled p cell low).1
    have inside := (faithful.accounted.covered p cell).1
    omega
  · rintro ⟨below, inside⟩
    rcases all p below (by omega) with cell | come
    · exact cell
    · exfalso
      rw [toCome, inFlight, issued, Spans.unasked, queue] at come
      simp only [held_cons, held_nil, List.map_nil, Nat.add_zero, holds_pos_iff] at come
      rcases ended with past | whole
      · have last := faithful.ended past
        omega
      · omega

/-- What a fill that is over left in the buffer. -/
theorem Exact.bytes {fill : Fill} (faithful : Exact F call size s) (fits : Fits F call size)
    (came : s.result = some (.ok fill)) : s.buffer.take (held F call size) =
      (F.drop call.offset.toNat).take (held F call size) := by
  have most : call.offset.toNat < 2 ^ 64 := call.offset.toNat_lt
  apply List.ext_getElem?
  intro p
  by_cases below : p < held F call size
  · have low : call.offset.toNat + p < 2 ^ 64 := by
      rw [held, lt_min_iff] at below
      rcases fits with small | file <;> omega
    have cell := (faithful.covers came low).mpr below
    obtain ⟨rfl, -⟩ := faithful.done fill came
    rw [List.getElem?_take_of_lt below, List.getElem?_take_of_lt below, List.getElem?_drop]
    exact (faithful.filled p cell low).2
  · rw [List.getElem?_take_eq_none (not_lt.mp below), List.getElem?_take_eq_none (not_lt.mp below)]

/-- What a fill that is over has covered from its start on. -/
theorem Exact.prefixLen {fill : Fill} (faithful : Exact F call size s)
    (file : F.length < 2 ^ 64) (came : s.result = some (.ok fill)) :
    fill.covered.prefixLen = held F call size := by
  have most : call.offset.toNat < 2 ^ 64 := call.offset.toNat_lt
  rw [Coverage.prefixLen_eq_iff]
  have low : call.offset.toNat + held F call size < 2 ^ 64 := by
    rw [held]
    omega
  refine ⟨fun p below => ?_, fun cell => ?_⟩
  · exact (faithful.covers came (by omega)).mpr below
  · exact lt_irrefl _ ((faithful.covers came low).mp cell)

end ReadSpan

theorem readExactAt_of_front {fill : Fill} {front size : ℕ}
    (cells : fill.covered.cells = Set.Iio front) (within : front ≤ size) :
    readExactAt size (.ok fill) =
      if front < size then .error (.unfilledSpan front (size - front)) else .ok () := by
  rw [readExactAt, Coverage.gap_of_front cells within]
  split <;> split <;> simp_all

theorem readToEnd_of_front {fill : Fill} {front : ℕ} {buffer : Bytes}
    (cells : fill.covered.cells = Set.Iio front) (within : front ≤ buffer.length) :
    readToEnd buffer (.ok fill) = .ok (buffer.take front) := by
  rw [readToEnd, Coverage.gap_of_front cells within, Coverage.prefixLen_of_front cells]
  by_cases short : front < buffer.length
  · rw [if_pos short]
    dsimp only
    rw [if_neg (lt_irrefl _)]
  · rw [if_neg short]

/-- **Reads are exact** against an honest server. A read takes a bounded number of steps,
whatever the order of the answers, and never hangs but for an answer; `read_exact_at` fills
its buffer exactly where the file holds the whole span, and otherwise says where it ends;
`read_to_end` returns the file as far as its length at open. -/
theorem reads_are_exact {F : Bytes} {call : ReadCall} {downgraded : Bool} {buffer : Bytes}
    {es : List ReadEvent} {s : ReadSpan} {log : List ReadAndxRequest}
    (below : call.offset.toNat + buffer.length < 2 ^ 64) (deep : 1 ≤ call.depth)
    (honest : ∀ v ∈ (ReadSpan.machine call).visits (.start downgraded buffer) es,
      v.1.Truthful F v.2 ∧ ReadSpan.Replied v.2)
    (ran : (ReadSpan.machine call).run (.start downgraded buffer) es = some (s, log)) :
    es.length ≤ ReadSpan.bound buffer.length ∧
      (s.result = none →
        (∃ e, (e = .issue false ∨ e = .finish) ∧ (s.step call e).isSome = true) ∨
          s.issued ≠ [] ∧ ∀ index < s.issued.length, ∀ outcome,
            (s.step call (.answer index outcome)).isSome = true) ∧
      ∀ result, s.result = some result →
        (1 ≤ buffer.length → call.offset.toNat + buffer.length ≤ F.length →
          readExactAt buffer.length result = .ok () ∧
            s.buffer = (F.drop call.offset.toNat).take buffer.length) ∧
        (1 ≤ buffer.length → F.length < call.offset.toNat + buffer.length →
          readExactAt buffer.length result = .error (.unfilledSpan
            (F.length - call.offset.toNat) (buffer.length - (F.length - call.offset.toNat)))) ∧
        (call.offset = 0 →
          readToEnd s.buffer result = .ok (F.take (min buffer.length F.length))) := by
  have fits : ReadSpan.Fits F call buffer.length := Or.inl (le_of_lt below)
  have kept : (∀ v ∈ (ReadSpan.machine call).visits (.start downgraded buffer) es,
      v.1.Truthful F v.2 ∧ ReadSpan.Replied v.2) → ReadSpan.Exact F call buffer.length s ∧
        ∀ error, s.result ≠ some (.error error) := by
    apply Machine.run_induction (P := fun done s _ =>
      (∀ v ∈ done, v.1.Truthful F v.2 ∧ ReadSpan.Replied v.2) →
        ReadSpan.Exact F call buffer.length s ∧ ∀ error, s.result ≠ some (.error error))
      (fun _ => ⟨ReadSpan.exact_start, ReadSpan.unfailed_start⟩) ?_ ran
    intro done s log e s' out before stepped within
    obtain ⟨truthful, replied⟩ := within (s, e) (by simp)
    obtain ⟨faithful, unfailed⟩ := before fun v member => within v (List.mem_append_left _ member)
    have stepped := ReadSpan.step_cases stepped
    exact ⟨faithful.stepped fits deep truthful stepped,
      ReadSpan.unfailed_stepped faithful.accounted unfailed truthful replied stepped⟩
  obtain ⟨faithful, unfailed⟩ := kept honest
  refine ⟨ReadSpan.length_le_bound ran, ReadSpan.goes_on, fun result came => ?_⟩
  cases result with
  | error error => exact absurd came (unfailed error)
  | ok fill =>
      have bytes := faithful.bytes fits came
      have within : ReadSpan.held F call buffer.length ≤ buffer.length := min_le_left _ _
      have sized := faithful.accounted.sized
      have cells : fill.covered.cells = Set.Iio (ReadSpan.held F call buffer.length) := by
        ext p
        by_cases low : call.offset.toNat + p < 2 ^ 64
        · exact faithful.covers came low
        · have next := faithful.accounted.spans.next
          obtain ⟨rfl, -⟩ := faithful.done fill came
          have outside : p ∉ s.covered.cells := by
            intro cell
            have inside := (faithful.accounted.covered p cell).1
            omega
          have past : ¬ p < ReadSpan.held F call buffer.length := by omega
          exact iff_of_false outside past
      refine ⟨fun some whole => ?_, fun some short => ?_, fun start => ?_⟩
      · have all : ReadSpan.held F call buffer.length = buffer.length := by
          rw [ReadSpan.held]
          omega
        rw [all] at bytes
        rw [readExactAt_of_front cells within, if_neg (by omega), ← bytes, ← sized,
          List.take_length]
        exact ⟨rfl, rfl⟩
      · have part : ReadSpan.held F call buffer.length = F.length - call.offset.toNat := by
          rw [ReadSpan.held]
          omega
        rw [readExactAt_of_front cells within, if_pos (by omega), part]
      · have zero : call.offset.toNat = 0 := by
          rw [start]
          rfl
        rw [zero, List.drop_zero] at bytes
        rw [readToEnd_of_front cells (by rw [sized]; exact within), bytes, ReadSpan.held, zero]
        rfl

/-- A read of two bytes from the second on, answered a byte at a time. -/
def twoBytes : ReadCall := ⟨⟨50, 16644, 0⟩, 1, 1, 4⟩

def byteByByte : List ReadEvent :=
  [.issue false, .answer 0 (.ok (readReply [8])), .issue false, .answer 0 (.ok (readReply [9])),
    .finish]

theorem reads_are_exact_two : ∃ s log result,
    (ReadSpan.machine twoBytes).run (.start false [0, 0]) byteByByte = some (s, log) ∧
      s.result = some result ∧ readExactAt 2 result = .ok () ∧ s.buffer = [8, 9] := by
  have happened : ((ReadSpan.machine twoBytes).run (.start false [0, 0]) byteByByte).map
      (·.1.result.isSome) = some true := by decide +kernel
  obtain ⟨⟨s, log⟩, ran, ended⟩ := Option.map_eq_some_iff.mp happened
  obtain ⟨result, came⟩ := Option.isSome_iff_exists.mp ended
  have reads := @reads_are_exact [7, 8, 9] twoBytes false [0, 0] byteByByte s log (by decide)
    (by decide) (by decide +kernel) ran
  obtain ⟨fills, bytes⟩ := (reads.2.2 result came).1 (by decide) (by decide)
  exact ⟨s, log, result, ran, came, fills, bytes⟩

end Smb1Client
