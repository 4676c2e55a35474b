import Smb1Client.Connection.Reassembly

/-!
Reassembly delivers the bytes the server sent, each at its place.

Each track is followed on its own, as a run of `Piece`s. `Track.Reassembles` ties
a track to the pieces it has taken; a step keeps it, so a run keeps it. What a
completed reply holds (`Assembly.run_complete`) and when a well-formed sequence of
messages completes (`Assembly.run_closed`, `Assembly.run_open`) both follow from
it.
-/

namespace Smb1Client

/-! ## Pieces -/

/-- What one message says about one of the two blocks. -/
structure Piece where
  total : ℕ
  displacement : ℕ
  payload : Bytes

namespace Piece

/-- The positions a piece supplies. -/
def range (p : Piece) : Set ℕ := Set.Ico p.displacement (p.displacement + p.payload.length)

/-- The byte a piece supplies at a position of its range. -/
def byte? (p : Piece) (i : ℕ) : Option UInt8 := p.payload[i - p.displacement]?

theorem range_eq_empty {p : Piece} (none : p.payload = []) : p.range = ∅ := by
  rw [range, none, List.length_nil, Nat.add_zero, Set.Ico_self]

end Piece

namespace TransactionResponse

def parameterPiece (r : TransactionResponse) : Piece :=
  ⟨r.totalParameterCount.toNat, r.parameterDisplacement.toNat, r.parameters⟩

def dataPiece (r : TransactionResponse) : Piece :=
  ⟨r.totalDataCount.toNat, r.dataDisplacement.toNat, r.data⟩

/-- A message that contributes no bytes to either block. -/
def contributesNothing (r : TransactionResponse) : Bool := r.parameters = [] ∧ r.data = []

end TransactionResponse

/-! ## The buffer -/

theorem getElem?_resize {bytes : Bytes} {total i : ℕ} (inBoth : i < bytes.length)
    (below : i < total) : (resize bytes total)[i]? = bytes[i]? := by
  rw [resize, List.getElem?_append_left (by rw [List.length_take]; omega),
    List.getElem?_take_of_lt below]

theorem getElem?_copyInto_inside {bytes payload : Bytes} {displacement i : ℕ}
    (fits : displacement ≤ bytes.length)
    (inside : i ∈ Set.Ico displacement (displacement + payload.length)) :
    (copyInto bytes displacement payload)[i]? = payload[i - displacement]? := by
  obtain ⟨low, high⟩ := inside
  have front : (bytes.take displacement).length = displacement := List.length_take_of_le fits
  rw [copyInto, List.getElem?_append_right (by omega), front,
    List.getElem?_append_left (by omega)]

theorem getElem?_copyInto_outside {bytes payload : Bytes} {displacement i : ℕ}
    (fits : displacement ≤ bytes.length)
    (outside : i ∉ Set.Ico displacement (displacement + payload.length)) :
    (copyInto bytes displacement payload)[i]? = bytes[i]? := by
  have front : (bytes.take displacement).length = displacement := List.length_take_of_le fits
  rw [copyInto]
  by_cases low : i < displacement
  · rw [List.getElem?_append_left (by omega), List.getElem?_take_of_lt low]
  · have high : displacement + payload.length ≤ i := by
      by_contra within
      exact outside ⟨not_lt.mp low, not_le.mp within⟩
    rw [List.getElem?_append_right (by omega), front, List.getElem?_append_right (by omega),
      List.getElem?_drop]
    congr 1
    omega

/-! ## One track -/

namespace Track

/-- What a message does to one of the two tracks. -/
def step (t : Track) (p : Piece) : Except ReassemblyError Track := do
  (← t.declare p.total).accept p.displacement p.payload

/-- What a piece has to be for a track to take it. -/
structure Takes (t : Track) (p : Piece) : Prop where
  shrinks : t.declared = true → p.total ≤ t.total
  asked : p.total ≤ t.asked
  inside : p.range ⊆ Set.Iio p.total
  apart : Disjoint (t.covered.cells ∩ Set.Iio p.total) p.range

/-- What taking a piece makes of a track. -/
structure Took (t : Track) (p : Piece) (t' : Track) : Prop where
  total : t'.total = p.total
  asked : t'.asked = t.asked
  declared : t'.declared = true
  cells : t'.covered.cells = t.covered.cells ∩ Set.Iio p.total ∪ p.range
  held : t'.bytes.isSome = t.bytes.isSome
  fresh : ∀ buffer ∈ t'.bytes, ∀ i ∈ p.range, buffer[i]? = p.byte? i
  kept : ∀ buffer ∈ t'.bytes, ∀ before ∈ t.bytes, ∀ i, i < t.total → i < p.total → i ∉ p.range →
    buffer[i]? = before[i]?

theorem declare_ok {t : Track} {total : ℕ} (shrinks : t.declared = true → total ≤ t.total)
    (asked : total ≤ t.asked) :
    ∃ t', t.declare total = .ok t' ∧ t'.total = total ∧ t'.asked = t.asked ∧
      t'.declared = true ∧ t'.covered.cells = t.covered.cells ∩ Set.Iio total ∧
      t'.bytes = t.bytes.map (resize · total) := by
  have notUp : ¬ (t.declared = true ∧ total > t.total) := fun up =>
    absurd (shrinks up.1) (not_le.mpr up.2)
  rw [declare, if_neg notUp, if_neg (not_lt.mpr asked)]
  refine ⟨_, rfl, rfl, rfl, rfl, ?_, rfl⟩
  dsimp only
  split
  · exact Coverage.cells_truncate
  · next grown =>
      exact (Set.inter_eq_left.mpr (t.inside.trans (Set.Iio_subset_Iio (not_lt.mp grown)))).symm

theorem declare_error {t : Track} {total : ℕ}
    (refused : ¬ ((t.declared = true → total ≤ t.total) ∧ total ≤ t.asked)) :
    ∃ error, t.declare total = .error error := by
  rw [declare]
  split
  · exact ⟨_, rfl⟩
  · next notUp =>
      split
      · exact ⟨_, rfl⟩
      · next within =>
          exact absurd ⟨fun declared => by by_contra up; exact notUp ⟨declared, not_le.mp up⟩,
            not_lt.mp within⟩ refused

theorem range_subset {p : Piece} {total : ℕ} (nonempty : p.payload ≠ []) :
    p.range ⊆ Set.Iio total ↔ p.displacement + p.payload.length ≤ total := by
  have positive := List.length_pos_iff.mpr nonempty
  constructor
  · intro within
    have last : p.displacement + p.payload.length - 1 ∈ p.range := ⟨by omega, by omega⟩
    have := Set.mem_Iio.mp (within last)
    omega
  · intro fits i inRange
    have := inRange.2
    exact Set.mem_Iio.mpr (by omega)

/-- A track takes a piece exactly where `Takes` says so, and with `Took` for its
effect. -/
theorem step_cases (t : Track) (p : Piece) :
    (t.Takes p ∧ ∃ t', t.step p = .ok t' ∧ t.Took p t') ∨
      (¬ t.Takes p ∧ ∃ error, t.step p = .error error) := by
  by_cases bounds : (t.declared = true → p.total ≤ t.total) ∧ p.total ≤ t.asked
  case neg =>
    obtain ⟨error, refused⟩ := declare_error bounds
    exact Or.inr ⟨fun takes => bounds ⟨takes.shrinks, takes.asked⟩, error,
      by rw [step, refused]; rfl⟩
  obtain ⟨t₁, declared, total, asked, done, cells, bytes⟩ := declare_ok bounds.1 bounds.2
  have step_eq : t.step p = t₁.accept p.displacement p.payload := by rw [step, declared]; rfl
  have resized : ∀ buffer ∈ t₁.bytes, ∀ before ∈ t.bytes, ∀ i, i < t.total → i < p.total →
      buffer[i]? = before[i]? := by
    intro buffer member before held i inBefore inAfter
    rw [bytes, Option.mem_def.mp held, Option.map_some, Option.mem_some_iff] at member
    rw [← member, getElem?_resize (by rw [t.sized before held]; exact inBefore) inAfter]
  by_cases none : p.payload = []
  · have empty := Piece.range_eq_empty none
    refine Or.inl ⟨⟨bounds.1, bounds.2, by rw [empty]; exact Set.empty_subset _,
      by rw [empty]; exact Set.disjoint_empty _⟩, t₁, ?_, total, asked, done, ?_, ?_, ?_, ?_⟩
    · rw [step_eq, accept, if_pos none]
    · rw [cells, empty, Set.union_empty]
    · rw [bytes, Option.isSome_map]
    · intro buffer _ i inRange
      rw [empty] at inRange
      exact inRange.elim
    · exact fun buffer member before held i inBefore inAfter _ =>
        resized buffer member before held i inBefore inAfter
  rw [step_eq, accept, if_neg none]
  by_cases outside : p.displacement + p.payload.length > t₁.total
  · refine Or.inr ⟨fun takes => ?_, _, by rw [dif_pos outside]⟩
    have := (range_subset none).mp takes.inside
    omega
  rw [dif_neg outside]
  split
  · next refused =>
      obtain ⟨-, i, inRange, covered⟩ := Coverage.cover_false refused
      refine Or.inr ⟨fun takes => ?_, _, rfl⟩
      rw [cells] at covered
      exact Set.disjoint_left.mp takes.apart covered inRange
  · next covered taken =>
      obtain ⟨apart, union⟩ := Coverage.cover_true taken
      rw [cells] at apart union
      refine Or.inl ⟨⟨bounds.1, bounds.2, (range_subset none).mpr (by omega), apart⟩, _, rfl, total,
        asked, done, union, ?_, ?_, ?_⟩
      · rw [Option.isSome_map, bytes, Option.isSome_map]
      · intro buffer member i inRange
        obtain ⟨before, held, rfl⟩ := Option.mem_map.mp member
        have size := t₁.sized before held
        exact getElem?_copyInto_inside (by omega) inRange
      · intro buffer member before held i inBefore inAfter notInRange
        obtain ⟨middle, held', rfl⟩ := Option.mem_map.mp member
        have size := t₁.sized middle held'
        rw [getElem?_copyInto_outside (by omega) notInRange]
        exact resized middle held' before held i inBefore inAfter

theorem step_ok {t t' : Track} {p : Piece} (taken : t.step p = .ok t') :
    t.Takes p ∧ t.Took p t' := by
  rcases t.step_cases p with ⟨takes, t₁, taken', took⟩ | ⟨-, error, refused⟩
  · rw [taken] at taken'
    cases taken'
    exact ⟨takes, took⟩
  · rw [taken] at refused
    cases refused

/-- What a track knows of the pieces it has taken: its total is the last one's, it
covers what they supply below that total, each such position was supplied once,
and the buffer holds the byte supplied there. -/
structure Reassembles (t : Track) (pieces : List Piece) : Prop where
  declared : t.declared = true ↔ pieces ≠ []
  total : ∀ last ∈ pieces.getLast?, t.total = last.total
  asked : pieces ≠ [] → t.total ≤ t.asked
  cells : ∀ i, i ∈ t.covered.cells ↔ i < t.total ∧ ∃ p ∈ pieces, i ∈ p.range
  once : ∀ i < t.total, ∀ (j k : ℕ) (p q : Piece), pieces[j]? = some p → pieces[k]? = some q →
    i ∈ p.range → i ∈ q.range → j = k
  bytes : ∀ buffer ∈ t.bytes, ∀ i < t.total, ∀ p ∈ pieces, i ∈ p.range → buffer[i]? = p.byte? i

theorem reassembles_new (block : Block) (asked : ℕ) : (new block asked).Reassembles [] where
  declared := by simp [new]
  total := by simp
  asked := by simp
  cells := by simp [new]
  once := by simp
  bytes := by simp

theorem getElem?_concat_some {α : Type} {xs : List α} {x y : α} {j : ℕ}
    (found : (xs ++ [x])[j]? = some y) : xs[j]? = some y ∨ j = xs.length ∧ y = x := by
  rcases Nat.lt_trichotomy j xs.length with low | rfl | high
  · rw [List.getElem?_append_left low] at found
    exact Or.inl found
  · rw [List.getElem?_concat_length, Option.some.injEq] at found
    exact Or.inr ⟨rfl, found.symm⟩
  · rw [List.getElem?_eq_none (by rw [List.length_append, List.length_singleton]; omega)] at found
    cases found

/-- A step keeps what a track knows of its pieces. -/
theorem Reassembles.step {t t' : Track} {pieces : List Piece} {p : Piece}
    (known : t.Reassembles pieces) (taken : t.step p = .ok t') :
    t'.Reassembles (pieces ++ [p]) := by
  obtain ⟨takes, took⟩ := step_ok taken
  have below : pieces ≠ [] → p.total ≤ t.total :=
      fun some => takes.shrinks (known.declared.mpr some)
  have keeps : ∀ i < p.total, ∀ q ∈ pieces, i ∈ q.range →
      i ∈ t.covered.cells ∩ Set.Iio p.total := by
    intro i bound q member inRange
    have := below (List.ne_nil_of_mem member)
    exact ⟨(known.cells i).mpr ⟨by omega, q, member, inRange⟩, bound⟩
  refine ⟨by simp [took.declared], ?_, ?_, ?_, ?_, ?_⟩
  · intro last member
    rw [List.getLast?_concat, Option.mem_some_iff] at member
    rw [took.total, member]
  · intro _
    rw [took.total, took.asked]
    exact takes.asked
  · intro i
    rw [took.cells, took.total]
    constructor
    · rintro (⟨covered, bound⟩ | inRange)
      · obtain ⟨-, q, member, inRange⟩ := (known.cells i).mp covered
        exact ⟨bound, q, List.mem_append_left _ member, inRange⟩
      · exact ⟨takes.inside inRange, p, List.mem_append_right _ (List.mem_singleton_self _),
          inRange⟩
    · rintro ⟨bound, q, member, inRange⟩
      rcases List.mem_append.mp member with member | member
      · exact Or.inl (keeps i bound q member inRange)
      · rw [List.mem_singleton.mp member] at inRange
        exact Or.inr inRange
  · intro i bound j k q r first second inFirst inSecond
    rw [took.total] at bound
    -- A position of the new piece below its total is in no earlier piece.
    have clash : ∀ s ∈ pieces, i ∈ s.range → i ∉ p.range := fun s member inRange new =>
      Set.disjoint_left.mp takes.apart (keeps i bound s member inRange) new
    rcases getElem?_concat_some first with inOld | ⟨isNew, rfl⟩ <;>
      rcases getElem?_concat_some second with inOld' | ⟨isNew', rfl⟩
    · have := below (List.ne_nil_of_mem (List.mem_of_getElem? inOld))
      exact known.once i (by omega) j k q r inOld inOld' inFirst inSecond
    · exact absurd inSecond (clash q (List.mem_of_getElem? inOld) inFirst)
    · exact absurd inFirst (clash r (List.mem_of_getElem? inOld') inSecond)
    · rw [isNew, isNew']
  · intro buffer member i bound q inPieces inRange
    rw [took.total] at bound
    rcases List.mem_append.mp inPieces with inPieces | inPieces
    · have shrink := below (List.ne_nil_of_mem inPieces)
      have notNew : i ∉ p.range := fun new =>
        Set.disjoint_left.mp takes.apart (keeps i bound q inPieces inRange) new
      have held : t.bytes.isSome = true := by
        rw [← took.held, Option.isSome_iff_exists]
        exact ⟨buffer, member⟩
      obtain ⟨before, held⟩ := Option.isSome_iff_exists.mp held
      rw [took.kept buffer member before held i (by omega) bound notNew]
      exact known.bytes before held i (by omega) q inPieces inRange
    · rw [List.mem_singleton.mp inPieces] at inRange ⊢
      exact took.fresh buffer member i inRange

/-- A track is complete exactly where its pieces cover all of its total. -/
theorem Reassembles.complete_iff {t : Track} {pieces : List Piece} (known : t.Reassembles pieces) :
    t.complete = true ↔ pieces ≠ [] ∧ ∀ i < t.total, ∃ p ∈ pieces, i ∈ p.range := by
  rw [complete, Bool.and_eq_true, known.declared, Coverage.covers_iff]
  refine and_congr_right fun _ => ⟨fun whole i bound => ?_, fun whole => ?_⟩
  · have covered : i ∈ t.covered.cells := whole ▸ bound
    exact ((known.cells i).mp covered).2
  · refine Set.Subset.antisymm t.inside fun i bound => (known.cells i).mpr ⟨bound, whole i bound⟩

end Track

/-! ## A reply -/

/-- Both declared ranges are covered, under the totals the latest message declared. -/
def Closed (messages : List TransactionResponse) : Prop :=
  ∃ last ∈ messages.getLast?,
    (∀ i < last.parameterPiece.total, ∃ m ∈ messages, i ∈ m.parameterPiece.range) ∧
      ∀ i < last.dataPiece.total, ∃ m ∈ messages, i ∈ m.dataPiece.range

/-- A block as it should be delivered: as long as the last message declared, no
longer than was asked, and at each position with the byte of the one message that
supplied that position. -/
def Delivered (piece : TransactionResponse → Piece) (asked : ℕ)
    (messages : List TransactionResponse) (block : Bytes) : Prop :=
  ∃ last ∈ messages.getLast?, block.length = (piece last).total ∧ (piece last).total ≤ asked ∧
    ∀ i < block.length, ∃ (k : ℕ) (m : TransactionResponse), messages[k]? = some m ∧
      i ∈ (piece m).range ∧ block[i]? = (piece m).byte? i ∧
      ∀ (k' : ℕ) (m' : TransactionResponse), messages[k']? = some m' → i ∈ (piece m').range → k' = k

/-- One block's pieces as an honest server sends them: totals within what was asked
and never growing, pieces inside the total they declare, and no two of them
overlapping. -/
structure HonestPieces (asked : ℕ) (pieces : List Piece) : Prop where
  asked : ∀ p ∈ pieces, p.total ≤ asked
  shrinking : pieces.Pairwise fun p q => q.total ≤ p.total
  inside : ∀ p ∈ pieces, p.range ⊆ Set.Iio p.total
  apart : pieces.Pairwise fun p q => Disjoint p.range q.range

/-- A reply's messages as an honest server sends them, within the fragment cap and
the empty-message tolerance. -/
structure HonestReply (maxParameterCount maxDataCount : UInt16)
    (messages : List TransactionResponse) : Prop where
  parameters : HonestPieces maxParameterCount.toNat (messages.map (·.parameterPiece))
  data : HonestPieces maxDataCount.toNat (messages.map (·.dataPiece))
  capped : messages.length ≤ FRAGMENT_CAP
  tolerated : messages.countP (·.contributesNothing) ≤ EMPTY_TOLERANCE

namespace Assembly

/-- What a reassembly that still holds its buffer knows of the messages it has taken. -/
structure Reassembles (a : Assembly) (maxParameterCount maxDataCount : UInt16)
    (messages : List TransactionResponse) : Prop where
  parameters : a.parameters.Reassembles (messages.map (·.parameterPiece))
  data : a.data.Reassembles (messages.map (·.dataPiece))
  parametersAsked : a.parameters.asked = maxParameterCount.toNat
  dataAsked : a.data.asked = maxDataCount.toNat
  parametersHeld : a.parameters.bytes.isSome = true
  dataHeld : a.data.bytes.isSome = true
  buffered : a.buffered = true
  fragments : a.fragments = messages.length
  empty : a.empty = messages.countP (·.contributesNothing)

/-- What a reassembly knows of the messages it has taken, with its buffer or without. -/
structure Follows (a : Assembly) (messages : List TransactionResponse) : Prop where
  parameters : a.parameters.Reassembles (messages.map (·.parameterPiece))
  data : a.data.Reassembles (messages.map (·.dataPiece))

variable {maxParameterCount maxDataCount : UInt16} {messages : List TransactionResponse}
  {response : TransactionResponse} {a a' : Assembly}

theorem reassembles_new :
    (new maxParameterCount maxDataCount).Reassembles maxParameterCount maxDataCount [] where
  parameters := Track.reassembles_new _ _
  data := Track.reassembles_new _ _
  parametersAsked := rfl
  dataAsked := rfl
  parametersHeld := rfl
  dataHeld := rfl
  buffered := rfl
  fragments := rfl
  empty := rfl

theorem Reassembles.follows (known : a.Reassembles maxParameterCount maxDataCount messages) :
    a.Follows messages :=
  ⟨known.parameters, known.data⟩

/-- Dropping the buffer keeps what the tracks know. -/
theorem Follows.release (known : a.Follows messages) : a.release.Follows messages := by
  have released : ∀ {t : Track} {pieces : List Piece}, t.Reassembles pieces →
      t.release.Reassembles pieces :=
    fun known => ⟨known.declared, known.total, known.asked, known.cells, known.once,
      fun _ no => nomatch no⟩
  exact ⟨released known.parameters, released known.data⟩

/-- A message is taken exactly where both counts and both tracks take it. -/
theorem accept_iff {progress : Progress} :
    a.accept response = .ok (a', progress) ↔
      ∃ fragments parameters data empty, a.countFragment = .ok fragments ∧
        a.parameters.step response.parameterPiece = .ok parameters ∧
        a.data.step response.dataPiece = .ok data ∧ a.countEmpty response = .ok empty ∧
        a' = { a with
          parameters := parameters
          data := data
          setup := if response.setup ≠ [] then response.setup else a.setup
          fragments := fragments
          empty := empty } ∧
        progress = if parameters.complete && data.complete then .complete else .continuing := by
  unfold accept Track.step TransactionResponse.parameterPiece TransactionResponse.dataPiece
  dsimp only
  cases a.countFragment with
  | error => simp [bind, Except.bind]
  | ok fragments =>
      cases a.parameters.declare response.totalParameterCount.toNat with
      | error => simp [bind, Except.bind]
      | ok parameters =>
          cases a.data.declare response.totalDataCount.toNat with
          | error => simp [bind, Except.bind]
          | ok data =>
              simp only [bind, Except.bind]
              cases parameters.accept response.parameterDisplacement.toNat response.parameters with
              | error => simp
              | ok parameters =>
                  cases data.accept response.dataDisplacement.toNat response.data with
                  | error => simp
                  | ok data =>
                      cases a.countEmpty response with
                      | error => simp
                      | ok empty =>
                          constructor
                          · rintro ⟨⟩
                            exact ⟨_, _, _, _, rfl, rfl, rfl, rfl, rfl, rfl⟩
                          · rintro ⟨_, _, _, _, ⟨⟩, ⟨⟩, ⟨⟩, ⟨⟩, rfl, rfl⟩
                            rfl

theorem countFragment_ok {fragments : ℕ} (buffered : a.buffered = true)
    (counted : a.countFragment = .ok fragments) : fragments = a.fragments + 1 := by
  rw [countFragment, if_pos buffered] at counted
  split at counted
  · cases counted
  · cases counted
    rfl

theorem countEmpty_ok {empty : ℕ} (buffered : a.buffered = true)
    (counted : a.countEmpty response = .ok empty) :
    empty = a.empty + if response.contributesNothing then 1 else 0 := by
  unfold countEmpty at counted
  simp only [buffered, true_and] at counted
  unfold TransactionResponse.contributesNothing
  split at counted
  · next nothing =>
      split at counted
      · cases counted
      · cases counted
        simp [nothing]
  · next something =>
      cases counted
      simp [something]

/-- A message keeps what both tracks know, and completes the reply exactly where it
closes both ranges, whether or not the reassembly still holds its buffer. -/
theorem Follows.accept {progress : Progress} (known : a.Follows messages)
    (taken : a.accept response = .ok (a', progress)) :
    a'.Follows (messages ++ [response]) ∧
      (progress = .complete ↔ Closed (messages ++ [response])) := by
  obtain ⟨fragments, parameters, data, empty, -, stepP, stepD, -, rfl, rfl⟩ := accept_iff.mp taken
  have tookP := (Track.step_ok stepP).2
  have tookD := (Track.step_ok stepD).2
  have knownP := known.parameters.step stepP
  have knownD := known.data.step stepD
  rw [← List.map_singleton (f := fun r : TransactionResponse => r.parameterPiece),
    ← List.map_append] at knownP
  rw [← List.map_singleton (f := fun r : TransactionResponse => r.dataPiece),
    ← List.map_append] at knownD
  refine ⟨⟨knownP, knownD⟩, ?_⟩
  have whole : ((parameters.complete && data.complete) = true) ↔
      Closed (messages ++ [response]) := by
    rw [Bool.and_eq_true, knownP.complete_iff, knownD.complete_iff, tookP.total, tookD.total]
    simp [Closed]
  rw [← whole]
  split
  · next complete => simp [complete]
  · next incomplete => simp [incomplete]

/-- A message keeps what a reassembly knows, and completes it exactly where it
closes both ranges. -/
theorem Reassembles.accept {progress : Progress}
    (known : a.Reassembles maxParameterCount maxDataCount messages)
    (taken : a.accept response = .ok (a', progress)) :
    a'.Reassembles maxParameterCount maxDataCount (messages ++ [response]) ∧
      (progress = .complete ↔ Closed (messages ++ [response])) := by
  obtain ⟨follows, closed⟩ := known.follows.accept taken
  refine ⟨?_, closed⟩
  obtain ⟨fragments, parameters, data, empty, counted, stepP, stepD, nothing, rfl, -⟩ :=
    accept_iff.mp taken
  have tookP := (Track.step_ok stepP).2
  have tookD := (Track.step_ok stepD).2
  refine ⟨follows.parameters, follows.data, ?_, ?_, ?_, ?_, known.buffered, ?_, ?_⟩
  · exact tookP.asked.trans known.parametersAsked
  · exact tookD.asked.trans known.dataAsked
  · exact tookP.held.trans known.parametersHeld
  · exact tookD.held.trans known.dataHeld
  · rw [countFragment_ok known.buffered counted, known.fragments, List.length_append,
      List.length_singleton]
  · rw [countEmpty_ok known.buffered nothing, known.empty, List.countP_append,
      List.countP_singleton]

/-- A reassembly takes what an honest server sends next. -/
theorem Reassembles.accept_honest {rest : List TransactionResponse}
    (known : a.Reassembles maxParameterCount maxDataCount messages)
    (honest : HonestReply maxParameterCount maxDataCount (messages ++ response :: rest)) :
    ∃ a' progress, a.accept response = .ok (a', progress) := by
  have takes : ∀ {t : Track} {asked : ℕ} {pieces later : List Piece} {p : Piece},
      t.Reassembles pieces → t.asked = asked → HonestPieces asked (pieces ++ p :: later) →
        ∃ t', t.step p = .ok t' := by
    intro t asked pieces later p known bound honest
    have member : p ∈ pieces ++ p :: later := List.mem_append_right _ List.mem_cons_self
    have ordered := List.pairwise_append.mp honest.shrinking
    have disjoint := List.pairwise_append.mp honest.apart
    rcases t.step_cases p with ⟨-, t', taken, -⟩ | ⟨refused, -⟩
    · exact ⟨t', taken⟩
    · refine absurd ⟨fun declared => ?_, bound ▸ honest.asked p member, honest.inside p member, ?_⟩
        refused
      · have some := known.declared.mp declared
        have last := List.getLast?_eq_some_getLast some
        rw [known.total _ last]
        exact ordered.2.2 _ (List.getLast_mem some) p List.mem_cons_self
      · rw [Set.disjoint_left]
        rintro i ⟨covered, -⟩ inRange
        obtain ⟨-, q, inPieces, inRange'⟩ := (known.cells i).mp covered
        exact Set.disjoint_left.mp (disjoint.2.2 q inPieces p List.mem_cons_self) inRange' inRange
  have honestP := honest.parameters
  have honestD := honest.data
  rw [List.map_append, List.map_cons] at honestP honestD
  obtain ⟨parameters, stepP⟩ := takes known.parameters known.parametersAsked honestP
  obtain ⟨data, stepD⟩ := takes known.data known.dataAsked honestD
  have capped := honest.capped
  have tolerated := honest.tolerated
  rw [List.length_append, List.length_cons] at capped
  rw [List.countP_append, List.countP_cons] at tolerated
  have counted : a.countFragment = .ok (a.fragments + 1) := by
    rw [countFragment, if_pos known.buffered, known.fragments, if_neg (by omega)]
  have nothing : ∃ empty, a.countEmpty response = .ok empty := by
    unfold countEmpty
    split
    · next empty =>
        have contributes : response.contributesNothing = true := by
          simp [TransactionResponse.contributesNothing, empty.2]
        rw [contributes] at tolerated
        simp only [if_true] at tolerated
        exact ⟨_, if_neg (by rw [known.empty]; omega)⟩
    · exact ⟨_, rfl⟩
  obtain ⟨empty, nothing⟩ := nothing
  exact ⟨_, _, accept_iff.mpr ⟨_, _, _, _, counted, stepP, stepD, nothing, rfl, rfl⟩⟩

/-! ## Runs -/

theorem run_cons {rest : List TransactionResponse} :
    a.run (response :: rest) = a.accept response >>= fun
      | (a, .complete) => .ok (a, .complete, rest)
      | (a, .continuing) => a.run rest := rfl

/-- A run that completes does so on a message that closes both ranges, knowing every
message it took. -/
theorem Reassembles.run_complete {rest : List TransactionResponse}
    (known : a.Reassembles maxParameterCount maxDataCount messages)
    {incoming : List TransactionResponse} (ran : a.run incoming = .ok (a', .complete, rest)) :
    ∃ init last, incoming = init ++ last :: rest ∧
      a'.Reassembles maxParameterCount maxDataCount (messages ++ (init ++ [last])) ∧
      Closed (messages ++ (init ++ [last])) := by
  induction incoming generalizing a messages with
  | nil =>
      rw [run] at ran
      cases ran
  | cons response incoming ih =>
      rw [run_cons] at ran
      cases taken : a.accept response with
      | error =>
          rw [taken] at ran
          cases ran
      | ok result =>
          obtain ⟨a₁, progress⟩ := result
          rw [taken] at ran
          obtain ⟨known₁, closed⟩ := known.accept taken
          cases progress with
          | complete =>
              cases ran
              exact ⟨[], response, rfl, known₁, closed.mp rfl⟩
          | continuing =>
              obtain ⟨init, last, split, known', closed'⟩ := ih known₁ ran
              rw [List.append_assoc] at known' closed'
              exact ⟨response :: init, last, by rw [split]; rfl, known', closed'⟩

/-- A run over honest messages completes on the first that closes both ranges, and
goes on waiting where none does. -/
theorem Reassembles.run_honest
    (known : a.Reassembles maxParameterCount maxDataCount messages)
    {incoming : List TransactionResponse}
    (honest : HonestReply maxParameterCount maxDataCount (messages ++ incoming)) :
    (∀ k, 0 < k → k ≤ incoming.length → Closed (messages ++ incoming.take k) →
        (∀ j, 0 < j → j < k → ¬ Closed (messages ++ incoming.take j)) →
          ∃ a', a.run incoming = .ok (a', .complete, incoming.drop k)) ∧
      ((∀ k, 0 < k → k ≤ incoming.length → ¬ Closed (messages ++ incoming.take k)) →
        ∃ a', a.run incoming = .ok (a', .continuing, [])) := by
  induction incoming generalizing a messages with
  | nil =>
      refine ⟨fun k positive bound => ?_, fun _ => ⟨a, rfl⟩⟩
      rw [List.length_nil] at bound
      omega
  | cons response incoming ih =>
      obtain ⟨a₁, progress, taken⟩ := known.accept_honest honest
      obtain ⟨known₁, closed⟩ := known.accept taken
      have honest₁ : HonestReply maxParameterCount maxDataCount
          ((messages ++ [response]) ++ incoming) := by
        rw [List.append_assoc]
        exact honest
      have shift : ∀ k, messages ++ (response :: incoming).take (k + 1) =
          (messages ++ [response]) ++ incoming.take k := by
        intro k
        rw [List.take_succ_cons, List.append_assoc]
        rfl
      have first : messages ++ (response :: incoming).take 1 = messages ++ [response] := by
        rw [shift 0, List.take_zero, List.append_nil]
      rw [run_cons, taken]
      cases progress with
      | complete =>
          have now := closed.mp rfl
          refine ⟨fun k positive bound _ earlier => ?_, fun never => ?_⟩
          · have one : k = 1 := by
              by_contra other
              exact earlier 1 Nat.one_pos (by omega) (by rw [first]; exact now)
            subst one
            exact ⟨a₁, rfl⟩
          · exact (never 1 Nat.one_pos (by rw [List.length_cons]; omega)
              (by rw [first]; exact now)).elim
      | continuing =>
          have notNow : ¬ Closed (messages ++ [response]) := fun now => by
            cases closed.mpr now
          obtain ⟨closes, waits⟩ := ih known₁ honest₁
          refine ⟨fun k positive bound whole earlier => ?_, fun never => ?_⟩
          · obtain ⟨k, rfl⟩ := Nat.exists_eq_succ_of_ne_zero positive.ne'
            rw [List.length_cons] at bound
            have later : 0 < k := by
              by_contra zero
              obtain rfl : k = 0 := by omega
              exact notNow (first ▸ whole)
            refine closes k later (by omega) (shift k ▸ whole) fun j positive' below => ?_
            rw [← shift]
            exact earlier (j + 1) (by omega) (by omega)
          · refine waits fun k positive bound => ?_
            rw [← shift]
            exact never (k + 1) (by omega) (by rw [List.length_cons]; omega)

/-- What a track hands over is delivered as it should be. -/
theorem Reassembles.delivered {piece : TransactionResponse → Piece} {t : Track} {asked : ℕ}
    (known : t.Reassembles (messages.map piece)) (bound : t.asked = asked)
    (held : t.bytes.isSome = true) (some : messages ≠ [])
    (whole : ∀ i < t.total, ∃ m ∈ messages, i ∈ (piece m).range) :
    Delivered piece asked messages t.taken := by
  obtain ⟨buffer, held⟩ := Option.isSome_iff_exists.mp held
  have last := List.getLast?_eq_some_getLast some
  have mapped : messages.map piece ≠ [] := fun none => some (List.map_eq_nil_iff.mp none)
  have total := known.total (piece (messages.getLast some)) (by rw [List.getLast?_map, last]; rfl)
  have taken : t.taken = buffer := by rw [Track.taken, held]; rfl
  have size := t.sized buffer held
  refine ⟨_, last, ?_, ?_, ?_⟩
  · rw [taken, size, total]
  · rw [← total, ← bound]
    exact known.asked mapped
  · intro i inBlock
    rw [taken, size] at inBlock
    obtain ⟨m, member, inRange⟩ := whole i inBlock
    obtain ⟨k, found⟩ := List.mem_iff_getElem?.mp member
    have piece_at : ∀ {j : ℕ} {m : TransactionResponse}, messages[j]? = Option.some m →
        (messages.map piece)[j]? = Option.some (piece m) := by
      intro j m found
      rw [List.getElem?_map, found, Option.map_some]
    refine ⟨k, m, found, inRange, ?_, fun k' m' found' inRange' => ?_⟩
    · rw [taken]
      exact known.bytes buffer held i inBlock _ (List.mem_map_of_mem member) inRange
    · exact known.once i inBlock k' k _ _ (piece_at found') (piece_at found) inRange' inRange

/-- A reassembly that holds its buffer hands over both blocks, once they are closed. -/
theorem Reassembles.finish_delivered
    (known : a.Reassembles maxParameterCount maxDataCount messages) (closed : Closed messages) :
    Delivered (·.parameterPiece) maxParameterCount.toNat messages a.finish.2.1 ∧
      Delivered (·.dataPiece) maxDataCount.toNat messages a.finish.2.2 := by
  obtain ⟨last, isLast, wholeP, wholeD⟩ := closed
  have some : messages ≠ [] := by
    intro none
    rw [none] at isLast
    cases isLast
  have totalP := known.parameters.total last.parameterPiece
    (by rw [List.getLast?_map, Option.mem_def.mp isLast]; rfl)
  have totalD := known.data.total last.dataPiece
    (by rw [List.getLast?_map, Option.mem_def.mp isLast]; rfl)
  constructor
  · exact Reassembles.delivered known.parameters known.parametersAsked known.parametersHeld some
      (totalP ▸ wholeP)
  · exact Reassembles.delivered known.data known.dataAsked known.dataHeld some (totalD ▸ wholeD)

/-- **Reassembly is exact.** A run that completes delivers both blocks as the server
sent them, by the message that closes both ranges; and a run over an honest reply
completes on the first message that closes both ranges, and on no other. -/
theorem run_exact (maxParameterCount maxDataCount : UInt16)
    (incoming : List TransactionResponse) :
    (∀ a rest, (new maxParameterCount maxDataCount).run incoming = .ok (a, .complete, rest) →
        ∃ init last, incoming = init ++ last :: rest ∧ Closed (init ++ [last]) ∧
          Delivered (·.parameterPiece) maxParameterCount.toNat (init ++ [last]) a.finish.2.1 ∧
          Delivered (·.dataPiece) maxDataCount.toNat (init ++ [last]) a.finish.2.2) ∧
      (HonestReply maxParameterCount maxDataCount incoming →
        (∀ k, 0 < k → k ≤ incoming.length → Closed (incoming.take k) →
            (∀ j, 0 < j → j < k → ¬ Closed (incoming.take j)) →
              ∃ a, (new maxParameterCount maxDataCount).run incoming =
                .ok (a, .complete, incoming.drop k)) ∧
          ((∀ k, 0 < k → k ≤ incoming.length → ¬ Closed (incoming.take k)) →
            ∃ a, (new maxParameterCount maxDataCount).run incoming =
              .ok (a, .continuing, []))) := by
  refine ⟨fun a rest ran => ?_, fun honest => reassembles_new.run_honest honest⟩
  obtain ⟨init, last, split, known, closed⟩ := reassembles_new.run_complete ran
  rw [List.nil_append] at known closed
  exact ⟨init, last, split, closed, known.finish_delivered closed⟩

/-- The bytes 1 to 2 of a three-byte data block. -/
def lateFragment : TransactionResponse := ⟨0, 3, 0, 1, 0, 0, [], [], [20, 30]⟩

/-- The byte 0 of the same block. -/
def earlyFragment : TransactionResponse := ⟨0, 3, 0, 0, 0, 0, [], [], [10]⟩

/-- Two fragments out of order complete on the second and deliver three bytes. -/
theorem run_exact_out_of_order :
    ∃ a, (new 0 4).run [lateFragment, earlyFragment] = .ok (a, .complete, []) ∧
      Delivered (·.dataPiece) 4 [lateFragment, earlyFragment] a.finish.2.2 := by
  have late : lateFragment.dataPiece.range = Set.Ico 1 3 := rfl
  have early : earlyFragment.dataPiece.range = Set.Ico 0 1 := rfl
  have none : ∀ r ∈ [lateFragment, earlyFragment], r.parameterPiece.range = ∅ := by
    intro r member
    exact Piece.range_eq_empty (by fin_cases member <;> rfl)
  have honest : HonestReply 0 4 [lateFragment, earlyFragment] := by
    refine ⟨⟨by decide, by decide, ?_, ?_⟩, ⟨by decide, by decide, ?_, ?_⟩, by decide, by decide⟩
    · intro p member
      obtain ⟨r, inReply, rfl⟩ := List.mem_map.mp member
      rw [none r inReply]
      exact Set.empty_subset _
    · refine (List.pairwise_cons.mpr ⟨fun q _ => ?_, List.pairwise_singleton _ _⟩)
      rw [none lateFragment List.mem_cons_self]
      exact Set.empty_disjoint _
    · intro p member
      fin_cases member
      · exact fun i inRange => inRange.2
      · exact fun i inRange => lt_trans inRange.2 (by decide)
    · refine (List.pairwise_cons.mpr ⟨fun q member => ?_, List.pairwise_singleton _ _⟩)
      obtain rfl := List.mem_singleton.mp member
      rw [late, early, Set.disjoint_left]
      exact fun i inLate inEarly => absurd inEarly.2 (not_lt.mpr inLate.1)
  have closed : Closed [lateFragment, earlyFragment] := by
    refine ⟨earlyFragment, rfl, fun i bound => absurd bound (Nat.not_lt_zero i), fun i bound => ?_⟩
    by_cases zero : i < 1
    · exact ⟨earlyFragment, by simp, Nat.zero_le i, zero⟩
    · exact ⟨lateFragment, by simp, not_lt.mp zero, bound⟩
  have notYet : ¬ Closed [lateFragment] := by
    rintro ⟨_, ⟨⟩, -, whole⟩
    obtain ⟨m, member, inRange⟩ := whole 0 (by decide)
    obtain rfl := List.mem_singleton.mp member
    exact absurd inRange.1 (by decide)
  obtain ⟨a, ran⟩ := ((run_exact 0 4 [lateFragment, earlyFragment]).2 honest).1 2 (by decide)
    (by decide) closed (fun j positive below => by
      obtain rfl : j = 1 := by omega
      exact notYet)
  obtain ⟨init, last, split, -, -, delivered⟩ := (run_exact 0 4 _).1 a [] ran
  rw [← split] at delivered
  exact ⟨a, ran, delivered⟩

end Assembly

end Smb1Client
