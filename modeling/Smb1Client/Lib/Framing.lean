import Mathlib

/-!
# Streams of frames

A splitter takes the front frame off a stream once all of it is there, and a consumer takes
the frames in turn until it is done. `Reads` is what comes of a stream in one piece. It
determines what comes of it (`Reads.functional`) and composes along any cut of the stream
(`Reads.append`, `Reads.append_error`), so that a reader that is given a stream piece by piece
comes to the same.
-/

namespace Framing

/-- Takes the front frame off a stream, or says that it is garbled, or that it is not all there.
What is said of a stream is said of every longer one, unless it was that more is needed. -/
structure Splitter (α β ε : Type) where
  split : List α → Except ε (Option (β × List α))
  shorter : ∀ {stream frame rest}, split stream = .ok (some (frame, rest)) →
    rest.length < stream.length
  front : ∀ {stream frame rest}, split stream = .ok (some (frame, rest)) →
    ∃ front, stream = front ++ rest ∧ split front = .ok (some (frame, []))
  whole : ∀ {stream frame rest} more, split stream = .ok (some (frame, rest)) →
    split (stream ++ more) = .ok (some (frame, rest ++ more))
  garbled : ∀ {stream error} more, split stream = .error error →
    split (stream ++ more) = .error error

/-- Takes frames, and says when it is done. -/
structure Consumer (σ β ε : Type) where
  accept : σ → β → Except ε σ
  done : σ → Bool

variable {α β ε σ : Type} {f : Splitter α β ε} {c : Consumer σ β ε} {s s' : σ}
  {stream rest more : List α} {result result' : Except ε (σ × List α)} {error : ε}

/-- What comes of a stream: the state the consumer is left in and what is left of the stream, or
the error that ends it. -/
inductive Reads (f : Splitter α β ε) (c : Consumer σ β ε) :
    σ → List α → Except ε (σ × List α) → Prop
  | done {s : σ} {stream : List α} (done : c.done s = true) : Reads f c s stream (.ok (s, stream))
  | starved {s : σ} {stream : List α} (running : c.done s = false)
      (split : f.split stream = .ok none) : Reads f c s stream (.ok (s, stream))
  | garbled {s : σ} {stream : List α} {error : ε} (running : c.done s = false)
      (split : f.split stream = .error error) : Reads f c s stream (.error error)
  | refused {s : σ} {stream rest : List α} {frame : β} {error : ε} (running : c.done s = false)
      (split : f.split stream = .ok (some (frame, rest)))
      (refused : c.accept s frame = .error error) :
      Reads f c s stream (.error error)
  | took {s s' : σ} {stream rest : List α} {frame : β} {result : Except ε (σ × List α)}
      (running : c.done s = false) (split : f.split stream = .ok (some (frame, rest)))
      (accepted : c.accept s frame = .ok s') (reads : Reads f c s' rest result) :
      Reads f c s stream result

namespace Reads

/-- Something comes of every stream. -/
theorem total (f : Splitter α β ε) (c : Consumer σ β ε) (s : σ) (stream : List α) :
    ∃ result, Reads f c s stream result := by
  induction stream using (measure List.length).wf.induction generalizing s with
  | h stream ih =>
      cases running : c.done s with
      | true => exact ⟨_, .done running⟩
      | false =>
          cases split : f.split stream with
          | error error => exact ⟨_, .garbled running split⟩
          | ok front =>
              cases front with
              | none => exact ⟨_, .starved running split⟩
              | some front =>
                  obtain ⟨frame, rest⟩ := front
                  cases accepted : c.accept s frame with
                  | error error => exact ⟨_, .refused running split accepted⟩
                  | ok s' =>
                      obtain ⟨result, reads⟩ := ih rest (f.shorter split) s'
                      exact ⟨result, .took running split accepted reads⟩

/-- One thing comes of a stream. -/
theorem functional (reads : Reads f c s stream result) (reads' : Reads f c s stream result') :
    result = result' := by
  induction reads with
  | done done =>
      cases reads' with
      | done _ => rfl
      | starved running => cases done.symm.trans running
      | garbled running => cases done.symm.trans running
      | refused running => cases done.symm.trans running
      | took running => cases done.symm.trans running
  | starved running split =>
      cases reads' with
      | done done => cases done.symm.trans running
      | starved => rfl
      | garbled _ split' => cases split.symm.trans split'
      | refused _ split' => cases split.symm.trans split'
      | took _ split' => cases split.symm.trans split'
  | garbled running split =>
      cases reads' with
      | done done => cases done.symm.trans running
      | starved _ split' => cases split.symm.trans split'
      | garbled _ split' =>
          cases split.symm.trans split'
          rfl
      | refused _ split' => cases split.symm.trans split'
      | took _ split' => cases split.symm.trans split'
  | refused running split refused =>
      cases reads' with
      | done done => cases done.symm.trans running
      | starved _ split' => cases split.symm.trans split'
      | garbled _ split' => cases split.symm.trans split'
      | refused _ split' refused' =>
          cases split.symm.trans split'
          cases refused.symm.trans refused'
          rfl
      | took _ split' accepted =>
          cases split.symm.trans split'
          cases refused.symm.trans accepted
  | took running split accepted _ ih =>
      cases reads' with
      | done done => cases done.symm.trans running
      | starved _ split' => cases split.symm.trans split'
      | garbled _ split' => cases split.symm.trans split'
      | refused _ split' refused =>
          cases split.symm.trans split'
          cases accepted.symm.trans refused
      | took _ split' accepted' reads' =>
          cases split.symm.trans split'
          cases accepted.symm.trans accepted'
          exact ih reads'

/-- An error comes of every longer stream too. -/
theorem append_error (more : List α) (reads : Reads f c s stream (.error error)) :
    Reads f c s (stream ++ more) (.error error) := by
  generalize same : (.error error : Except ε (σ × List α)) = result at reads
  induction reads with
  | done => cases same
  | starved => cases same
  | garbled running split =>
      cases same
      exact .garbled running (f.garbled more split)
  | refused running split refused =>
      cases same
      exact .refused running (f.whole more split) refused
  | took running split accepted _ ih => exact .took running (f.whole more split) accepted (ih same)

/-- What is left of a stream is gone on with when more of it comes. -/
theorem append (reads : Reads f c s stream (.ok (s', rest)))
    (later : Reads f c s' (rest ++ more) result) : Reads f c s (stream ++ more) result := by
  generalize same : (.ok (s', rest) : Except ε (σ × List α)) = before at reads
  induction reads with
  | done =>
      cases same
      exact later
  | starved =>
      cases same
      exact later
  | garbled => cases same
  | refused => cases same
  | took running split accepted _ ih => exact .took running (f.whole more split) accepted (ih same)

/-- Where the consumer is not done, no whole frame is left. -/
theorem starves (reads : Reads f c s stream (.ok (s', rest))) (running : c.done s' = false) :
    f.split rest = .ok none := by
  generalize same : (.ok (s', rest) : Except ε (σ × List α)) = before at reads
  induction reads with
  | done done =>
      cases same
      cases done.symm.trans running
  | starved _ split =>
      cases same
      exact split
  | garbled => cases same
  | refused => cases same
  | took _ _ _ _ ih => exact ih same

/-- What a consumer that is done took is a stream of its own. -/
theorem front (reads : Reads f c s stream (.ok (s', rest))) (done : c.done s' = true) :
    ∃ front, stream = front ++ rest ∧ Reads f c s front (.ok (s', [])) := by
  generalize same : (.ok (s', rest) : Except ε (σ × List α)) = before at reads
  induction reads with
  | done =>
      cases same
      exact ⟨[], rfl, .done done⟩
  | starved running =>
      cases same
      cases done.symm.trans running
  | garbled => cases same
  | refused => cases same
  | took running split accepted _ ih =>
      obtain ⟨later, rfl, reads⟩ := ih same
      obtain ⟨first, rfl, alone⟩ := f.front split
      refine ⟨first ++ later, (List.append_assoc _ _ _).symm, ?_⟩
      exact .took running (f.whole later alone) accepted reads

/-- What holds of the consumer at first and is kept by every frame it accepts holds where it is
left. -/
theorem invariant {P : σ → Prop} (start : P s)
    (kept : ∀ s frame s', P s → c.done s = false → c.accept s frame = .ok s' → P s')
    (reads : Reads f c s stream (.ok (s', rest))) : P s' := by
  generalize same : (.ok (s', rest) : Except ε (σ × List α)) = before at reads
  induction reads with
  | done =>
      cases same
      exact start
  | starved =>
      cases same
      exact start
  | garbled => cases same
  | refused => cases same
  | took running _ accepted _ ih => exact ih (kept _ _ _ start running accepted) same

end Reads

end Framing
