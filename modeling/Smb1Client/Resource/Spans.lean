import Smb1Client.Connection.ChunkSize
import Smb1Client.Lib.Tiling

/-!
The spans a read or a write has yet to ask for, as both loops of `resource/file.rs` take
them: what was put back, the last one first and cut to the chunk size there is by then, and
after that the tail nothing has been asked of.
-/

namespace Smb1Client

open Tiling

/-- `PIPELINE_DEPTH`. -/
def PIPELINE_DEPTH : ℕ := 4

/-- The statuses that mean a server refused a large read or write. -/
def refusesTheSize (status : NtStatus) : Bool :=
  status = .INVALID_SMB || status = .INVALID_PARAMETER || status = .INSUFF_SERVER_RESOURCES

/-- What is still to be asked for of a span: what was put back, the last first, and where
the tail begins. -/
structure Spans where
  queue : List (ℕ × ℕ)
  next : ℕ
  deriving DecidableEq, Repr

namespace Spans

def start : Spans := ⟨[], 0⟩

/-- Puts a span back. -/
def push (q : Spans) (start length : ℕ) : Spans := { q with queue := (start, length) :: q.queue }

/-- The next span to ask for, of a chunk at most. The tail is taken while there is `more`. -/
def take (chunkSize length : ℕ) (more : Bool) (q : Spans) : Option ((ℕ × ℕ) × Spans) :=
  match q.queue with
  | (first, left) :: queue =>
      let taking := min chunkSize left
      some ((first, taking),
        { q with
          queue := if taking < left then (first + taking, left - taking) :: queue else queue })
  | [] =>
      if more ∧ q.next < length then
        let taking := min chunkSize (length - q.next)
        some ((q.next, taking), { q with next := q.next + taking })
      else none

/-- The spans that are still to be asked for, the tail among them. -/
def unasked (length : ℕ) (q : Spans) : List (ℕ × ℕ) := (q.next, length - q.next) :: q.queue

/-- No span is empty or passes where the tail begins, and the tail is within the length. -/
structure Within (length : ℕ) (q : Spans) : Prop where
  queue : ∀ s ∈ q.queue, 1 ≤ s.2 ∧ s.1 + s.2 ≤ q.next
  next : q.next ≤ length

variable {chunkSize length : ℕ} {more : Bool} {q q' : Spans} {s : ℕ × ℕ}

theorem within_start : Within length start :=
  ⟨fun _ none => absurd none List.not_mem_nil, Nat.zero_le _⟩

theorem Within.push {start count : ℕ} (within : Within length q) (some : 1 ≤ count)
    (inside : start + count ≤ q.next) : Within length (q.push start count) := by
  refine ⟨fun s member => ?_, within.next⟩
  rcases List.mem_cons.mp member with rfl | before
  · exact ⟨some, inside⟩
  · exact within.queue s before

/-- What taking a span does: it is a chunk at most, and it is taken out of what is still to
be asked for. -/
structure Taken (chunkSize length : ℕ) (q : Spans) (s : ℕ × ℕ) (q' : Spans) : Prop where
  some : 1 ≤ s.2
  chunk : s.2 ≤ chunkSize
  inside : s.1 + s.2 ≤ q'.next
  next : q.next ≤ q'.next
  within : Within length q'
  held : ∀ p, held p (q.unasked length) = holds p s.1 s.2 + held p (q'.unasked length)
  total : total (q.unasked length) = s.2 + total (q'.unasked length)

theorem take_spec (positive : 1 ≤ chunkSize) (within : Within length q)
    (took : q.take chunkSize length more = some (s, q')) : Taken chunkSize length q s q' := by
  obtain ⟨queue, next⟩ := q
  rw [take] at took
  cases queue with
  | cons front queue =>
      obtain ⟨first, left⟩ := front
      cases took
      obtain ⟨nonempty, inside⟩ := within.queue (first, left) List.mem_cons_self
      have rest : ∀ s ∈ queue, 1 ≤ s.2 ∧ s.1 + s.2 ≤ next :=
        fun s member => within.queue s (List.mem_cons_of_mem _ member)
      dsimp only at nonempty inside ⊢
      split
      · next less =>
          have apart : left = min chunkSize left + (left - min chunkSize left) := by omega
          refine ⟨by dsimp only; omega, min_le_left _ _, by dsimp only; omega, le_rfl,
            ⟨?_, within.next⟩, ?_, ?_⟩
          · intro s member
            rcases List.mem_cons.mp member with rfl | before
            · dsimp only
              omega
            · exact rest s before
          · intro p
            have cut := @holds_add p first (min chunkSize left) (left - min chunkSize left)
            rw [← apart] at cut
            simp only [unasked, held_cons]
            omega
          · simp only [unasked, total_cons]
            omega
      · next whole =>
          have same : min chunkSize left = left := by omega
          rw [same]
          refine ⟨nonempty, by dsimp only; omega, inside, le_rfl, ⟨rest, within.next⟩, ?_, ?_⟩
          · intro p
            simp only [unasked, held_cons]
            omega
          · simp only [unasked, total_cons]
            omega
  | nil =>
      dsimp only at took
      split at took
      · next more =>
          cases took
          have below := more.2
          have apart : length - next =
              min chunkSize (length - next) +
                (length - (next + min chunkSize (length - next))) := by
            omega
          refine ⟨by dsimp only; omega, min_le_left _ _, le_rfl, by dsimp only; omega,
            ⟨?_, by dsimp only; omega⟩, ?_, ?_⟩
          · exact fun _ none => absurd none List.not_mem_nil
          · intro p
            have cut := @holds_add p next (min chunkSize (length - next))
              (length - (next + min chunkSize (length - next)))
            rw [← apart] at cut
            simp only [unasked, held_cons, held_nil]
            omega
          · simp only [unasked, total_cons, total_nil]
            omega
      · cases took

/-- Nothing is taken exactly where nothing was put back and the tail is used up, or is not
asked for any more. -/
theorem take_eq_none_iff :
    q.take chunkSize length more = none ↔ q.queue = [] ∧ (more = true → length ≤ q.next) := by
  rw [take]
  cases q.queue with
  | cons front queue => simp
  | nil =>
      cases more <;> simp

end Spans

end Smb1Client
