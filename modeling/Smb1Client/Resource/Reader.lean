import Smb1Client.Resource.ExactReads

/-!
`FileReader`, the streaming read of `resource/adapter.rs`.

A fill reads ahead of the caller, as many chunks as the depth, and keeps what it covered from
its start on. The size of a fill is a product modulo 2^64. A poll starts a fill where there is
nothing to give, and takes it up once it is over; what goes on in between is steps of the fill.
-/

namespace Smb1Client

open Tiling Trace

/-- A reader over a file: what its last fill brought back, how much of that the caller has
taken, and the fill in flight. While none is, `downgraded` is the connection's flag. -/
structure FileReader where
  cursor : UInt64
  buffer : Bytes
  taken : ℕ
  atEnd : Bool
  filling : Option ReadSpan
  downgraded : Bool
  deriving DecidableEq

inductive ReaderEvent where
  | downgrade
  | poll (room : ℕ)
  | fill (e : ReadEvent)

/-- What a reader does: a request it puts, and what a poll comes to. -/
inductive ReaderOut where
  | asks (request : ReadAndxRequest)
  | ready (room : ℕ) (bytes : Bytes)
  | pending
  | failed (error : ClientError)
  deriving DecidableEq

namespace FileReader

variable (n : Negotiated) (fid : UInt16) (depth : ℕ)

def new (downgraded : Bool) : FileReader where
  cursor := 0
  buffer := []
  taken := 0
  atEnd := false
  filling := none
  downgraded

/-- The fill of a reader. -/
def call (r : FileReader) : ReadCall := ⟨n, fid, r.cursor, depth⟩

/-- How many bytes a fill asks for. -/
def fillSize (r : FileReader) : ℕ := max (n.readChunkSize r.downgraded) 1 * depth % 2 ^ 64

/-- What the caller has not taken of the last fill. -/
def unread (r : FileReader) : Bytes := r.buffer.drop r.taken

/-- Answers out of what is held, or with the end of the file. -/
def serve (r : FileReader) (room : ℕ) : Option (FileReader × ReaderOut) :=
  let held := r.buffer.length - r.taken
  if 0 < held then
    let taking := min held room
    some ({ r with taken := r.taken + taking }, .ready room (r.unread.take taking))
  else if r.atEnd then some (r, .ready room [])
  else none

/-- Takes up a fill: what it covered from its start on. -/
def takeUp (r : FileReader) (filled : ReadSpan) (fill : Fill) : FileReader :=
  let span := filled.buffer.take fill.covered.prefixLen
  { cursor := r.cursor + UInt64.ofNat span.length
    buffer := span
    taken := 0
    atEnd := fill.atEnd || fill.covered.prefixLen = 0
    filling := none
    downgraded := filled.downgraded }

/-- `poll_read` with room for so many bytes. -/
def poll (r : FileReader) (room : ℕ) : FileReader × ReaderOut :=
  match r.serve room with
  | some served => served
  | none =>
      let filling := r.filling.getD (.start r.downgraded (.replicate (r.fillSize n depth) 0))
      match filling.result with
      | none => ({ r with filling := some filling }, .pending)
      | some (.error error) =>
          ({ r with filling := none, downgraded := filling.downgraded }, .failed error)
      | some (.ok fill) =>
          let r := r.takeUp filling fill
          (r.serve room).getD (r, .pending)

def step (r : FileReader) : ReaderEvent → Option (FileReader × List ReaderOut)
  | .downgrade =>
      if r.downgraded || r.filling.isSome then none else some ({ r with downgraded := true }, [])
  | .poll room => some ((r.poll n depth room).1, [(r.poll n depth room).2])
  | .fill e =>
      match r.filling with
      | none => none
      | some filling =>
          (filling.step (r.call n fid depth) e).map fun (filling, asked) =>
            ({ r with filling := some filling }, asked.map .asks)

def machine : Machine FileReader ReaderEvent ReaderOut where
  step := step n fid depth

variable {n fid depth} {r r' : FileReader} {room : ℕ}

/-- A fill that has been taken up is served, or was the end: the loop of a poll goes round
once more at most. -/
theorem serve_takeUp {filled : ReadSpan} {fill : Fill} (sized : fill.covered.prefixLen ≤
    filled.buffer.length) : ((r.takeUp filled fill).serve room).isSome = true := by
  rw [serve, takeUp]
  dsimp only
  rw [List.length_take, Nat.min_eq_left sized, Nat.sub_zero]
  split
  · rfl
  · next none =>
      have zero : fill.covered.prefixLen = 0 := by omega
      rw [zero, decide_eq_true rfl, Bool.or_true, if_pos rfl]
      rfl

theorem serve_eq_none_iff : r.serve room = none ↔ r.unread = [] ∧ r.atEnd = false := by
  rw [serve, unread, List.drop_eq_nil_iff]
  dsimp only
  split
  · exact iff_of_false (Option.some_ne_none _) fun both => by omega
  · split
    · next ended => exact iff_of_false (Option.some_ne_none _) fun both => by simp_all
    · next open_ => exact iff_of_true rfl ⟨by omega, Bool.eq_false_iff.mpr open_⟩

/-! ## Streams -/

/-- The bytes a reader has given. -/
def delivered (log : List ReaderOut) : Bytes :=
  log.flatMap fun
    | .ready _ bytes => bytes
    | _ => []

/-- Every reply is an honest one to the chunk it is for. -/
def Truthful (F : Bytes) (r : FileReader) : ReaderEvent → Prop
  | .fill e => ∀ filling ∈ r.filling, filling.Truthful F e
  | _ => True

/-- A fill that is started asks for something. -/
def Asks (n : Negotiated) (depth : ℕ) (r : FileReader) : ReaderEvent → Prop
  | .poll room => r.serve room = none → r.filling = none → r.fillSize n depth ≠ 0
  | _ => True

instance (F : Bytes) (e : ReaderEvent) : Decidable (r.Truthful F e) := by
  cases e <;> unfold Truthful <;> infer_instance

instance (e : ReaderEvent) : Decidable (r.Asks n depth e) := by
  cases e <;> unfold Asks <;> infer_instance

/-- What has been given and what is held is the file up to the cursor; the end is told, and
reported, once all of it has been given. -/
structure Streams (n : Negotiated) (fid : UInt16) (depth : ℕ) (F : Bytes) (r : FileReader)
    (log : List ReaderOut) : Prop where
  bytes : delivered log ++ r.unread = F.take r.cursor.toNat
  inside : r.cursor.toNat ≤ F.length
  ended : r.atEnd = true → r.cursor.toNat = F.length
  filling : ∀ filling ∈ r.filling, r.unread = [] ∧ r.atEnd = false ∧
    ∃ size, 1 ≤ size ∧ filling.Exact F (r.call n fid depth) size
  reports : ∀ before room after, log = before ++ .ready room [] :: after → 1 ≤ room →
    delivered before = F

variable {F : Bytes} {log : List ReaderOut}

theorem delivered_append (log log' : List ReaderOut) :
    delivered (log ++ log') = delivered log ++ delivered log' := List.flatMap_append

theorem streams_new {downgraded : Bool} : Streams n fid depth F (new downgraded) [] := by
  refine ⟨rfl, Nat.zero_le _, fun none => (by cases none), fun filling none => (by cases none),
    fun before room after split => ?_⟩
  exact absurd split.symm (List.append_ne_nil_of_right_ne_nil _ (List.cons_ne_nil _ _))

/-- Entries that give nothing and report nothing. -/
theorem Streams.quiet {out : List ReaderOut} (streams : Streams n fid depth F r log)
    (quiet : ∀ entry ∈ out, ∀ room bytes, entry ≠ .ready room bytes)
    (filling : ∀ filling ∈ r'.filling, r.unread = [] ∧ r.atEnd = false ∧
      ∃ size, 1 ≤ size ∧ filling.Exact F (r.call n fid depth) size)
    (same : r'.cursor = r.cursor ∧ r'.buffer = r.buffer ∧ r'.taken = r.taken ∧ r'.atEnd = r.atEnd) :
    Streams n fid depth F r' (log ++ out) := by
  obtain ⟨cursor, buffer, taken, atEnd⟩ := same
  have unread : r'.unread = r.unread := by rw [FileReader.unread, FileReader.unread, buffer, taken]
  have nothing : delivered out = [] := by
    rw [delivered, List.flatMap_eq_nil_iff]
    intro entry member
    cases entry with
    | ready room bytes => exact absurd rfl (quiet _ member room bytes)
    | _ => rfl
  refine ⟨?_, ?_, ?_, ?_, fun before room after split some => ?_⟩
  · rw [delivered_append, nothing, List.append_nil, unread, cursor]
    exact streams.bytes
  · rw [cursor]
    exact streams.inside
  · rw [cursor, atEnd]
    exact streams.ended
  · rw [unread, atEnd, call, cursor]
    exact filling
  · rcases split_append split with ⟨rest, earlier, -⟩ | ⟨front, -, later⟩
    · exact streams.reports before room rest earlier some
    · exact absurd rfl (quiet (.ready room []) (by rw [later]; simp) room [])

theorem Streams.serve {out : ReaderOut} (streams : Streams n fid depth F r log)
    (served : r.serve room = some (r', out)) : Streams n fid depth F r' (log ++ [out]) := by
  rw [FileReader.serve] at served
  dsimp only at served
  split at served
  · next held =>
      cases served
      have idle : r.filling = none := by
        cases filling : r.filling with
        | none => rfl
        | some s =>
            have empty := (streams.filling s filling).1
            rw [unread, List.drop_eq_nil_iff] at empty
            omega
      have length : r.unread.length = r.buffer.length - r.taken := List.length_drop
      have gives : delivered (log ++ [.ready room (r.unread.take
          (min (r.buffer.length - r.taken) room))]) =
            delivered log ++ r.unread.take (min (r.buffer.length - r.taken) room) := by
        rw [delivered_append]
        simp [delivered]
      refine ⟨?_, streams.inside, streams.ended, ?_, fun before room' after split some => ?_⟩
      · have rest : unread { r with taken := r.taken + min (r.buffer.length - r.taken) room } =
            r.unread.drop (min (r.buffer.length - r.taken) room) := by
          rw [unread, unread, List.drop_drop]
        rw [gives, rest, List.append_assoc, List.take_append_drop]
        exact streams.bytes
      · intro filling waits
        rw [idle] at waits
        cases waits
      · rcases split_concat split with ⟨rest, earlier, -⟩ | ⟨-, same, -⟩
        · exact streams.reports before room' rest earlier some
        · obtain ⟨rfl, none⟩ := ReaderOut.ready.inj same
          have short := congrArg List.length none
          rw [List.length_take, length, List.length_nil] at short
          omega
  · next held =>
      have empty : r.unread = [] := by
        rw [unread, List.drop_eq_nil_iff]
        omega
      split at served
      · next ended =>
          cases served
          have all : delivered log = F := by
            have bytes := streams.bytes
            rwa [empty, List.append_nil, streams.ended ended, List.take_length] at bytes
          have nothing : delivered (log ++ [.ready room []]) = delivered log := by
            rw [delivered_append]
            exact List.append_nil _
          refine ⟨?_, streams.inside, streams.ended, streams.filling,
            fun before room' after split some => ?_⟩
          · rw [nothing]
            exact streams.bytes
          · rcases split_concat split with ⟨rest, earlier, -⟩ | ⟨rfl, -, -⟩
            · exact streams.reports before room' rest earlier some
            · exact all
      · cases served

/-- A fill that is over is taken up as the file's next bytes. -/
theorem Streams.takeUp {filled : ReadSpan} {fill : Fill} {size : ℕ}
    (streams : Streams n fid depth F r log) (file : F.length < 2 ^ 64) (asks : 1 ≤ size)
    (empty : r.unread = []) (faithful : filled.Exact F (r.call n fid depth) size)
    (came : filled.result = some (.ok fill)) :
    Streams n fid depth F (r.takeUp filled fill) log := by
  have fits : ReadSpan.Fits F (r.call n fid depth) size := Or.inr file
  have front := faithful.prefixLen file came
  have bytes := faithful.bytes fits came
  have inside := streams.inside
  have given := streams.bytes
  have within : ReadSpan.held F (r.call n fid depth) size ≤ F.length - r.cursor.toNat :=
    min_le_right _ _
  rw [empty, List.append_nil] at given
  have span : filled.buffer.take fill.covered.prefixLen =
      (F.drop r.cursor.toNat).take (ReadSpan.held F (r.call n fid depth) size) := by
    rw [front]
    exact bytes
  have length : ((F.drop r.cursor.toNat).take
      (ReadSpan.held F (r.call n fid depth) size)).length =
        ReadSpan.held F (r.call n fid depth) size := by
    rw [List.length_take, List.length_drop]
    exact Nat.min_eq_left within
  have cursor : (r.takeUp filled fill).cursor.toNat =
      r.cursor.toNat + ReadSpan.held F (r.call n fid depth) size := by
    rw [FileReader.takeUp]
    dsimp only
    rw [span, length, UInt64.toNat_add, UInt64.toNat_ofNat_of_lt' (by
      change _ < 2 ^ 64
      omega)]
    exact Nat.mod_eq_of_lt (by omega)
  refine ⟨?_, ?_, fun ended => ?_, fun filling none => (by cases none), streams.reports⟩
  · rw [cursor, List.take_add, ← given]
    congr 1
  · rw [cursor]
    omega
  · rw [cursor]
    rw [FileReader.takeUp] at ended
    dsimp only at ended
    rw [front, Bool.or_eq_true, decide_eq_true_eq] at ended
    obtain ⟨rfl, -⟩ := faithful.done fill came
    have next := faithful.accounted.spans.next
    have last := faithful.ended
    change _ → F.length ≤ r.cursor.toNat + _ at last
    have held : ReadSpan.held F (r.call n fid depth) size =
        min size (F.length - r.cursor.toNat) := rfl
    rcases ended with past | none
    · have past := last past
      omega
    · omega

theorem Streams.poll (streams : Streams n fid depth F r log) (file : F.length < 2 ^ 64)
    (asks : r.Asks n depth (.poll room)) :
    Streams n fid depth F (r.poll n depth room).1 (log ++ [(r.poll n depth room).2]) := by
  rw [FileReader.poll]
  cases served : r.serve room with
  | some result => exact streams.serve served
  | none =>
      obtain ⟨empty, unended⟩ := serve_eq_none_iff.mp served
      have filling : ∃ size, 1 ≤ size ∧ (r.filling.getD (.start r.downgraded
          (.replicate (r.fillSize n depth) 0))).Exact F (r.call n fid depth) size := by
        cases waits : r.filling with
        | some filling => exact (streams.filling filling waits).2.2
        | none =>
            refine ⟨_, ?_, ReadSpan.exact_start⟩
            rw [List.length_replicate]
            exact Nat.pos_of_ne_zero (asks served waits)
      dsimp only
      generalize r.filling.getD (.start r.downgraded (.replicate (r.fillSize n depth) 0)) = filled
        at filling ⊢
      obtain ⟨size, some, faithful⟩ := filling
      cases came : filled.result with
      | none =>
          apply streams.quiet
          · intro entry member room bytes same
            rw [List.mem_singleton.mp member] at same
            cases same
          · intro filling waits
            cases waits
            exact ⟨empty, unended, size, some, faithful⟩
          · exact ⟨rfl, rfl, rfl, rfl⟩
      | some outcome =>
          cases outcome with
          | error error =>
              apply streams.quiet
              · intro entry member room bytes same
                rw [List.mem_singleton.mp member] at same
                cases same
              · exact fun filling none => by cases none
              · exact ⟨rfl, rfl, rfl, rfl⟩
          | ok fill =>
              have taken := streams.takeUp file some empty faithful came
              have sized : fill.covered.prefixLen ≤ filled.buffer.length := by
                rw [faithful.prefixLen file came, faithful.accounted.sized]
                exact min_le_left _ _
              obtain ⟨given, serves⟩ := Option.isSome_iff_exists.mp
                (@serve_takeUp r room filled fill sized)
              dsimp only
              rw [serves]
              exact taken.serve serves

theorem Streams.step {e : ReaderEvent} {out : List ReaderOut}
    (streams : Streams n fid depth F r log) (file : F.length < 2 ^ 64) (deep : 1 ≤ depth)
    (truthful : r.Truthful F e) (asks : r.Asks n depth e)
    (stepped : r.step n fid depth e = some (r', out)) :
    Streams n fid depth F r' (log ++ out) := by
  cases e with
  | downgrade =>
      rw [FileReader.step] at stepped
      split at stepped
      · cases stepped
      · cases stepped
        apply streams.quiet
        · exact fun entry none => absurd none List.not_mem_nil
        · exact streams.filling
        · exact ⟨rfl, rfl, rfl, rfl⟩
  | poll room =>
      cases stepped
      exact streams.poll file asks
  | fill e =>
      rw [FileReader.step] at stepped
      split at stepped
      · cases stepped
      · next filling waits =>
          obtain ⟨⟨filled, asked⟩, goes, same⟩ := Option.map_eq_some_iff.mp stepped
          cases same
          obtain ⟨empty, unended, size, some, faithful⟩ := streams.filling filling waits
          apply streams.quiet
          · intro entry member room bytes same
            obtain ⟨request, -, rfl⟩ := List.mem_map.mp member
            cases same
          · intro filling' waits'
            cases waits'
            refine ⟨empty, unended, size, some, ?_⟩
            exact faithful.stepped (Or.inr file) deep (truthful filling waits)
              (ReadSpan.step_cases goes)
          · exact ⟨rfl, rfl, rfl, rfl⟩

end FileReader

/-- **A reader streams the file**: at every moment what it has given is a front of the file
and its position is past that by what it holds, and an end of the file is reported once all
of it has been given; as long as no fill is of size zero, which it is where the chunk size
times the depth is a multiple of 2^64. -/
theorem reader_streams {n : Negotiated} {fid : UInt16} {depth : ℕ} {F : Bytes} {downgraded : Bool}
    {es : List ReaderEvent} {r : FileReader} {log : List ReaderOut} (file : F.length < 2 ^ 64)
    (deep : 1 ≤ depth)
    (honest : ∀ v ∈ (FileReader.machine n fid depth).visits (.new downgraded) es,
      v.1.Truthful F v.2)
    (asks : ∀ v ∈ (FileReader.machine n fid depth).visits (.new downgraded) es,
      v.1.Asks n depth v.2)
    (ran : (FileReader.machine n fid depth).run (.new downgraded) es = some (r, log)) :
    FileReader.delivered log <+: F ∧
      r.cursor.toNat = (FileReader.delivered log).length + r.unread.length ∧
      ∀ before room after, log = before ++ .ready room [] :: after → 1 ≤ room →
        FileReader.delivered before = F := by
  have kept : (∀ v ∈ (FileReader.machine n fid depth).visits (.new downgraded) es,
      v.1.Truthful F v.2 ∧ v.1.Asks n depth v.2) → r.Streams n fid depth F log := by
    apply Machine.run_induction (P := fun done r log =>
      (∀ v ∈ done, v.1.Truthful F v.2 ∧ v.1.Asks n depth v.2) → r.Streams n fid depth F log)
      (fun _ => FileReader.streams_new) ?_ ran
    intro done r log e r' out before stepped within
    obtain ⟨truthful, asks⟩ := within (r, e) (by simp)
    exact (before fun v member => within v (List.mem_append_left _ member)).step file deep truthful
      asks stepped
  have streams := kept fun v member => ⟨honest v member, asks v member⟩
  have bytes := streams.bytes
  refine ⟨?_, ?_, streams.reports⟩
  · exact (List.prefix_append _ _).trans (by rw [bytes]; exact List.take_prefix _ _)
  · rw [← List.length_append, bytes, List.length_take]
    exact (Nat.min_eq_left streams.inside).symm

/-- The reply to a read past the end of the file. -/
def endReply : Reply where
  message :=
    { header := { SmbHeader.request Command.READ_ANDX with status := .END_OF_FILE }
      bytes := .replicate 35 0
      wordCount := 0
      byteCount := 0
      fits := Message.fits_empty }
  transaction := none

/-- A file of three bytes, read two at a time. -/
def threeBytes : List ReaderEvent :=
  [.poll 2, .fill (.issue false), .fill (.answer 0 (.ok (readReply [7, 8, 9]))),
    .fill (.issue false), .fill (.answer 0 (.ok endReply)), .fill .finish,
    .poll 2, .poll 2, .poll 2]

theorem reader_streams_three : ∃ r log,
    (FileReader.machine ⟨50, 4356, 0⟩ 1 1).run (.new false) threeBytes = some (r, log) ∧
      FileReader.delivered log <+: [7, 8, 9] ∧ log.getLast? = some (.ready 2 []) := by
  have happened : ((FileReader.machine ⟨50, 4356, 0⟩ 1 1).run (.new false) threeBytes).map
      (·.2.getLast?) = some (some (.ready 2 [])) := by decide +kernel
  obtain ⟨⟨r, log⟩, ran, last⟩ := Option.map_eq_some_iff.mp happened
  have streams := @reader_streams ⟨50, 4356, 0⟩ 1 1 [7, 8, 9] false threeBytes r log (by decide)
    (by decide) (by decide +kernel) (by decide +kernel) ran
  exact ⟨r, log, ran, streams.1, last⟩

/-- 2^54 chunks of 130048 bytes are no bytes, modulo 2^64: the first poll of a file of one byte
reports its end. -/
theorem reader_ends_before_the_file : ¬ ∀ (n : Negotiated) (fid : UInt16) (depth : ℕ) (F : Bytes)
    (downgraded : Bool) (es : List ReaderEvent) (r : FileReader) (log : List ReaderOut),
      F.length < 2 ^ 64 → 1 ≤ depth →
        (∀ v ∈ (FileReader.machine n fid depth).visits (.new downgraded) es, v.1.Truthful F v.2) →
          (FileReader.machine n fid depth).run (.new downgraded) es = some (r, log) →
            ∀ before room after, log = before ++ .ready room [] :: after → 1 ≤ room →
              FileReader.delivered before = F := by
  intro claimed
  have happened : ((FileReader.machine ⟨50, 16644, CAP_LARGE_READX⟩ 1 (2 ^ 54)).run (.new false)
      [.poll 1]).map (·.2) = some [.ready 1 []] := by decide +kernel
  obtain ⟨⟨r, log⟩, ran, only⟩ := Option.map_eq_some_iff.mp happened
  have all := claimed ⟨50, 16644, CAP_LARGE_READX⟩ 1 (2 ^ 54) [7] false [.poll 1] r log (by decide)
    (by decide) (by decide +kernel) ran [] 1 [] only (by decide)
  cases all

end Smb1Client
