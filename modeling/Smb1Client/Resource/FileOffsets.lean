import Smb1Client.Resource.Reader
import Smb1Client.Resource.WriterStreams

/-!
The offsets that reads and writes put on the wire, and the length a write records.

All of them are sums modulo 2^64. They are what they are meant to be exactly where a span ends
soon enough, which nothing checks.
-/

namespace Smb1Client

open Tiling Trace

theorem toNat_add_ofNat_iff (offset : UInt64) (length : ℕ) :
    (offset + UInt64.ofNat length).toNat = offset.toNat + length ↔
      offset.toNat + length < 2 ^ 64 := by
  rw [UInt64.toNat_add, UInt64.toNat_ofNat', Nat.add_mod_mod]
  exact ⟨fun same => same ▸ Nat.mod_lt _ (by decide), Nat.mod_eq_of_lt⟩

/-! ## `read_exact_at` -/

namespace ReadSpan

variable {call : ReadCall} {size : ℕ} {s s' : ReadSpan} {e : ReadEvent}
  {out : List ReadAndxRequest}

/-- The request a step puts carries the offset of its chunk. -/
def Places (call : ReadCall) (s : ReadSpan) : ReadEvent → Prop
  | .issue _ => ∀ next ∈ s.nextSpan call,
      (call.request next.1.1 next.1.2).offset.toNat = call.offset.toNat + next.1.1
  | _ => True

theorem Accounted.nextSpan {next : (ℕ × ℕ) × Spans} (accounted : Accounted call size s)
    (took : s.nextSpan call = some next) : 1 ≤ next.1.2 ∧ next.1.1 + next.1.2 ≤ size := by
  rw [ReadSpan.nextSpan] at took
  split at took
  · have taken := accounted.taken took
    have within := taken.within.next
    rw [accounted.sized] at within
    exact ⟨taken.some, taken.inside.trans within⟩
  · cases took

theorem Accounted.places (accounted : Accounted call size s)
    (fits : call.offset.toNat + size ≤ 2 ^ 64) (e : ReadEvent) : s.Places call e := by
  cases e with
  | issue between =>
      intro next took
      obtain ⟨some, inside⟩ := accounted.nextSpan took
      exact (toNat_add_ofNat_iff call.offset next.1.1).mpr (by omega)
  | _ => trivial

/-- What a step puts is the request of its chunk. -/
theorem Stepped.asks (stepped : Stepped call s e s' out) (accounted : Accounted call size s)
    (fits : call.offset.toNat + size ≤ 2 ^ 64) : ∀ request ∈ out, ∃ start length,
      request.offset.toNat = call.offset.toNat + start ∧ 1 ≤ length ∧ start + length ≤ size := by
  cases stepped with
  | downgrade => exact fun _ none => absurd none List.not_mem_nil
  | @issue between span spans running room took =>
      intro request member
      cases List.mem_singleton.mp member
      have next : s.nextSpan call = some (span, spans) := by
        rw [ReadSpan.nextSpan, if_pos room]
        exact took
      obtain ⟨some, inside⟩ := accounted.nextSpan next
      dsimp only at some inside
      exact ⟨span.1, span.2, (toNat_add_ofNat_iff call.offset span.1).mpr (by omega), some, inside⟩
  | answer => exact fun _ none => absurd none List.not_mem_nil
  | finish => exact fun _ none => absurd none List.not_mem_nil

end ReadSpan

/-- Whatever is answered, every request of a read of `size` bytes carries the offset of its chunk,
and a read past 2^64 puts no request at all. -/
def ReadCall.InPlace (call : ReadCall) (size : ℕ) : Prop :=
  ∀ (downgraded : Bool) (buffer : Bytes) (es : List ReadEvent) (s : ReadSpan)
    (log : List ReadAndxRequest), buffer.length = size →
    (ReadSpan.machine call).run (.start downgraded buffer) es = some (s, log) →
    (∀ v ∈ (ReadSpan.machine call).visits (.start downgraded buffer) es, v.1.Places call v.2) ∧
      (2 ^ 64 < call.offset.toNat + size → log = [])

theorem ReadCall.inPlace_iff (call : ReadCall) (deep : 1 ≤ call.depth) (size : ℕ) :
    call.InPlace size ↔ call.offset.toNat + size ≤ 2 ^ 64 := by
  constructor
  · intro placed
    by_contra past
    have low := call.offset.toNat_lt
    let s : ReadSpan := .start false (.replicate size 0)
    have empty : (List.replicate size (0 : UInt8)) ≠ [] := by
      rw [Ne, List.replicate_eq_nil_iff]
      omega
    have running : s.result = none := if_neg empty
    -- The first chunk is issued, whatever the span is.
    have some : (s.nextSpan call).isSome = true := by
      rw [← Option.ne_none_iff_isSome, ReadSpan.nextSpan,
        if_pos (show s.issued.length < call.depth from deep), Ne, Spans.take_eq_none_iff]
      rintro ⟨-, whole⟩
      have none := whole rfl
      rw [show s.buffer.length = size from List.length_replicate] at none
      change size ≤ 0 at none
      omega
    obtain ⟨next, took⟩ := Option.isSome_iff_exists.mp some
    have stepped : ReadSpan.step call s (.issue false) =
        Option.some ({ s with
          downgraded := s.downgraded || false
          spans := next.2
          issued := s.issued ++ [⟨next.1.1, next.1.2, !(s.downgraded || false),
            call.request next.1.1 next.1.2⟩] }, [call.request next.1.1 next.1.2]) := by
      rw [ReadSpan.step, running, took]
      rfl
    have nothing := (placed false _ [.issue false] _ _ List.length_replicate
      (Machine.run_singleton stepped)).2 (not_le.mp past)
    cases nothing
  · rintro fits downgraded buffer es s log rfl ran
    refine ⟨fun v member => ?_, fun past => absurd past (not_lt.mpr fits)⟩
    have accounted := Machine.visits_invariant
      (P := fun s => ReadSpan.Accounted call buffer.length s) ReadSpan.accounted_start
      (fun s e s' out before stepped => before.stepped (ReadSpan.step_cases stepped)) member
    exact accounted.places fits v.2

/-! ## `write_all_at` -/

namespace WriteSpan

/-- The request a step puts carries the offset of its chunk. -/
def Places (call : WriteCall) (s : WriteSpan) : WriteEvent → Prop
  | .issue _ => ∀ next ∈ s.nextSpan call,
      (call.request next.1.1 next.1.2).offset.toNat = call.offset.toNat + next.1.1
  | _ => True

theorem places_iff {call : WriteCall} {s : WriteSpan} {e : WriteEvent} :
    s.Places call e ↔ s.Low call e := by
  cases e with
  | issue between => exact forall₂_congr fun next _ => toNat_add_ofNat_iff call.offset next.1.1
  | _ => exact Iff.rfl

end WriteSpan

/-- Whatever is answered, every request of a write carries the offset of its chunk, and a write
past 2^64 puts no request at all. -/
def WriteCall.InPlace (call : WriteCall) : Prop :=
  ∀ (downgraded : Bool) (progress : WriteProgress) (es : List WriteEvent) (s : WriteSpan)
    (log : List WriteOut),
    (WriteSpan.machine call).run (.start downgraded progress call.data) es = some (s, log) →
    (∀ v ∈ (WriteSpan.machine call).visits (.start downgraded progress call.data) es,
      v.1.Places call v.2) ∧
      (2 ^ 64 < call.offset.toNat + call.data.length → ∀ request, .asks request ∉ log)

/-- `grew_to`. -/
def grewTo (len stop : UInt64) : UInt64 := max len stop

/-- The length a file has, as its handle records it, after `write_all_at` has come to an end. -/
def WriteCall.recorded (call : WriteCall) (len : UInt64) : Except ClientError Unit → UInt64
  | .ok () => grewTo len (call.offset + UInt64.ofNat call.data.length)
  | .error _ => len

/-- A write that ends well records its far end. -/
def WriteCall.RecordsEnd (call : WriteCall) : Prop :=
  ∀ len, (call.recorded len (.ok ())).toNat =
    max len.toNat (call.offset.toNat + call.data.length)

theorem WriteCall.inPlace_iff (call : WriteCall) (deep : 1 ≤ call.depth) :
    call.InPlace ↔ call.offset.toNat + call.data.length ≤ 2 ^ 64 := by
  constructor
  · intro placed
    by_contra past
    have low := call.offset.toNat_lt
    let s : WriteSpan := .start false .new call.data
    have running : s.result = none := by
      refine if_neg fun empty => ?_
      rw [empty] at past
      change ¬ call.offset.toNat + 0 ≤ _ at past
      omega
    have some : (s.nextSpan call).isSome = true := by
      rw [← Option.ne_none_iff_isSome, WriteSpan.nextSpan,
        if_pos (show s.failure = none ∧ s.issued.length < call.depth from ⟨rfl, deep⟩), Ne,
        Spans.take_eq_none_iff]
      rintro ⟨-, whole⟩
      have none := whole rfl
      change call.data.length ≤ 0 at none
      omega
    obtain ⟨next, took⟩ := Option.isSome_iff_exists.mp some
    have stepped : WriteSpan.step call s (.issue false) =
        Option.some ({ s with
          downgraded := s.downgraded || false
          spans := next.2
          progress := s.progress.chunk
          issued := s.issued ++ [⟨next.1.1, next.1.2, !(s.downgraded || false),
            call.request next.1.1 next.1.2, none⟩] },
            [.asks (call.request next.1.1 next.1.2)]) := by
      rw [WriteSpan.step, running, took]
      rfl
    exact (placed false .new [.issue false] _ _ (Machine.run_singleton stepped)).2 (not_le.mp past)
      _ List.mem_cons_self
  · intro fits downgraded progress es s log ran
    refine ⟨fun v member => ?_, fun past => absurd past (not_lt.mpr fits)⟩
    have stepped : ∀ s e s' out, (∃ log, WriteSpan.Accounted call s log) →
        WriteSpan.step call s e = some (s', out) → ∃ log, WriteSpan.Accounted call s' log := by
      intro s e s' out accounted stepped
      obtain ⟨log, before⟩ := accounted
      exact ⟨log ++ out, before.stepped (before.low fits e) (WriteSpan.step_cases stepped)⟩
    obtain ⟨log', accounted⟩ := Machine.visits_invariant
      (P := fun s => ∃ log, WriteSpan.Accounted call s log) ⟨[], WriteSpan.accounted_start⟩
      stepped member
    exact WriteSpan.places_iff.mpr (accounted.low fits v.2)

theorem WriteCall.recordsEnd_iff (call : WriteCall) :
    call.RecordsEnd ↔ call.offset.toNat + call.data.length < 2 ^ 64 := by
  rw [← toNat_add_ofNat_iff]
  constructor
  · intro records
    have whole := records 0
    change (max 0 (call.offset + UInt64.ofNat call.data.length)).toNat = _ at whole
    rw [FileWriter.max_toNat] at whole
    simpa using whole
  · intro stop len
    change (max len (call.offset + UInt64.ofNat call.data.length)).toNat = _
    rw [FileWriter.max_toNat, stop]

/-! ## The streaming read -/

namespace FileReader

/-- A fill that is started ends below 2^64, and its size is the product it is meant to be. -/
def Low (n : Negotiated) (depth : ℕ) (r : FileReader) : ReaderEvent → Prop
  | .poll room => r.serve room = none → r.filling = none →
      r.cursor.toNat + max (n.readChunkSize r.downgraded) 1 * depth < 2 ^ 64
  | _ => True

/-- The cursor is behind all bytes that were read, and every request was put for bytes from there
on. -/
structure Placed (n : Negotiated) (fid : UInt16) (depth : ℕ) (r : FileReader)
    (log : List ReaderOut) : Prop where
  cursor : r.cursor.toNat = (delivered log ++ r.unread).length
  filling : ∀ filling ∈ r.filling, r.unread = [] ∧ ∃ size, r.cursor.toNat + size < 2 ^ 64 ∧
    filling.Accounted (r.call n fid depth) size
  asked : ∀ before request after, log = before ++ .asks request :: after → ∃ start,
    request.offset.toNat = (delivered before).length + start

variable {n : Negotiated} {fid : UInt16} {depth room : ℕ} {r r' : FileReader}
  {log : List ReaderOut} {out : ReaderOut}

theorem placed_new {downgraded : Bool} : Placed n fid depth (new downgraded) [] where
  cursor := rfl
  filling := by
    intro filling none
    cases none
  asked := by
    intro before request after split
    exact absurd split.symm (List.append_ne_nil_of_right_ne_nil _ (List.cons_ne_nil _ _))

/-- An entry that is no request. -/
theorem Placed.says (placed : Placed n fid depth r log) (quiet : ∀ request, out ≠ .asks request)
    (cursor : r'.cursor.toNat = (delivered (log ++ [out]) ++ r'.unread).length)
    (filling : ∀ filling ∈ r'.filling, r'.unread = [] ∧ ∃ size, r'.cursor.toNat + size < 2 ^ 64 ∧
      filling.Accounted (r'.call n fid depth) size) : Placed n fid depth r' (log ++ [out]) where
  cursor := cursor
  filling := filling
  asked := by
    intro before request after split
    rcases split_concat split with ⟨rest, earlier, -⟩ | ⟨-, same, -⟩
    · exact placed.asked before request rest earlier
    · exact absurd same (quiet request)

/-- What is served is the front of what was held. -/
theorem serve_cases (served : r.serve room = some (r', out)) : ∃ bytes, out = .ready room bytes ∧
    bytes ++ r'.unread = r.unread ∧ r'.cursor = r.cursor ∧ r'.filling = r.filling := by
  rw [FileReader.serve] at served
  dsimp only at served
  split at served
  · cases served
    refine ⟨_, rfl, ?_, rfl, rfl⟩
    have rest : unread { r with taken := r.taken + min (r.buffer.length - r.taken) room } =
        r.unread.drop (min (r.buffer.length - r.taken) room) := by
      rw [unread, unread, List.drop_drop]
    rw [rest, List.take_append_drop]
  · split at served
    · cases served
      exact ⟨[], rfl, rfl, rfl, rfl⟩
    · cases served

theorem Placed.serve (placed : Placed n fid depth r log)
    (served : r.serve room = some (r', out)) : Placed n fid depth r' (log ++ [out]) := by
  obtain ⟨bytes, rfl, same, cursor, filling⟩ := serve_cases served
  have given : delivered (log ++ [.ready room bytes]) = delivered log ++ bytes := by
    rw [delivered_append]
    exact congrArg _ (List.append_nil _)
  refine placed.says (fun _ same => by cases same) ?_ ?_
  · rw [given, List.append_assoc, same, cursor]
    exact placed.cursor
  · rw [filling]
    intro s waits
    obtain ⟨empty, size, low, accounted⟩ := placed.filling s waits
    rw [empty, List.append_eq_nil_iff] at same
    rw [call, cursor]
    exact ⟨same.2, size, low, accounted⟩

/-- A fill that is over moves the cursor by what it brought. -/
theorem Placed.takeUp {filled : ReadSpan} {fill : Fill} {size : ℕ}
    (placed : Placed n fid depth r log) (empty : r.unread = [])
    (low : r.cursor.toNat + size < 2 ^ 64)
    (accounted : filled.Accounted (r.call n fid depth) size) :
    Placed n fid depth (r.takeUp filled fill) log where
  cursor := by
    have before := placed.cursor
    rw [empty, List.append_nil] at before
    have short : (filled.buffer.take fill.covered.prefixLen).length ≤ size := by
      rw [List.length_take, accounted.sized]
      exact min_le_right _ _
    have moved := (toNat_add_ofNat_iff r.cursor
      (filled.buffer.take fill.covered.prefixLen).length).mpr (by omega)
    rw [List.length_append, ← before]
    exact moved
  filling := by
    intro s none
    cases none
  asked := placed.asked

theorem Placed.poll (placed : Placed n fid depth r log) (low : r.Low n depth (.poll room)) :
    Placed n fid depth (r.poll n depth room).1 (log ++ [(r.poll n depth room).2]) := by
  rw [FileReader.poll]
  cases served : r.serve room with
  | some result => exact placed.serve served
  | none =>
      obtain ⟨empty, -⟩ := serve_eq_none_iff.mp served
      have filling : ∃ size, r.cursor.toNat + size < 2 ^ 64 ∧
          (r.filling.getD (.start r.downgraded (.replicate (r.fillSize n depth) 0))).Accounted
            (r.call n fid depth) size := by
        cases waits : r.filling with
        | some filling => exact (placed.filling filling waits).2
        | none =>
            have below := low served waits
            have whole : r.fillSize n depth =
                max (n.readChunkSize r.downgraded) 1 * depth := Nat.mod_eq_of_lt (by omega)
            rw [← whole] at below
            refine ⟨r.fillSize n depth, below, ?_⟩
            have start := @ReadSpan.accounted_start (r.call n fid depth) r.downgraded
              (.replicate (r.fillSize n depth) 0)
            rwa [List.length_replicate] at start
      obtain ⟨size, below, accounted⟩ := filling
      have before := placed.cursor
      dsimp only
      cases came : (r.filling.getD (.start r.downgraded
          (.replicate (r.fillSize n depth) 0))).result with
      | none =>
          refine placed.says (fun _ same => by cases same) ?_ ?_
          · rw [delivered_append]
            change _ = ((delivered log ++ []) ++ r.unread).length
            rwa [List.append_nil]
          · intro s same
            cases same
            exact ⟨empty, size, below, accounted⟩
      | some outcome =>
          cases outcome with
          | error error =>
              refine placed.says (fun _ same => by cases same) ?_ ?_
              · rw [delivered_append]
                change _ = ((delivered log ++ []) ++ r.unread).length
                rwa [List.append_nil]
              · intro s none
                cases none
          | ok fill =>
              have taken := @Placed.takeUp _ _ _ _ _ _ fill _ placed empty below accounted
              dsimp only
              cases again : (r.takeUp _ fill).serve room with
              | some result => exact taken.serve again
              | none =>
                  refine taken.says (fun _ same => by cases same) ?_ taken.filling
                  rw [delivered_append]
                  change _ = ((delivered log ++ []) ++ _).length
                  rw [List.append_nil]
                  exact taken.cursor

/-- **Steps keep every request in its place.** -/
theorem Placed.step {e : ReaderEvent} {outs : List ReaderOut} (placed : Placed n fid depth r log)
    (low : r.Low n depth e) (stepped : r.step n fid depth e = some (r', outs)) :
    Placed n fid depth r' (log ++ outs) := by
  cases e with
  | downgrade =>
      rw [FileReader.step] at stepped
      split at stepped <;> cases stepped
      rw [List.append_nil]
      exact ⟨placed.cursor, placed.filling, placed.asked⟩
  | poll room =>
      cases stepped
      exact placed.poll low
  | fill e =>
      rw [FileReader.step] at stepped
      split at stepped
      · cases stepped
      next filling waits =>
      obtain ⟨⟨s, asked⟩, goes, same⟩ := Option.map_eq_some_iff.mp stepped
      cases same
      obtain ⟨empty, size, below, accounted⟩ := placed.filling filling waits
      have goes := ReadSpan.step_cases goes
      have quiet : delivered (asked.map .asks) = [] := by
        rw [delivered, List.flatMap_map]
        exact List.flatMap_eq_nil_iff.mpr fun _ _ => rfl
      have before := placed.cursor
      refine ⟨?_, ?_, fun front request after split => ?_⟩
      · rw [delivered_append, quiet, List.append_nil]
        exact before
      · intro s' same
        cases same
        exact ⟨empty, size, below, accounted.stepped goes⟩
      · rcases split_append split with ⟨rest, earlier, -⟩ | ⟨more, rfl, later⟩
        · exact placed.asked front request rest earlier
        · have put : request ∈ asked := by
            have member : ReaderOut.asks request ∈ asked.map .asks := by
              rw [later]
              simp
            obtain ⟨request', put, same⟩ := List.mem_map.mp member
            cases same
            exact put
          obtain ⟨start, length, offset, -⟩ := goes.asks accounted (le_of_lt below) request put
          have nothing : delivered more = [] := by
            have all := quiet
            rw [later, delivered_append] at all
            exact (List.append_eq_nil_iff.mp all).1
          refine ⟨start, ?_⟩
          rw [offset, delivered_append, nothing, List.append_nil]
          change r.cursor.toNat + start = _
          rw [before, empty, List.append_nil]

theorem placed_run {downgraded : Bool} {es : List ReaderEvent}
    (low : ∀ v ∈ (machine n fid depth).visits (.new downgraded) es, v.1.Low n depth v.2)
    (ran : (machine n fid depth).run (.new downgraded) es = some (r, log)) :
    Placed n fid depth r log := by
  have kept : (∀ v ∈ (machine n fid depth).visits (.new downgraded) es, v.1.Low n depth v.2) →
      Placed n fid depth r log := by
    apply Machine.run_induction (P := fun done r log => (∀ v ∈ done, v.1.Low n depth v.2) →
      Placed n fid depth r log) (fun _ => placed_new) ?_ ran
    intro done r log e r' out before stepped within
    have placed := before fun v member => within v (List.mem_append_left _ member)
    exact placed.step (within (r, e) (by simp)) stepped
  exact kept low

end FileReader

/-! ## The streaming write -/

namespace FileWriter

/-- Every span starts behind those before it, every request is put for a part of what was passed,
with its own bytes, and the length is the far end of what was written. -/
structure Placed (base len : UInt64) (w : FileWriter) (log : List WriterOut) : Prop where
  spans : ∀ before offset data after, log = before ++ .passes offset data :: after →
    offset.toNat = base.toNat + (passed before).length
  asked : ∀ request, .wire (.asks request) ∈ log →
    ∃ length, Carried base.toNat (passed log) request length
  grows : w.len.toNat = grown len.toNat log

theorem placed_run {n : Negotiated} {fid : UInt16} {depth : ℕ} {base len : UInt64}
    {downgraded : Bool} {progress : WriteProgress} {es : List WriterEvent} {w : FileWriter}
    {log : List WriterOut} (deep : 1 ≤ depth)
    (sized : max (n.writeChunkSize downgraded) 1 * depth < 2 ^ 64)
    (low : ∀ v ∈ (machine n fid depth (capacityOf n downgraded depth)).visits
      (.new base len downgraded progress) es, v.1.Low (capacityOf n downgraded depth) v.2)
    (ran : (machine n fid depth (capacityOf n downgraded depth)).run
      (.new base len downgraded progress) es = some (w, log)) : Placed base len w log := by
  have room : 1 ≤ capacityOf n downgraded depth := by
    rw [capacityOf, Nat.mod_eq_of_lt sized]
    exact Nat.mul_pos (lt_of_lt_of_le Nat.one_pos (le_max_right _ _)) deep
  obtain ⟨streams, -⟩ := roomy_run deep room low ran
  exact ⟨streams.told.spans, streams.asked, streams.grows⟩

end FileWriter

/-- **The exact condition of offsets that do not wrap.** A read is in its place exactly where it
ends at 2^64 or before; a write is, and records its far end, exactly where it ends before 2^64. A
reader and a writer are, in every run whose fills and flushes end before 2^64. -/
theorem file_offsets_exact_iff (n : Negotiated) (fid : UInt16) {depth : ℕ} (deep : 1 ≤ depth) :
    (∀ offset size, (ReadCall.mk n fid offset depth).InPlace size ↔
      offset.toNat + size ≤ 2 ^ 64) ∧
    (∀ offset data, (WriteCall.mk n fid offset depth data).InPlace ∧
      (WriteCall.mk n fid offset depth data).RecordsEnd ↔
        offset.toNat + data.length < 2 ^ 64) ∧
    (∀ downgraded es r log,
      (∀ v ∈ (FileReader.machine n fid depth).visits (.new downgraded) es,
        v.1.Low n depth v.2) →
      (FileReader.machine n fid depth).run (.new downgraded) es = some (r, log) →
      FileReader.Placed n fid depth r log) ∧
    ∀ base len downgraded progress es w log,
      max (n.writeChunkSize downgraded) 1 * depth < 2 ^ 64 →
      (∀ v ∈ (FileWriter.machine n fid depth (FileWriter.capacityOf n downgraded depth)).visits
        (.new base len downgraded progress) es,
          v.1.Low (FileWriter.capacityOf n downgraded depth) v.2) →
      (FileWriter.machine n fid depth (FileWriter.capacityOf n downgraded depth)).run
        (.new base len downgraded progress) es = some (w, log) →
      FileWriter.Placed base len w log := by
  refine ⟨fun offset size => ReadCall.inPlace_iff _ deep size, fun offset data => ?_,
    fun downgraded es r log low ran => FileReader.placed_run low ran,
    fun base len downgraded progress es w log sized low ran =>
      FileWriter.placed_run deep sized low ran⟩
  rw [WriteCall.inPlace_iff _ deep, WriteCall.recordsEnd_iff]
  exact and_iff_right_of_imp le_of_lt

theorem file_offsets_exact_to_the_last :
    (ReadCall.mk ⟨50, 16644, 0⟩ 1 18446744073709551614 4).InPlace 2 :=
  ((file_offsets_exact_iff ⟨50, 16644, 0⟩ 1 (by decide)).1 18446744073709551614 2).mpr (by decide)

/-- Two bytes for the last offset there is, of which the server takes one at a time. -/
def writeOfTwo : WriteCall := ⟨⟨50, 16644, 0⟩, 1, 18446744073709551615, 1, [1, 2]⟩

/-- Where a request is put. -/
def WriteOut.offset : WriteOut → Option UInt64
  | .asks request => some request.offset
  | _ => none

/-- The second byte of `writeOfTwo` is put at the head of the file, and the far end that is
recorded is the second position. -/
theorem writeOfTwo_wraps : ¬ writeOfTwo.InPlace ∧ ¬ writeOfTwo.RecordsEnd ∧
    ∃ s log, (WriteSpan.machine writeOfTwo).run (.start false .new writeOfTwo.data)
        [.issue false, .reply 0 (.ok (writeReply 1)), .answer 0, .issue false,
          .reply 0 (.ok (writeReply 1)), .answer 0, .finish] = some (s, log) ∧
      s.result = some (.ok ()) ∧ log.filterMap WriteOut.offset = [18446744073709551615, 0] ∧
      writeOfTwo.recorded 0 (.ok ()) = 1 := by
  refine ⟨?_, ?_, ?_⟩
  · rw [WriteCall.inPlace_iff _ (by decide)]
    decide
  · rw [WriteCall.recordsEnd_iff]
    decide
  · have happened : ((WriteSpan.machine writeOfTwo).run (.start false .new writeOfTwo.data)
        [.issue false, .reply 0 (.ok (writeReply 1)), .answer 0, .issue false,
          .reply 0 (.ok (writeReply 1)), .answer 0, .finish]).map (fun ended =>
            (decide (ended.1.result = some (.ok ())), ended.2.filterMap WriteOut.offset)) =
        some (true, [18446744073709551615, 0]) := by
      decide +kernel
    obtain ⟨⟨s, log⟩, ran, same⟩ := Option.map_eq_some_iff.mp happened
    obtain ⟨fine, offsets⟩ := Prod.mk.inj same
    exact ⟨s, log, ran, of_decide_eq_true fine, offsets, by decide⟩

end Smb1Client
