import Smb1Client.Resource.FileStore
import Smb1Client.Resource.Reader

/-!
What writes leave in the server's file: of a span that is written, of a stream of them, and for
whoever reads the file afterwards.
-/

namespace Smb1Client

open Tiling Trace Overlay

namespace WriteSpan

variable {call : WriteCall} {original : Bytes} {downgraded : Bool} {progress : WriteProgress}
  {es : List (WriteEvent ⊕ Landing)} {s : WriteSpan} {t : FileStore} {log : List WriteOut}

/-- A call of `write_span`, and the server it writes to. -/
def stored (call : WriteCall) : Machine (WriteSpan × FileStore) (WriteEvent ⊕ Landing) WriteOut :=
  (machine call).beside (FileStore.surrounding some)

/-- A request of a write, with what is acknowledged of it, is a part of the data. -/
theorem part_of_asked {request : WriteAndxRequest} {length : ℕ}
    (asked : Asked call request length) :
    Part call.offset.toNat call.data request.offset.toNat request.data ∧
      request.data.length = length := by
  obtain ⟨start, inside, offset, data⟩ := carried_of_asked asked
  exact FileStore.part_of_carried ⟨start, offset, inside, data⟩

/-- A step of a write, as the file sees it. -/
theorem kept_stepped {e : WriteEvent} {s' : WriteSpan} {out : List WriteOut}
    (deep : 1 ≤ call.depth) (fits : call.offset.toNat + call.data.length ≤ 2 ^ 64)
    (accounted : s.Accounted call log) (finished : s.Finished call)
    (kept : FileStore.Kept call.offset.toNat call.data original t log)
    (honest : ∀ ack ∈ acks out, FileStore.Has t.file ack)
    (stepped : s.step call e = some (s', out)) :
    s'.Accounted call (log ++ out) ∧ s'.Finished call ∧
      FileStore.Kept call.offset.toNat call.data original (out.foldl (FileStore.hears some) t)
        (log ++ out) := by
  have stepped := step_cases stepped
  have low := accounted.low fits e
  have accounted' := accounted.stepped low stepped
  refine ⟨accounted', finished.stepped accounted deep stepped, ?_⟩
  have kept := @FileStore.Kept.hears _ some _ _ _ _ _ out kept
  rw [List.filterMap_some] at kept
  refine kept (fun request asks => ?_) (fun ack member => ?_) honest
  · obtain ⟨length, asked⟩ := accounted.asks low stepped asks
    exact (part_of_asked asked).1
  · have logged : ack ∈ acks (log ++ out) := by
      rw [acks_append]
      exact List.mem_append_right _ member
    obtain ⟨length, asked, within⟩ := accounted'.acks ack logged
    obtain ⟨part, long⟩ := part_of_asked asked
    exact ⟨part, by rw [long]; exact within⟩

/-- The run from the offset that is reported of a write that failed has landed. -/
theorem Recorded.landed {p : ℕ} (recorded : Recorded call s log)
    (below : p < (UInt64.ofNat s.progress.written).toNat) :
    0 < landed (call.offset.toNat + p) (acks log) := by
  have written : s.progress.written = s.progress.covered.prefixLen := by
    rw [WriteProgress.written, recorded.undeclared]
    rfl
  rw [UInt64.toNat_ofNat', written] at below
  apply (recorded.covered p).mp
  exact Coverage.mem_of_lt_prefixLen (lt_of_lt_of_le below (Nat.mod_le _ _))

end WriteSpan

namespace FileWriter

variable {n : Negotiated} {fid : UInt16} {depth capacity : ℕ} {base len : UInt64}
  {original : Bytes} {downgraded : Bool} {progress : WriteProgress}
  {es : List (WriterEvent ⊕ Landing)} {w : FileWriter} {t : FileStore} {log : List WriterOut}

/-- What goes over the wire of what a writer does. -/
def wire : WriterOut → Option WriteOut
  | .wire out => some out
  | _ => none

theorem wires_eq_filterMap (log : List WriterOut) : wires log = log.filterMap wire := by
  congr 1

theorem wires_append (log log' : List WriterOut) : wires (log ++ log') = wires log ++ wires log' :=
  List.filterMap_append

/-- What is carried of the bytes that were passed is a part of those that were accepted. -/
theorem Streams.part {request : WriteAndxRequest} {length : ℕ}
    (streams : Streams depth base len w log)
    (carried : Carried base.toNat (passed log) request length) :
    Part base.toNat (accepted log) request.offset.toNat request.data ∧
      request.data.length = length := by
  rw [← streams.bytes]
  exact FileStore.part_of_carried (carried.more w.buffer)

/-- A step of the writer, as the file sees it. -/
theorem Streams.keeps {out : List WriterOut} (streams : Streams depth base len w (log ++ out))
    (kept : FileStore.Kept base.toNat (accepted log) original t (wires log))
    (honest : ∀ ack ∈ WriteSpan.acks (out.filterMap wire), FileStore.Has t.file ack) :
    FileStore.Kept base.toNat (accepted (log ++ out)) original (out.foldl (FileStore.hears wire) t)
      (wires (log ++ out)) := by
  rw [wires_append, accepted_append, wires_eq_filterMap out]
  apply (kept.append (accepted out)).hears ?_ ?_ honest
  · intro request asks
    obtain ⟨entry, member, wired⟩ := List.mem_filterMap.mp asks
    cases entry <;> cases wired
    obtain ⟨length, carried⟩ := streams.asked request (List.mem_append_right _ member)
    rw [← accepted_append]
    exact (streams.part carried).1
  · intro ack member
    have logged : ack ∈ acks (log ++ out) := by
      rw [acks_append, acks, acks, wires_eq_filterMap out]
      exact List.mem_append_right _ member
    obtain ⟨length, carried, within⟩ := streams.carried ack logged
    obtain ⟨part, long⟩ := streams.part carried
    rw [← accepted_append]
    exact ⟨part, by rw [long]; exact within⟩

variable (n fid depth capacity) in
/-- A writer, and the server it writes to. -/
def stored : Machine (FileWriter × FileStore) (WriterEvent ⊕ Landing) WriterOut :=
  (machine n fid depth capacity).beside (FileStore.surrounding wire)

/-- No position of what is buffered is past the last there is, and the server is honest. -/
def Fair (m : Machine FileWriter WriterEvent WriterOut) (capacity : ℕ)
    (v : (FileWriter × FileStore) × (WriterEvent ⊕ Landing)) : Prop :=
  (∀ e ∈ v.2.getLeft?, v.1.1.Low capacity e) ∧ FileStore.Honest m wire v

instance (m : Machine FileWriter WriterEvent WriterOut)
    (v : (FileWriter × FileStore) × (WriterEvent ⊕ Landing)) : Decidable (Fair m capacity v) := by
  unfold Fair
  infer_instance

end FileWriter

/-! ## What is read afterwards -/

namespace FileReader

variable {n : Negotiated} {fid : UInt16} {depth : ℕ} {F : Bytes} {downgraded : Bool}
  {es : List ReaderEvent} {r : FileReader} {log : List ReaderOut}

end FileReader

end Smb1Client
