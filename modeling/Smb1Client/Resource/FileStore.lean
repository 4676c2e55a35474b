import Smb1Client.Lib.Beside
import Smb1Client.Lib.Overlay
import Smb1Client.Resource.WriterStreams

/-!
A server's file under a write.

The server stores what it was sent whenever it likes: in any order, in parts, more than once and
after the call is over. It acknowledges only what its file has.
-/

namespace Smb1Client

open Tiling Trace Overlay

/-- A server's file, with the writes it has been sent. -/
structure FileStore where
  file : Bytes
  asked : List WriteAndxRequest

/-- The server stores the first so many bytes of a request it was sent. -/
structure Landing where
  index : ℕ
  count : ℕ

namespace FileStore

section Surroundings

variable {σ ε ω : Type} (m : Machine σ ε ω) (wire : ω → Option WriteOut)

/-- A request that is put reaches the server. -/
def hears (t : FileStore) (out : ω) : FileStore :=
  match wire out with
  | some (.asks request) => { t with asked := t.asked ++ [request] }
  | _ => t

/-- A file that ends before is filled up with zeros. -/
def lands (t : FileStore) (l : Landing) : Option FileStore :=
  t.asked[l.index]?.map fun request =>
    { t with file := overlay 0 t.file request.offset.toNat (request.data.take l.count) }

def surrounding : Surrounding FileStore Landing ω := ⟨hears wire, lands⟩

/-- A file has the bytes an acknowledgement is for. -/
def Has (file : Bytes) (ack : WriteAndxRequest × ℕ) : Prop :=
  ∀ i < ack.2, file[ack.1.offset.toNat + i]? = ack.1.data[i]?

instance (file : Bytes) (ack : WriteAndxRequest × ℕ) : Decidable (Has file ack) :=
  inferInstanceAs (Decidable (∀ i < ack.2, file[ack.1.offset.toNat + i]? = ack.1.data[i]?))

/-- What a step takes as acknowledged the file has. -/
def Honest (v : (σ × FileStore) × (ε ⊕ Landing)) : Prop :=
  ∀ e ∈ v.2.getLeft?, ∀ stepped ∈ m.step v.1.1 e,
    ∀ ack ∈ WriteSpan.acks (stepped.2.filterMap wire), Has v.1.2.file ack

instance (v : (σ × FileStore) × (ε ⊕ Landing)) : Decidable (Honest m wire v) := by
  unfold Honest
  infer_instance

end Surroundings

/-! ## What becomes of the file -/

variable {ω : Type} {wire : ω → Option WriteOut} {base : ℕ} {whole original : Bytes}
  {t t' : FileStore} {log : List WriteOut} {out : List ω}

/-- The account of a file under writes of parts of a whole: everything sent is such a part, the
file is what parts have made of it, and it has what was acknowledged. -/
structure Kept (base : ℕ) (whole original : Bytes) (t : FileStore) (log : List WriteOut) :
    Prop where
  asked : ∀ request ∈ t.asked, Part base whole request.offset.toNat request.data
  file : Between 0 original base whole t.file
  acks : ∀ ack ∈ WriteSpan.acks log, Part base whole ack.1.offset.toNat ack.1.data ∧
    ack.2 ≤ ack.1.data.length ∧ Has t.file ack

theorem kept_start : Kept base whole original ⟨original, []⟩ [] where
  asked := List.forall_mem_nil _
  file := between_refl
  acks := List.forall_mem_nil _

/-- More of the whole changes nothing. -/
theorem Kept.append (kept : Kept base whole original t log) (more : Bytes) :
    Kept base (whole ++ more) original t log where
  asked request member := (kept.asked request member).append more
  file := kept.file.append more
  acks ack member := by
    obtain ⟨part, within, has⟩ := kept.acks ack member
    exact ⟨part.append more, within, has⟩

theorem part_of_carried {request : WriteAndxRequest} {length : ℕ}
    (carried : FileWriter.Carried base whole request length) :
    Part base whole request.offset.toNat request.data ∧ request.data.length = length := by
  obtain ⟨start, offset, inside, data⟩ := carried
  rw [offset, data]
  refine ⟨part_slice inside, ?_⟩
  rw [List.length_take, List.length_drop]
  omega

/-- A byte that a file has of a part it keeps, whatever other part is stored. -/
theorem has_overlay {request : WriteAndxRequest} {ack : WriteAndxRequest × ℕ} {count : ℕ}
    (stored : Part base whole request.offset.toNat request.data)
    (part : Part base whole ack.1.offset.toNat ack.1.data) (within : ack.2 ≤ ack.1.data.length)
    (has : Has t.file ack) :
    Has (overlay 0 t.file request.offset.toNat (request.data.take count)) ack := by
  obtain ⟨above, inside, same⟩ := part
  intro i below
  have place : base + (ack.1.offset.toNat - base + i) = ack.1.offset.toNat + i := by omega
  have own := same i (by omega)
  rw [← place, ← own]
  apply getElem?_overlay_of_part (stored.take count) (by omega)
  rw [place, own]
  exact has i below

/-- Something is stored. -/
theorem Kept.lands {l : Landing} (kept : Kept base whole original t log)
    (lands : t.lands l = some t') : Kept base whole original t' log := by
  obtain ⟨request, found, rfl⟩ := Option.map_eq_some_iff.mp lands
  have stored := kept.asked request (List.mem_of_getElem? found)
  refine ⟨kept.asked, kept.file.overlay (stored.take l.count), fun ack member => ?_⟩
  obtain ⟨part, within, has⟩ := kept.acks ack member
  exact ⟨part, within, has_overlay stored part within has⟩

theorem foldl_hears (t : FileStore) (out : List ω) : out.foldl (hears wire) t =
    { t with asked := t.asked ++ (out.filterMap wire).filterMap fun
      | .asks request => some request
      | _ => none } := by
  induction out generalizing t with
  | nil => rw [List.foldl_nil, List.filterMap_nil, List.filterMap_nil, List.append_nil]
  | cons entry out ih =>
      rw [List.foldl_cons, ih, hears, List.filterMap_cons]
      cases wire entry with
      | none => rfl
      | some written =>
          cases written with
          | asks request =>
              dsimp only
              rw [List.filterMap_cons, List.append_assoc]
              rfl
          | _ => rfl

/-- A step of the writing side: it asks for parts, and takes as acknowledged what the file has. -/
theorem Kept.hears (kept : Kept base whole original t log)
    (asks : ∀ request, .asks request ∈ out.filterMap wire →
      Part base whole request.offset.toNat request.data)
    (acks : ∀ ack ∈ WriteSpan.acks (out.filterMap wire),
      Part base whole ack.1.offset.toNat ack.1.data ∧ ack.2 ≤ ack.1.data.length)
    (honest : ∀ ack ∈ WriteSpan.acks (out.filterMap wire), Has t.file ack) :
    Kept base whole original (out.foldl (FileStore.hears wire) t) (log ++ out.filterMap wire) := by
  rw [foldl_hears]
  refine ⟨fun request member => ?_, kept.file, fun ack member => ?_⟩
  · rcases List.mem_append.mp member with old | new
    · exact kept.asked request old
    · obtain ⟨entry, written, same⟩ := List.mem_filterMap.mp new
      cases entry <;> cases same
      exact asks request written
  · rw [WriteSpan.acks_append] at member
    rcases List.mem_append.mp member with old | new
    · exact kept.acks ack old
    · obtain ⟨part, within⟩ := acks ack new
      exact ⟨part, within, honest ack new⟩

/-- What has been acknowledged the file has. -/
theorem Kept.landed {p : ℕ} (kept : Kept base whole original t log)
    (landed : 0 < WriteSpan.landed (base + p) (WriteSpan.acks log)) :
    t.file[base + p]? = whole[p]? := by
  obtain ⟨span, member, above, below⟩ := held_pos_iff.mp landed
  obtain ⟨ack, acked, rfl⟩ := List.mem_map.mp member
  obtain ⟨⟨from_, inside, same⟩, within, has⟩ := kept.acks ack acked
  dsimp only at above below
  have place : ack.1.offset.toNat + (base + p - ack.1.offset.toNat) = base + p := by omega
  have own := same (base + p - ack.1.offset.toNat) (by omega)
  rw [← place, has _ (by omega), ← own]
  congr 1
  omega

/-- Where all of the whole has been acknowledged, the file is what it was with the whole written
over it. -/
theorem Kept.complete (kept : Kept base whole original t log)
    (all : ∀ q, WriteSpan.landed q (WriteSpan.acks log) = holds q base whole.length) :
    t.file = overlay 0 original base whole := by
  apply kept.file.eq_overlay
  intro p below
  apply kept.landed
  rw [all, holds_of_mem (Nat.le_add_right _ _) (by omega)]
  exact one_pos

end FileStore

end Smb1Client
