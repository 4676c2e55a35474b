import Smb1Client.Rpc.Srvsvc

/-!
`NetrShareEnum` replies as a server marshals them, and their decoding.

A reply is marshalled in NDR's order: every structure of the array, then the strings they
point at, each aligned from the start of the stub. It decodes to its own shares
(`Srvsvc.response_stub`), and nothing short of all of it decodes, since a cursor that
succeeds on a front of a stub stops at the same place of the whole
(`Ndr.Fronted`). The writer counts a string's units in 32 bits, so a string that takes more
than those, its terminator with it, is not read back.
-/

namespace Smb1Client

open LittleEndian

namespace Ndr

variable {ε α β : Type}

/-! ## Boundaries -/

theorem le_aligned (offset : ℕ) : offset ≤ aligned offset := by
  rw [aligned, ALIGN]
  omega

theorem aligned_add_four (offset : ℕ) : aligned (aligned offset + 4) = aligned offset + 4 := by
  rw [aligned, aligned, ALIGN]
  omega

theorem aligned_aligned (offset : ℕ) : aligned (aligned offset) = aligned offset := by
  rw [aligned, aligned, ALIGN]
  omega

@[simp] theorem length_pad (stub : Bytes) : (pad stub).length = aligned stub.length := by
  rw [pad, List.length_append, List.length_replicate]
  have := le_aligned stub.length
  omega

@[simp] theorem length_putU32 (stub : Bytes) (value : UInt32) :
    (putU32 stub value).length = aligned stub.length + 4 := by
  rw [putU32, List.length_append, length_pad, length_u32le]

theorem aligned_putU32 (stub : Bytes) (value : UInt32) :
    aligned (putU32 stub value).length = (putU32 stub value).length := by
  rw [length_putU32, aligned_add_four]

/-- Primitives behind a boundary take no padding. -/
theorem foldl_putU32 {stub : Bytes} (level : aligned stub.length = stub.length)
    (values : List UInt32) : values.foldl putU32 stub = stub ++ values.flatMap u32le := by
  induction values generalizing stub with
  | nil => exact (List.append_nil stub).symm
  | cons value values ih =>
      have put : putU32 stub value = stub ++ u32le value := by
        rw [putU32, pad, level, Nat.sub_self, List.replicate_zero, List.append_nil]
      rw [List.foldl_cons, ih (aligned_putU32 stub value), put, List.flatMap_cons,
        List.append_assoc]

theorem prefix_pad (stub : Bytes) : stub <+: pad stub := List.prefix_append _ _

theorem prefix_putU32 (stub : Bytes) (value : UInt32) : stub <+: putU32 stub value :=
  (prefix_pad stub).trans (List.prefix_append _ _)

/-! ## Reading back what was put -/

theorem takeBytes_of_prefix (name : String) {front bytes stub : Bytes}
    (within : front ++ bytes <+: stub) :
    takeBytes name bytes.length stub front.length = .ok (bytes, (front ++ bytes).length) := by
  obtain ⟨rest, rfl⟩ := within
  rw [takeBytes, if_pos (by simp only [List.length_append]; omega), List.append_assoc,
    List.drop_left, List.take_left, List.length_append]

theorem u32_of_prefix (name : String) {front stub : Bytes} {value : UInt32} {start : ℕ}
    (level : aligned start = aligned front.length) (within : putU32 front value <+: stub) :
    u32 name stub start = .ok (value, (putU32 front value).length) := by
  have taken := takeBytes_of_prefix name within
  rw [length_u32le, length_pad] at taken
  have back : UInt32.ofNat (decode (u32le value)) = value := by
    rw [u32le, decode_encode, Nat.mod_eq_of_lt (show value.toNat < 256 ^ 4 from value.toNat_lt),
      UInt32.ofNat_toNat]
  rw [u32, level, taken]
  exact congrArg (fun value => Except.ok (value, (putU32 front _).length)) back

theorem prefix_foldl_putU32 (stub : Bytes) (values : List UInt32) :
    stub <+: values.foldl putU32 stub := by
  induction values generalizing stub with
  | nil => exact List.prefix_refl stub
  | cons value values ih => exact (prefix_putU32 stub value).trans (ih _)

/-- A string's three counts, whatever units they are of. -/
def putCounts (stub : Bytes) (count : UInt32) : Bytes := [count, 0, count].foldl putU32 stub

theorem aligned_putCounts (stub : Bytes) (count : UInt32) :
    aligned (putCounts stub count).length = (putCounts stub count).length :=
  aligned_putU32 _ _

theorem prefix_putCounts (stub : Bytes) (count : UInt32) : stub <+: putCounts stub count :=
  prefix_foldl_putU32 stub _

theorem prefix_putString (stub : Bytes) (text : Text) : stub <+: putString stub text :=
  ((prefix_putCounts stub _).trans (List.prefix_append _ _)).trans (prefix_pad _)

/-- A string is read back from its counts and its units, the last of them a terminator or
not. -/
theorem conformantVaryingString_of_prefix (name : String) (units : List UInt16)
    {front stub : Bytes} {count : UInt32} {text : Text} {start : ℕ}
    (level : aligned start = aligned front.length) (counted : count.toNat = units.length)
    (decodes : Utf16.decode (if units.getLast? = some 0 then units.dropLast else units) = some text)
    (within : putCounts front count ++ Utf16.toBytes units <+: stub) :
    conformantVaryingString name stub start =
      .ok (text, (putCounts front count ++ Utf16.toBytes units).length) := by
  let first := putU32 front count
  let second := putU32 first 0
  have last : putCounts front count <+: stub := (List.prefix_append _ _).trans within
  have maximum := u32_of_prefix name level
    (((prefix_putU32 first 0).trans (prefix_putU32 second count)).trans last)
  have offset := u32_of_prefix name (rfl : aligned first.length = _)
    ((prefix_putU32 second count).trans last)
  have actual := u32_of_prefix name (rfl : aligned second.length = _) last
  have taken := takeBytes_of_prefix name within
  rw [Utf16.length_toBytes, Nat.mul_comm, ← counted] at taken
  rw [conformantVaryingString, bind_of_ok (rfl : (get : Cursor NdrError ℕ) stub start = _),
    bind_of_ok maximum, bind_of_ok offset, bind_of_ok actual, if_neg (by simp)]
  beta_reduce
  have counts : putU32 second count = putCounts front count := rfl
  rw [counts, bind_of_ok (rfl : (get : Cursor NdrError ℕ) stub _ = _), bind_of_ok taken,
    Utf16.ofBytes_toBytes, decodes]
  rfl

/-- A text whose counts are what they say: with its terminator, it is counted in 32 bits. -/
def Countable (text : Text) : Prop := (Utf16.encode text).length + 1 < 2 ^ 32

instance (text : Text) : Decidable (Countable text) := Nat.decLt _ _

/-- `read` takes `value` back from a stub that grew from `front` to `after`, whatever is
behind it. -/
structure Recovers (read : Cursor ε α) (front after : Bytes) (value : α) : Prop where
  grows : front <+: after
  reads : ∀ {stub : Bytes} {start : ℕ}, aligned start = aligned front.length → after <+: stub →
    ∃ stop, read stub start = .ok (value, stop) ∧ aligned stop = aligned after.length

/-- The same, where the read stops at the end of what was added. -/
structure Exhausts (read : Cursor ε α) (front after : Bytes) (value : α) : Prop where
  grows : front <+: after
  reads : ∀ {stub : Bytes} {start : ℕ}, aligned start = aligned front.length → after <+: stub →
    read stub start = .ok (value, after.length)

/-- `read` fails with `error` on every stub that grew from `front` to `after`. -/
structure Refuses (read : Cursor ε α) (front after : Bytes) (error : ε) : Prop where
  grows : front <+: after
  reads : ∀ {stub : Bytes} {start : ℕ}, aligned start = aligned front.length → after <+: stub →
    read stub start = .error error

section Recovers

variable {front middle after : Bytes} {read : Cursor ε α} {value : α} {f : α → Cursor ε β}
  {result : β}

theorem recovers_pure (front : Bytes) (value : α) :
    Recovers (pure value : Cursor ε α) front front value where
  grows := List.prefix_refl front
  reads level _ := ⟨_, rfl, level⟩

theorem Recovers.bind (first : Recovers read front middle value)
    (later : Recovers (f value) middle after result) :
    Recovers (read >>= f) front after result where
  grows := first.grows.trans later.grows
  reads level within := by
    obtain ⟨stop, ran, level⟩ := first.reads level (later.grows.trans within)
    rw [bind_of_ok ran]
    exact later.reads level within

theorem Recovers.bind_exhausts (first : Recovers read front middle value)
    (later : Exhausts (f value) middle after result) :
    Exhausts (read >>= f) front after result where
  grows := first.grows.trans later.grows
  reads level within := by
    obtain ⟨stop, ran, level⟩ := first.reads level (later.grows.trans within)
    rw [bind_of_ok ran]
    exact later.reads level within

theorem Recovers.bind_refuses {error : ε} (first : Recovers read front middle value)
    (later : Refuses (f value) middle after error) :
    Refuses (read >>= f) front after error where
  grows := first.grows.trans later.grows
  reads level within := by
    obtain ⟨stop, ran, level⟩ := first.reads level (later.grows.trans within)
    rw [bind_of_ok ran]
    exact later.reads level within

theorem Recovers.map (first : Recovers read front after value) (g : α → β) :
    Recovers (read >>= fun x => pure (g x)) front after (g value) :=
  first.bind (recovers_pure after (g value))

theorem Exhausts.bind_pure (first : Exhausts read front after value)
    (ends : f value = pure result) : Exhausts (read >>= f) front after result where
  grows := first.grows
  reads level within := by
    rw [bind_of_ok (first.reads level within), ends]
    rfl

/-- A list is taken back element by element. -/
theorem recovers_mapM {γ : Type} {put : Bytes → γ → Bytes} {shape : γ → α} {back : γ → β}
    {elements : List γ}
    (each : ∀ x ∈ elements, ∀ front, Recovers (f (shape x)) front (put front x) (back x))
    (front : Bytes) :
    Recovers ((elements.map shape).mapM f) front (elements.foldl put front)
      (elements.map back) := by
  induction elements generalizing front with
  | nil => exact recovers_pure front []
  | cons x elements ih =>
      rw [List.map_cons, List.mapM_cons]
      refine (each x List.mem_cons_self front).bind ?_
      refine Recovers.map ?_ (back x :: ·)
      exact ih (fun y member => each y (List.mem_cons_of_mem _ member)) (put front x)

end Recovers

section Primitives

variable (front : Bytes)

theorem exhausts_u32 (name : String) (value : UInt32) :
    Exhausts (u32 name) front (putU32 front value) value where
  grows := prefix_putU32 front value
  reads := u32_of_prefix name

theorem recovers_u32 (name : String) (value : UInt32) :
    Recovers (u32 name) front (putU32 front value) value where
  grows := prefix_putU32 front value
  reads level within := ⟨_, u32_of_prefix name level within, rfl⟩

theorem recovers_isNullPointer (name : String) (referent : UInt32) :
    Recovers (isNullPointer name) front (putU32 front referent) (decide (referent = 0)) :=
  (recovers_u32 front name referent).map fun value => decide (value = 0)

theorem recovers_conformantVaryingString (name : String) {text : Text}
    (countable : Countable text) :
    Recovers (conformantVaryingString name) front (putString front text) text where
  grows := prefix_putString front text
  reads level within := by
    refine ⟨_, conformantVaryingString_of_prefix name _ level ?_ ?_
      ((prefix_pad _).trans within), ?_⟩
    · refine UInt32.toNat_ofNat_of_lt' ?_
      rw [List.length_append, List.length_singleton]
      exact countable
    · rw [if_pos List.getLast?_concat, List.dropLast_concat, Utf16.decode_encode]
    · exact (congrArg aligned (length_pad _)).trans (aligned_aligned _) |>.symm

end Primitives

/-! ## A front of a stub -/

/-- A read that succeeds on a front of a stub does the same on the whole, and does not run
past the front. -/
structure Fronted (read : Cursor ε α) : Prop where
  carries : ∀ {front stub : Bytes} {start stop : ℕ} {value : α}, front <+: stub →
    read front start = .ok (value, stop) →
      read stub start = .ok (value, stop) ∧ stop ≤ max start front.length

section Fronted

variable {read : Cursor ε α} {f : α → Cursor ε β}

theorem fronted_pure (value : α) : Fronted (pure value : Cursor ε α) := by
  refine ⟨fun within ran => ?_⟩
  cases ran
  exact ⟨rfl, Nat.le_max_left _ _⟩

theorem fronted_throw (error : ε) : Fronted (throw error : Cursor ε α) := by
  refine ⟨fun within ran => ?_⟩
  cases ran

theorem fronted_get : Fronted (get : Cursor ε ℕ) := by
  refine ⟨fun within ran => ?_⟩
  cases ran
  exact ⟨rfl, Nat.le_max_left _ _⟩

theorem Fronted.bind (first : Fronted read) (later : ∀ value, Fronted (f value)) :
    Fronted (read >>= f) := by
  refine ⟨fun within ran => ?_⟩
  obtain ⟨value, middle, ran, rest⟩ := of_bind_ok ran
  obtain ⟨again, within_front⟩ := first.carries within ran
  obtain ⟨rest, stops⟩ := (later value).carries within rest
  refine ⟨(bind_of_ok again f).trans rest, stops.trans ?_⟩
  exact Nat.max_le.mpr ⟨within_front, Nat.le_max_right _ _⟩

theorem fronted_ite {c : Prop} [Decidable c] {left right : Cursor ε α} (yes : Fronted left)
    (no : Fronted right) : Fronted (if c then left else right) := by
  split
  · exact yes
  · exact no

/-- What a check refuses does not come to the rest of the read. -/
theorem fronted_guard {c : Prop} [Decidable c] {error : ε} {rest : Cursor ε α}
    (fronted : Fronted rest) :
    Fronted (if c then (throw error : Cursor ε PUnit) >>= fun _ => rest else rest) :=
  fronted_ite ((fronted_throw error).bind fun _ => fronted) fronted

theorem fronted_mapM (each : ∀ x, Fronted (f x)) (xs : List α) : Fronted (xs.mapM f) := by
  induction xs with
  | nil => exact fronted_pure []
  | cons x xs ih =>
      rw [List.mapM_cons]
      exact (each x).bind fun y => ih.bind fun ys => fronted_pure _

end Fronted

theorem fronted_takeBytes (name : String) (length : ℕ) : Fronted (takeBytes name length) := by
  refine ⟨@fun front stub start stop bytes within ran => ?_⟩
  obtain ⟨rest, rfl⟩ := within
  rw [takeBytes] at ran ⊢
  split at ran
  · next enough =>
      cases ran
      have place : start ≤ front.length := by omega
      rw [if_pos (by rw [List.length_append]; omega), List.drop_append_of_le_length place,
        List.take_append_of_le_length (by rw [List.length_drop]; omega)]
      exact ⟨rfl, enough.trans (Nat.le_max_right _ _)⟩
  · cases ran

theorem fronted_u32 (name : String) : Fronted (u32 name) := by
  refine ⟨@fun front stub start stop value within ran => ?_⟩
  rw [u32] at ran ⊢
  cases taken : takeBytes name 4 front (aligned start) with
  | error error =>
      rw [taken] at ran
      cases ran
  | ok result =>
      obtain ⟨again, stops⟩ := (fronted_takeBytes name 4).carries within taken
      rw [taken] at ran
      rw [again]
      cases ran
      refine ⟨rfl, ?_⟩
      rw [takeBytes] at taken
      split at taken
      · next enough =>
          cases taken
          exact enough.trans (Nat.le_max_right _ _)
      · cases taken

theorem fronted_isNullPointer (name : String) : Fronted (isNullPointer name) :=
  (fronted_u32 name).bind fun _ => fronted_pure _

theorem fronted_conformantVaryingString (name : String) :
    Fronted (conformantVaryingString name) := by
  refine fronted_get.bind fun countsAt => (fronted_u32 name).bind fun maximum =>
    (fronted_u32 name).bind fun first => (fronted_u32 name).bind fun actual => ?_
  refine fronted_guard (fronted_get.bind fun charactersAt =>
    (fronted_takeBytes name _).bind fun bytes => ?_)
  dsimp only
  split
  · exact fronted_pure _
  · exact fronted_throw _

end Ndr

namespace Srvsvc

section Field

variable {α : Type} {front after : Bytes} {read : Ndr.Cursor NdrError α} {value : α}

theorem recovers_field (recovers : Ndr.Recovers read front after value) :
    Ndr.Recovers (field read) front after value where
  grows := recovers.grows
  reads level within := by
    obtain ⟨stop, ran, level⟩ := recovers.reads level within
    refine ⟨stop, ?_, level⟩
    rw [field, ran]
    rfl

theorem exhausts_field (exhausts : Ndr.Exhausts read front after value) :
    Ndr.Exhausts (field read) front after value where
  grows := exhausts.grows
  reads level within := by
    rw [field, exhausts.reads level within]
    rfl

theorem fronted_field (fronted : Ndr.Fronted read) : Ndr.Fronted (field read) := by
  refine ⟨@fun front stub start stop value within ran => ?_⟩
  rw [field] at ran ⊢
  cases came : read front start with
  | error error =>
      rw [came] at ran
      cases ran
  | ok result =>
      rw [came] at ran
      cases ran
      obtain ⟨again, stops⟩ := fronted.carries within came
      rw [again]
      exact ⟨rfl, stops⟩

end Field

/-! ## Marshalling -/

/-- The referent id of a pointer that is not null. -/
abbrev Referent := {id : UInt32 // id ≠ 0}

/-- A pointer to a string, which may be null. -/
abbrev StringPointer := Option (Referent × Text)

namespace StringPointer

def id : StringPointer → UInt32
  | none => 0
  | some (referent, _) => referent

def text : StringPointer → Text
  | none => []
  | some (_, text) => text

/-- Writes the string behind a pointer. -/
def putTarget (stub : Bytes) : StringPointer → Bytes
  | none => stub
  | some (_, text) => Ndr.putString stub text

theorem not_null (pointer : StringPointer) : (!decide (pointer.id = 0)) = pointer.isSome := by
  cases pointer with
  | none => rfl
  | some target => rw [id, decide_eq_false target.1.2, Option.isSome_some, Bool.not_false]

theorem recovers_target {pointer : StringPointer} (countable : Ndr.Countable pointer.text)
    (name : String) (front : Bytes) :
    Ndr.Recovers (target pointer.isSome name) front (pointer.putTarget front) pointer.text := by
  cases pointer with
  | none => exact Ndr.recovers_pure front []
  | some target =>
      exact recovers_field (Ndr.recovers_conformantVaryingString front name countable)

end StringPointer

/-- A `SHARE_INFO_1`: a share as it is marshalled. -/
structure ShareInfo1 where
  netname : StringPointer
  kind : UInt32
  remark : StringPointer

namespace ShareInfo1

def share (info : ShareInfo1) : Share where
  name := info.netname.text
  kind := .fromSrvsvc info.kind
  comment := info.remark.text

def putStructure (stub : Bytes) (info : ShareInfo1) : Bytes :=
  [info.netname.id, info.kind, info.remark.id].foldl Ndr.putU32 stub

def putTargets (stub : Bytes) (info : ShareInfo1) : Bytes :=
  info.remark.putTarget (info.netname.putTarget stub)

/-- What the walk keeps of a structure until it comes to the strings. -/
def shape (info : ShareInfo1) : Bool × ShareKind × Bool :=
  (info.netname.isSome, .fromSrvsvc info.kind, info.remark.isSome)

/-- Both strings are counted in 32 bits. -/
def Countable (info : ShareInfo1) : Prop :=
  Ndr.Countable info.netname.text ∧ Ndr.Countable info.remark.text

instance (info : ShareInfo1) : Decidable info.Countable := inferInstanceAs (Decidable (_ ∧ _))

end ShareInfo1

theorem recovers_structures (infos : List ShareInfo1) (front : Bytes) :
    Ndr.Recovers (structures infos.length) front (infos.foldl ShareInfo1.putStructure front)
      (infos.map ShareInfo1.shape) := by
  induction infos generalizing front with
  | nil => exact Ndr.recovers_pure front []
  | cons info infos ih =>
      have shapes : info.shape = (!decide (info.netname.id = 0), .fromSrvsvc info.kind,
          !decide (info.remark.id = 0)) := by
        rw [StringPointer.not_null, StringPointer.not_null]
        rfl
      rw [List.map_cons, shapes]
      refine (recovers_field (Ndr.recovers_isNullPointer front _ info.netname.id)).bind ?_
      refine (recovers_field (Ndr.recovers_u32 _ _ info.kind)).bind ?_
      refine (recovers_field (Ndr.recovers_isNullPointer _ _ info.remark.id)).bind ?_
      exact (ih _).map _

/-- A `NetrShareEnum` reply as a server marshals it: where its pointers are not null, its
array's conformance holds its shares, and its total counts them. -/
structure Reply where
  infos : List ShareInfo1
  container : Referent
  buffer : Referent
  maximum : UInt32
  total : UInt32
  handle : Referent
  resume : UInt32
  more : Bool
  conforms : infos.length ≤ maximum.toNat
  covers : infos.length ≤ total.toNat

namespace Reply

def entries (reply : Reply) : UInt32 := UInt32.ofNat reply.infos.length

/-- The return value that says whether there is more. -/
def code (reply : Reply) : UInt32 := if reply.more then ERROR_MORE_DATA else WERR_OK

/-- The container: its pointer and counts, its structures, and then its strings. -/
def putContainer (stub : Bytes) (reply : Reply) : Bytes :=
  let stub :=
    [reply.container.1, reply.entries, reply.buffer.1, reply.maximum].foldl Ndr.putU32 stub
  let stub := reply.infos.foldl ShareInfo1.putStructure stub
  reply.infos.foldl ShareInfo1.putTargets stub

/-- The NDR32 stub of a reply at level 1. -/
def stub (reply : Reply) : Bytes :=
  [reply.total, reply.handle.1, reply.resume, reply.code].foldl Ndr.putU32
    (putContainer ([LEVEL, LEVEL].foldl Ndr.putU32 []) reply)

/-- What a reply says. -/
def page (reply : Reply) : Page where
  shares := reply.infos.map ShareInfo1.share
  total := reply.total
  resume := reply.resume
  more := reply.more

/-- Every string of a reply is counted in 32 bits. -/
def Countable (reply : Reply) : Prop := ∀ info ∈ reply.infos, info.Countable

instance (reply : Reply) : Decidable reply.Countable := List.decidableBAll _ _

variable (reply : Reply)

theorem toNat_entries : reply.entries.toNat = reply.infos.length :=
  UInt32.toNat_ofNat_of_lt' (reply.conforms.trans_lt reply.maximum.toNat_lt)

theorem recovers_referent (name : String) (referent : Referent) (front : Bytes) :
    Ndr.Recovers (field (Ndr.isNullPointer name)) front (Ndr.putU32 front referent) false := by
  have present := recovers_field (Ndr.recovers_isNullPointer front name referent)
  rwa [decide_eq_false referent.2] at present

section Strings

variable {reply : Reply} {put : Bytes → ShareInfo1 → Bytes} {back : ShareInfo1 → Share}
  (each : ∀ info ∈ reply.infos, ∀ front, Ndr.Recovers (do
    let name ← target info.netname.isSome "share netname"
    let comment ← target info.remark.isSome "share remark"
    return ({ name, kind := .fromSrvsvc info.kind, comment } : Share))
      front (put front info) (back info))

include each

/-- The second pass takes back what was put for each share, in the order of the structures. -/
theorem recovers_shareInfo1Array (front : Bytes) :
    Ndr.Recovers (shareInfo1Array reply.entries) front
      (reply.infos.foldl put
        (reply.infos.foldl ShareInfo1.putStructure (Ndr.putU32 front reply.maximum)))
      (reply.infos.map back) := by
  have held : ¬ reply.entries > reply.maximum := by
    rw [gt_iff_lt, UInt32.lt_iff_toNat_lt, toNat_entries, Nat.not_lt]
    exact reply.conforms
  refine (recovers_field (Ndr.recovers_u32 front _ reply.maximum)).bind ?_
  rw [if_neg held]
  refine Ndr.Recovers.bind (toNat_entries reply ▸ recovers_structures reply.infos _) ?_
  exact Ndr.recovers_mapM each _

theorem recovers_container (front : Bytes) :
    Ndr.Recovers Srvsvc.container front
      (reply.infos.foldl put (reply.infos.foldl ShareInfo1.putStructure
        ([reply.container.1, reply.entries, reply.buffer.1, reply.maximum].foldl Ndr.putU32 front)))
      (reply.entries, reply.infos.map back) := by
  refine (recovers_referent _ reply.container front).bind ?_
  rw [if_neg Bool.false_ne_true]
  refine (recovers_field (Ndr.recovers_u32 _ _ reply.entries)).bind ?_
  refine (recovers_referent _ reply.buffer _).bind ?_
  rw [if_neg Bool.false_ne_true]
  exact (recovers_shareInfo1Array each _).map _

end Strings

theorem recovers_share {reply : Reply} (countable : reply.Countable) :
    ∀ info ∈ reply.infos, ∀ front, Ndr.Recovers (do
      let name ← target info.netname.isSome "share netname"
      let comment ← target info.remark.isSome "share remark"
      return ({ name, kind := .fromSrvsvc info.kind, comment } : Share))
        front (ShareInfo1.putTargets front info) info.share := by
  intro info member front
  refine (info.netname.recovers_target (countable info member).1 _ front).bind ?_
  exact (info.remark.recovers_target (countable info member).2 _ _).map _

theorem exhausts_readPage {reply : Reply} (countable : reply.Countable) :
    Ndr.Exhausts readPage [] reply.stub reply.page := by
  have covered : ¬ reply.total < reply.entries := by
    rw [UInt32.lt_iff_toNat_lt, toNat_entries, Nat.not_lt]
    exact reply.covers
  refine (recovers_field (Ndr.recovers_u32 [] _ LEVEL)).bind_exhausts ?_
  rw [if_neg (fun other => other rfl)]
  refine (recovers_field (Ndr.recovers_u32 _ _ LEVEL)).bind_exhausts ?_
  rw [if_neg (fun other => other rfl)]
  refine (recovers_container (recovers_share countable) _).bind_exhausts ?_
  refine (recovers_field (Ndr.recovers_u32 _ _ reply.total)).bind_exhausts ?_
  rw [if_neg covered]
  refine (recovers_referent _ reply.handle _).bind_exhausts ?_
  rw [if_neg Bool.false_ne_true]
  refine (recovers_field (Ndr.recovers_u32 _ _ reply.resume)).bind_exhausts ?_
  refine (exhausts_field (Ndr.exhausts_u32 _ _ reply.code)).bind_pure ?_
  rw [code, page]
  cases reply.more <;> rfl

end Reply

/-! ## Fronts of a reply -/

theorem fronted_structures (entries : ℕ) : Ndr.Fronted (structures entries) := by
  induction entries with
  | zero => exact Ndr.fronted_pure []
  | succ entries ih =>
      refine (fronted_field (Ndr.fronted_isNullPointer _)).bind fun unnamed => ?_
      refine (fronted_field (Ndr.fronted_u32 _)).bind fun kind => ?_
      refine (fronted_field (Ndr.fronted_isNullPointer _)).bind fun uncommented => ?_
      exact ih.bind fun rest => Ndr.fronted_pure _

theorem fronted_target (present : Bool) (name : String) : Ndr.Fronted (target present name) :=
  Ndr.fronted_ite (fronted_field (Ndr.fronted_conformantVaryingString name))
    (Ndr.fronted_pure [])

theorem fronted_shareInfo1Array (entries : UInt32) : Ndr.Fronted (shareInfo1Array entries) := by
  refine (fronted_field (Ndr.fronted_u32 _)).bind fun maximum => ?_
  refine Ndr.fronted_guard ((fronted_structures _).bind fun shapes => ?_)
  refine Ndr.fronted_mapM (fun shape => ?_) _
  refine (fronted_target _ _).bind fun name => (fronted_target _ _).bind fun comment => ?_
  exact Ndr.fronted_pure _

theorem fronted_container : Ndr.Fronted container := by
  refine (fronted_field (Ndr.fronted_isNullPointer _)).bind fun absent => ?_
  refine Ndr.fronted_ite (Ndr.fronted_pure _) ?_
  refine (fronted_field (Ndr.fronted_u32 _)).bind fun entries => ?_
  refine (fronted_field (Ndr.fronted_isNullPointer _)).bind fun null => ?_
  refine Ndr.fronted_ite (Ndr.fronted_pure _) ?_
  exact (fronted_shareInfo1Array entries).bind fun shares => Ndr.fronted_pure _

theorem fronted_readPage : Ndr.Fronted readPage := by
  refine (fronted_field (Ndr.fronted_u32 _)).bind fun outer => Ndr.fronted_guard ?_
  refine (fronted_field (Ndr.fronted_u32 _)).bind fun inner => Ndr.fronted_guard ?_
  refine fronted_container.bind fun held => ?_
  refine (fronted_field (Ndr.fronted_u32 _)).bind fun total => Ndr.fronted_guard ?_
  refine (fronted_field (Ndr.fronted_isNullPointer _)).bind fun unresumed => ?_
  have coded (resume : UInt32) : Ndr.Fronted (do
      let code ← field (Ndr.u32 "return value")
      if code = WERR_OK then return { shares := held.2, total, resume, more := false }
      else if code = ERROR_MORE_DATA then
        return { shares := held.2, total, resume, more := true }
      else throw (.failed code) : Ndr.Cursor SrvsvcError Page) := by
    refine (fronted_field (Ndr.fronted_u32 _)).bind fun code => ?_
    exact Ndr.fronted_ite (Ndr.fronted_pure _)
      (Ndr.fronted_ite (Ndr.fronted_pure _) (Ndr.fronted_throw _))
  exact Ndr.fronted_ite ((Ndr.fronted_pure 0).bind coded)
    ((fronted_field (Ndr.fronted_u32 _)).bind coded)

/-- **A reply decodes to its own shares, and nothing short of it decodes.** -/
theorem response_stub (reply : Reply) (countable : reply.Countable) :
    response reply.stub = .ok reply.page ∧
      ∀ front, front <+: reply.stub → front ≠ reply.stub →
        ∃ error, response front = .error error := by
  have read := (Reply.exhausts_readPage countable).reads (rfl : Ndr.aligned 0 = _)
    (List.prefix_refl reply.stub)
  constructor
  · rw [response, read]
    rfl
  · intro front within short
    rw [response]
    cases came : readPage front 0 with
    | error error => exact ⟨error, rfl⟩
    | ok result =>
        exfalso
        -- what the front gave is what the whole gives, which takes all of the stub
        obtain ⟨again, stops⟩ := fronted_readPage.carries within came
        rw [read] at again
        rw [← congrArg Prod.snd (Except.ok.inj again), Nat.zero_max] at stops
        exact short (within.eq_of_length (Nat.le_antisymm within.length_le stops))

/-- Two shares, one without a comment and one without a name. -/
def twoShares : Reply where
  infos := [
    { netname := some (⟨4, by decide⟩, ['C', '$']), kind := SRVSVC_SPECIAL, remark := none },
    { netname := none, kind := 3, remark := some (⟨8, by decide⟩, ['i', 'p', 'c']) }]
  container := ⟨1, by decide⟩
  buffer := ⟨2, by decide⟩
  maximum := 5
  total := 7
  handle := ⟨3, by decide⟩
  resume := 2
  more := true
  conforms := by decide
  covers := by decide

theorem response_stub_twoShares :
    twoShares.Countable ∧ response twoShares.stub = .ok twoShares.page ∧
      ∀ front, front <+: twoShares.stub → front ≠ twoShares.stub →
        ∃ error, response front = .error error :=
  ⟨by decide, response_stub twoShares (by decide)⟩

/-! ## A string too long for its counts -/

/-- The reply whose one share has a name of `m` letters and a null comment. -/
def letters (m : ℕ) : Reply where
  infos := [{ netname := some (⟨1, by decide⟩, .replicate m 'a'), kind := 0, remark := none }]
  container := ⟨1, by decide⟩
  buffer := ⟨1, by decide⟩
  maximum := 1
  total := 1
  handle := ⟨1, by decide⟩
  resume := 0
  more := false
  conforms := le_rfl
  covers := le_rfl

/-- Two of a name's letters, as a primitive. -/
def TWO_LETTERS : UInt32 := 0x00610061

theorem encode_letters (m : ℕ) : Utf16.encode (.replicate m 'a') = .replicate m 97 := by
  induction m with
  | zero => rfl
  | succ m ih =>
      rw [List.replicate_succ, Utf16.encode, List.flatMap_cons, ← Utf16.encode, ih]
      rfl

/-- A name whose count wraps to zero is written as the empty string, with the name's letters
behind it. -/
theorem prefix_of_wraps {m : ℕ} (wraps : UInt32.ofNat (m + 1) = 0) (long : 8 ≤ m)
    (front : Bytes) :
    (List.replicate 4 TWO_LETTERS).foldl Ndr.putU32 (Ndr.putCounts front 0) <+:
      Ndr.putString front (.replicate m 'a') := by
  obtain ⟨rest, rfl⟩ := Nat.exists_eq_add_of_le long
  have counted : UInt32.ofNat (Utf16.encode (.replicate (8 + rest) 'a') ++ [0]).length = 0 := by
    rw [encode_letters, List.length_append, List.length_replicate]
    exact wraps
  have characters : Utf16.toBytes (List.replicate 8 97) =
      (List.replicate 4 TWO_LETTERS).flatMap u32le := by decide
  rw [Ndr.foldl_putU32 (Ndr.aligned_putCounts front 0), ← characters, Ndr.putString, counted,
    encode_letters, List.replicate_add, List.append_assoc, Utf16.toBytes_append]
  refine List.IsPrefix.trans ?_ (Ndr.prefix_pad _)
  exact (List.prefix_append_right_inj _).mpr (List.prefix_append _ _)

/-- Counts of zero are of the empty string. -/
theorem recovers_empty (name : String) (front : Bytes) :
    Ndr.Recovers (Ndr.conformantVaryingString name) front (Ndr.putCounts front 0) [] where
  grows := Ndr.prefix_putCounts front 0
  reads level within := by
    rw [← List.append_nil (Ndr.putCounts front 0)] at within ⊢
    exact ⟨_, Ndr.conformantVaryingString_of_prefix name [] level rfl rfl within, rfl⟩

theorem refuses_letters {m : ℕ} (wraps : UInt32.ofNat (m + 1) = 0) (long : 8 ≤ m) :
    Ndr.Refuses readPage [] (letters m).stub (.failed TWO_LETTERS) := by
  have counted : ¬ TWO_LETTERS < (letters m).entries :=
    (by decide : ¬ TWO_LETTERS < UInt32.ofNat 1)
  have each : ∀ info ∈ (letters m).infos, ∀ front, Ndr.Recovers (do
      let name ← target info.netname.isSome "share netname"
      let comment ← target info.remark.isSome "share remark"
      return ({ name, kind := .fromSrvsvc info.kind, comment } : Share)) front
        (Ndr.putCounts front 0) { name := [], kind := .fromSrvsvc info.kind, comment := [] } := by
    intro info member front
    rw [letters, List.mem_singleton] at member
    subst member
    exact (recovers_field (recovers_empty _ front)).bind ((Ndr.recovers_pure _ []).map _)
  refine (recovers_field (Ndr.recovers_u32 [] _ LEVEL)).bind_refuses ?_
  rw [if_neg (fun other => other rfl)]
  refine (recovers_field (Ndr.recovers_u32 _ _ LEVEL)).bind_refuses ?_
  rw [if_neg (fun other => other rfl)]
  refine ((letters m).recovers_container each _).bind_refuses ?_
  refine (recovers_field (Ndr.recovers_u32 _ _ TWO_LETTERS)).bind_refuses ?_
  rw [if_neg counted]
  refine (recovers_field (Ndr.recovers_isNullPointer _ _ TWO_LETTERS)).bind_refuses ?_
  rw [if_neg (by decide)]
  refine (recovers_field (Ndr.recovers_u32 _ _ TWO_LETTERS)).bind_refuses ?_
  refine (recovers_field (Ndr.recovers_u32 _ _ TWO_LETTERS)).bind_refuses ?_
  rw [if_neg (by decide), if_neg (by decide)]
  refine ⟨?_, fun level within => rfl⟩
  have within := (prefix_of_wraps wraps long
    ([LEVEL, LEVEL, 1, UInt32.ofNat 1, 1, 1, 1, 0, 0].foldl Ndr.putU32 [])).trans
      (Ndr.prefix_foldl_putU32 _ [1, 1, 0, WERR_OK])
  simp only [letters, Reply.stub, Reply.putContainer, Reply.entries, Reply.code, List.foldl_cons,
    List.foldl_nil, ShareInfo1.putStructure, ShareInfo1.putTargets, StringPointer.id,
    StringPointer.putTarget, List.length_singleton, List.replicate_succ, List.replicate_zero,
    Bool.false_eq_true, if_false] at within ⊢
  exact within

/-- A share whose name has `2 ^ 32 - 1` letters is marshalled with counts of zero: the name is
read as empty, and its letters as what follows the array. -/
theorem response_letters : ∃ reply : Reply,
    (∀ info ∈ reply.infos, info.netname.text.getLast? ≠ some '\x00' ∧
      info.remark.text.getLast? ≠ some '\x00') ∧
    response reply.stub = .error (.failed TWO_LETTERS) := by
  refine ⟨letters (2 ^ 32 - 1), ?_, ?_⟩
  · intro info member
    rw [letters, List.mem_singleton] at member
    subst member
    have last : (List.replicate (2 ^ 32 - 1) 'a').getLast? = some 'a' := by
      rw [List.getLast?_replicate, if_neg (by decide)]
    exact ⟨fun null => absurd (last.symm.trans null) (by decide), by decide⟩
  · have refused := (refuses_letters (m := 2 ^ 32 - 1) (by decide) (by decide)).reads
      (rfl : Ndr.aligned 0 = _) (List.prefix_refl _)
    rw [response, refused]
    rfl

end Srvsvc

end Smb1Client
