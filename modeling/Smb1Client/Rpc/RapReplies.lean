import Smb1Client.Rpc.Rap

/-!
Level-1 replies as servers lay them out: entries of twenty bytes, and comments that a converted
pointer finds anywhere in the block.

A pointer of zero is the null pointer before the converter is taken from it, so a comment that
its converter moves to zero, under a high half of zero, is read as no comment.
-/

namespace Smb1Client

open LittleEndian

/-! ## ASCII text -/

/-- Text of 7-bit characters. -/
def Ascii (text : Text) : Prop := ∀ c ∈ text, c.toNat < 128

theorem utf8EncodeChar_ascii {c : Char} (ascii : c.toNat < 128) :
    String.utf8EncodeChar c = [UInt8.ofNat c.toNat] := by
  have small : c.val.toNat ≤ 0x7f := Nat.le_of_lt_succ ascii
  rw [String.utf8EncodeChar]
  exact if_pos small

theorem asBytes_cons {c : Char} (ascii : c.toNat < 128) (text : Text) :
    asBytes (c :: text) = UInt8.ofNat c.toNat :: asBytes text := by
  rw [asBytes, List.flatMap_cons, utf8EncodeChar_ascii ascii, List.singleton_append, asBytes]

theorem length_asBytes {text : Text} (ascii : Ascii text) :
    (asBytes text).length = text.length := by
  induction text with
  | nil => rfl
  | cons c text ih =>
      rw [asBytes_cons (ascii c List.mem_cons_self), List.length_cons, List.length_cons,
        ih fun c' member => ascii c' (List.mem_cons_of_mem _ member)]

theorem toNat_ofNat_ascii {c : Char} (ascii : c.toNat < 128) :
    (UInt8.ofNat c.toNat).toNat = c.toNat := by
  rw [UInt8.toNat_ofNat']
  omega

theorem fromUtf8Lossy_ascii {text : Text} (ascii : Ascii text) :
    fromUtf8Lossy (asBytes text) = text := by
  induction text with
  | nil => rfl
  | cons c text ih =>
      have head : c.toNat < 128 := ascii c List.mem_cons_self
      have small : UInt8.ofNat c.toNat < 0x80 := by
        rw [UInt8.lt_iff_toNat_lt, toNat_ofNat_ascii head]
        exact head
      rw [asBytes_cons head, fromUtf8Lossy.eq_def]
      dsimp only
      rw [if_pos small, toNat_ofNat_ascii head, Char.ofNat_toNat,
        ih fun c' member => ascii c' (List.mem_cons_of_mem _ member)]

/-- A character of ASCII text is null exactly where its byte is. -/
theorem byte_eq_zero_iff {c : Char} (ascii : c.toNat < 128) :
    UInt8.ofNat c.toNat = 0 ↔ c = '\x00' := by
  rw [← UInt8.toNat_inj, toNat_ofNat_ascii ascii]
  constructor
  · intro zero
    rw [← Char.ofNat_toNat c, zero]
    rfl
  · rintro rfl
    rfl

namespace Rap

/-! ## Laying out a reply -/

/-- A share as a server puts it in a level-1 reply. -/
structure LaidShare where
  name : Text
  kind : UInt16
  comment : Text
  /-- What follows the name's null in its field, and the byte that pads the field. -/
  filler : Bytes
  pad : UInt8
  /-- Where in the block its comment is. -/
  offset : ℕ
  /-- The high half of the pointer to it. -/
  high : UInt16
  nameAscii : Ascii name
  nameFits : name.length + 1 + filler.length = NAME_LEN
  commentAscii : Ascii comment
  commentNoNull : '\x00' ∉ comment

namespace LaidShare

variable (l : LaidShare)

/-- The low half of the pointer to the comment. -/
def low (converter : UInt16) : UInt16 := UInt16.ofNat (l.offset + converter.toNat)

/-- The pointer is the null pointer. -/
def Null (converter : UInt16) : Prop := l.low converter = 0 ∧ l.high = 0

instance (converter : UInt16) : Decidable (l.Null converter) :=
  inferInstanceAs (Decidable (_ ∧ _))

def bytes (converter : UInt16) : Bytes :=
  (asBytes l.name ++ 0 :: l.filler) ++
    (l.pad :: (u16le l.kind ++ (u16le (l.low converter) ++ u16le l.high)))

/-- Its comment is in the block, terminated, where it was placed. -/
def Placed (data : Bytes) : Prop := ∃ rest, data.drop l.offset = asBytes l.comment ++ 0 :: rest

def share : Share := ⟨l.name, .fromRap l.kind, l.comment⟩

/-- The share a reply with this converter decodes to. -/
def read (converter : UInt16) : Share where
  name := l.name.takeWhile (· ≠ '\x00')
  kind := .fromRap l.kind
  comment := if l.Null converter then [] else l.comment

end LaidShare

/-- The parameter block of a reply that succeeds with all there is. -/
def replyParameters (converter : UInt16) (count : ℕ) : Bytes :=
  u16le SUCCESS ++ (u16le converter ++ (u16le (UInt16.ofNat count) ++ u16le (UInt16.ofNat count)))

/-- The data block: the entries, and behind them the comments and anything else. -/
def replyData (converter : UInt16) (laid : List LaidShare) (tail : Bytes) : Bytes :=
  laid.flatMap (·.bytes converter) ++ tail

/-! ## Reading an entry back -/

theorem text_asBytes {text : Text} (ascii : Ascii text) (index : UInt16) (field : String) :
    Rap.text (asBytes text) index field = .ok text := by
  rw [Rap.text, fromUtf8Lossy_ascii ascii, if_pos rfl]

theorem nulPadded_asBytes {name : Text} (ascii : Ascii name) (filler : Bytes) :
    nulPadded (asBytes name ++ 0 :: filler) = asBytes (name.takeWhile (· ≠ '\x00')) := by
  induction name with
  | nil => rfl
  | cons c name ih =>
      have head : c.toNat < 128 := ascii c List.mem_cons_self
      have later := ih fun c' member => ascii c' (List.mem_cons_of_mem _ member)
      unfold nulPadded at later ⊢
      rw [asBytes_cons head, List.cons_append, List.takeWhile_cons, List.takeWhile_cons]
      by_cases null : c = '\x00'
      · rw [(byte_eq_zero_iff head).mpr null, null]
        rfl
      · have nonzero := mt (byte_eq_zero_iff head).mp null
        rw [if_pos (decide_eq_true nonzero), if_pos (decide_eq_true null), later,
          asBytes_cons head]

/-- The first null behind a comment is its terminator. -/
theorem findIdx?_asBytes {comment : Text} (ascii : Ascii comment) (noNull : '\x00' ∉ comment)
    (rest : Bytes) :
    (asBytes comment ++ 0 :: rest).findIdx? (· = 0) = some (asBytes comment).length := by
  induction comment with
  | nil => rfl
  | cons c comment ih =>
      have head : c.toNat < 128 := ascii c List.mem_cons_self
      have nonzero : UInt8.ofNat c.toNat ≠ 0 :=
        mt (byte_eq_zero_iff head).mp fun null => noNull (null ▸ List.mem_cons_self)
      rw [asBytes_cons head, List.cons_append, List.findIdx?_cons, if_neg (by simpa using nonzero),
        ih (fun c' member => ascii c' (List.mem_cons_of_mem _ member))
          fun member => noNull (List.mem_cons_of_mem _ member)]
      rfl

/-! ## Reading the fields of an entry back -/

namespace LaidShare

variable (l : LaidShare) (converter : UInt16)

theorem length_name : (asBytes l.name ++ 0 :: l.filler).length = NAME_LEN := by
  have fits := l.nameFits
  rw [List.length_append, length_asBytes l.nameAscii, List.length_cons]
  omega

@[simp] theorem length_bytes : (l.bytes converter).length = ENTRY_LEN := by
  rw [bytes, List.length_append, l.length_name, List.length_cons, List.length_append,
    List.length_append, length_u16le, length_u16le, length_u16le]
  rfl

theorem take_name : (l.bytes converter).take NAME_LEN = asBytes l.name ++ 0 :: l.filler := by
  rw [bytes, ← l.length_name, List.take_left]

theorem drop_name : (l.bytes converter).drop 14 =
    u16le l.kind ++ (u16le (l.low converter) ++ u16le l.high) := by
  have rest : (l.bytes converter).drop NAME_LEN =
      l.pad :: (u16le l.kind ++ (u16le (l.low converter) ++ u16le l.high)) := by
    rw [bytes, ← l.length_name, List.drop_left]
  have further := List.drop_drop (i := 1) (j := NAME_LEN) (l := l.bytes converter)
  rw [rest, List.drop_one, List.tail_cons] at further
  exact further.symm

theorem word_kind : word (l.bytes converter) 14 = l.kind := by
  rw [word, l.drop_name, List.take_left' (length_u16le _), decode_u16le, UInt16.ofNat_toNat]

/-- The pointer an entry carries, its low half below its high half. -/
theorem pointer : decode (((l.bytes converter).drop 16).take 4) =
    (l.low converter).toNat + 2 ^ 16 * l.high.toNat := by
  have halves : (l.bytes converter).drop 16 = u16le (l.low converter) ++ u16le l.high := by
    have further := List.drop_drop (i := 2) (j := 14) (l := l.bytes converter)
    rw [l.drop_name, List.drop_left' (length_u16le _)] at further
    exact further.symm
  rw [halves, List.take_of_length_le (by simp), decode_append, decode_u16le, decode_u16le,
    length_u16le]
  norm_num

theorem toNat_pointer : (UInt32.ofNat ((l.low converter).toNat + 2 ^ 16 * l.high.toNat)).toNat =
    (l.low converter).toNat + 2 ^ 16 * l.high.toNat := by
  have low := (l.low converter).toNat_lt
  have high := l.high.toNat_lt
  rw [UInt32.toNat_ofNat']
  omega

theorem pointer_eq_zero_iff :
    UInt32.ofNat ((l.low converter).toNat + 2 ^ 16 * l.high.toNat) = 0 ↔ l.Null converter := by
  have zero : (0 : UInt16).toNat = 0 := rfl
  rw [← UInt32.toNat_inj, l.toNat_pointer, Null, ← UInt16.toNat_inj, ← UInt16.toNat_inj, zero]
  show _ = 0 ↔ _
  omega

/-- Less the converter, the low half of the pointer is where the comment is. -/
theorem offset_of_pointer (within : l.offset < 2 ^ 16) :
    ((UInt32.ofNat ((l.low converter).toNat + 2 ^ 16 * l.high.toNat)).toUInt16 -
      converter).toNat = l.offset := by
  have low : (UInt32.ofNat ((l.low converter).toNat + 2 ^ 16 * l.high.toNat)).toUInt16 =
      l.low converter := by
    have small := (l.low converter).toNat_lt
    rw [← UInt16.toNat_inj, UInt32.toNat_toUInt16, l.toNat_pointer]
    omega
  have moved : (l.low converter).toNat = (l.offset + converter.toNat) % 2 ^ 16 :=
    UInt16.toNat_ofNat'
  have bound := converter.toNat_lt
  rw [low, UInt16.toNat_sub, moved]
  omega

/-- The comment is found, unless its pointer is the null pointer. -/
theorem comment_of_placed {data : Bytes} (short : data.length < 2 ^ 16) (placed : l.Placed data)
    (index : UInt16) :
    Rap.comment data converter index
      (UInt32.ofNat ((l.low converter).toNat + 2 ^ 16 * l.high.toNat)) =
        .ok (if l.Null converter then [] else l.comment) := by
  obtain ⟨rest, found⟩ := placed
  have inside : l.offset < data.length := by
    by_contra outside
    rw [List.drop_eq_nil_of_le (not_lt.mp outside)] at found
    exact List.append_ne_nil_of_right_ne_nil _ (List.cons_ne_nil _ _) found.symm
  rw [Rap.comment]
  by_cases null : l.Null converter
  · rw [if_pos ((l.pointer_eq_zero_iff converter).mpr null), if_pos null]
  rw [if_neg (mt (l.pointer_eq_zero_iff converter).mp null), if_neg null]
  dsimp only
  rw [l.offset_of_pointer converter (by omega), if_neg (by omega), found,
    findIdx?_asBytes l.commentAscii l.commentNoNull]
  dsimp only
  rw [List.take_left, text_asBytes l.commentAscii]

end LaidShare

/-! ## Reading the reply back -/

theorem drop_flatMap {α : Type} {f : α → Bytes} {width : ℕ} (whole : ∀ x, (f x).length = width)
    (xs : List α) (index : ℕ) (tail : Bytes) (inside : index ≤ xs.length) :
    (xs.flatMap f ++ tail).drop (index * width) = (xs.drop index).flatMap f ++ tail := by
  induction index generalizing xs with
  | zero => rw [Nat.zero_mul, List.drop_zero, List.drop_zero]
  | succ index ih =>
      cases xs with
      | nil => cases inside
      | cons x xs =>
          rw [Nat.succ_mul, Nat.add_comm, ← List.drop_drop, List.flatMap_cons, List.append_assoc,
            List.drop_left' (whole x), ih xs (Nat.le_of_succ_le_succ inside),
            List.drop_succ_cons]

theorem length_replyData (converter : UInt16) (laid : List LaidShare) (tail : Bytes) :
    (replyData converter laid tail).length = laid.length * ENTRY_LEN + tail.length := by
  rw [replyData, List.length_append]
  congr 1
  induction laid with
  | nil => rfl
  | cons l laid ih =>
      rw [List.flatMap_cons, List.length_append, l.length_bytes, ih, List.length_cons,
        Nat.succ_mul, Nat.add_comm]

theorem entry_of_replyData {converter : UInt16} {laid : List LaidShare} {tail : Bytes}
    (short : (replyData converter laid tail).length < 2 ^ 16)
    (placed : ∀ l ∈ laid, l.Placed (replyData converter laid tail))
    {index : ℕ} (inside : index < laid.length) :
    entry (replyData converter laid tail) converter index = .ok (laid[index].read converter) := by
  have length := length_replyData converter laid tail
  have room : index * ENTRY_LEN + ENTRY_LEN ≤ laid.length * ENTRY_LEN := by
    rw [← Nat.succ_mul]
    exact Nat.mul_le_mul_right ENTRY_LEN inside
  have here : ((replyData converter laid tail).drop (index * ENTRY_LEN)).take ENTRY_LEN =
      laid[index].bytes converter := by
    rw [replyData, drop_flatMap (fun l => l.length_bytes converter) laid index tail inside.le,
      List.drop_eq_getElem_cons inside, List.flatMap_cons, List.append_assoc,
      List.take_left' (laid[index].length_bytes converter)]
  rw [entry]
  dsimp only
  rw [if_neg (by omega), here, LaidShare.pointer,
    laid[index].comment_of_placed converter short (placed _ (List.getElem_mem inside)),
    LaidShare.take_name, nulPadded_asBytes laid[index].nameAscii, LaidShare.word_kind]
  have ascii : Ascii (laid[index].name.takeWhile (· ≠ '\x00')) :=
    fun c member => laid[index].nameAscii c (List.takeWhile_subset _ member)
  simp only [bind, Except.bind, text_asBytes ascii]
  rfl

theorem mapM_of_forall₂ {α β ε : Type} {f : α → Except ε β} {xs : List α} {ys : List β}
    (each : List.Forall₂ (fun x y => f x = .ok y) xs ys) : xs.mapM f = .ok ys := by
  induction each with
  | nil => rfl
  | cons head _ ih =>
      rw [List.mapM_cons, head, ih]
      rfl

theorem mapM_error {α β ε : Type} {f : α → Except ε β} {xs : List α} {x : α} (member : x ∈ xs)
    (failed : ∃ error, f x = .error error) : ∃ error, xs.mapM f = .error error := by
  induction xs with
  | nil => cases member
  | cons first rest ih =>
      rw [List.mapM_cons]
      cases head : f first with
      | error error => exact ⟨error, rfl⟩
      | ok y =>
          rcases List.mem_cons.mp member with rfl | behind
          · obtain ⟨error, failed⟩ := failed
            cases head.symm.trans failed
          · obtain ⟨error, later⟩ := ih behind
            rw [later]
            exact ⟨error, rfl⟩

/-- A reply decodes to the shares it was laid out with, as their entries read. -/
theorem response_of_laid {converter : UInt16} {laid : List LaidShare} {tail : Bytes}
    (short : (replyData converter laid tail).length < 2 ^ 16)
    (placed : ∀ l ∈ laid, l.Placed (replyData converter laid tail)) :
    response (replyParameters converter laid.length) (replyData converter laid tail) =
      .ok (laid.map (·.read converter)) := by
  have length := length_replyData converter laid tail
  unfold ENTRY_LEN at length
  have count : (UInt16.ofNat laid.length).toNat = laid.length :=
    UInt16.toNat_ofNat_of_lt' (by show _ < 2 ^ 16; omega)
  have word₀ : word (replyParameters converter laid.length) 0 = SUCCESS := by
    rw [word, replyParameters, List.drop_zero, List.take_left' (length_u16le _), decode_u16le]
    rfl
  have drop₂ : (replyParameters converter laid.length).drop 2 =
      u16le converter ++ (u16le (UInt16.ofNat laid.length) ++ u16le (UInt16.ofNat laid.length)) :=
    List.drop_left' (length_u16le _)
  have drop₄ : (replyParameters converter laid.length).drop 4 =
      u16le (UInt16.ofNat laid.length) ++ u16le (UInt16.ofNat laid.length) := by
    have further := List.drop_drop (i := 2) (j := 2) (l := replyParameters converter laid.length)
    rw [drop₂, List.drop_left' (length_u16le _)] at further
    exact further.symm
  have drop₆ : (replyParameters converter laid.length).drop 6 =
      u16le (UInt16.ofNat laid.length) := by
    have further := List.drop_drop (i := 2) (j := 4) (l := replyParameters converter laid.length)
    rw [drop₄, List.drop_left' (length_u16le _)] at further
    exact further.symm
  have word₂ : word (replyParameters converter laid.length) 2 = converter := by
    rw [word, drop₂, List.take_left' (length_u16le _), decode_u16le, UInt16.ofNat_toNat]
  have word₄ : entryCount (replyParameters converter laid.length) = UInt16.ofNat laid.length := by
    rw [entryCount, word, drop₄, List.take_left' (length_u16le _), decode_u16le,
      UInt16.ofNat_toNat]
  have word₆ : available (replyParameters converter laid.length) = UInt16.ofNat laid.length := by
    rw [available, word, drop₆, List.take_of_length_le (length_u16le _).le, decode_u16le,
      UInt16.ofNat_toNat]
  have whole : (replyParameters converter laid.length).length = PARAMETERS_LEN := by
    simp [replyParameters, PARAMETERS_LEN]
  rw [response, whole, if_neg (lt_irrefl _), word₀, if_neg (by decide), if_neg (not_not.mpr rfl)]
  dsimp only
  rw [word₂, word₄, word₆, if_neg (UInt16.lt_irrefl _), count]
  refine mapM_of_forall₂ (List.forall₂_of_length_eq_of_get (by simp) fun index inside _ => ?_)
  rw [List.length_range] at inside
  simpa using entry_of_replyData short placed inside

/-! ## Replies that do not decode -/

/-- The pointer of an entry. -/
def pointerAt (data : Bytes) (index : ℕ) : UInt32 :=
  UInt32.ofNat (decode ((((data.drop (index * ENTRY_LEN)).take ENTRY_LEN).drop 16).take 4))

/-- An entry that is not wholly inside the block, or whose pointer is not null and lands outside
it or at no terminated comment. -/
def Broken (data : Bytes) (converter : UInt16) (index : ℕ) : Prop :=
  data.length < index * ENTRY_LEN + ENTRY_LEN ∨
    pointerAt data index ≠ 0 ∧
      (data.length ≤ ((pointerAt data index).toUInt16 - converter).toNat ∨
        0 ∉ data.drop ((pointerAt data index).toUInt16 - converter).toNat)

theorem entry_of_broken {data : Bytes} {converter : UInt16} {index : ℕ}
    (broken : Broken data converter index) :
    ∃ error, entry data converter index = .error error := by
  rw [entry]
  dsimp only
  split
  · exact ⟨_, rfl⟩
  next whole =>
  obtain cut | ⟨pointed, lost⟩ := broken
  · exact absurd cut whole
  have unterminated : (data.drop ((pointerAt data index).toUInt16 - converter).toNat).findIdx?
      (· = 0) = none := by
    rw [List.findIdx?_eq_none_iff]
    intro b member
    rw [decide_eq_false_iff_not]
    rintro rfl
    rcases lost with outside | none
    · rw [List.drop_eq_nil_of_le outside] at member
      cases member
    · exact none member
  have commentless : ∃ error, comment data converter (UInt16.ofNat index) (pointerAt data index) =
      .error error := by
    rw [comment, if_neg pointed]
    dsimp only
    split
    · exact ⟨_, rfl⟩
    · rw [unterminated]
      exact ⟨_, rfl⟩
  obtain ⟨error, refused⟩ := commentless
  rw [pointerAt] at refused
  rw [refused]
  exact ⟨error, rfl⟩

theorem response_of_broken {parameters data : Bytes} {index : ℕ}
    (inside : index < (entryCount parameters).toNat)
    (broken : Broken data (word parameters 2) index) :
    ∃ error, response parameters data = .error error := by
  rw [response]
  split
  · exact ⟨_, rfl⟩
  split
  · exact ⟨_, rfl⟩
  split
  · exact ⟨_, rfl⟩
  dsimp only
  split
  · exact ⟨_, rfl⟩
  · exact mapM_error (List.mem_range.mpr inside) (entry_of_broken broken)

/-- A share is read as it is when its name has no null in it and its comment is not lost to the
null pointer. -/
theorem LaidShare.read_eq_share_iff (l : LaidShare) (converter : UInt16) :
    l.read converter = l.share ↔
      '\x00' ∉ l.name ∧ (l.Null converter → l.comment = []) := by
  have name : l.name.takeWhile (· ≠ '\x00') = l.name ↔ '\x00' ∉ l.name := by
    rw [List.takeWhile_eq_self_iff]
    constructor
    · intro all member
      exact absurd rfl (decide_eq_true_eq.mp (all _ member))
    · intro absent c member
      rw [decide_eq_true_eq]
      rintro rfl
      exact absent member
  have comment : (if l.Null converter then [] else l.comment) = l.comment ↔
      (l.Null converter → l.comment = []) := by
    split
    · next null => exact ⟨fun same _ => same.symm, fun empty => (empty null).symm⟩
    · next some => exact iff_of_true rfl fun null => absurd null some
  rw [read, share, Share.mk.injEq, name, comment]
  exact ⟨fun ⟨plain, _, kept⟩ => ⟨plain, kept⟩, fun ⟨plain, kept⟩ => ⟨plain, rfl, kept⟩⟩

end Rap

/-- **Level-1 replies decode under every converter**, but for comments at the null pointer. -/
theorem rap_replies_decode (converter : UInt16) (laid : List Rap.LaidShare) (tail : Bytes)
    (short : (Rap.replyData converter laid tail).length < 2 ^ 16)
    (placed : ∀ l ∈ laid, l.Placed (Rap.replyData converter laid tail)) :
    Rap.response (Rap.replyParameters converter laid.length) (Rap.replyData converter laid tail) =
      .ok (laid.map (·.read converter)) ∧
    (∀ l ∈ laid, l.read converter = l.share ↔
      '\x00' ∉ l.name ∧ (l.Null converter → l.comment = [])) ∧
    ∀ parameters data index, index < (Rap.entryCount parameters).toNat →
      Rap.Broken data (Rap.word parameters 2) index →
      ∃ error, Rap.response parameters data = .error error :=
  ⟨Rap.response_of_laid short placed, fun l _ => l.read_eq_share_iff converter,
    fun _ _ _ inside broken => Rap.response_of_broken inside broken⟩

/-- A share with a comment of one character. -/
def Rap.remarkedShare : Rap.LaidShare where
  name := ['s']
  kind := 0
  comment := ['a']
  filler := .replicate 11 0
  pad := 0
  offset := 20
  high := 0
  nameAscii := List.forall_mem_singleton.mpr (by decide)
  nameFits := rfl
  commentAscii := List.forall_mem_singleton.mpr (by decide)
  commentNoNull := by decide

/-- The data block of that one share, its comment behind its entry. -/
def Rap.remarkedData (converter : UInt16) : Bytes :=
  Rap.replyData converter [Rap.remarkedShare] [0x61, 0]

/-- A converter that does not move the comment to zero. -/
theorem rap_replies_decode_remarked :
    Rap.response (Rap.replyParameters 0x0100 1) (Rap.remarkedData 0x0100) =
      .ok [Rap.remarkedShare.read 0x0100] :=
  (rap_replies_decode 0x0100 [Rap.remarkedShare] [0x61, 0] (by decide)
    (by rintro l (_ | ⟨_, ⟨⟩⟩); exact ⟨[], rfl⟩)).1

/-- A converter that moves the comment to zero. -/
theorem rap_comment_lost :
    (Rap.remarkedData 0xFFEC).length < 2 ^ 16 ∧
    Rap.remarkedShare.Placed (Rap.remarkedData 0xFFEC) ∧ '\x00' ∉ Rap.remarkedShare.name ∧
    Rap.response (Rap.replyParameters 0xFFEC 1) (Rap.remarkedData 0xFFEC) ≠
      .ok [Rap.remarkedShare.share] := by
  refine ⟨by decide, ⟨[], rfl⟩, by decide, ?_⟩
  have read := @Rap.response_of_laid 0xFFEC [Rap.remarkedShare] [0x61, 0] (by decide)
    (by rintro l (_ | ⟨_, ⟨⟩⟩); exact ⟨[], rfl⟩)
  intro same
  have shares := Except.ok.inj (read.symm.trans same)
  exact absurd shares (by decide)

end Smb1Client
