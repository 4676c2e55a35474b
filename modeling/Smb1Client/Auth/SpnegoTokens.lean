import Smb1Client.Auth.SpnegoSpellings

/-!
Which tokens a server's response token is read from.

Every spelling of a `NegTokenResp` gives its response token, in the GSS-API wrapper or not; the
response token's own string is a primitive one. Whatever the bytes are, nothing outside them is
looked at, and what is given back is a string's contents under the token's `[2]`.
-/

namespace Smb1Client

namespace Spnego

/-! ## Tokens -/

/-- A constructed value: of definite length, or up to an end-of-contents pair. -/
def Constructed (tag : UInt8) (value encoding : Bytes) : Prop :=
  Definite tag value encoding ∨ Indefinite tag value encoding

/-- A field of the sequence with any value in it, within the levels of nesting. -/
def Field (tag : UInt8) (encoding : Bytes) : Prop :=
  ∃ tag' value content, tag' ≠ 0 ∧ Spells (MAX_DEPTH + 1 - 4) tag' value content ∧
    Constructed tag content encoding

/-- The encodings of a `NegTokenResp`, its `negState`, `supportedMech` and `mechListMIC` there or
not. -/
def NegTokenResp (t encoding : Bytes) : Prop :=
  ∃ (state mech mic : Option Bytes) (octets field sequence : Bytes),
    (∀ s ∈ state, Field TAG_CONTEXT_0 s) ∧ (∀ m ∈ mech, Field TAG_CONTEXT_1 m) ∧
    Definite TAG_OCTET_STRING t octets ∧ Constructed TAG_CONTEXT_2 octets field ∧
    (∀ m ∈ mic, Field TAG_CONTEXT_3 m) ∧
    Constructed TAG_SEQUENCE
      (state.toList ++ mech.toList ++ field :: mic.toList).flatten sequence ∧
    Constructed TAG_CONTEXT_1 sequence encoding

/-- A token that carries a response token, in the GSS-API wrapper or not. -/
def Carries (t token : Bytes) : Prop :=
  NegTokenResp t token ∨
    ∃ oid name inner, Definite TAG_OID oid name ∧ NegTokenResp t inner ∧
      Constructed TAG_APPLICATION_0 (name ++ inner) token

/-! ## Spelling tokens -/

variable {levels : ℕ} {tag : UInt8} {value encoding : Bytes}

theorem head?_of_definite (spelled : Definite tag value encoding) : encoding.head? = some tag := by
  obtain ⟨header, ⟨-, rfl⟩ | ⟨raw, -, -, -, rfl⟩, rfl⟩ := spelled
  · rfl
  · rfl

theorem head?_of_spells (spelled : Spells levels tag value encoding) :
    encoding.head? = some tag := by
  cases levels with
  | zero => cases spelled
  | succ levels =>
      rcases spelled with definite | ⟨rfl, -⟩
      · exact head?_of_definite definite
      · rfl

/-- What has a tag is no end-of-contents pair. -/
theorem take_ne_of_spells (spelled : Spells levels tag value encoding) (tagged : tag ≠ 0) :
    encoding.take 2 ≠ [0, 0] := by
  intro ends
  have head := head?_of_spells spelled
  have first : (encoding.take 2).head? = encoding.head? := by cases encoding <;> rfl
  rw [ends, head] at first
  exact tagged (Option.some.inj first).symm

theorem Spells.succ (spelled : Spells levels tag value encoding) :
    Spells (levels + 1) tag value encoding := by
  induction levels generalizing tag value encoding with
  | zero => cases spelled
  | succ levels ih =>
      rcases spelled with definite | ⟨indefinite, parts, whole, each⟩
      · exact Or.inl definite
      · refine Or.inr ⟨indefinite, parts, whole, fun part member => ?_⟩
        obtain ⟨notEnd, tag', value', spelled⟩ := each part member
        exact ⟨notEnd, tag', value', ih spelled⟩

/-- A constructed value of parts with tags is spelled with a level more than they are. -/
theorem spells_of_constructed {parts : List Bytes}
    (each : ∀ part ∈ parts, ∃ tag' value', tag' ≠ 0 ∧ Spells levels tag' value' part)
    (constructed : Constructed tag parts.flatten encoding) :
    Spells (levels + 1) tag parts.flatten encoding := by
  rcases constructed with definite | indefinite
  · exact Or.inl definite
  · refine Or.inr ⟨indefinite, parts, rfl, fun part member => ?_⟩
    obtain ⟨tag', value', tagged, spelled⟩ := each part member
    exact ⟨take_ne_of_spells spelled tagged, tag', value', spelled⟩

theorem spells_of_constructed_one {content : Bytes} {tag' : UInt8} {value' : Bytes}
    (tagged : tag' ≠ 0) (spelled : Spells levels tag' value' content)
    (constructed : Constructed tag content encoding) :
    Spells (levels + 1) tag content encoding := by
  have one : [content].flatten = content := by
    rw [List.flatten_cons, List.flatten_nil, List.append_nil]
  rw [← one] at constructed ⊢
  refine spells_of_constructed (fun part member => ?_) constructed
  rw [List.mem_singleton.mp member]
  exact ⟨tag', value', tagged, spelled⟩

theorem spells_of_field (field : Field tag encoding) :
    ∃ value, Spells (MAX_DEPTH + 1 - 3) tag value encoding := by
  obtain ⟨tag', value, content, tagged, spelled, constructed⟩ := field
  exact ⟨content, spells_of_constructed_one tagged spelled constructed⟩

/-! ## Reading tokens -/

theorem readTlv_of_spells (depth : ℕ) (spelled : Spells (MAX_DEPTH + 1 - depth) tag value encoding)
    (s : Bytes) : readTlv (encoding ++ s) depth = .ok ⟨tag, value, encoding.length⟩ :=
  readTlvLevels_of_spells spelled s

theorem expect_of_spells (depth : ℕ) (spelled : Spells (MAX_DEPTH + 1 - depth) tag value encoding)
    (s : Bytes) : expect (encoding ++ s) tag depth = .ok ⟨tag, value, encoding.length⟩ := by
  rw [expect, readTlv_of_spells depth spelled s]
  exact if_neg (not_not.mpr rfl)

/-- The fields before the response token are passed over. -/
theorem responseField_of_fields {before : List Bytes} {field octets t : Bytes} {turns : ℕ}
    (enough : before.length < turns)
    (each : ∀ part ∈ before, ∃ tag value, tag ∈ [TAG_CONTEXT_0, TAG_CONTEXT_1, TAG_CONTEXT_3] ∧
      Spells (MAX_DEPTH + 1 - 3) tag value part)
    (held : Spells (MAX_DEPTH + 1 - 3) TAG_CONTEXT_2 octets field)
    (string : Spells (MAX_DEPTH + 1 - 4) TAG_OCTET_STRING t octets) (rest : Bytes) :
    responseField turns (before.flatten ++ (field ++ rest)) = .ok t := by
  induction before generalizing turns with
  | nil =>
      obtain ⟨turns, rfl⟩ := Nat.exists_eq_succ_of_ne_zero (Nat.ne_zero_of_lt enough)
      have long := two_le_length_of_spells held
      have some : field ++ rest ≠ [] := by
        intro none
        rw [(List.append_eq_nil_iff.mp none).1] at long
        exact absurd long (by decide)
      have read := expect_of_spells 4 string []
      rw [List.append_nil] at read
      rw [List.flatten_nil, List.nil_append, responseField, if_neg some,
        readTlv_of_spells 3 held rest]
      simp only [bind, Except.bind]
      rw [if_pos trivial, read]
      rfl
  | cons part before ih =>
      obtain ⟨turns, rfl⟩ := Nat.exists_eq_succ_of_ne_zero (Nat.ne_zero_of_lt enough)
      obtain ⟨tag, value, passed, spelled⟩ := each part List.mem_cons_self
      have long := two_le_length_of_spells spelled
      have some : part ++ (before.flatten ++ (field ++ rest)) ≠ [] := by
        intro none
        rw [(List.append_eq_nil_iff.mp none).1] at long
        exact absurd long (by decide)
      have other : tag ≠ TAG_CONTEXT_2 := by
        rintro rfl
        exact absurd passed (by decide)
      rw [List.flatten_cons, List.append_assoc, responseField, if_neg some,
        readTlv_of_spells 3 spelled]
      simp only [bind, Except.bind]
      rw [if_neg other, if_pos passed, List.drop_left]
      exact ih (Nat.lt_of_succ_lt_succ enough)
        fun part' member => each part' (List.mem_cons_of_mem _ member)

theorem negotiation_of_negTokenResp {t : Bytes} (carries : NegTokenResp t encoding) :
    ∃ (sequence : Bytes) (before : List Bytes) (octets field after content : Bytes),
      Spells (MAX_DEPTH + 1 - 1) TAG_CONTEXT_1 sequence encoding ∧
      Spells (MAX_DEPTH + 1 - 2) TAG_SEQUENCE content sequence ∧
      content = before.flatten ++ (field ++ after) ∧
      (∀ part ∈ before, ∃ tag value, tag ∈ [TAG_CONTEXT_0, TAG_CONTEXT_1, TAG_CONTEXT_3] ∧
        Spells (MAX_DEPTH + 1 - 3) tag value part) ∧
      Spells (MAX_DEPTH + 1 - 3) TAG_CONTEXT_2 octets field ∧
      Spells (MAX_DEPTH + 1 - 4) TAG_OCTET_STRING t octets := by
  obtain ⟨state, mech, mic, octets, field, sequence, states, mechs, string, held, mics, sequenced,
    outer⟩ := carries
  have octetsSpelled : Spells (MAX_DEPTH + 1 - 4) TAG_OCTET_STRING t octets := Or.inl string
  have fieldSpelled : Spells (MAX_DEPTH + 1 - 3) TAG_CONTEXT_2 octets field :=
    spells_of_constructed_one (by decide) octetsSpelled held
  have fields : ∀ part ∈ state.toList ++ mech.toList,
      ∃ tag value, tag ∈ [TAG_CONTEXT_0, TAG_CONTEXT_1, TAG_CONTEXT_3] ∧
        Spells (MAX_DEPTH + 1 - 3) tag value part := by
    intro part member
    rcases List.mem_append.mp member with front | back
    · obtain ⟨value, spelled⟩ := spells_of_field (states part (Option.mem_toList.mp front))
      exact ⟨_, value, by decide, spelled⟩
    · obtain ⟨value, spelled⟩ := spells_of_field (mechs part (Option.mem_toList.mp back))
      exact ⟨_, value, by decide, spelled⟩
  have every : ∀ part ∈ state.toList ++ mech.toList ++ field :: mic.toList,
      ∃ tag value, tag ≠ 0 ∧ Spells (MAX_DEPTH + 1 - 3) tag value part := by
    intro part member
    rcases List.mem_append.mp member with front | back
    · obtain ⟨tag, value, passed, spelled⟩ := fields part front
      refine ⟨tag, value, ?_, spelled⟩
      rintro rfl
      exact absurd passed (by decide)
    · rcases List.mem_cons.mp back with rfl | back
      · exact ⟨_, octets, by decide, fieldSpelled⟩
      · obtain ⟨value, spelled⟩ := spells_of_field (mics part (Option.mem_toList.mp back))
        exact ⟨_, value, by decide, spelled⟩
  have sequenceSpelled := spells_of_constructed every sequenced
  refine ⟨sequence, state.toList ++ mech.toList, octets, field, mic.toList.flatten, _,
    spells_of_constructed_one (by decide) sequenceSpelled outer, sequenceSpelled, ?_, fields,
    fieldSpelled, octetsSpelled⟩
  rw [List.flatten_append, List.flatten_cons]

/-- What is behind the wrapper. -/
def negotiationToken (body : Bytes) : Except SpnegoError Bytes := do
  let negotiation ← expect body TAG_CONTEXT_1 1
  let sequence ← expect negotiation.value TAG_SEQUENCE 2
  responseField (sequence.value.length + 1) sequence.value

theorem negotiationToken_of_carries {t body : Bytes} (carries : NegTokenResp t body) :
    negotiationToken body = .ok t := by
  obtain ⟨sequence, before, octets, field, after, content, outer, sequenced, rfl, fields, held,
    string⟩ := negotiation_of_negTokenResp carries
  have outerRead := expect_of_spells 1 outer []
  have sequenceRead := expect_of_spells 2 sequenced []
  rw [List.append_nil] at outerRead sequenceRead
  have counted := length_le_length_flatten fun part member =>
    (fields part member).elim fun _ h => h.elim fun _ h => two_le_length_of_spells h.2
  rw [negotiationToken]
  simp only [bind, Except.bind, outerRead, sequenceRead]
  refine responseField_of_fields ?_ fields held string after
  rw [List.length_append]
  omega

/-- Every spelling of a token gives its response token. -/
theorem responseToken_of_carries {t token : Bytes} (carries : Carries t token) :
    responseToken token = .ok t := by
  rcases carries with bare | ⟨oid, name, inner, named, held, wrapped⟩
  · obtain ⟨sequence, -, -, -, -, -, outer, -⟩ := negotiation_of_negTokenResp bare
    have read := readTlv_of_spells 0 outer.succ []
    rw [List.append_nil] at read
    rw [responseToken, read]
    exact negotiationToken_of_carries bare
  · obtain ⟨sequence, -, -, -, -, -, outer, -⟩ := negotiation_of_negTokenResp held
    have nameSpelled : Spells (MAX_DEPTH + 1 - 1) TAG_OID oid name := Or.inl named
    have whole : name ++ inner = [name, inner].flatten := by
      rw [List.flatten_cons, List.flatten_cons, List.flatten_nil, List.append_nil]
    rw [whole] at wrapped
    have every : ∀ part ∈ [name, inner],
        ∃ tag value, tag ≠ 0 ∧ Spells (MAX_DEPTH + 1 - 1) tag value part := by
      rintro part (_ | ⟨_, _ | ⟨_, ⟨⟩⟩⟩)
      · exact ⟨_, oid, by decide, nameSpelled⟩
      · exact ⟨_, sequence, by decide, outer⟩
    have read := readTlv_of_spells 0 (spells_of_constructed every wrapped) []
    rw [List.append_nil, ← whole] at read
    rw [responseToken, read]
    simp only [bind, Except.bind, pure, Except.pure, if_true, expect_of_spells 1 nameSpelled inner]
    rw [List.drop_left]
    exact negotiationToken_of_carries held

/-! ## The tokens this client writes -/

theorem bigEndian_concat (raw : Bytes) (byte : UInt8) :
    bigEndian (raw ++ [byte]) = bigEndian raw * 256 + byte.toNat := by
  rw [bigEndian, List.foldl_append]
  rfl

theorem bigEndian_reverse (bytes : Bytes) :
    bigEndian bytes.reverse = LittleEndian.decode bytes := by
  induction bytes with
  | nil => rfl
  | cons byte bytes ih =>
      rw [List.reverse_cons, bigEndian_concat, ih, LittleEndian.decode, Nat.mul_comm, Nat.add_comm]

/-- Zeros before a length leave it as it is. -/
theorem bigEndian_dropWhile (raw : Bytes) :
    bigEndian (raw.dropWhile (· = 0)) = bigEndian raw := by
  induction raw with
  | nil => rfl
  | cons byte raw ih =>
      rw [List.dropWhile_cons]
      split
      · next zero =>
          rw [ih, decide_eq_true_eq.mp zero]
          rfl
      · rfl

theorem bigEndian_significant {length : ℕ} (fits : length < 2 ^ 64) :
    bigEndian (significant length) = length := by
  rw [significant, bigEndian_dropWhile, bigEndian_reverse, LittleEndian.decode_encode]
  exact Nat.mod_eq_of_lt fits

theorem putTlv_append (out : Bytes) (tag : UInt8) (value : Bytes) :
    putTlv out tag value = out ++ putTlv [] tag value := by
  unfold putTlv
  split
  · rfl
  · rfl

theorem definite_putTlv (tag : UInt8) {value : Bytes} (fits : value.length < 2 ^ 64) :
    Definite tag value (putTlv [] tag value) := by
  by_cases short : value.length < 0x80
  · rw [putTlv, if_pos short]
    exact ⟨_, Or.inl ⟨short, rfl⟩, rfl⟩
  · have number := bigEndian_significant fits
    have some : 0 < (significant value.length).length := by
      refine List.length_pos_of_ne_nil fun none => ?_
      rw [none] at number
      exact short (number ▸ by decide)
    have few : (significant value.length).length ≤ USIZE_BYTES := by
      refine (List.dropWhile_sublist _).length_le.trans ?_
      rw [List.length_reverse, LittleEndian.length_encode]
    rw [putTlv, if_neg short]
    exact ⟨_, Or.inr ⟨_, some, few, number, rfl⟩, rfl⟩

theorem length_le_putTlv (tag : UInt8) (value : Bytes) :
    value.length ≤ (putTlv [] tag value).length := by
  unfold putTlv
  split
  · rw [List.nil_append, List.length_cons, List.length_cons]
    omega
  · rw [List.nil_append, List.length_cons, List.length_cons, List.length_append]
    omega

/-- What this client writes carries the token it was written from; a vector has fewer than 2^63
bytes. -/
theorem carries_negTokenResp {t mic : Bytes} (fits : (negTokenResp t mic).length < 2 ^ 63) :
    Carries t (negTokenResp t mic) := by
  have fields : putTlv (putTlv [] TAG_CONTEXT_2 (putTlv [] TAG_OCTET_STRING t)) TAG_CONTEXT_3
      (putTlv [] TAG_OCTET_STRING mic) = putTlv [] TAG_CONTEXT_2 (putTlv [] TAG_OCTET_STRING t) ++
        putTlv [] TAG_CONTEXT_3 (putTlv [] TAG_OCTET_STRING mic) := putTlv_append _ _ _
  unfold negTokenResp at fits ⊢
  rw [fields] at fits ⊢
  have string := length_le_putTlv TAG_OCTET_STRING t
  have string' := length_le_putTlv TAG_OCTET_STRING mic
  have field := length_le_putTlv TAG_CONTEXT_2 (putTlv [] TAG_OCTET_STRING t)
  have field' := length_le_putTlv TAG_CONTEXT_3 (putTlv [] TAG_OCTET_STRING mic)
  have sequence := length_le_putTlv TAG_SEQUENCE
    (putTlv [] TAG_CONTEXT_2 (putTlv [] TAG_OCTET_STRING t) ++
      putTlv [] TAG_CONTEXT_3 (putTlv [] TAG_OCTET_STRING mic))
  have token := length_le_putTlv TAG_CONTEXT_1 (putTlv [] TAG_SEQUENCE
    (putTlv [] TAG_CONTEXT_2 (putTlv [] TAG_OCTET_STRING t) ++
      putTlv [] TAG_CONTEXT_3 (putTlv [] TAG_OCTET_STRING mic)))
  have both := @List.length_append _ (putTlv [] TAG_CONTEXT_2 (putTlv [] TAG_OCTET_STRING t))
    (putTlv [] TAG_CONTEXT_3 (putTlv [] TAG_OCTET_STRING mic))
  dsimp only at fits
  refine Or.inl ⟨none, none,
    some (putTlv [] TAG_CONTEXT_3 (putTlv [] TAG_OCTET_STRING mic)), _, _, _, by rintro _ ⟨⟩,
    by rintro _ ⟨⟩,
    definite_putTlv _ (by omega), Or.inl (definite_putTlv _ (by omega)), ?_, Or.inl ?_,
    Or.inl (definite_putTlv _ (by omega))⟩
  · rintro _ ⟨⟩
    exact ⟨_, mic, _, by decide, Or.inl (definite_putTlv TAG_OCTET_STRING (by omega)),
      Or.inl (definite_putTlv _ (by omega))⟩
  · have parts (front back : Bytes) :
        (([] : List Bytes) ++ [] ++ front :: [back]).flatten = front ++ back := by
      rw [List.append_nil, List.nil_append, List.flatten_cons, List.flatten_cons, List.flatten_nil,
        List.append_nil]
    rw [Option.toList_none, Option.toList_some, parts]
    exact definite_putTlv _ (by omega)

/-! ## Indexing -/

/-- `&bytes[start..]`, which panics past the end. -/
def indexFrom (bytes : Bytes) (start : ℕ) : Option Bytes :=
  if start ≤ bytes.length then some (bytes.drop start) else none

/-- `&bytes[..stop]`, which panics past the end. -/
def indexTo (bytes : Bytes) (stop : ℕ) : Option Bytes :=
  if stop ≤ bytes.length then some (bytes.take stop) else none

/-- `endOfContents` with its indexing, or nothing where that panics. -/
def endOfContentsIndexed (inner : Bytes → Option (Except SpnegoError Tlv)) (body : Bytes) :
    ℕ → ℕ → Option (Except SpnegoError ℕ)
  | 0, _ => some (.error .unterminatedIndefinite)
  | turns + 1, start =>
      if body.length < start + 2 then some (.error .unterminatedIndefinite)
      else if (body.drop start).take 2 = [0, 0] then some (.ok start)
      else
        (indexFrom body start).bind fun rest => (inner rest).bind fun
          | .error error => some (.error error)
          | .ok tlv => endOfContentsIndexed inner body turns (start + tlv.consumed)

/-- `readTlvLevels` with its indexing. -/
def readTlvIndexed : ℕ → Bytes → Option (Except SpnegoError Tlv)
  | 0, _ => some (.error .tooDeep)
  | levels + 1, bytes =>
      match bytes with
      | [] => some (.error (.truncated 0))
      | [_] => some (.error (.truncated 1))
      | tag :: first :: body =>
          if first = 0x80 then
            (endOfContentsIndexed (readTlvIndexed levels) body (body.length + 1) 0).bind fun
              | .error error => some (.error error)
              | .ok stop => (indexTo body stop).map fun value =>
                  .ok { tag, value, consumed := 2 + stop + 2 }
          else some do
            let (length, header) ← definiteLength bytes first
            if bytes.length < header + length then .error (.truncated header)
            else return { tag, value := (bytes.drop header).take length,
                          consumed := header + length }

/-- `expect` with its indexing. -/
def expectIndexed (bytes : Bytes) (tag : UInt8) (depth : ℕ) : Option (Except SpnegoError Tlv) :=
  (readTlvIndexed (MAX_DEPTH + 1 - depth) bytes).map fun read =>
    read.bind fun tlv => if tlv.tag ≠ tag then .error (.unexpectedTag tag tlv.tag) else .ok tlv

/-- `responseField` with its indexing. -/
def responseFieldIndexed : ℕ → Bytes → Option (Except SpnegoError Bytes)
  | 0, _ => some (.error .noResponseToken)
  | turns + 1, rest =>
      if rest = [] then some (.error .noResponseToken)
      else
        (readTlvIndexed (MAX_DEPTH + 1 - 3) rest).bind fun
          | .error error => some (.error error)
          | .ok field =>
              if field.tag = TAG_CONTEXT_2 then
                (expectIndexed field.value TAG_OCTET_STRING 4).map fun read => read.map (·.value)
              else if field.tag ∈ [TAG_CONTEXT_0, TAG_CONTEXT_1, TAG_CONTEXT_3] then
                (indexFrom rest field.consumed).bind (responseFieldIndexed turns)
              else some (.error (.unexpectedTag TAG_CONTEXT_2 field.tag))

/-- What follows the wrapper. -/
def negotiationIndexed (body : Bytes) : Option (Except SpnegoError Bytes) :=
  (expectIndexed body TAG_CONTEXT_1 1).bind fun
    | .error error => some (.error error)
    | .ok negotiation => (expectIndexed negotiation.value TAG_SEQUENCE 2).bind fun
        | .error error => some (.error error)
        | .ok sequence => responseFieldIndexed (sequence.value.length + 1) sequence.value

/-- `responseToken` with its indexing. -/
def responseTokenIndexed (token : Bytes) : Option (Except SpnegoError Bytes) :=
  (readTlvIndexed (MAX_DEPTH + 1 - 0) token).bind fun
    | .error error => some (.error error)
    | .ok outer =>
        if outer.tag = TAG_APPLICATION_0 then
          (expectIndexed outer.value TAG_OID 1).bind fun
            | .error error => some (.error error)
            | .ok oid => (indexFrom outer.value oid.consumed).bind negotiationIndexed
        else negotiationIndexed token

theorem within_of_endOfContents {inner : Bytes → Except SpnegoError Tlv} {body : Bytes}
    {turns start stop : ℕ} (found : endOfContents inner body turns start = .ok stop) :
    stop + 2 ≤ body.length := by
  induction turns generalizing start with
  | zero => cases found
  | succ turns ih =>
      rw [endOfContents] at found
      split at found
      · cases found
      next inside =>
      split at found
      · cases found
        exact not_lt.mp inside
      cases read : inner (body.drop start) with
      | error error =>
          rw [read] at found
          cases found
      | ok tlv =>
          rw [read] at found
          exact ih found

theorem consumed_le {levels : ℕ} {bytes : Bytes} {tlv : Tlv}
    (read : readTlvLevels levels bytes = .ok tlv) : tlv.consumed ≤ bytes.length := by
  obtain ⟨encoding, rest, rfl, consumed, -⟩ := spells_of_readTlvLevels read
  rw [consumed, List.length_append]
  exact Nat.le_add_right _ _

theorem endOfContentsIndexed_eq {inner : Bytes → Except SpnegoError Tlv}
    {inner' : Bytes → Option (Except SpnegoError Tlv)}
    (same : ∀ bytes, inner' bytes = some (inner bytes)) (body : Bytes) (turns start : ℕ) :
    endOfContentsIndexed inner' body turns start = some (endOfContents inner body turns start) := by
  induction turns generalizing start with
  | zero => rfl
  | succ turns ih =>
      rw [endOfContentsIndexed, endOfContents]
      split
      · rfl
      next inside =>
      split
      · rfl
      rw [indexFrom, if_pos (by omega), Option.bind_some, same, Option.bind_some]
      cases inner (body.drop start) with
      | error error => rfl
      | ok tlv => exact ih _

theorem readTlvIndexed_eq (levels : ℕ) (bytes : Bytes) :
    readTlvIndexed levels bytes = some (readTlvLevels levels bytes) := by
  induction levels generalizing bytes with
  | zero => rfl
  | succ levels ih =>
      rw [readTlvIndexed.eq_def]
      dsimp only
      split
      · rfl
      · rfl
      next tag first body =>
      split
      · next open' =>
          rw [endOfContentsIndexed_eq ih, Option.bind_some, readTlvLevels.eq_def]
          dsimp only
          rw [if_pos open']
          cases found : endOfContents (readTlvLevels levels) body (body.length + 1) 0 with
          | error error => rfl
          | ok stop =>
              have inside := within_of_endOfContents found
              dsimp only
              rw [indexTo, if_pos (by omega)]
              rfl
      · next definite =>
          rw [readTlvLevels.eq_def]
          dsimp only
          rw [if_neg definite]

theorem expectIndexed_eq (bytes : Bytes) (tag : UInt8) (depth : ℕ) :
    expectIndexed bytes tag depth = some (expect bytes tag depth) := by
  rw [expectIndexed, readTlvIndexed_eq, expect, readTlv]
  rfl

theorem responseFieldIndexed_eq (turns : ℕ) (rest : Bytes) :
    responseFieldIndexed turns rest = some (responseField turns rest) := by
  induction turns generalizing rest with
  | zero => rfl
  | succ turns ih =>
      rw [responseFieldIndexed, responseField]
      split
      · rfl
      rw [readTlvIndexed_eq, Option.bind_some, readTlv]
      cases read : readTlvLevels (MAX_DEPTH + 1 - 3) rest with
      | error error => rfl
      | ok field =>
          simp only [bind, Except.bind]
          split
          · rw [expectIndexed_eq]
            cases expect field.value TAG_OCTET_STRING 4 <;> rfl
          split
          · rw [indexFrom, if_pos (consumed_le read), Option.bind_some, ih]
          · rfl

theorem negotiationIndexed_eq (body : Bytes) :
    negotiationIndexed body = some (negotiationToken body) := by
  rw [negotiationIndexed, expectIndexed_eq, Option.bind_some, negotiationToken]
  cases expect body TAG_CONTEXT_1 1 with
  | error error => rfl
  | ok negotiation =>
      simp only [bind, Except.bind]
      rw [expectIndexed_eq, Option.bind_some]
      cases expect negotiation.value TAG_SEQUENCE 2 with
      | error error => rfl
      | ok sequence => exact responseFieldIndexed_eq _ _

theorem read_of_expect {bytes : Bytes} {tag : UInt8} {depth : ℕ} {tlv : Tlv}
    (read : expect bytes tag depth = .ok tlv) :
    readTlvLevels (MAX_DEPTH + 1 - depth) bytes = .ok tlv ∧ tlv.tag = tag := by
  rw [expect] at read
  cases found : readTlv bytes depth with
  | error error =>
      rw [found] at read
      cases read
  | ok tlv' =>
      rw [found] at read
      simp only [bind, Except.bind] at read
      split at read
      · cases read
      · next same =>
          cases read
          exact ⟨found, not_not.mp same⟩

/-- Reading a token never indexes past the end of what it reads. -/
theorem responseTokenIndexed_eq (token : Bytes) :
    responseTokenIndexed token = some (responseToken token) := by
  rw [responseTokenIndexed, readTlvIndexed_eq, Option.bind_some, responseToken, readTlv]
  cases readTlvLevels (MAX_DEPTH + 1 - 0) token with
  | error error => rfl
  | ok outer =>
      simp only [bind, Except.bind]
      split
      · rw [expectIndexed_eq, Option.bind_some]
        cases read : expect outer.value TAG_OID 1 with
        | error error => rfl
        | ok oid =>
            have inside := consumed_le (read_of_expect read).1
            dsimp only
            rw [indexFrom, if_pos inside, Option.bind_some, negotiationIndexed_eq]
            rfl
      · rw [negotiationIndexed_eq]
        rfl

/-! ## What a response token is read from -/

/-- Bytes that begin with a spelling of a value. -/
def Begins (bytes : Bytes) (tag : UInt8) (value : Bytes) : Prop :=
  ∃ levels encoding rest, bytes = encoding ++ rest ∧ Spells levels tag value encoding

/-- The contents of an `OCTET STRING` under the first `[2]` of a token's sequence, behind fields
of the grammar's other tags. -/
def SequenceHolds (t body : Bytes) : Prop :=
  ∃ (negotiation sequence : Bytes) (before : List Bytes) (after octets : Bytes),
    Begins body TAG_CONTEXT_1 negotiation ∧ Begins negotiation TAG_SEQUENCE sequence ∧
    sequence = before.flatten ++ after ∧
    (∀ part ∈ before, ∃ levels tag value,
      tag ∈ [TAG_CONTEXT_0, TAG_CONTEXT_1, TAG_CONTEXT_3] ∧ Spells levels tag value part) ∧
    Begins after TAG_CONTEXT_2 octets ∧ Begins octets TAG_OCTET_STRING t

/-- The token's own sequence holds it, or the one behind the wrapper's OID. -/
def Holds (t token : Bytes) : Prop :=
  SequenceHolds t token ∨
    ∃ levels oid name inner, Begins token TAG_APPLICATION_0 (name ++ inner) ∧
      Spells levels TAG_OID oid name ∧ SequenceHolds t inner

theorem begins_of_expect {bytes : Bytes} {tag : UInt8} {depth : ℕ} {tlv : Tlv}
    (read : expect bytes tag depth = .ok tlv) : Begins bytes tag tlv.value := by
  obtain ⟨found, rfl⟩ := read_of_expect read
  obtain ⟨encoding, rest, whole, -, spelled⟩ := spells_of_readTlvLevels found
  exact ⟨_, encoding, rest, whole, spelled⟩

theorem fields_of_responseField {turns : ℕ} {rest t : Bytes}
    (read : responseField turns rest = .ok t) :
    ∃ (before : List Bytes) (after octets : Bytes), rest = before.flatten ++ after ∧
      (∀ part ∈ before, ∃ levels tag value,
        tag ∈ [TAG_CONTEXT_0, TAG_CONTEXT_1, TAG_CONTEXT_3] ∧ Spells levels tag value part) ∧
      Begins after TAG_CONTEXT_2 octets ∧ Begins octets TAG_OCTET_STRING t := by
  induction turns generalizing rest with
  | zero => cases read
  | succ turns ih =>
      rw [responseField] at read
      split at read
      · cases read
      cases found : readTlv rest 3 with
      | error error =>
          rw [found] at read
          cases read
      | ok field =>
      rw [found] at read
      simp only [bind, Except.bind] at read
      obtain ⟨encoding, behind, rfl, consumed, spelled⟩ := spells_of_readTlvLevels found
      split at read
      · next held =>
          cases string : expect field.value TAG_OCTET_STRING 4 with
          | error error =>
              rw [string] at read
              cases read
          | ok octets =>
              rw [string] at read
              cases read
              exact ⟨[], _, field.value, rfl, by rintro _ ⟨⟩,
                ⟨_, encoding, behind, rfl, held ▸ spelled⟩, begins_of_expect string⟩
      split at read
      · next passed =>
          rw [consumed, List.drop_left] at read
          obtain ⟨before, after, octets, rfl, each, holds⟩ := ih read
          refine ⟨encoding :: before, after, octets, ?_, ?_, holds⟩
          · rw [List.flatten_cons, List.append_assoc]
          · rintro part (_ | ⟨_, member⟩)
            · exact ⟨_, field.tag, field.value, passed, spelled⟩
            · exact each part member
      · cases read

theorem sequenceHolds_of_negotiationToken {t body : Bytes}
    (read : negotiationToken body = .ok t) : SequenceHolds t body := by
  rw [negotiationToken] at read
  cases outer : expect body TAG_CONTEXT_1 1 with
  | error error =>
      rw [outer] at read
      cases read
  | ok negotiation =>
  rw [outer] at read
  simp only [bind, Except.bind] at read
  cases inner : expect negotiation.value TAG_SEQUENCE 2 with
  | error error =>
      rw [inner] at read
      cases read
  | ok sequence =>
  rw [inner] at read
  obtain ⟨before, after, octets, whole, each, holds⟩ := fields_of_responseField read
  exact ⟨negotiation.value, sequence.value, before, after, octets, begins_of_expect outer,
    begins_of_expect inner, whole, each, holds⟩

theorem holds_of_responseToken {t token : Bytes} (read : responseToken token = .ok t) :
    Holds t token := by
  rw [responseToken] at read
  cases found : readTlv token 0 with
  | error error =>
      rw [found] at read
      cases read
  | ok outer =>
  rw [found] at read
  simp only [bind, Except.bind] at read
  split at read
  · next wrapper =>
      cases oid : expect outer.value TAG_OID 1 with
      | error error =>
          rw [oid] at read
          cases read
      | ok tlv =>
      rw [oid] at read
      have held := sequenceHolds_of_negotiationToken read
      obtain ⟨named, tagged⟩ := read_of_expect oid
      obtain ⟨encoding, rest, value, consumed, spelled⟩ := spells_of_readTlvLevels named
      obtain ⟨encoding', rest', token_eq, -, spelled'⟩ := spells_of_readTlvLevels found
      rw [value, consumed, List.drop_left] at held
      rw [wrapper, value] at spelled'
      exact Or.inr ⟨_, tlv.value, encoding, rest, ⟨_, encoding', rest', token_eq, spelled'⟩,
        tagged ▸ spelled, held⟩
  · exact Or.inl (sequenceHolds_of_negotiationToken read)

end Spnego

open Spnego

/-- **Response tokens are read from every spelling, and from tokens only.** -/
theorem spnego_reads_spellings :
    (∀ t token, Carries t token → responseToken token = .ok t) ∧
    (∀ t mic, (negTokenResp t mic).length < 2 ^ 63 →
      responseToken (negTokenResp t mic) = .ok t) ∧
    ∀ token, responseTokenIndexed token = some (responseToken token) ∧
      ∀ t, responseToken token = .ok t → Holds t token :=
  ⟨fun _ _ carries => responseToken_of_carries carries,
    fun _ _ fits => responseToken_of_carries (carries_negTokenResp fits),
    fun token => ⟨responseTokenIndexed_eq token, fun _ read => holds_of_responseToken read⟩⟩

/-- A token of indefinite lengths all through. -/
theorem spnego_reads_spellings_indefinite :
    responseToken [0xA1, 0x80, 0x30, 0x80, 0xA2, 0x80, 0x04, 0x01, 0x41, 0, 0, 0, 0, 0, 0] =
      .ok [0x41] :=
  spnego_reads_spellings.1 _ _ (Or.inl ⟨none, none, none, [0x04, 0x01, 0x41],
    [0xA2, 0x80, 0x04, 0x01, 0x41, 0, 0],
    [0x30, 0x80, 0xA2, 0x80, 0x04, 0x01, 0x41, 0, 0, 0, 0], by rintro _ ⟨⟩, by rintro _ ⟨⟩,
    ⟨[0x04, 0x01], Or.inl ⟨by decide, rfl⟩, rfl⟩, Or.inr rfl, by rintro _ ⟨⟩, Or.inr rfl,
    Or.inr rfl⟩)

/-- A string of one segment, its own length indefinite: a constructed string is refused. -/
theorem constructed_string_refused :
    ∃ segment octets field sequence token,
      Definite TAG_OCTET_STRING [0x41] segment ∧
      Indefinite (0x20 ||| TAG_OCTET_STRING) segment octets ∧
      Constructed TAG_CONTEXT_2 octets field ∧ Constructed TAG_SEQUENCE field sequence ∧
      Constructed TAG_CONTEXT_1 sequence token ∧
      responseToken token = .error (.unexpectedTag TAG_OCTET_STRING 0x24) :=
  ⟨[0x04, 0x01, 0x41], [0x24, 0x80, 0x04, 0x01, 0x41, 0, 0],
    [0xA2, 0x80, 0x24, 0x80, 0x04, 0x01, 0x41, 0, 0, 0, 0],
    [0x30, 0x80, 0xA2, 0x80, 0x24, 0x80, 0x04, 0x01, 0x41, 0, 0, 0, 0, 0, 0],
    [0xA1, 0x80, 0x30, 0x80, 0xA2, 0x80, 0x24, 0x80, 0x04, 0x01, 0x41, 0, 0, 0, 0, 0, 0, 0, 0],
    ⟨[0x04, 0x01], Or.inl ⟨by decide, rfl⟩, rfl⟩, rfl, Or.inr rfl, Or.inr rfl, Or.inr rfl,
    by decide +kernel⟩

end Smb1Client
