import Smb1Client.Wire.Message

/-!
SPNEGO: DER out, lenient BER in. A length may be indefinite, and values may nest no deeper than
`MAX_DEPTH`.
-/

namespace Smb1Client

/-- What can go wrong reading a server's token. -/
inductive SpnegoError where
  | truncated (start : ℕ)
  | lengthTooLarge
  | unexpectedTag (expected actual : UInt8)
  | unterminatedIndefinite
  | tooDeep
  | noResponseToken
  deriving DecidableEq, Repr

namespace Spnego

def TAG_APPLICATION_0 : UInt8 := 0x60
def TAG_OID : UInt8 := 0x06
def TAG_OCTET_STRING : UInt8 := 0x04
def TAG_SEQUENCE : UInt8 := 0x30
def TAG_CONTEXT_0 : UInt8 := 0xA0
def TAG_CONTEXT_1 : UInt8 := 0xA1
def TAG_CONTEXT_2 : UInt8 := 0xA2
def TAG_CONTEXT_3 : UInt8 := 0xA3
def SPNEGO_OID : Bytes := [0x2B, 0x06, 0x01, 0x05, 0x05, 0x02]
def NTLMSSP_OID : Bytes := [0x2B, 0x06, 0x01, 0x04, 0x01, 0x82, 0x37, 0x02, 0x02, 0x0A]
def MAX_DEPTH : ℕ := 16

/-- The bytes a `usize` holds. -/
def USIZE_BYTES : ℕ := 8

/-! ## Reading -/

/-- A tag-length-value, with the bytes all of it took. -/
structure Tlv where
  tag : UInt8
  value : Bytes
  consumed : ℕ
  deriving DecidableEq, Repr

/-- Where the end-of-contents pair is, past the values before it, each read by `inner`. Every value
takes a byte at least, so a body has fewer than `turns` of them. -/
def endOfContents (inner : Bytes → Except SpnegoError Tlv) (body : Bytes) :
    ℕ → ℕ → Except SpnegoError ℕ
  | 0, _ => .error .unterminatedIndefinite
  | turns + 1, start =>
      if body.length < start + 2 then .error .unterminatedIndefinite
      else if (body.drop start).take 2 = [0, 0] then .ok start
      else do endOfContents inner body turns (start + (← inner (body.drop start)).consumed)

/-- A length in its long form, the most significant byte first. -/
def bigEndian (raw : Bytes) : ℕ := raw.foldl (fun length byte => length * 256 + byte.toNat) 0

/-- The length a definite header declares, with how long the header is. -/
def definiteLength (bytes : Bytes) (first : UInt8) : Except SpnegoError (ℕ × ℕ) :=
  if first &&& 0x80 = 0 then .ok (first.toNat, 2)
  else
    let count := (first &&& 0x7F).toNat
    if count = 0 ∨ USIZE_BYTES < count then .error .lengthTooLarge
    else if bytes.length < 2 + count then .error (.truncated 2)
    else .ok (bigEndian ((bytes.drop 2).take count), 2 + count)

/-- Reads one tag-length-value, with this many levels of nesting to go. -/
def readTlvLevels : ℕ → Bytes → Except SpnegoError Tlv
  | 0, _ => .error .tooDeep
  | levels + 1, bytes =>
      match bytes with
      | [] => .error (.truncated 0)
      | [_] => .error (.truncated 1)
      | tag :: first :: body =>
          if first = 0x80 then do
            let stop ← endOfContents (readTlvLevels levels) body (body.length + 1) 0
            return { tag, value := body.take stop, consumed := 2 + stop + 2 }
          else do
            let (length, header) ← definiteLength bytes first
            if bytes.length < header + length then .error (.truncated header)
            else return { tag, value := (bytes.drop header).take length,
                          consumed := header + length }

def readTlv (bytes : Bytes) (depth : ℕ) : Except SpnegoError Tlv :=
  readTlvLevels (MAX_DEPTH + 1 - depth) bytes

/-- Reads one, and refuses a tag the grammar does not allow. -/
def expect (bytes : Bytes) (tag : UInt8) (depth : ℕ) : Except SpnegoError Tlv := do
  let tlv ← readTlv bytes depth
  if tlv.tag ≠ tag then .error (.unexpectedTag tag tlv.tag) else return tlv

/-- The fields of a `NegTokenResp`, of which there are fewer than `turns`: the first `[2]` holds the
response token. -/
def responseField : ℕ → Bytes → Except SpnegoError Bytes
  | 0, _ => .error .noResponseToken
  | turns + 1, rest =>
      if rest = [] then .error .noResponseToken
      else do
        let field ← readTlv rest 3
        if field.tag = TAG_CONTEXT_2 then return (← expect field.value TAG_OCTET_STRING 4).value
        else if field.tag ∈ [TAG_CONTEXT_0, TAG_CONTEXT_1, TAG_CONTEXT_3] then
          responseField turns (rest.drop field.consumed)
        else .error (.unexpectedTag TAG_CONTEXT_2 field.tag)

/-- The `responseToken` of a `NegTokenResp`, in a GSS-API wrapper or not. -/
def responseToken (token : Bytes) : Except SpnegoError Bytes := do
  let outer ← readTlv token 0
  let body ←
    if outer.tag = TAG_APPLICATION_0 then do
      let oid ← expect outer.value TAG_OID 1
      pure (outer.value.drop oid.consumed)
    else pure token
  let negotiation ← expect body TAG_CONTEXT_1 1
  let sequence ← expect negotiation.value TAG_SEQUENCE 2
  responseField (sequence.value.length + 1) sequence.value

theorem two_le_header {bytes : Bytes} {first : UInt8} {length header : ℕ}
    (declared : definiteLength bytes first = .ok (length, header)) : 2 ≤ header := by
  rw [definiteLength] at declared
  split at declared
  · cases declared
    exact Nat.le_refl 2
  · dsimp only at declared
    split at declared
    · cases declared
    · split at declared
      · cases declared
      · cases declared
        exact Nat.le_add_right 2 _

theorem two_le_consumed {levels : ℕ} {bytes : Bytes} {tlv : Tlv}
    (read : readTlvLevels levels bytes = .ok tlv) : 2 ≤ tlv.consumed := by
  cases levels with
  | zero => cases read
  | succ levels =>
      rw [readTlvLevels.eq_def] at read
      dsimp only at read
      split at read
      · cases read
      · cases read
      · split at read
        · simp only [bind, Except.bind, pure, Except.pure] at read
          split at read
          · cases read
          · cases read
            exact Nat.le_add_left 2 _
        · simp only [bind, Except.bind, pure, Except.pure] at read
          split at read
          · cases read
          · next declared =>
              split at read
              · cases read
              · cases read
                exact (two_le_header declared).trans (Nat.le_add_right _ _)

/-- The search for the end of a body never runs out of turns: more of them change nothing. -/
theorem endOfContents_turns {levels turns start : ℕ} {body : Bytes}
    (enough : body.length < turns + start) :
    endOfContents (readTlvLevels levels) body (turns + 1) start =
      endOfContents (readTlvLevels levels) body turns start := by
  induction turns generalizing start with
  | zero => rw [endOfContents, endOfContents, if_pos (by omega)]
  | succ turns ih =>
      rw [endOfContents]
      conv_rhs => rw [endOfContents]
      split
      · rfl
      · split
        · rfl
        · cases read : readTlvLevels levels (body.drop start) with
          | error error => rfl
          | ok tlv =>
              have grows := two_le_consumed read
              exact ih (by omega)

/-- Nor do the fields of a token. -/
theorem responseField_turns {turns : ℕ} {rest : Bytes} (enough : rest.length < turns) :
    responseField (turns + 1) rest = responseField turns rest := by
  induction turns generalizing rest with
  | zero => exact absurd enough (Nat.not_lt_zero _)
  | succ turns ih =>
      rw [responseField]
      conv_rhs => rw [responseField]
      by_cases empty : rest = []
      · rw [if_pos empty, if_pos empty]
      · rw [if_neg empty, if_neg empty]
        cases read : readTlv rest 3 with
        | error error => rfl
        | ok field =>
            have grows : 2 ≤ field.consumed := two_le_consumed read
            have some : 0 < rest.length := List.length_pos_of_ne_nil empty
            have shorter : (rest.drop field.consumed).length < turns := by
              rw [List.length_drop]
              omega
            simp only [bind, Except.bind, ih shorter]

/-! ## Writing -/

/-- The significant bytes of a length, the most significant first. -/
def significant (length : ℕ) : Bytes :=
  ((LittleEndian.encode USIZE_BYTES length).reverse).dropWhile (· = 0)

/-- A definite-length header in its shortest form, and the value. -/
def putTlv (out : Bytes) (tag : UInt8) (value : Bytes) : Bytes :=
  if value.length < 0x80 then out ++ (tag :: UInt8.ofNat value.length :: value)
  else
    out ++ (tag :: (0x80 ||| UInt8.ofNat (significant value.length).length) ::
      (significant value.length ++ value))

/-- The mechanisms offered: NTLMSSP alone. -/
def mechList : Bytes := putTlv [] TAG_SEQUENCE (putTlv [] TAG_OID NTLMSSP_OID)

/-- The `NegTokenInit` of the first session setup, in its GSS-API wrapper. -/
def negTokenInit (mechToken : Bytes) : Bytes :=
  let init := putTlv (putTlv [] TAG_CONTEXT_0 mechList) TAG_CONTEXT_2
    (putTlv [] TAG_OCTET_STRING mechToken)
  let inner := putTlv (putTlv [] TAG_OID SPNEGO_OID) TAG_CONTEXT_0 (putTlv [] TAG_SEQUENCE init)
  putTlv [] TAG_APPLICATION_0 inner

/-- The `NegTokenResp` that carries the response and the `mechListMIC`. -/
def negTokenResp (responseToken mechListMic : Bytes) : Bytes :=
  let fields := putTlv (putTlv [] TAG_CONTEXT_2 (putTlv [] TAG_OCTET_STRING responseToken))
    TAG_CONTEXT_3 (putTlv [] TAG_OCTET_STRING mechListMic)
  putTlv [] TAG_CONTEXT_1 (putTlv [] TAG_SEQUENCE fields)

end Spnego

end Smb1Client
