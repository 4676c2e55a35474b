import Smb1Client.Auth.AvPairLists
import Smb1Client.Auth.SpnegoTokens
import Smb1Client.Wire.Session

/-!
What an answer to a challenge looks like on the wire.

Its header is zeros with blocks written over them: six of these are field descriptors, whose values
stand one behind another from the header on. No length is cut to 16 bits, since the token around
the message has to fit a security blob.
-/

namespace Smb1Client

open LittleEndian Slices

namespace Ntlm

/-! ## Fields -/

/-- Where a value is, as its descriptor says it. -/
def descriptor (cursor : ℕ) (value : Bytes) : Bytes :=
  u16le (UInt16.ofNat value.length) ++ (u16le (UInt16.ofNat value.length) ++
    u32le (UInt32.ofNat cursor))

/-- The descriptors of values that stand one behind another from `cursor` on. -/
def descriptors : ℕ → List (ℕ × Bytes) → List (ℕ × Bytes)
  | _, [] => []
  | cursor, (start, value) :: fields =>
      (start, descriptor cursor value) :: descriptors (cursor + value.length) fields

/-- A message's descriptors at these places say, with their whole lengths, that these values stand
one behind another from `cursor` on, and they do, up to the end of the message. -/
def Consecutive (message : Bytes) : ℕ → List (ℕ × Bytes) → Prop
  | cursor, [] => cursor = message.length
  | cursor, (start, value) :: fields =>
      (u16At message start).toNat = value.length ∧
      (u16At message (start + 2)).toNat = value.length ∧
      (u32At message (start + 4)).toNat = cursor ∧
      slice message cursor value.length = value ∧
      Consecutive message (cursor + value.length) fields

variable {message front header payload : Bytes} {cursor start : ℕ} {value : Bytes}
  {fields : List (ℕ × Bytes)}

@[simp] theorem length_descriptor : (descriptor cursor value).length = 8 := by
  rw [descriptor, List.length_append, List.length_append, length_u16le, length_u32le]

theorem foldl_putField (headerLen : ℕ) (header payload : Bytes) (fields : List (ℕ × Bytes)) :
    fields.foldl (fun message field => putField headerLen message field.1 field.2)
        (header, payload) =
      (spliceAll header (descriptors (headerLen + payload.length) fields),
        payload ++ fields.flatMap (·.2)) := by
  induction fields generalizing header payload with
  | nil => rw [List.foldl_nil, descriptors, List.flatMap_nil, List.append_nil]; rfl
  | cons field fields ih =>
      rw [List.foldl_cons, putField, ih, descriptors, List.flatMap_cons, List.length_append,
        List.append_assoc, Nat.add_assoc]
      rfl

theorem descriptor_reads (spelt : slice message start 8 = descriptor cursor value) :
    u16At message start = UInt16.ofNat value.length ∧
      u16At message (start + 2) = UInt16.ofNat value.length ∧
      u32At message (start + 4) = UInt32.ofNat cursor := by
  have eight := congrArg List.length spelt
  rw [length_descriptor, slice, List.length_take, List.length_drop] at eight
  obtain ⟨ahead, rest, rfl, rfl⟩ : ∃ ahead rest, ahead.length = start ∧
      message = ahead ++ (descriptor cursor value ++ rest) :=
    ⟨message.take start, message.drop (start + 8), List.length_take_of_le (by omega),
      spelt ▸ take_append_slice_append_drop.symm⟩
  rw [descriptor, List.append_assoc, List.append_assoc]
  have second : ahead.length + 2 = (ahead ++ u16le (UInt16.ofNat value.length)).length := by
    rw [List.length_append, length_u16le]
  have third : ahead.length + 4 = ((ahead ++ u16le (UInt16.ofNat value.length)) ++
      u16le (UInt16.ofNat value.length)).length := by
    rw [List.length_append, List.length_append, length_u16le]
  refine ⟨u16At_append _ _ _, ?_, ?_⟩
  · rw [← List.append_assoc, second, u16At_append]
  · rw [← List.append_assoc, ← List.append_assoc, third, u32At_append]

/-- Values behind a header with their descriptors are consecutive. -/
theorem consecutive_of_descriptors (placed : message = front ++ fields.flatMap (·.2))
    (small : message.length < 2 ^ 16)
    (spelt : ∀ block ∈ descriptors front.length fields, slice message block.1 8 = block.2) :
    Consecutive message front.length fields := by
  induction fields generalizing front with
  | nil => rw [Consecutive, placed, List.flatMap_nil, List.append_nil]
  | cons field fields ih =>
      obtain ⟨start, value⟩ := field
      rw [List.flatMap_cons] at placed
      have long : message.length =
          front.length + (value.length + (fields.flatMap (·.2)).length) := by
        rw [placed, List.length_append, List.length_append]
      obtain ⟨length, maximum, offset⟩ := descriptor_reads (spelt _ List.mem_cons_self)
      have behind : front.length + value.length = (front ++ value).length :=
        List.length_append.symm
      have short : value.length < 2 ^ 16 := by omega
      have near : front.length < 2 ^ 32 := by omega
      refine ⟨?_, ?_, ?_, ?_, ?_⟩
      · rw [length, UInt16.toNat_ofNat_of_lt' short]
      · rw [maximum, UInt16.toNat_ofNat_of_lt' short]
      · rw [offset, UInt32.toNat_ofNat_of_lt' near]
      · rw [placed, ← Nat.add_zero front.length, slice_append_right, slice, List.drop_zero,
          List.take_left]
      · rw [behind]
        refine ih ?_ fun block member => spelt block ?_
        · rw [placed, List.append_assoc]
        · rw [descriptors, behind]
          exact List.mem_cons_of_mem _ member

/-! ## The header -/

section

variable (d : Digests) (challenge : Challenge) (credentials : Credentials) (values : ClientValues)

/-- The six fields, in the order of their values. -/
def answerFields : List (ℕ × Bytes) :=
  [(28, utf16Bytes credentials.domain), (36, utf16Bytes credentials.user), (44, []),
    (12, .replicate 24 0), (20, ntResponse d challenge credentials values),
    (52, (encryptedSessionKey d challenge credentials values).toList)]

/-- All that is written over the zeros of the header. -/
def answerBlocks : List (ℕ × Bytes) :=
  (0, SIGNATURE) :: (8, u32le MESSAGE_AUTHENTICATE) :: (60, u32le NEGOTIATE_FLAGS) ::
    descriptors (headerLen challenge) (answerFields d challenge credentials values)

def answerHeader : Bytes :=
  spliceAll (.replicate (headerLen challenge) 0) (answerBlocks d challenge credentials values)

theorem unsigned_eq : unsigned d challenge credentials values =
    answerHeader d challenge credentials values ++
      (answerFields d challenge credentials values).flatMap (·.2) := by
  have put := foldl_putField (headerLen challenge)
    (splice (splice (splice (.replicate (headerLen challenge) 0) 0 SIGNATURE) 8
      (u32le MESSAGE_AUTHENTICATE)) 60 (u32le NEGOTIATE_FLAGS)) []
    (answerFields d challenge credentials values)
  rw [List.nil_append, List.length_nil, Nat.add_zero] at put
  have whole := congrArg (fun message : Bytes × Bytes => message.1 ++ message.2) put
  exact whole

theorem blocks_inside : ∀ block ∈ answerBlocks d challenge credentials values,
    block.1 + block.2.length ≤ MIC_OFFSET := by
  have first : SIGNATURE.length = 8 := rfl
  simp only [answerBlocks, answerFields, descriptors, List.forall_mem_cons, length_descriptor,
    length_u32le, first, MIC_OFFSET]
  simp

theorem blocks_apart : (answerBlocks d challenge credentials values).Pairwise fun block block' =>
    Apart block.1 block.2.length block'.1 block'.2.length := by
  have first : SIGNATURE.length = 8 := rfl
  simp only [answerBlocks, answerFields, descriptors, List.pairwise_cons, List.forall_mem_cons,
    length_descriptor, length_u32le, first, Apart]
  simp

theorem mic_offset_le_headerLen : MIC_OFFSET ≤ headerLen challenge := by
  rw [headerLen]
  split
  · exact Nat.le_add_right _ _
  · exact le_rfl

theorem inside_header : ∀ block ∈ answerBlocks d challenge credentials values,
    block.1 + block.2.length ≤ (List.replicate (headerLen challenge) (0 : UInt8)).length := by
  intro block member
  rw [List.length_replicate]
  exact (blocks_inside d challenge credentials values block member).trans
    (mic_offset_le_headerLen challenge)

theorem length_header :
    (answerHeader d challenge credentials values).length = headerLen challenge := by
  rw [answerHeader, length_spliceAll (inside_header d challenge credentials values),
    List.length_replicate]

theorem eight_of_mem_descriptors {block : ℕ × Bytes}
    (member : block ∈ descriptors cursor fields) : block.2.length = 8 := by
  induction fields generalizing cursor with
  | nil => cases member
  | cons field fields ih =>
      rcases List.mem_cons.mp member with rfl | later
      · exact length_descriptor
      · exact ih later

/-- The descriptors are ahead of the MIC, and read back from the header. -/
theorem slice_header {block : ℕ × Bytes} (member : block ∈ descriptors (headerLen challenge)
      (answerFields d challenge credentials values)) :
    block.1 + 8 ≤ MIC_OFFSET ∧
      slice (answerHeader d challenge credentials values) block.1 8 = block.2 := by
  have eight := eight_of_mem_descriptors member
  have written : block ∈ answerBlocks d challenge credentials values :=
    List.mem_cons_of_mem _ (List.mem_cons_of_mem _ (List.mem_cons_of_mem _ member))
  have inside := blocks_inside d challenge credentials values block written
  have read := slice_spliceAll_of_mem (inside_header d challenge credentials values)
    (blocks_apart d challenge credentials values) written
  rw [eight] at inside read
  exact ⟨inside, read⟩

/-- Where the MIC goes there are zeros. -/
theorem slice_header_mic (marked : challenge.targetInfo.timestamp.isSome) :
    slice (answerHeader d challenge credentials values) MIC_OFFSET DIGEST_LEN =
      .replicate DIGEST_LEN 0 := by
  have room : MIC_OFFSET + DIGEST_LEN ≤ headerLen challenge := by rw [headerLen, if_pos marked]
  rw [answerHeader, slice_spliceAll_of_apart (inside_header d challenge credentials values),
    slice_replicate room]
  intro block member
  exact Or.inr (blocks_inside d challenge credentials values block member)

/-! ## The answer -/

variable (negotiate : Bytes)

/-- What the MIC of an answer is computed to be. -/
def mic : Vector UInt8 DIGEST_LEN :=
  d.hmacMd5 values.exportedSessionKey.toList
    (negotiate ++ (challenge.raw ++ unsigned d challenge credentials values))

/-- An answer is a header that the descriptors are read from, and the values of the fields. -/
theorem message_eq : ∃ front, (authenticate d challenge credentials values negotiate).message =
      front ++ (answerFields d challenge credentials values).flatMap (·.2) ∧
    front.length = headerLen challenge ∧
    ∀ block ∈ descriptors (headerLen challenge) (answerFields d challenge credentials values),
      block.1 + 8 ≤ front.length ∧ slice front block.1 8 = block.2 := by
  have long := length_header d challenge credentials values
  have behind := mic_offset_le_headerLen challenge
  rw [authenticate]
  dsimp only
  split
  · next marked =>
    have digest : (mic d challenge credentials values negotiate).toList.length = DIGEST_LEN :=
      Vector.length_toList
    have room : MIC_OFFSET + (mic d challenge credentials values negotiate).toList.length ≤
        (answerHeader d challenge credentials values).length := by
      rw [digest, long, headerLen, if_pos marked]
    refine ⟨splice (answerHeader d challenge credentials values) MIC_OFFSET
      (mic d challenge credentials values negotiate).toList, ?_, ?_, ?_⟩
    · rw [unsigned_eq, ← splice_append_left room, ← unsigned_eq]
      rfl
    · rw [length_splice room, long]
    · intro block member
      obtain ⟨inside, read⟩ := slice_header d challenge credentials values member
      rw [length_splice room, long, slice_splice_of_apart room (Or.inl inside)]
      exact ⟨inside.trans behind, read⟩
  · refine ⟨_, unsigned_eq d challenge credentials values, long, fun block member => ?_⟩
    obtain ⟨inside, read⟩ := slice_header d challenge credentials values member
    rw [long]
    exact ⟨inside.trans behind, read⟩

theorem consecutive_fields
    (small : (authenticate d challenge credentials values negotiate).message.length < 2 ^ 16) :
    Consecutive (authenticate d challenge credentials values negotiate).message
      (headerLen challenge) (answerFields d challenge credentials values) := by
  obtain ⟨front, whole, long, read⟩ := message_eq d challenge credentials values negotiate
  rw [← long] at read ⊢
  refine consecutive_of_descriptors whole small fun block member => ?_
  obtain ⟨inside, here⟩ := read block member
  rw [whole, slice_append_left inside, here]

/-- The MIC is computed over the three messages, with zeros in its own place. -/
theorem mic_read (marked : challenge.targetInfo.timestamp.isSome) :
    slice (authenticate d challenge credentials values negotiate).message MIC_OFFSET DIGEST_LEN =
      (d.hmacMd5 values.exportedSessionKey.toList (negotiate ++ (challenge.raw ++
        splice (authenticate d challenge credentials values negotiate).message MIC_OFFSET
          (.replicate DIGEST_LEN 0)))).toList := by
  have digest : (mic d challenge credentials values negotiate).toList.length = DIGEST_LEN :=
    Vector.length_toList
  have header : MIC_OFFSET + DIGEST_LEN ≤ (answerHeader d challenge credentials values).length := by
    rw [length_header, headerLen, if_pos marked]
  have room : MIC_OFFSET + DIGEST_LEN ≤ (unsigned d challenge credentials values).length := by
    rw [unsigned_eq, List.length_append]
    omega
  have zeros : slice (unsigned d challenge credentials values) MIC_OFFSET DIGEST_LEN =
      .replicate DIGEST_LEN 0 := by
    rw [unsigned_eq, slice_append_left header,
      slice_header_mic d challenge credentials values marked]
  have signed : (authenticate d challenge credentials values negotiate).message =
      splice (unsigned d challenge credentials values) MIC_OFFSET
        (mic d challenge credentials values negotiate).toList := if_pos marked
  have undone : splice (authenticate d challenge credentials values negotiate).message MIC_OFFSET
      (.replicate DIGEST_LEN 0) = unsigned d challenge credentials values := by
    have undo := splice_splice_slice (digest.symm ▸ room)
    rw [digest, zeros] at undo
    rw [signed, undo]
  have read := slice_splice_self (digest.symm ▸ room)
  rw [digest] at read
  rw [undone, signed]
  exact read

/-- The AV pairs of a response, which stand behind its proof and 28 bytes. -/
def pairsIn (response : Bytes) : Bytes := slice response 44 (response.length - 48)

theorem pairsIn_response : pairsIn (ntResponse d challenge credentials values) =
    avPairs challenge := by
  have response : ntResponse d challenge credentials values =
      ((ntProof d challenge credentials values).toList ++ ([1, 1, 0, 0, 0, 0, 0, 0] ++
        ((challenge.targetInfo.timestamp.getD values.timestamp).toList ++
          (values.clientChallenge.toList ++ .replicate 4 0)))) ++
      (avPairs challenge ++ .replicate 4 0) := by
    rw [ntResponse, ntTemp, temp]
    simp only [List.append_assoc]
  have ahead : ((ntProof d challenge credentials values).toList ++ ([1, 1, 0, 0, 0, 0, 0, 0] ++
      ((challenge.targetInfo.timestamp.getD values.timestamp).toList ++
        (values.clientChallenge.toList ++ List.replicate 4 0)))).length = 44 := by
    simp only [List.length_append, Vector.length_toList, List.length_replicate]
    rfl
  have long := congrArg List.length response
  rw [List.length_append, ahead, List.length_append, List.length_replicate] at long
  have pairs : (ntResponse d challenge credentials values).length - 48 =
      (avPairs challenge).length := by omega
  rw [pairsIn, pairs, response, ← ahead, ← Nat.add_zero (List.length _), slice_append_right, slice,
    List.drop_zero, List.take_left]

/-! ## What is claimed of it -/

/-- The pairs a server sent, byte for byte up to their terminator. -/
def SentBack (server : AvPairs) (pairs : Bytes) : Prop :=
  (∃ rest, server.bytes = pairs ++ rest) ∧ ∃ n, pairs = AvPairs.spell server.iter n

/-- **A well-formed answer** to a challenge that arrived as `raw`. -/
structure WellFormed (raw message : Bytes) : Prop where
  fields : Consecutive message (headerLen challenge) (answerFields d challenge credentials values)
  response : ntResponse d challenge credentials values =
    (ntProof d challenge credentials values).toList ++
      temp (challenge.targetInfo.timestamp.getD values.timestamp).toList
        values.clientChallenge.toList (pairsIn (ntResponse d challenge credentials values))
  untouched : challenge.targetInfo.timestamp = none →
    let pairs := pairsIn (ntResponse d challenge credentials values)
    headerLen challenge = MIC_OFFSET ∧ SentBack challenge.targetInfo pairs ∧
      ¬ AvPairs.ClaimsMic ⟨pairs, pairs.length - 4⟩
  marked : challenge.targetInfo.timestamp.isSome →
    ∃ p, AvPairs.parse (pairsIn (ntResponse d challenge credentials values)) = .ok p ∧
      AvPairs.Amends challenge.targetInfo.iter p.iter ∧ AvPairs.ClaimsMic p
  mic : challenge.targetInfo.timestamp.isSome →
    slice message MIC_OFFSET DIGEST_LEN = (d.hmacMd5 values.exportedSessionKey.toList
      (negotiate ++ (raw ++ splice message MIC_OFFSET (.replicate DIGEST_LEN 0)))).toList

/-- The flags a server's list is read by can carry what an answer has to say: they are flags where
there is a MIC, and do not speak of one where there is none. -/
def ReadableFlags (server : AvPairs) : Prop :=
  (server.timestamp.isSome → ∀ value, server.get AV_FLAGS = some value → value.length = 4) ∧
  (server.timestamp = none →
    ∀ value, server.get AV_FLAGS = some value → ¬ AvPairs.SaysMic value)

variable {challenge} {raw : Bytes}

theorem targetInfo_of_parse (parsed : Challenge.parse raw = .ok challenge) :
    challenge.raw = raw ∧ ∃ bytes, AvPairs.parse bytes = .ok challenge.targetInfo := by
  rw [Challenge.parse] at parsed
  split at parsed
  · cases parsed
  split at parsed
  · cases parsed
  split at parsed
  · cases parsed
  split at parsed
  · cases parsed
  cases name : fieldBytes raw 12 "TargetName" with
  | error error =>
      rw [name] at parsed
      cases parsed
  | ok name' =>
      cases info : fieldBytes raw 40 "TargetInfo" with
      | error error =>
          rw [name, info] at parsed
          cases parsed
      | ok bytes =>
          cases pairs : AvPairs.parse bytes with
          | error error =>
              rw [name, info] at parsed
              simp only [bind, Except.bind] at parsed
              rw [pairs] at parsed
              cases parsed
          | ok p =>
              rw [name, info] at parsed
              simp only [bind, Except.bind] at parsed
              rw [pairs] at parsed
              cases parsed
              exact ⟨rfl, bytes, pairs⟩

theorem length_le_negTokenResp (message mic : Bytes) :
    message.length ≤ (Spnego.negTokenResp message mic).length := by
  have fields : Spnego.putTlv (Spnego.putTlv [] Spnego.TAG_CONTEXT_2
      (Spnego.putTlv [] Spnego.TAG_OCTET_STRING message)) Spnego.TAG_CONTEXT_3
        (Spnego.putTlv [] Spnego.TAG_OCTET_STRING mic) =
      Spnego.putTlv [] Spnego.TAG_CONTEXT_2 (Spnego.putTlv [] Spnego.TAG_OCTET_STRING message) ++
        Spnego.putTlv [] Spnego.TAG_CONTEXT_3 (Spnego.putTlv [] Spnego.TAG_OCTET_STRING mic) :=
    Spnego.putTlv_append _ _ _
  unfold Spnego.negTokenResp
  rw [fields]
  refine le_trans ?_ (Spnego.length_le_putTlv _ _)
  refine le_trans ?_ (Spnego.length_le_putTlv _ _)
  rw [List.length_append]
  refine le_trans ?_ (Nat.le_add_right _ _)
  exact (Spnego.length_le_putTlv _ _).trans (Spnego.length_le_putTlv _ _)

/-- The token around a message is longer than the message, and a setup that holds it is encoded
only where a security blob may be that long. -/
theorem length_lt_of_encoded {request : SessionSetupAndx} {message mic encoding : Bytes}
    (blob : request.securityBlob = Spnego.negTokenResp message mic)
    (encoded : request.encodeBody = .ok encoding) : message.length < 2 ^ 16 := by
  rw [SessionSetupAndx.encodeBody] at encoded
  split at encoded
  · cases encoded
  next fits =>
  have token := length_le_negTokenResp message mic
  rw [← blob] at token
  omega

/-- Whatever the server sent, an answer is well formed but for what it says of its MIC. -/
theorem wellFormed_iff (parsed : Challenge.parse raw = .ok challenge)
    (small : (authenticate d challenge credentials values negotiate).message.length < 2 ^ 16) :
    WellFormed d challenge credentials values negotiate raw
        (authenticate d challenge credentials values negotiate).message ↔
      ReadableFlags challenge.targetInfo := by
  obtain ⟨rfl, bytes, pairs⟩ := targetInfo_of_parse parsed
  obtain ⟨listable, sent, whole⟩ := AvPairs.spell_of_parse pairs
  have inside := pairsIn_response d challenge credentials values
  constructor
  · intro formed
    refine ⟨fun server value flags => ?_, fun none value flags claims => ?_⟩
    · obtain ⟨p, read, -, claims⟩ := formed.marked server
      obtain ⟨q, read', marked⟩ := AvPairs.parse_withMicFlag listable
      rw [inside, avPairs, if_pos server, read'] at read
      cases read
      exact (AvPairs.claimsMic_marked_iff marked).mp claims value flags
    · obtain ⟨-, -, silent⟩ := formed.untouched none
      rw [inside, avPairs, if_neg (by rw [none]; exact Bool.false_ne_true)] at silent
      exact silent ((AvPairs.claimsMic_asSent_iff pairs).mpr ⟨value, flags, claims⟩)
  · rintro ⟨four, silent⟩
    exact
      { fields := consecutive_fields d challenge credentials values negotiate small
        response := by
          rw [inside]
          rfl
        untouched := by
          intro none
          have bare : ¬ challenge.targetInfo.timestamp.isSome := by
            rw [none]
            exact Bool.false_ne_true
          refine ⟨if_neg bare, ?_, ?_⟩
          · rw [inside, avPairs, if_neg bare]
            exact ⟨⟨_, whole⟩, _, sent⟩
          · rw [inside, avPairs, if_neg bare, AvPairs.claimsMic_asSent_iff pairs]
            rintro ⟨value, flags, claims⟩
            exact silent none value flags claims
        marked := by
          intro server
          obtain ⟨q, read, marked⟩ := AvPairs.parse_withMicFlag listable
          refine ⟨q, ?_, ?_, (AvPairs.claimsMic_marked_iff marked).mpr (four server)⟩
          · rw [inside, avPairs, if_pos server, read]
          · rw [marked]
            exact AvPairs.amends_marked _
        mic := mic_read d challenge credentials values negotiate }

/-- **The exact condition of a well-formed answer.** -/
theorem authenticate_wellFormed_iff (parsed : Challenge.parse raw = .ok challenge)
    {request : SessionSetupAndx} {encoding : Bytes}
    (blob : request.securityBlob =
      Spnego.negTokenResp (authenticate d challenge credentials values negotiate).message
        ((authenticate d challenge credentials values negotiate).mechListMic Spnego.mechList))
    (encoded : request.encodeBody = .ok encoding) :
    WellFormed d challenge credentials values negotiate raw
        (authenticate d challenge credentials values negotiate).message ↔
      ReadableFlags challenge.targetInfo :=
  wellFormed_iff d credentials values negotiate parsed (length_lt_of_encoded blob encoded)

end

/-! ## Three challenges -/

/-- Digests that look at nothing. -/
def constantDigests : Digests where
  hmacMd5 _ _ := .replicate _ 7
  md4 _ := .replicate _ 0
  md5 _ := .replicate _ 0
  rc4 _ _ buffer := buffer
  toUppercase text := text

def stampPair : AvPair := (AV_TIMESTAMP, .replicate 8 5)
def shortFlags : AvPair := (AV_FLAGS, [0, 0])
def micFlags : AvPair := (AV_FLAGS, [2, 0, 0, 0])
def fixedValues : ClientValues := ⟨.replicate 8 1, .replicate 16 2, .replicate 8 3⟩
def fixedCredentials : Credentials := ⟨['D'], ['U'], ['p']⟩

/-- A challenge with these AV pairs. -/
def challengeOver (pairs : List AvPair) : Bytes :=
  let info := AvPairs.spell pairs 0
  SIGNATURE ++ u32le MESSAGE_CHALLENGE ++ (u16le 0 ++ u16le 0 ++ u32le 48) ++
    u32le NEGOTIATE_EXTENDED_SESSIONSECURITY ++ .replicate 8 1 ++ .replicate 8 0 ++
    (u16le (UInt16.ofNat info.length) ++ u16le (UInt16.ofNat info.length) ++ u32le 48) ++ info

def parsedOver (pairs : List AvPair) : Challenge where
  flags := NEGOTIATE_EXTENDED_SESSIONSECURITY
  serverChallenge := .replicate 8 1
  targetInfo := ⟨AvPairs.spell pairs 0, (pairs.flatMap AvPairs.put).length⟩
  raw := challengeOver pairs

def answerOver (pairs : List AvPair) : Authenticate :=
  authenticate constantDigests (parsedOver pairs) fixedCredentials fixedValues negotiateMessage

def setupOver (pairs : List AvPair) : SessionSetupAndx where
  maxBufferSize := 16644
  maxMpxCount := 50
  sessionKey := 0
  capabilities := 0
  securityBlob := Spnego.negTokenResp (answerOver pairs).message
    ((answerOver pairs).mechListMic Spnego.mechList)
  nativeOs := []
  nativeLanMan := []

/-- The answer to a challenge with these AV pairs is well formed. -/
def AnsweredWell (pairs : List AvPair) : Prop :=
  WellFormed constantDigests (parsedOver pairs) fixedCredentials fixedValues negotiateMessage
    (challengeOver pairs) (answerOver pairs).message

theorem securityBlob_setupOver (pairs : List AvPair) : (setupOver pairs).securityBlob =
    Spnego.negTokenResp (answerOver pairs).message
      ((answerOver pairs).mechListMic Spnego.mechList) := by
  rw [setupOver]

theorem encoded_of_isOk {r : SessionSetupAndx} (ok : r.encodeBody.isOk = true) :
    ∃ encoding, r.encodeBody = .ok encoding := by
  cases encoded : r.encodeBody with
  | error error =>
      rw [encoded] at ok
      cases ok
  | ok encoding => exact ⟨encoding, rfl⟩

/-- A server's timestamp is answered with a MIC that the AV pairs tell of. -/
theorem authenticate_wellFormed_stamped : AnsweredWell [stampPair] := by
  have parsed : Challenge.parse (challengeOver [stampPair]) = .ok (parsedOver [stampPair]) := by
    decide +kernel
  obtain ⟨encoding, encoded⟩ := @encoded_of_isOk (setupOver [stampPair]) (by decide +kernel)
  refine (authenticate_wellFormed_iff constantDigests fixedCredentials fixedValues
    negotiateMessage parsed (securityBlob_setupOver [stampPair]) encoded).mpr ?_
  have silent : (parsedOver [stampPair]).targetInfo.get AV_FLAGS = none := by decide
  refine ⟨fun _ value flags => ?_, fun _ value flags => ?_⟩
  · cases silent.symm.trans flags
  · cases silent.symm.trans flags

theorem readableFlags_of_answeredWell {pairs : List AvPair}
    (parsed : Challenge.parse (challengeOver pairs) = .ok (parsedOver pairs))
    (small : (answerOver pairs).message.length < 2 ^ 16) (formed : AnsweredWell pairs) :
    ReadableFlags (parsedOver pairs).targetInfo :=
  (wellFormed_iff constantDigests fixedCredentials fixedValues negotiateMessage parsed small).mp
    formed

/-- Flags of two bytes hide the pair behind them that tells of the MIC; and flags that a server
without a timestamp sent tell of a MIC that is not there. -/
theorem answers_not_wellFormed :
    (Challenge.parse (challengeOver [stampPair, shortFlags]) =
        .ok (parsedOver [stampPair, shortFlags]) ∧
      (∃ encoding, (setupOver [stampPair, shortFlags]).encodeBody = .ok encoding) ∧
      ¬ AnsweredWell [stampPair, shortFlags]) ∧
    Challenge.parse (challengeOver [micFlags]) = .ok (parsedOver [micFlags]) ∧
      (∃ encoding, (setupOver [micFlags]).encodeBody = .ok encoding) ∧
      ¬ AnsweredWell [micFlags] := by
  refine ⟨⟨by decide +kernel, encoded_of_isOk (by decide +kernel), fun formed => ?_⟩,
    by decide +kernel, encoded_of_isOk (by decide +kernel), fun formed => ?_⟩
  · have readable := readableFlags_of_answeredWell (by decide +kernel) (by decide +kernel) formed
    exact absurd (readable.1 (by decide) [0, 0] (by decide)) (by decide)
  · have readable := readableFlags_of_answeredWell (by decide +kernel) (by decide +kernel) formed
    exact absurd (by decide) (readable.2 (by decide) [2, 0, 0, 0] (by decide))

end Ntlm

end Smb1Client
