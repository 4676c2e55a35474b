import Smb1Client.NamesOnWire
import Smb1Client.Resource.Listing
import Smb1Client.Wire.TransactionRead

/-!
Which path the server reads of a request that opens or lists one.

An open declares the length of its name in 16 bits, and a search the length of the parameters
that end in its pattern. A path that is longer than either can say goes out under a length that
has wrapped, and is another path; unless the request is too long to go out at all.
-/

namespace Smb1Client

/-! ## What is read -/

/-- The name of an open, as the bytes say it. -/
def createName (m : Message) : Except WireError Text :=
  (NtCreateAndxRequest.decode m).map (·.name)

/-- The pattern of a first page. -/
def findFirstPattern (m : Message) : Except WireError Text := do
  let request ← TransactionRequest.decode m
  let params ← FindFirst2Params.decode request.parameters
  return params.pattern

def findNextPattern (m : Message) : Except WireError Text := do
  let request ← TransactionRequest.decode m
  let params ← FindNext2Params.decode request.parameters
  return params.pattern

namespace TreeRequest

/-- Under whatever ids the request goes out, the server reads the text of it. -/
def Reads (n : Negotiated) (r : TreeRequest) (command : UInt8)
    (read : Message → Except WireError Text) (text : Text) : Prop :=
  ∀ (mid tid uid : UInt16) (encoded : Bytes), r.encodeBody n = .ok encoded →
    (frame (message { SmbHeader.request command with mid, tid, uid } encoded)).isOk = true →
      ∃ m, Message.parse (message { SmbHeader.request command with mid, tid, uid } encoded) =
        .ok m ∧
        read m = .ok text

/-- The request names the path to the server: opens it, or searches on its pattern. -/
def Names (n : Negotiated) (path : Text) (r : TreeRequest) : Prop :=
  match r with
  | .create _ => r.Reads n Command.NT_CREATE_ANDX createName path
  | .findFirst _ => r.Reads n Command.TRANSACTION2 findFirstPattern (searchPattern path)
  | .findNext _ => r.Reads n Command.TRANSACTION2 findNextPattern (searchPattern path)
  | _ => False

end TreeRequest

/-! ## The lengths that can be said -/

/-- An open of the path says its length, or is longer than a frame. -/
def Openable (path : Text) : Prop :=
  2 * (Utf16.encode path).length + 3 < 2 ^ 16 ∨
    Netbios.MAX_MESSAGE_LEN < HEADER_LEN + 1 + 48 + 2 + (2 * (Utf16.encode path).length + 3)

/-- The bytes of a search's message. -/
def searchLength (path : Text) : ℕ := 80 + 2 * (Utf16.encode (searchPattern path)).length

/-- A search of the path says the length of its parameters, or is longer than the server takes a
message or than a frame. -/
def Listable (n : Negotiated) (path : Text) : Prop :=
  14 + 2 * (Utf16.encode (searchPattern path)).length < 2 ^ 16 ∨
    n.maxBufferSize.toNat < searchLength path ∨ Netbios.MAX_MESSAGE_LEN < searchLength path

instance (path : Text) : Decidable (Openable path) := inferInstanceAs (Decidable (_ ∨ _))

instance (n : Negotiated) (path : Text) : Decidable (Listable n path) :=
  inferInstanceAs (Decidable (_ ∨ _ ∨ _))

namespace TreeRequest

variable {n : Negotiated} {path : Text}

theorem names_create {request : NtCreateAndxRequest} (openable : Openable request.name) :
    (create request).Names n request.name := by
  intro mid tid uid encoded same framed
  have plain : request.encodeBody = .ok encoded := by
    cases made : request.encodeBody with
    | error error =>
        rw [encodeBody, made] at same
        cases same
    | ok body =>
        rw [encodeBody, made] at same
        cases same
        rfl
  have survives : (NamedRequest.create request).Survives mid tid uid := by
    rw [request.encodes.survives_iff_fits, request.length_area, CreateRequestWords.length_write]
    exact openable
  unfold NamedRequest.Survives at survives
  rw [NamedRequest.encodeBody, plain] at survives
  obtain ⟨m, parsed, -, -, decoded⟩ := survives framed
  refine ⟨m, parsed, ?_⟩
  rw [NamedRequest.decode] at decoded
  rw [createName]
  cases read : NtCreateAndxRequest.decode m with
  | error error =>
      rw [read] at decoded
      cases decoded
  | ok request' =>
      rw [read] at decoded
      cases decoded
      rfl

/-- What goes out of a request that names a path is nothing but what it was made with. -/
theorem eq_of_names_create {request : NtCreateAndxRequest} (openable : Openable request.name)
    (short : 2 * (Utf16.encode request.name).length + 3 < 2 ^ 16)
    (names : (create request).Names n path) : path = request.name := by
  have framed : (frame (message { SmbHeader.request Command.NT_CREATE_ANDX with
      mid := 0, tid := 0, uid := 0 } (body request.words.write
        (0 :: utf16z request.name)))).isOk = true := by
    rw [frame_isOk, message, List.length_append, SmbHeader.length_write, body, List.length_cons,
      List.length_append, List.length_append, LittleEndian.length_u16le, request.length_area,
      CreateRequestWords.length_write, HEADER_LEN, Netbios.MAX_MESSAGE_LEN]
    omega
  obtain ⟨m, parsed, read⟩ := names 0 0 0 _ rfl framed
  obtain ⟨m', parsed', read'⟩ := names_create (n := n) openable 0 0 0 _ rfl framed
  cases parsed.symm.trans parsed'
  exact Except.ok.inj (read.symm.trans read')

/-- Parameters of an even length leave nothing to pad behind them. -/
theorem dataOffset_trans2 {subcommand : UInt16} {parameters : Bytes} (some : parameters ≠ [])
    (even : parameters.length % 2 = 0) :
    (TransactionRequest.trans2 subcommand parameters []).dataOffset = 66 + parameters.length := by
  let request : TransactionRequest := .trans2 subcommand parameters []
  have some' : request.parameters ≠ [] := some
  have start : request.areaStart = 65 := rfl
  have unnamed : request.nameBytes = [] := rfl
  have pad : request.beforeParameters = [0] := by
    rw [TransactionRequest.beforeParameters, start, unnamed]
    rfl
  have unpadded : (65 + 1 + request.parameters.length) % 2 = 0 := by
    change (65 + 1 + parameters.length) % 2 = 0
    omega
  change request.dataOffset = _
  rw [TransactionRequest.dataOffset, TransactionRequest.beforeData, if_neg some', start, pad,
    List.length_singleton, unpadded, List.replicate_zero, List.append_nil, List.length_append,
    List.length_singleton, ← Nat.add_assoc]
  rfl

/-- A search is put only if its message fits the buffer. -/
theorem le_of_transactionBody {subcommand : UInt16} {parameters encoded : Bytes} {what : String}
    (some : parameters ≠ []) (even : parameters.length % 2 = 0)
    (made : transactionBody n (.trans2 subcommand parameters []) what = .ok encoded) :
    66 + parameters.length ≤ n.maxBufferSize.toNat := by
  have built := TransactionRequest.Built.trans2 subcommand parameters []
  cases checked : TransactionRequest.checkLimits (.trans2 subcommand parameters [])
      n.maxBufferSize with
  | error refusal =>
      rw [transactionBody, checked] at made
      cases made
  | ok passed =>
      have small := built.length_le checked
      rw [dataOffset_trans2 some even] at small
      omega

/-- A TRANS2 request of parameters alone is read with them, where their length can be said. -/
theorem decode_transactionBody {subcommand : UInt16} {parameters encoded : Bytes} {what : String}
    {h : SmbHeader} (command : h.command = Command.TRANSACTION2) (some : parameters ≠ [])
    (even : parameters.length % 2 = 0)
    (fits : parameters.length < 2 ^ 16 ∨ n.maxBufferSize.toNat < 66 + parameters.length ∨
      Netbios.MAX_MESSAGE_LEN < 66 + parameters.length)
    (made : transactionBody n (.trans2 subcommand parameters []) what = .ok encoded)
    (framed : (frame (message h encoded)).isOk = true) :
    ∃ m, Message.parse (message h encoded) = .ok m ∧
      TransactionRequest.decode m = .ok (.trans2 subcommand parameters []) := by
  let request : TransactionRequest := .trans2 subcommand parameters []
  have built : request.Built := .trans2 subcommand parameters []
  have small := le_of_transactionBody some even made
  have same : encoded = body request.wordBlock (request.beforeData ++ request.data) := by
    have bodied := built.encodeBody
    rw [transactionBody] at made
    cases checked : request.checkLimits n.maxBufferSize with
    | error refusal =>
        rw [checked] at made
        cases made
    | ok passed =>
        rw [checked, bodied] at made
        cases made
        rfl
  rw [same, frame_isOk, TransactionRequest.length_message, dataOffset_trans2 some even] at framed
  have short : parameters.length < 2 ^ 16 := by omega
  obtain ⟨m, parsed, holds⟩ := Message.parse_message_body h (request.beforeData ++ request.data)
    request.length_wordBlock (show 14 + 1 < 256 by decide)
  rw [same]
  exact ⟨m, parsed, TransactionRequest.decode_trans2_of_holds command short holds⟩

/-- A search of the path is read with its pattern. -/
theorem reads_transaction {r : TreeRequest} {subcommand : UInt16} {parameters : Bytes}
    {what : String} {read : Message → Except WireError Text} {pattern : Text}
    (encodes : r.encodeBody n =
      transactionBody n (.trans2 subcommand parameters []) what)
    (length : parameters.length = 14 + 2 * (Utf16.encode (searchPattern path)).length)
    (listable : Listable n path)
    (decodes : ∀ m, TransactionRequest.decode m = .ok (.trans2 subcommand parameters []) →
      read m = .ok pattern) : r.Reads n Command.TRANSACTION2 read pattern := by
  intro mid tid uid encoded same framed
  rw [encodes] at same
  have fits : parameters.length < 2 ^ 16 ∨ n.maxBufferSize.toNat < 66 + parameters.length ∨
      Netbios.MAX_MESSAGE_LEN < 66 + parameters.length := by
    unfold Listable searchLength at listable
    omega
  obtain ⟨m, parsed, decoded⟩ :=
    decode_transactionBody rfl (List.ne_nil_of_length_pos (by omega)) (by omega) fits same framed
  exact ⟨m, parsed, decodes m decoded⟩

theorem names_findFirst {params : FindFirst2Params} (listable : Listable n path)
    (pattern : params.pattern = searchPattern path) : (findFirst params).Names n path := by
  obtain ⟨parameters, encoded⟩ : ∃ parameters, params.encode = .ok parameters := ⟨_, rfl⟩
  have encodes : (findFirst params).encodeBody n = transactionBody n
      (.trans2 SUBCOMMAND_FIND_FIRST2 parameters []) "TRANS2_FIND_FIRST2" := by
    rw [encodeBody, encoded]
    simp only [Except.mapError, bind, Except.bind]
  apply reads_transaction encodes ?_ listable
  · intro m decoded
    have back := FindFirst2Params.decode_encode encoded
    rw [findFirstPattern, decoded]
    simp only [bind, Except.bind, pure, Except.pure, TransactionRequest.trans2, back, pattern]
  · cases encoded
    simp [pattern, length_utf16z]
    omega

theorem names_findNext {params : FindNext2Params} (listable : Listable n path)
    (pattern : params.pattern = searchPattern path) : (findNext params).Names n path := by
  obtain ⟨parameters, encoded⟩ : ∃ parameters, params.encode = .ok parameters := ⟨_, rfl⟩
  have encodes : (findNext params).encodeBody n = transactionBody n
      (.trans2 SUBCOMMAND_FIND_NEXT2 parameters []) "TRANS2_FIND_NEXT2" := by
    rw [encodeBody, encoded]
    simp only [Except.mapError, bind, Except.bind]
  apply reads_transaction encodes ?_ listable
  · intro m decoded
    have back := FindNext2Params.decode_encode encoded
    rw [findNextPattern, decoded]
    simp only [bind, Except.bind, pure, Except.pure, TransactionRequest.trans2, back, pattern]
  · cases encoded
    simp [pattern, length_utf16z]
    omega

/-- A first page whose message is longer than the buffer is not put. -/
theorem encodeBody_findFirst_of_large {params : FindFirst2Params}
    (large : n.maxBufferSize.toNat < searchLength path)
    (pattern : params.pattern = searchPattern path) :
    ∃ error, (findFirst params).encodeBody n = .error error := by
  cases made : (findFirst params).encodeBody n with
  | error error => exact ⟨error, rfl⟩
  | ok encoded =>
      obtain ⟨parameters, encoding⟩ : ∃ parameters, params.encode = .ok parameters := ⟨_, rfl⟩
      have length : parameters.length = 14 + 2 * (Utf16.encode (searchPattern path)).length := by
        cases encoding
        simp [pattern, length_utf16z]
        omega
      rw [encodeBody, encoding] at made
      simp only [Except.mapError, bind, Except.bind] at made
      have small := le_of_transactionBody (List.ne_nil_of_length_pos (by omega)) (by omega) made
      rw [searchLength] at large
      omega

end TreeRequest

/-- A directory that is listed can be opened, too. -/
theorem Listable.openable {n : Negotiated} {path : Text} (listable : Listable n path)
    (listed : searchLength path ≤ n.maxBufferSize.toNat) : Openable path := by
  have longer : (Utf16.encode path).length ≤ (Utf16.encode (searchPattern path)).length ∧
      (Utf16.encode (searchPattern path)).length ≤ (Utf16.encode path).length + 2 := by
    have slash : (Utf16.encode ['\\', '*']).length = 2 := rfl
    have star : (Utf16.encode ['*']).length = 1 := rfl
    have behind : ∀ more : Text, (Utf16.encode (path ++ more)).length =
        (Utf16.encode path).length + (Utf16.encode more).length := by
      intro more
      rw [Utf16.encode, List.flatMap_append, List.length_append]
      rfl
    rw [searchPattern]
    split
    · next empty =>
        rw [empty]
        exact ⟨Nat.zero_le 2, le_rfl⟩
    split
    · rw [behind]
      omega
    · rw [behind]
      omega
  unfold Listable searchLength at *
  unfold Openable
  rw [HEADER_LEN]
  omega

end Smb1Client
