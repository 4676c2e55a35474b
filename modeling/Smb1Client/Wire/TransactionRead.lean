import Smb1Client.Wire.Transaction

/-!
Which transaction requests the server reads as they were built.

The blocks are placed one behind the other, so the data block ends last. Its offset and its
length are the only two fields the check against `MaxBufferSize` leaves free to pass 2^16: a
server that negotiates less than 2^16 has neither of them cut, and one that negotiates more may.
-/

namespace Smb1Client

open LittleEndian

namespace TransactionRequest

/-- A request as this crate builds them. -/
inductive Built : TransactionRequest → Prop
  | trans2 (subcommand : UInt16) (parameters data : Bytes) :
      Built (.trans2 subcommand parameters data)
  | rap (parameters data : Bytes) : Built (.rap parameters data)
  | pipeTransact (fid : UInt16) (data : Bytes) : Built (.pipeTransact fid data)

variable {r : TransactionRequest} {h : SmbHeader} {m : Message}

/-! ## Where the blocks land -/

/-- Where the byte area begins. -/
def areaStart (r : TransactionRequest) : ℕ :=
  HEADER_LEN + 1 + (REQUEST_FIXED_WORDS + r.setup.length) * 2 + 2

/-- The name as it is built, behind the pad the odd start of the byte area takes. -/
def nameBytes (r : TransactionRequest) : Bytes :=
  match r.name with
  | none => []
  | some name => 0 :: utf16z name.text

def beforeParameters (r : TransactionRequest) : Bytes :=
  r.nameBytes ++ .replicate ((r.areaStart + r.nameBytes.length) % 2) 0

/-- Where the parameter block begins, or 0 where there is none. -/
def parameterOffset (r : TransactionRequest) : ℕ :=
  if r.parameters = [] then 0 else r.areaStart + r.beforeParameters.length

def beforeData (r : TransactionRequest) : Bytes :=
  if r.parameters = [] then r.nameBytes
  else
    r.beforeParameters ++ r.parameters ++
      .replicate ((r.areaStart + r.beforeParameters.length + r.parameters.length) % 2) 0

/-- Where the data block begins. -/
def dataOffset (r : TransactionRequest) : ℕ := r.areaStart + r.beforeData.length

/-- The fixed words, every count and offset cut to its field. -/
def words (r : TransactionRequest) : RequestWords where
  totalParameterCount := UInt16.ofNat r.parameters.length
  totalDataCount := UInt16.ofNat r.data.length
  maxParameterCount := r.maxParameterCount
  maxDataCount := r.maxDataCount
  maxSetupCount := r.maxSetupCount
  reserved := 0
  flags := r.flags
  timeout := r.timeout
  reserved2 := 0
  parameterCount := UInt16.ofNat r.parameters.length
  parameterOffset := UInt16.ofNat r.parameterOffset
  dataCount := UInt16.ofNat r.data.length
  dataOffset := UInt16.ofNat r.dataOffset
  setupCount := UInt8.ofNat r.setup.length
  reserved3 := 0

def wordBlock (r : TransactionRequest) : Bytes := r.words.write ++ Utf16.toBytes r.setup

theorem alignTo_two (a : ByteArea) : a.alignTo 2 = a.put (.replicate (a.offset % 2) 0) := by
  rcases Nat.mod_two_eq_zero_or_one a.offset with even | odd
  · rw [ByteArea.alignTo_of_even even, even]
    simp [ByteArea.put]
  · rw [ByteArea.alignTo_of_odd odd, odd]
    rfl

/-- The byte area of a request begins on an odd offset, whatever its setup. -/
theorem areaStart_odd (r : TransactionRequest) : r.areaStart % 2 = 1 := by
  rw [areaStart, HEADER_LEN]
  omega

/-- A pad byte puts a UTF-16 name on a word boundary. -/
theorem named_unicode {text : Text} (name : r.name = some ⟨text, .unicode⟩) :
    r.named = .ok ⟨r.areaStart, r.nameBytes⟩ := by
  have start : (ByteArea.forWordCount (REQUEST_FIXED_WORDS + r.setup.length)).offset =
      r.areaStart := rfl
  have odd := r.areaStart_odd
  have aligned : requireWordAligned "Name" (r.areaStart + 1) = .ok () :=
    if_pos (show _ % 2 = 0 by omega)
  rw [named, name, nameBytes, name]
  dsimp only
  rw [NAME_ALIGNMENT, ByteArea.alignTo_of_odd (start ▸ odd), ByteArea.offset_put, start,
    List.length_singleton, aligned]
  rfl

theorem Built.named (built : r.Built) : r.named = .ok ⟨r.areaStart, r.nameBytes⟩ := by
  cases built with
  | trans2 subcommand parameters data => rfl
  | rap parameters data => exact named_unicode rfl
  | pipeTransact fid data => exact named_unicode rfl

/-- **The body of a request**: the words, and the blocks one behind the other. -/
theorem Built.encodeBody (built : r.Built) :
    r.encodeBody = .ok (body r.wordBlock (r.beforeData ++ r.data)) := by
  have placed : ∀ (offset : ℕ) (area : ByteArea), offset = r.parameterOffset →
      area = ⟨r.areaStart, r.beforeData⟩ → body ({ r.words with
        parameterOffset := UInt16.ofNat offset
        dataOffset := UInt16.ofNat area.offset }.write ++ r.setup.flatMap u16le)
          (area.put r.data).finish = body r.wordBlock (r.beforeData ++ r.data) := by
    rintro _ _ rfl rfl
    rfl
  rw [TransactionRequest.encodeBody, built.named]
  simp only [bind, Except.bind, pure, Except.pure]
  refine congrArg Except.ok (placed _ _ ?_ ?_)
  · by_cases empty : r.parameters = []
    · rw [if_pos empty, parameterOffset, if_pos empty]
    · rw [if_neg empty, parameterOffset, if_neg empty]
      simp [ByteArea.putAligned, BLOCK_ALIGNMENT, alignTo_two, ByteArea.offset, beforeParameters]
  · by_cases empty : r.parameters = []
    · rw [if_pos empty, beforeData, if_pos empty]
    · rw [if_neg empty, beforeData, if_neg empty]
      simp [ByteArea.putAligned, BLOCK_ALIGNMENT, alignTo_two, ByteArea.offset, ByteArea.put,
        beforeParameters, Nat.add_assoc]

theorem length_wordBlock (r : TransactionRequest) :
    r.wordBlock.length = (REQUEST_FIXED_WORDS + r.setup.length) * 2 := by
  rw [wordBlock, List.length_append, RequestWords.length_write, Utf16.length_toBytes]
  ring

theorem Built.setup_le (built : r.Built) : r.setup.length ≤ 2 := by
  cases built with
  | trans2 subcommand parameters data => exact Nat.le_succ 1
  | rap parameters data => exact Nat.zero_le 2
  | pipeTransact fid data => exact le_rfl

/-! ## Reading it back -/

/-- The message is what comes before the byte area, and the byte area. -/
theorem length_of_holds {area : Bytes} (holds : m.Holds h r.wordBlock area) :
    m.bytes.drop r.areaStart = area ∧ m.bytes.length = r.areaStart + area.length := by
  have start : m.byteAreaOffset = r.areaStart := by
    rw [holds.byteAreaOffset, length_wordBlock, areaStart]
  have rest : m.bytes.drop r.areaStart = area := by
    rw [← start]
    exact holds.byteAreaToEnd
  have inside : r.areaStart ≤ m.bytes.length := by
    rw [← start]
    exact m.fits
  have length := congrArg List.length rest
  rw [List.length_drop] at length
  exact ⟨rest, by omega⟩

/-- A block that lies in the byte area, behind `front` bytes of it. -/
theorem block_of_area {field : String} {block front rest : Bytes} {offset length : ℕ}
    (holds : m.Holds h r.wordBlock (front ++ (block ++ rest)))
    (begins : offset = r.areaStart + front.length) (covers : length = block.length) :
    m.block field offset length = .ok block := by
  subst begins covers
  obtain ⟨area, total⟩ := length_of_holds holds
  rw [List.length_append, List.length_append] at total
  rw [Message.block, blockAt, if_pos (by omega), ← List.drop_drop, area, List.drop_left,
    List.take_left]

theorem wordCount_of_holds {area : Bytes} (built : r.Built) (holds : m.Holds h r.wordBlock area) :
    m.wordCount.toNat = REQUEST_FIXED_WORDS + r.setup.length := by
  have few := built.setup_le
  rw [holds.wordCount, length_wordBlock, Nat.mul_div_cancel _ two_pos]
  refine UInt8.toNat_ofNat_of_lt' ?_
  rw [REQUEST_FIXED_WORDS, UInt8.size]
  omega

theorem setupWords_of_holds {area : Bytes} (built : r.Built)
    (holds : m.Holds h r.wordBlock area) :
    setupWords m (UInt8.ofNat REQUEST_FIXED_WORDS) r.words.setupCount = .ok r.setup := by
  have few := built.setup_le
  have count : r.words.setupCount.toNat = r.setup.length :=
    UInt8.toNat_ofNat_of_lt' (by rw [UInt8.size]; omega)
  have fixed : (UInt8.ofNat REQUEST_FIXED_WORDS).toNat = REQUEST_FIXED_WORDS := rfl
  have whole : REQUEST_FIXED_WORDS * 2 + r.setup.length * 2 = r.wordBlock.length := by
    rw [length_wordBlock]
    ring
  rw [setupWords, holds.words, fixed, count, whole, if_pos le_rfl, List.take_length, wordBlock,
    ← RequestWords.length_write r.words, List.drop_left, Utf16.ofBytes_toBytes]

/-! ## The name -/

/-- A UTF-16 name in front of the first block is read back with its spelling. -/
theorem decodeName_utf16z {start : ℕ} {text : Text} (odd : start % 2 = 1)
    (noNull : '\x00' ∉ text) : decodeName start (0 :: utf16z text) = .ok ⟨text, .unicode⟩ := by
  have pad : ¬ start % NAME_ALIGNMENT = 0 := by
    rw [NAME_ALIGNMENT]
    omega
  have units : (0 :: utf16z text).drop 1 = utf16z text := rfl
  have front : (utf16z text).take ((utf16z text).length - 2) = utf16Bytes text := by
    rw [utf16z, List.length_append]
    exact List.take_left' rfl
  have back : (utf16z text).drop ((utf16z text).length - 2) = [0, 0] := by
    rw [utf16z, List.length_append]
    exact List.drop_left' rfl
  have nonzero : ∀ unit ∈ Utf16.ofBytes (utf16Bytes text), unit ≠ 0 := by
    rw [utf16Bytes, Utf16.ofBytes_toBytes]
    rintro unit member rfl
    exact noNull (Utf16.zero_mem_encode.mp member)
  have length := length_utf16z text
  rw [decodeName, if_neg pad, units, front, back,
    if_pos ⟨by simp, by omega, by omega, rfl, nonzero⟩, fromUtf16_utf16Bytes]
  rfl

theorem le_dataOffset (r : TransactionRequest) :
    r.areaStart + r.nameBytes.length ≤ r.dataOffset ∧
      (r.parameters ≠ [] → r.parameterOffset + r.parameters.length ≤ r.dataOffset) := by
  by_cases empty : r.parameters = []
  · rw [dataOffset, beforeData, if_pos empty]
    exact ⟨le_rfl, fun some => absurd empty some⟩
  · rw [dataOffset, beforeData, if_neg empty, parameterOffset, if_neg empty]
    simp only [List.length_append, beforeParameters]
    omega

/-- The byte area opens with the name. -/
theorem nameBytes_prefix (r : TransactionRequest) : r.nameBytes <+: r.beforeData := by
  rw [beforeData]
  split
  · exact List.prefix_refl _
  · exact ((List.prefix_append _ _).trans (List.prefix_append _ _)).trans (List.prefix_append _ _)

theorem Built.command_of_name (built : r.Built) {name : TransactionName}
    (named : r.name = some name) : r.command = Command.TRANSACTION := by
  cases built with
  | trans2 subcommand parameters data => cases named
  | rap parameters data => rfl
  | pipeTransact fid data => rfl

/-- The name fills the byte area up to the block that lands first. -/
theorem firstBlock_words (fits : r.dataOffset < 2 ^ 16)
    (even : (r.areaStart + r.nameBytes.length) % 2 = 0) :
    r.words.firstBlock = r.areaStart + r.nameBytes.length := by
  have start : 0 < r.areaStart := by
    rw [areaStart]
    omega
  have data : r.words.dataOffset.toNat = r.dataOffset := UInt16.toNat_ofNat_of_lt' fits
  have dataThere : r.words.dataOffset ≠ 0 := by
    intro zero
    have before := r.le_dataOffset.1
    rw [zero, UInt16.toNat_zero] at data
    omega
  have unpadded : r.beforeParameters = r.nameBytes := by
    rw [beforeParameters, even, List.replicate_zero, List.append_nil]
  by_cases empty : r.parameters = []
  · have none : r.words.parameterOffset = 0 := by
      rw [words, parameterOffset, if_pos empty]
      rfl
    have placed : r.dataOffset = r.areaStart + r.nameBytes.length := by
      rw [dataOffset, beforeData, if_pos empty]
    rw [RequestWords.firstBlock, none]
    simp only [List.filter_cons, List.filter_nil, dataThere, ne_eq, not_true_eq_false,
      not_false_eq_true, decide_true, decide_false, if_true, Bool.false_eq_true, if_false,
      List.min?_singleton, Option.map_some, Option.getD_some]
    rw [data, placed]
  · have placed : r.parameterOffset = r.areaStart + r.nameBytes.length := by
      rw [parameterOffset, if_neg empty, unpadded]
    have before := r.le_dataOffset.2 empty
    have parameters : r.words.parameterOffset.toNat = r.parameterOffset :=
      UInt16.toNat_ofNat_of_lt' (by rw [UInt16.size]; omega)
    have there : r.words.parameterOffset ≠ 0 := by
      intro zero
      rw [zero, UInt16.toNat_zero] at parameters
      omega
    have first : min r.words.parameterOffset r.words.dataOffset = r.words.parameterOffset := by
      refine if_pos ?_
      rw [UInt16.le_iff_toNat_le, parameters, data]
      omega
    have least : [r.words.parameterOffset, r.words.dataOffset].min? =
        some r.words.parameterOffset := congrArg some first
    rw [RequestWords.firstBlock]
    simp only [List.filter_cons, List.filter_nil, dataThere, there, ne_eq, not_false_eq_true,
      decide_true, if_true]
    rw [least, Option.map_some, Option.getD_some, parameters, placed]

theorem nameOf_of_holds (built : r.Built) (command : h.command = r.command)
    (fits : r.dataOffset < 2 ^ 16) (holds : m.Holds h r.wordBlock (r.beforeData ++ r.data)) :
    nameOf m r.words = .ok r.name := by
  have start : m.byteAreaOffset = r.areaStart := by
    rw [holds.byteAreaOffset, length_wordBlock, areaStart]
  have unicode : ∀ {text : Text}, r.name = some ⟨text, .unicode⟩ → '\x00' ∉ text →
      nameOf m r.words = .ok r.name := by
    intro text name noNull
    have bytes : r.nameBytes = 0 :: utf16z text := by rw [nameBytes, name]
    have odd := r.areaStart_odd
    have length : r.nameBytes.length = 2 * (Utf16.encode text).length + 3 := by
      rw [bytes, List.length_cons, length_utf16z]
    have first := firstBlock_words fits (by omega)
    obtain ⟨rest, opens⟩ := r.nameBytes_prefix
    have area : m.byteAreaToEnd = r.nameBytes ++ (rest ++ r.data) := by
      rw [holds.byteAreaToEnd, ← opens, List.append_assoc]
    have isTransaction : m.header.command = Command.TRANSACTION := by
      rw [holds.header, command]
      exact built.command_of_name name
    rw [nameOf, first, start, if_pos ⟨isTransaction, by omega⟩, Nat.add_sub_cancel_left, area]
    dsimp only
    rw [if_pos (by rw [List.length_append]; omega), List.take_left, bytes,
      decodeName_utf16z odd noNull, name]
    rfl
  cases built with
  | trans2 subcommand parameters data =>
      have other : ¬ m.header.command = Command.TRANSACTION := by
        rw [holds.header, command]
        exact (by decide : ¬ Command.TRANSACTION2 = Command.TRANSACTION)
      rw [nameOf, if_neg fun both => other both.1]
      rfl
  | rap parameters data => exact unicode rfl (by decide)
  | pipeTransact fid data => exact unicode rfl (by decide)

/-! ## The whole request -/

/-- The parameters are read where neither their offset nor their length is cut. -/
theorem block_parameters (fits : r.parameterOffset < 2 ^ 16) (short : r.parameters.length < 2 ^ 16)
    (holds : m.Holds h r.wordBlock (r.beforeData ++ r.data)) :
    m.block "ParameterOffset" r.words.parameterOffset.toNat r.words.parameterCount.toNat =
      .ok r.parameters := by
  by_cases empty : r.parameters = []
  · have start : r.words.parameterOffset = 0 := by
      rw [words, parameterOffset, if_pos empty]
      rfl
    have count : r.words.parameterCount = 0 := by
      rw [words, empty]
      rfl
    rw [start, count, Message.block, blockAt, UInt16.toNat_zero, if_pos (Nat.zero_le _), empty]
    rfl
  · have opens : r.beforeData ++ r.data = r.beforeParameters ++ (r.parameters ++
        (.replicate ((r.areaStart + r.beforeParameters.length + r.parameters.length) % 2) 0 ++
          r.data)) := by
      rw [beforeData, if_neg empty]
      simp only [List.append_assoc]
    rw [opens] at holds
    refine block_of_area holds ?_ ?_
    · have placed : r.parameterOffset = r.areaStart + r.beforeParameters.length := by
        rw [parameterOffset, if_neg empty]
      rw [← placed]
      exact UInt16.toNat_ofNat_of_lt' fits
    · exact UInt16.toNat_ofNat_of_lt' short

theorem block_data (fits : r.dataOffset < 2 ^ 16) (short : r.data.length < 2 ^ 16)
    (holds : m.Holds h r.wordBlock (r.beforeData ++ r.data)) :
    m.block "DataOffset" r.words.dataOffset.toNat r.words.dataCount.toNat = .ok r.data := by
  rw [← List.append_nil r.data] at holds
  exact block_of_area holds (UInt16.toNat_ofNat_of_lt' fits) (UInt16.toNat_ofNat_of_lt' short)

/-- No data is read from anywhere in the message, be its offset cut or not. -/
theorem block_data_nil (none : r.data = [])
    (holds : m.Holds h r.wordBlock (r.beforeData ++ r.data)) :
    m.block "DataOffset" r.words.dataOffset.toNat r.words.dataCount.toNat = .ok r.data := by
  have count : r.words.dataCount = 0 := by
    rw [words, none]
    rfl
  have inside : r.words.dataOffset.toNat ≤ m.bytes.length := by
    rw [(length_of_holds holds).2, List.length_append]
    exact (Nat.mod_le r.dataOffset _).trans (by rw [dataOffset]; omega)
  rw [count, none]
  exact if_pos inside

/-- A request whose name and blocks are read is the one that is read. -/
theorem decode_of_parts (built : r.Built) (command : h.command = r.command)
    (holds : m.Holds h r.wordBlock (r.beforeData ++ r.data))
    (name : nameOf m r.words = .ok r.name)
    (parameters : m.block "ParameterOffset" r.words.parameterOffset.toNat
      r.words.parameterCount.toNat = .ok r.parameters)
    (data : m.block "DataOffset" r.words.dataOffset.toNat r.words.dataCount.toNat = .ok r.data) :
    decode m = .ok r := by
  have same : m.header.command = r.command := by rw [holds.header, command]
  have known : ¬ (m.header.command ≠ Command.TRANSACTION2 ∧
      m.header.command ≠ Command.TRANSACTION) := by
    rw [same]
    cases built with
    | trans2 subcommand parameters data => exact fun both => both.1 rfl
    | rap parameters data => exact fun both => both.2 rfl
    | pipeTransact fid data => exact fun both => both.2 rfl
  have enough : ¬ m.wordCount.toNat < REQUEST_FIXED_WORDS := by
    rw [wordCount_of_holds built holds]
    omega
  have words : readWords RequestWords.read m.words = .ok r.words := by
    rw [holds.words, wordBlock, RequestWords.readWords_write]
  rw [decode, if_neg known, if_neg enough, words]
  simp only [bind, Except.bind, pure, Except.pure]
  rw [setupWords_of_holds built holds, name, parameters, data, same]
  rfl

/-- Parameters that end in front of a data block whose offset is not cut are not cut either. -/
theorem parameters_lt (fits : r.dataOffset < 2 ^ 16) :
    r.parameterOffset < 2 ^ 16 ∧ r.parameters.length < 2 ^ 16 := by
  by_cases empty : r.parameters = []
  · rw [parameterOffset, if_pos empty, empty]
    exact ⟨Nat.two_pow_pos 16, Nat.two_pow_pos 16⟩
  · have before := r.le_dataOffset.2 empty
    omega

/-- Where neither the offset nor the length of the data block is cut, the request that was built
is the one that is read. -/
theorem decode_of_holds (built : r.Built) (command : h.command = r.command)
    (fits : r.dataOffset < 2 ^ 16) (short : r.data.length < 2 ^ 16)
    (holds : m.Holds h r.wordBlock (r.beforeData ++ r.data)) : decode m = .ok r :=
  decode_of_parts built command holds (nameOf_of_holds built command fits holds)
    (block_parameters (parameters_lt fits).1 (parameters_lt fits).2 holds)
    (block_data fits short holds)

/-- A TRANS2 request of parameters alone is read where their length is not cut. -/
theorem decode_trans2_of_holds {subcommand : UInt16} {parameters : Bytes}
    (command : h.command = Command.TRANSACTION2) (short : parameters.length < 2 ^ 16)
    (holds : m.Holds h (trans2 subcommand parameters []).wordBlock
      ((trans2 subcommand parameters []).beforeData ++ [])) :
    decode m = .ok (trans2 subcommand parameters []) := by
  refine decode_of_parts (.trans2 _ _ _) command holds ?_ (block_parameters ?_ short holds)
    (block_data_nil rfl holds)
  · have other : ¬ m.header.command = Command.TRANSACTION := by
      rw [holds.header, command]
      decide
    rw [nameOf, if_neg fun both => other both.1]
    rfl
  · rw [parameterOffset]
    split
    · exact Nat.two_pow_pos 16
    · have start : (trans2 subcommand parameters []).areaStart = 65 := rfl
      have unnamed : (trans2 subcommand parameters []).nameBytes.length = 0 := rfl
      rw [beforeParameters, List.length_append, List.length_replicate]
      omega

theorem length_message (r : TransactionRequest) (h : SmbHeader) :
    (message h (body r.wordBlock (r.beforeData ++ r.data))).length =
      r.dataOffset + r.data.length := by
  rw [message, List.length_append, SmbHeader.length_write, body, List.length_cons,
    List.length_append, List.length_append, length_u16le, List.length_append, length_wordBlock,
    dataOffset, areaStart]
  ring

/-- A request that passes the check fits the buffer as a message. -/
theorem Built.length_le {limit : UInt32} (built : r.Built)
    (checked : r.checkLimits limit = .ok ()) : r.dataOffset + r.data.length ≤ limit.toNat := by
  have length := length_message r (.request 0)
  rw [message, List.length_append, SmbHeader.length_write] at length
  rw [checkLimits, built.encodeBody] at checked
  simp only [bind, Except.bind] at checked
  split at checked
  · cases checked
  · split at checked
    · cases checked
    · omega

/-- A request that this crate builds and that fits the buffer passes the check. -/
theorem Built.checkLimits {limit : UInt32} (built : r.Built)
    (fits : r.dataOffset + r.data.length ≤ limit.toNat) : r.checkLimits limit = .ok () := by
  have length := length_message r (.request 0)
  rw [message, List.length_append, SmbHeader.length_write] at length
  have asked : r.maxParameterCount.toNat + r.maxDataCount.toNat ≤ MAX_RETURN_SUM := by
    have counts : r.maxParameterCount = 64 ∧ r.maxDataCount = 65472 := by
      cases built <;> exact ⟨rfl, rfl⟩
    have parameters : (64 : UInt16).toNat = 64 := rfl
    have data : (65472 : UInt16).toNat = 65472 := rfl
    rw [counts.1, counts.2, parameters, data, MAX_RETURN_SUM]
    omega
  rw [TransactionRequest.checkLimits, built.encodeBody]
  simp only [bind, Except.bind]
  rw [if_neg (by omega)]
  exact if_neg (by omega)

/-- A block takes a pad byte on either side at most. -/
theorem dataOffset_le (r : TransactionRequest) :
    r.dataOffset ≤ r.areaStart + r.nameBytes.length + r.parameters.length + 2 := by
  rw [dataOffset, beforeData]
  split
  · omega
  · simp only [List.length_append, List.length_replicate, beforeParameters]
    omega

/-- The fields of the words are the request's own counts and offsets, and neither block nor the
name lies over another. -/
structure Uncut (r : TransactionRequest) (w : RequestWords) : Prop where
  totals : w.totalParameterCount = w.parameterCount ∧ w.totalDataCount = w.dataCount
  setup : w.setupCount.toNat = r.setup.length
  parameterCount : w.parameterCount.toNat = r.parameters.length
  parameterOffset : w.parameterOffset.toNat = r.parameterOffset
  dataCount : w.dataCount.toNat = r.data.length
  dataOffset : w.dataOffset.toNat = r.dataOffset
  name : r.areaStart + r.nameBytes.length ≤ w.dataOffset.toNat
  apart : r.parameters ≠ [] → r.areaStart + r.nameBytes.length ≤ w.parameterOffset.toNat ∧
    w.parameterOffset.toNat + w.parameterCount.toNat ≤ w.dataOffset.toNat

/-- The request is encoded, made a message and framed, and the message is read as the same
request, with no field cut. -/
def ReadBack (r : TransactionRequest) (h : SmbHeader) : Prop :=
  ∃ encoded m, r.encodeBody = .ok encoded ∧ (frame (message h encoded)).isOk = true ∧
    Message.parse (message h encoded) = .ok m ∧ decode m = .ok r ∧
      ∃ w, readWords RequestWords.read m.words = .ok w ∧ r.Uncut w

theorem uncut_words (built : r.Built) (fits : r.dataOffset < 2 ^ 16)
    (short : r.data.length < 2 ^ 16) : r.Uncut r.words := by
  have few := built.setup_le
  have data : r.words.dataOffset.toNat = r.dataOffset := UInt16.toNat_ofNat_of_lt' fits
  have ahead := r.le_dataOffset
  have parameterCount : r.words.parameterCount.toNat = r.parameters.length :=
    UInt16.toNat_ofNat_of_lt' (parameters_lt fits).2
  have parameterOffset : r.words.parameterOffset.toNat = r.parameterOffset :=
    UInt16.toNat_ofNat_of_lt' (parameters_lt fits).1
  refine ⟨⟨rfl, rfl⟩, UInt8.toNat_ofNat_of_lt' (by rw [UInt8.size]; omega), parameterCount,
    parameterOffset, UInt16.toNat_ofNat_of_lt' short, data, data ▸ ahead.1, fun some => ?_⟩
  rw [parameterOffset, parameterCount, data]
  refine ⟨?_, ahead.2 some⟩
  rw [TransactionRequest.parameterOffset, if_neg some, beforeParameters, List.length_append]
  omega

theorem readBack_of_small (built : r.Built) (command : h.command = r.command)
    (fits : r.dataOffset < 2 ^ 16) (short : r.data.length < 2 ^ 16) : r.ReadBack h := by
  have few := built.setup_le
  have paired := length_wordBlock r
  obtain ⟨m, parsed, holds⟩ := Message.parse_message_body h (r.beforeData ++ r.data) paired
    (by rw [REQUEST_FIXED_WORDS]; omega)
  have framed : (frame (message h (body r.wordBlock (r.beforeData ++ r.data)))).isOk = true := by
    rw [frame_isOk, length_message, Netbios.MAX_MESSAGE_LEN]
    omega
  refine ⟨_, m, built.encodeBody, framed, parsed,
    decode_of_holds built command fits short holds, r.words, ?_, uncut_words built fits short⟩
  rw [holds.words, wordBlock, RequestWords.readWords_write]

theorem ReadBack.small (read : r.ReadBack h) :
    r.dataOffset < 2 ^ 16 ∧ r.data.length < 2 ^ 16 := by
  obtain ⟨-, -, -, -, -, -, w, -, uncut⟩ := read
  exact ⟨uncut.dataOffset ▸ w.dataOffset.toNat_lt, uncut.dataCount ▸ w.dataCount.toNat_lt⟩

end TransactionRequest

/-- **Requests that pass their check**, under any header of their command, are read by the server
as they were built if and only if the data block neither begins at 2^16 nor is 2^16 bytes long, or
past that; and where the server negotiates less than 2^16 they all are. -/
theorem transaction_readBack_iff {r : TransactionRequest} {limit : UInt32} (built : r.Built)
    (checked : r.checkLimits limit = .ok ()) (h : SmbHeader) :
    (r.ReadBack { h with command := r.command } ↔
        r.dataOffset < 2 ^ 16 ∧ r.data.length < 2 ^ 16) ∧
      (limit.toNat < 2 ^ 16 → r.ReadBack { h with command := r.command }) := by
  have length := built.length_le checked
  refine ⟨⟨fun read => read.small, fun ⟨fits, short⟩ => ?_⟩, fun below => ?_⟩
  · exact TransactionRequest.readBack_of_small built rfl fits short
  · exact TransactionRequest.readBack_of_small built rfl (by omega) (by omega)

theorem transaction_readBack_iff_round :
    (TransactionRequest.pipeTransact 1 [5, 0]).ReadBack
      { SmbHeader.request 0 with command := Command.TRANSACTION } :=
  (@transaction_readBack_iff _ 4356 (.pipeTransact 1 [5, 0]) rfl (.request 0)).2 (by decide)

/-- Parameters of 2^16 bytes pass the check of a server that takes messages of 2^17 bytes, and
their count is written as zero. -/
theorem parameters_cut_to_nothing : ¬ ∀ (r : TransactionRequest) (limit : UInt32) (h : SmbHeader),
    r.Built → r.checkLimits limit = .ok () → r.ReadBack { h with command := r.command } := by
  intro claimed
  let r : TransactionRequest := .trans2 5 (.replicate 65536 0) []
  have built : r.Built := .trans2 5 _ []
  have length : r.parameters.length = 65536 := List.length_replicate
  have some : r.parameters ≠ [] := List.length_pos_iff.mp (by omega)
  have past : 2 ^ 16 ≤ r.dataOffset := by
    have before := r.le_dataOffset.2 some
    omega
  have checked : r.checkLimits 131072 = .ok () := by
    have near := r.dataOffset_le
    have start : r.areaStart = 65 := rfl
    have unnamed : r.nameBytes.length = 0 := rfl
    have none : r.data.length = 0 := rfl
    have limit : (131072 : UInt32).toNat = 131072 := rfl
    exact built.checkLimits (by omega)
  exact absurd (claimed r 131072 (.request 0) built checked).small.1 (not_lt.mpr past)

end Smb1Client
