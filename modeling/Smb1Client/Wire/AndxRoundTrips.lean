import Smb1Client.Wire.Io

/-!
Encoding and decoding `READ_ANDX` and `WRITE_ANDX`, the requests and the responses.

Every value is given back at its full width: offsets from two 32-bit fields, lengths and
counts from two halves, and a payload whole whatever `ByteCount` has been cut to.
-/

namespace Smb1Client

open LittleEndian

/-! ## Encoding the responses -/

/-- Appends zeros one by one until the next byte lands at an offset. -/
def ByteArea.padTo (a : ByteArea) (offset : ℕ) : ByteArea :=
  if a.offset < offset then (a.put [0]).padTo offset else a
termination_by offset - a.offset
decreasing_by
  rw [offset_put, List.length_singleton]
  omega

def ReadResponseWords.write (w : ReadResponseWords) : Bytes :=
  w.andx.write ++ (u16le w.available ++ (u16le w.dataCompactionMode ++ (u16le w.reserved ++
    (u16le w.dataLength ++ (u16le w.dataOffset ++ (u16le w.dataLengthHigh ++
      w.reserved2.toList))))))

def WriteResponseWords.write (w : WriteResponseWords) : Bytes :=
  w.andx.write ++ (u16le w.count ++ (u16le w.remaining ++ (u16le w.countHigh ++ u16le w.reserved)))

namespace ReadAndxResponse

def words (r : ReadAndxResponse) : ReadResponseWords where
  andx := r.andx
  available := r.available
  dataCompactionMode := r.dataCompactionMode
  reserved := 0
  dataLength := UInt16.ofNat r.data.length
  dataOffset := r.dataOffset
  dataLengthHigh := UInt16.ofNat (r.data.length >>> 16)
  reserved2 := .replicate 8 0

/-- The byte area: the payload, at the offset the response carries. -/
def area (r : ReadAndxResponse) : Bytes :=
  (((ByteArea.forWordCount READ_WORDS.toNat).padTo r.dataOffset.toNat).put r.data).finish

def encodeBody (r : ReadAndxResponse) : Except WireError Bytes := .ok (body r.words.write r.area)

end ReadAndxResponse

namespace WriteAndxResponse

def words (r : WriteAndxResponse) : WriteResponseWords where
  andx := r.andx
  count := r.count.toUInt16
  remaining := r.remaining
  countHigh := (r.count >>> 16).toUInt16
  reserved := 0

def encodeBody (r : WriteAndxResponse) : Except WireError Bytes := .ok (body r.words.write [])

end WriteAndxResponse

/-! ## Word blocks -/

namespace ReadResponseWords

@[simp] theorem length_write (w : ReadResponseWords) : w.write.length = 12 * 2 := by simp [write]

theorem readWords_write (w : ReadResponseWords) : readWords read w.write = .ok w := by
  have all : read (w.write ++ []) = some (w, []) := by
    rw [read, write]
    simp only [List.append_assoc]
    rw [AndX.read_bind, Reader.u16_bind, Reader.u16_bind, Reader.u16_bind, Reader.u16_bind,
      Reader.u16_bind, Reader.u16_bind, Reader.vector_bind, Reader.pure_apply]
  rw [List.append_nil] at all
  rw [readWords, all]

end ReadResponseWords

namespace WriteResponseWords

@[simp] theorem length_write (w : WriteResponseWords) : w.write.length = 6 * 2 := by simp [write]

theorem readWords_write (w : WriteResponseWords) : readWords read w.write = .ok w := by
  have all : read (w.write ++ []) = some (w, []) := by
    rw [read, write]
    simp only [List.append_assoc]
    rw [AndX.read_bind, Reader.u16_bind, Reader.u16_bind, Reader.u16_bind, Reader.u16_bind,
      Reader.pure_apply]
  rw [List.append_nil] at all
  rw [readWords, all]

end WriteResponseWords

/-- The two 16-bit halves of a count are the count. -/
theorem halves_of_narrow_count (x : UInt32) :
    x.toUInt16.toUInt32 ||| ((x >>> 16).toUInt16.toUInt32 <<< 16) = x := by
  have high : (x >>> 16).toUInt16.toUInt32 = x >>> 16 := by
    apply UInt32.toNat_inj.mp
    have bound := x.toNat_lt
    have width : (16 : UInt32).toNat % 32 = 16 := rfl
    rw [UInt16.toNat_toUInt32, UInt32.toNat_toUInt16, UInt32.toNat_shiftRight, width,
      Nat.shiftRight_eq_div_pow]
    omega
  rw [high, halves_of_count]

/-! ## Where the payload lands -/

theorem ByteArea.bytes_padTo (a : ByteArea) (offset : ℕ) :
    (a.padTo offset).bytes = a.bytes ++ .replicate (offset - a.offset) 0 := by
  fun_induction a.padTo offset with
  | case1 a short ih =>
      have left : offset - a.offset = (offset - (a.offset + 1)) + 1 := by omega
      rw [ih, bytes_put, offset_put, List.length_singleton, left, List.replicate_succ,
        List.append_assoc, List.singleton_append]
  | case2 a long =>
      rw [Nat.sub_eq_zero_of_le (not_lt.mp long), List.replicate_zero, List.append_nil]

theorem ReadAndxResponse.area_eq (r : ReadAndxResponse) :
    r.area = .replicate (r.dataOffset.toNat - 59) 0 ++ r.data := by
  rw [area, ByteArea.finish, ByteArea.bytes_put, ByteArea.bytes_padTo]
  rfl

/-! ## Parsing what was written -/

theorem Message.expectWords_ok {m : Message} {command count : UInt8} {describe : String}
    (same : m.header.command = command) (counted : m.wordCount = count) :
    m.expectWords command [count] describe = .ok () := by
  rw [expectWords, if_neg (fun ne => ne same), counted, if_pos (List.mem_singleton_self _)]

/-- A message cut short of its frame's limit has a payload of fewer than 2^32 bytes. -/
theorem length_lt_of_framed {h : SmbHeader} {words area : Bytes}
    (framed : (frame (message h (body words area))).isOk = true) : area.length < 2 ^ 32 := by
  have short := frame_isOk.mp framed
  rw [message, body, List.length_append, List.length_cons, List.length_append,
    List.length_append] at short
  unfold Netbios.MAX_MESSAGE_LEN at short
  omega

theorem ReadAndxResponse.decode_encoded {r : ReadAndxResponse} {h : SmbHeader} {m : Message}
    (command : h.command = Command.READ_ANDX) (unchained : r.andx.command = NO_FURTHER_COMMAND)
    (placed : 59 ≤ r.dataOffset.toNat) (holds : m.Holds h r.words.write r.area)
    (fits : r.data.length < 2 ^ 32) : decode m = .ok r := by
  have count : m.wordCount = READ_WORDS := by
    rw [holds.wordCount, ReadResponseWords.length_write]
    rfl
  have expected : m.expectWords Command.READ_ANDX [READ_WORDS] "12" = .ok () :=
    Message.expectWords_ok (holds.header ▸ command) count
  have start : m.byteAreaOffset = 59 := by
    rw [holds.byteAreaOffset, ReadResponseWords.length_write]
    rfl
  have total : m.bytes.length = r.dataOffset.toNat + r.data.length := by
    rw [WriteAndxRequest.length_of_holds holds, start, r.area_eq, List.length_append,
      List.length_replicate]
    omega
  have landed : m.bytes.drop r.dataOffset.toNat = r.data := by
    have area : m.bytes.drop m.byteAreaOffset = r.area := holds.byteAreaToEnd
    rw [← Nat.add_sub_cancel' placed, ← List.drop_drop, ← start, area, start, r.area_eq]
    exact List.drop_left' List.length_replicate
  have data : m.block "DataOffset" r.words.dataOffset.toNat
      (payloadLength r.words.dataLength r.words.dataLengthHigh) = .ok r.data := by
    have whole : payloadLength r.words.dataLength r.words.dataLengthHigh = r.data.length :=
      payloadLength_halves fits
    have offset : r.words.dataOffset = r.dataOffset := rfl
    rw [whole, offset, Message.block, blockAt, if_pos total.ge, landed, List.take_length]
  have unrefused : r.words.andx.refuseChaining = .ok () := if_pos unchained
  rw [decode, expected, holds.words, ReadResponseWords.readWords_write]
  simp only [bind, Except.bind, unrefused, data]
  rfl

theorem WriteAndxResponse.decode_encoded {r : WriteAndxResponse} {h : SmbHeader} {m : Message}
    (command : h.command = Command.WRITE_ANDX) (unchained : r.andx.command = NO_FURTHER_COMMAND)
    (holds : m.Holds h r.words.write []) : decode m = .ok r := by
  have count : m.wordCount = WRITE_RESPONSE_WORDS := by
    rw [holds.wordCount, WriteResponseWords.length_write]
    rfl
  have expected : m.expectWords Command.WRITE_ANDX [WRITE_RESPONSE_WORDS] "6" = .ok () :=
    Message.expectWords_ok (holds.header ▸ command) count
  have unrefused : r.words.andx.refuseChaining = .ok () := if_pos unchained
  rw [decode, expected, holds.words, WriteResponseWords.readWords_write]
  simp only [bind, Except.bind, unrefused]
  simp only [pure, Except.pure, words, halves_of_narrow_count]

/-! ## Blocks past the end -/

/-- What a declared block past the end of the message comes to. -/
theorem Message.block_past_end {m : Message} {field : String} {offset length : ℕ}
    (past : m.bytes.length < offset + length) :
    m.block field offset length = .error (.blockOutOfRange field offset length m.bytes.length) := by
  rw [block, blockAt, if_neg (not_le.mpr past)]

theorem ReadAndxResponse.decode_past_end {m : Message} {words : ReadResponseWords}
    (read : readWords ReadResponseWords.read m.words = .ok words)
    (past : m.bytes.length < words.dataOffset.toNat +
      payloadLength words.dataLength words.dataLengthHigh) :
    ∃ error, decode m = .error error := by
  rw [decode, read]
  cases m.expectWords Command.READ_ANDX [READ_WORDS] "12" with
  | error error => exact ⟨error, rfl⟩
  | ok _ =>
  simp only [bind, Except.bind]
  cases words.andx.refuseChaining with
  | error error => exact ⟨error, rfl⟩
  | ok _ =>
  rw [Message.block_past_end past]
  exact ⟨_, rfl⟩

theorem WriteAndxRequest.decode_past_end {m : Message} {words : WriteRequestWords}
    (read : readWords WriteRequestWords.read m.words = .ok words)
    (past : m.bytes.length < words.dataOffset.toNat +
      payloadLength words.dataLength words.dataLengthHigh) :
    ∃ error, decode m = .error error := by
  rw [decode, read]
  cases m.expectWords Command.WRITE_ANDX [WRITE_REQUEST_WORDS] "14" with
  | error error => exact ⟨error, rfl⟩
  | ok _ =>
  simp only [bind, Except.bind]
  rw [Message.block_past_end past]
  exact ⟨_, rfl⟩

/-! ## Round trips -/

/-- A message of the value is parsed and decoded back to it, and its `ByteCount` is the length
of its byte area as far as 16 bits carry it. -/
def RoundTrips {α : Type} (h : SmbHeader) (encoded : Except WireError Bytes)
    (decode : Message → Except WireError α) (value : α) : Prop :=
  ∃ encoding m, encoded = .ok encoding ∧ Message.parse (message h encoding) = .ok m ∧
    decode m = .ok value ∧ m.byteCount.toNat = (m.bytes.length - m.byteAreaOffset) % 2 ^ 16

/-- The message of an encoding passes `wire::frame`. -/
def PassesFrame (h : SmbHeader) (encoded : Except WireError Bytes) : Prop :=
  ∃ encoding, encoded = .ok encoding ∧ (frame (message h encoding)).isOk = true

theorem roundTrips_of_holds {α : Type} {h : SmbHeader} {words area : Bytes} {count : ℕ}
    {decode : Message → Except WireError α} {value : α} (paired : words.length = count * 2)
    (small : count < 256) (decoded : ∀ m : Message, m.Holds h words area → decode m = .ok value) :
    RoundTrips h (.ok (body words area)) decode value := by
  obtain ⟨m, parsed, holds⟩ := Message.parse_message_body h area paired small
  refine ⟨_, m, rfl, parsed, decoded m holds, ?_⟩
  rw [holds.byteCount, WriteAndxRequest.length_of_holds holds, Nat.add_sub_cancel_left]

/-- **Reads and writes carry full-width values.** -/
theorem andx_round_trips (h : SmbHeader) :
    (∀ r : ReadAndxRequest, h.command = Command.READ_ANDX → PassesFrame h r.encodeBody →
      RoundTrips h r.encodeBody ReadAndxRequest.decode r) ∧
    (∀ r : WriteAndxRequest, h.command = Command.WRITE_ANDX → PassesFrame h r.encodeBody →
      RoundTrips h r.encodeBody WriteAndxRequest.decode r) ∧
    (∀ r : ReadAndxResponse, h.command = Command.READ_ANDX → PassesFrame h r.encodeBody →
      r.andx.command = NO_FURTHER_COMMAND →
      (ByteArea.forWordCount READ_WORDS.toNat).offset ≤ r.dataOffset.toNat →
      RoundTrips h r.encodeBody ReadAndxResponse.decode r) ∧
    (∀ r : WriteAndxResponse, h.command = Command.WRITE_ANDX → PassesFrame h r.encodeBody →
      r.andx.command = NO_FURTHER_COMMAND →
      RoundTrips h r.encodeBody WriteAndxResponse.decode r) ∧
    (∀ m words, readWords ReadResponseWords.read m.words = .ok words →
      m.bytes.length < words.dataOffset.toNat +
        payloadLength words.dataLength words.dataLengthHigh →
      ∃ error, ReadAndxResponse.decode m = .error error) ∧
    ∀ m words, readWords WriteRequestWords.read m.words = .ok words →
      m.bytes.length < words.dataOffset.toNat +
        payloadLength words.dataLength words.dataLengthHigh →
      ∃ error, WriteAndxRequest.decode m = .error error := by
  refine ⟨?readRequest, ?writeRequest, ?readResponse, ?writeResponse,
    fun _ _ read past => ReadAndxResponse.decode_past_end read past,
    fun _ _ read past => WriteAndxRequest.decode_past_end read past⟩
  case readRequest =>
    intro r command _
    exact roundTrips_of_holds (ReadRequestWords.length_write _) (by decide)
      fun m holds => ReadAndxRequest.decode_encoded command holds
  case writeRequest =>
    rintro r command ⟨_, encoded, framed⟩
    cases encoded
    exact roundTrips_of_holds (WriteRequestWords.length_write _) (by decide)
      fun m holds => WriteAndxRequest.decode_encoded command holds (length_lt_of_framed framed)
  case readResponse =>
    rintro r command ⟨_, encoded, framed⟩ unchained placed
    cases encoded
    have short := length_lt_of_framed framed
    rw [r.area_eq, List.length_append] at short
    exact roundTrips_of_holds (ReadResponseWords.length_write _) (by decide)
      fun m holds => ReadAndxResponse.decode_encoded command unchained placed holds (by omega)
  case writeResponse =>
    intro r command _ unchained
    exact roundTrips_of_holds (WriteResponseWords.length_write _) (by decide)
      fun m holds => WriteAndxResponse.decode_encoded command unchained holds

/-- A read at 4 GiB and one byte, for 64 KiB and one byte. -/
theorem andx_round_trips_wide :
    RoundTrips (SmbHeader.request Command.READ_ANDX)
      (ReadAndxRequest.encodeBody ⟨7, 2 ^ 32 + 1, 2 ^ 16 + 1, 0, 0⟩) ReadAndxRequest.decode
      ⟨7, 2 ^ 32 + 1, 2 ^ 16 + 1, 0, 0⟩ :=
  (andx_round_trips (SmbHeader.request Command.READ_ANDX)).1 _ rfl ⟨_, rfl, by decide⟩

end Smb1Client
