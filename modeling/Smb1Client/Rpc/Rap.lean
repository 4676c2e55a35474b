import Smb1Client.Rpc.Srvsvc

/-!
RAP's `NetShareEnum` at information level 1, over `\PIPE\LANMAN`.

A reply says how many entries it returns and how many there are. One that succeeds and returns
fewer than there are is refused, as is one whose entries run out of its data block.
-/

namespace Smb1Client

open LittleEndian

/-- What a RAP reply can be that stops it decoding. -/
inductive RapError where
  | parametersTooShort (length : ℕ)
  | moreData
  | failed (status : UInt16)
  | truncatedEntry (index : UInt16) (needed length : ℕ)
  | commentOutOfRange (index : UInt16) (offset length : ℕ)
  | notUtf8 (index : UInt16) (field : String)
  | shortOfAvailable (returned available : UInt16)
  deriving DecidableEq, Repr

def RAP_SPECIAL : UInt16 := 0x8000
def RAP_TEMPORARY : UInt16 := 0x4000

def ShareKind.fromRap (kind : UInt16) : ShareKind where
  service := .fromCode (kind &&& ~~~(RAP_SPECIAL ||| RAP_TEMPORARY))
  special := kind &&& RAP_SPECIAL ≠ 0
  temporary := kind &&& RAP_TEMPORARY ≠ 0

namespace Rap

/-- `NetShareEnum`. -/
def FUNCTION : UInt16 := 0x0000

/-- `WrLeh`, null-terminated. -/
def PARAMETER_DESCRIPTOR : Bytes := [0x57, 0x72, 0x4C, 0x65, 0x68, 0x00]

/-- `B13BWz`, null-terminated. -/
def DATA_DESCRIPTOR : Bytes := [0x42, 0x31, 0x33, 0x42, 0x57, 0x7A, 0x00]
def LEVEL : UInt16 := 1
def PARAMETERS_LEN : ℕ := 8
def ENTRY_LEN : ℕ := 20
def NAME_LEN : ℕ := 13
def SUCCESS : UInt16 := 0
def ERROR_MORE_DATA : UInt16 := 234

/-- The transaction parameter block of a `NetShareEnum` request. -/
def request (receiveBuffer : UInt16) : Bytes :=
  u16le FUNCTION ++ (PARAMETER_DESCRIPTOR ++ (DATA_DESCRIPTOR ++ (u16le LEVEL ++
    u16le receiveBuffer)))

/-- A word of a block. -/
def word (block : Bytes) (start : ℕ) : UInt16 :=
  UInt16.ofNat (decode ((block.drop start).take 2))

/-- `EntryCount`. -/
def entryCount (parameters : Bytes) : UInt16 := word parameters 4

/-- `Available`. -/
def available (parameters : Bytes) : UInt16 := word parameters 6

/-- The bytes of a fixed-width field up to its first null. -/
def nulPadded (field : Bytes) : Bytes := field.takeWhile (· ≠ 0)

/-- `str::from_utf8`: the text these bytes are the UTF-8 of, if they are one's. -/
def text (bytes : Bytes) (index : UInt16) (field : String) : Except RapError Text :=
  let decoded := fromUtf8Lossy bytes
  if asBytes decoded = bytes then .ok decoded else .error (.notUtf8 index field)

/-- The comment a pointer, less the converter, points at in the data block. -/
def comment (data : Bytes) (converter : UInt16) (index : UInt16) (pointer : UInt32) :
    Except RapError Text :=
  if pointer = 0 then .ok []
  else
    let offset := (pointer.toUInt16 - converter).toNat
    if data.length < offset then .error (.commentOutOfRange index offset data.length)
    else
      match (data.drop offset).findIdx? (· = 0) with
      | none => .error (.commentOutOfRange index offset data.length)
      | some stop => text ((data.drop offset).take stop) index "comment"

/-- One entry of the data block. -/
def entry (data : Bytes) (converter : UInt16) (index : ℕ) : Except RapError Share :=
  let number := UInt16.ofNat index
  let start := index * ENTRY_LEN
  if data.length < start + ENTRY_LEN then
    .error (.truncatedEntry number (start + ENTRY_LEN) data.length)
  else do
    let entry := (data.drop start).take ENTRY_LEN
    let pointer := UInt32.ofNat (decode ((entry.drop 16).take 4))
    let comment ← comment data converter number pointer
    let name ← text (nulPadded (entry.take NAME_LEN)) number "name"
    return { name, kind := .fromRap (word entry 14), comment }

/-- Decodes a `NetShareEnum` reply from the transaction's blocks. -/
def response (parameters data : Bytes) : Except RapError (List Share) :=
  if parameters.length < PARAMETERS_LEN then .error (.parametersTooShort parameters.length)
  else if word parameters 0 = ERROR_MORE_DATA then .error .moreData
  else if word parameters 0 ≠ SUCCESS then .error (.failed (word parameters 0))
  else
    let converter := word parameters 2
    let returned := entryCount parameters
    if returned < available parameters then
      .error (.shortOfAvailable returned (available parameters))
    else (List.range returned.toNat).mapM (entry data converter)

theorem length_of_mapM {α β ε : Type} {f : α → Except ε β} {xs : List α} {ys : List β}
    (mapped : xs.mapM f = .ok ys) : ys.length = xs.length := by
  induction xs generalizing ys with
  | nil =>
      cases mapped
      rfl
  | cons x xs ih =>
      rw [List.mapM_cons] at mapped
      cases first : f x with
      | error error =>
          rw [first] at mapped
          cases mapped
      | ok y =>
          cases later : xs.mapM f with
          | error error =>
              rw [first, later] at mapped
              cases mapped
          | ok zs =>
              rw [first, later] at mapped
              cases mapped
              rw [List.length_cons, List.length_cons, ih later]

/-- A reply that decodes returns as many shares as it says, and no fewer than there are. -/
theorem response_whole {parameters data : Bytes} {shares : List Share}
    (decoded : response parameters data = .ok shares) :
    shares.length = (entryCount parameters).toNat ∧
      available parameters ≤ entryCount parameters := by
  rw [response] at decoded
  split at decoded
  · cases decoded
  split at decoded
  · cases decoded
  split at decoded
  · cases decoded
  dsimp only at decoded
  split at decoded
  · cases decoded
  · next enough =>
      refine ⟨?_, UInt16.not_lt.mp enough⟩
      rw [length_of_mapM decoded, List.length_range]

end Rap

end Smb1Client
