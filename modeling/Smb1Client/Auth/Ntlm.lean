import Smb1Client.Wire.Text

/-!
The NTLM messages a client reads and opens with. What it answers a challenge with is computed from
the password by digests this development leaves open.
-/

namespace Smb1Client

open LittleEndian

/-- What can go wrong reading a server's message. -/
inductive NtlmError where
  | notNtlm
  | unexpectedMessageType (expected actual : UInt32)
  | truncated (part : String) (length : ℕ)
  | fieldOutOfRange (field : String) (offset length messageLength : ℕ)
  | malformedAvPairs (start : ℕ)
  | noExtendedSessionSecurity
  deriving DecidableEq, Repr

namespace Ntlm

def NEGOTIATE_UNICODE : UInt32 := 0x00000001
def REQUEST_TARGET : UInt32 := 0x00000004
def NEGOTIATE_SIGN : UInt32 := 0x00000010
def NEGOTIATE_NTLM : UInt32 := 0x00000200
def NEGOTIATE_EXTENDED_SESSIONSECURITY : UInt32 := 0x00080000
def NEGOTIATE_TARGET_INFO : UInt32 := 0x00800000
def NEGOTIATE_128 : UInt32 := 0x20000000
def NEGOTIATE_KEY_EXCH : UInt32 := 0x40000000
def NEGOTIATE_56 : UInt32 := 0x80000000

def NEGOTIATE_FLAGS : UInt32 :=
  NEGOTIATE_UNICODE ||| REQUEST_TARGET ||| NEGOTIATE_SIGN ||| NEGOTIATE_NTLM |||
    NEGOTIATE_EXTENDED_SESSIONSECURITY ||| NEGOTIATE_TARGET_INFO ||| NEGOTIATE_128 |||
      NEGOTIATE_KEY_EXCH ||| NEGOTIATE_56

/-- `NTLMSSP`, null-terminated. -/
def SIGNATURE : Bytes := [0x4E, 0x54, 0x4C, 0x4D, 0x53, 0x53, 0x50, 0x00]
def MESSAGE_NEGOTIATE : UInt32 := 1
def MESSAGE_CHALLENGE : UInt32 := 2
def CHALLENGE_MIN_LEN : ℕ := 48
def AV_EOL : UInt16 := 0x0000

/-- The message the client opens with: no domain, no workstation and no version. -/
def negotiateMessage : Bytes :=
  SIGNATURE ++ u32le MESSAGE_NEGOTIATE ++ u32le NEGOTIATE_FLAGS ++ .replicate 24 0

def u16At (message : Bytes) (start : ℕ) : UInt16 :=
  UInt16.ofNat (decode ((message.drop start).take 2))

def u32At (message : Bytes) (start : ℕ) : UInt32 :=
  UInt32.ofNat (decode ((message.drop start).take 4))

/-- A field descriptor's offset and length. -/
def field (message : Bytes) (start : ℕ) (name : String) : Except NtlmError (ℕ × ℕ) :=
  if message.length < start + 8 then .error (.truncated name message.length)
  else .ok ((u32At message (start + 4)).toNat, (u16At message start).toNat)

/-- The block a field descriptor points at. -/
def fieldBytes (message : Bytes) (start : ℕ) (name : String) : Except NtlmError Bytes := do
  let (offset, length) ← field message start name
  if message.length < offset + length then
    .error (.fieldOutOfRange name offset length message.length)
  else return (message.drop offset).take length

/-- The pairs of a `TargetInfo`, and where their terminator is. -/
structure AvPairs where
  bytes : Bytes
  stop : ℕ
  deriving DecidableEq, Repr

/-- Where the terminator of a list is. Every pair takes four bytes at least, so there are fewer
than `turns` of them. -/
def AvPairs.terminator (bytes : Bytes) : ℕ → ℕ → Except NtlmError ℕ
  | 0, start => .error (.malformedAvPairs start)
  | turns + 1, start =>
      if bytes.length < start + 4 then .error (.malformedAvPairs start)
      else
        let stop := start + 4 + (u16At bytes (start + 2)).toNat
        if bytes.length < stop then .error (.malformedAvPairs start)
        else if u16At bytes start = AV_EOL then .ok start
        else terminator bytes turns stop

def AvPairs.parse (bytes : Bytes) : Except NtlmError AvPairs := do
  return { bytes, stop := ← terminator bytes (bytes.length + 1) 0 }

/-- A list's walk never runs out of turns: more of them change nothing. -/
theorem AvPairs.terminator_turns {bytes : Bytes} {turns start : ℕ}
    (enough : bytes.length < turns + start) :
    terminator bytes (turns + 1) start = terminator bytes turns start := by
  induction turns generalizing start with
  | zero =>
      rw [terminator, terminator, if_pos (by omega)]
  | succ turns ih =>
      rw [terminator]
      conv_rhs => rw [terminator]
      split
      · rfl
      · dsimp only
        split
        · rfl
        · split
          · rfl
          · exact ih (by omega)

/-- A server's challenge. -/
structure Challenge where
  flags : UInt32
  serverChallenge : Bytes
  targetInfo : AvPairs
  raw : Bytes
  deriving DecidableEq, Repr

def Challenge.parse (message : Bytes) : Except NtlmError Challenge := do
  if message.length < 12 ∨ message.take 8 ≠ SIGNATURE then .error .notNtlm
  else if u32At message 8 ≠ MESSAGE_CHALLENGE then
    .error (.unexpectedMessageType MESSAGE_CHALLENGE (u32At message 8))
  else if message.length < CHALLENGE_MIN_LEN then
    .error (.truncated "fixed fields" message.length)
  else if u32At message 20 &&& NEGOTIATE_EXTENDED_SESSIONSECURITY = 0 then
    .error .noExtendedSessionSecurity
  else do
    let _ ← fieldBytes message 12 "TargetName"
    let targetInfo ← AvPairs.parse (← fieldBytes message 40 "TargetInfo")
    return { flags := u32At message 20, serverChallenge := (message.drop 24).take 8, targetInfo,
             raw := message }

/-- What the client adds to its answer: a nonce, a session key and a clock reading. -/
structure ClientValues where
  clientChallenge : Vector UInt8 8
  exportedSessionKey : Vector UInt8 16
  timestamp : Vector UInt8 8
  deriving DecidableEq, Repr

/-- The answer to a challenge, and what it authenticates the mechanism list with. -/
structure Authenticate where
  message : Bytes
  mechListMic : Bytes → Bytes

end Ntlm

/-- Who a session is set up for. -/
structure Credentials where
  domain : Text
  user : Text
  password : Text
  deriving DecidableEq

end Smb1Client
