import Smb1Client.Wire.Message

/-!
DCE/RPC connection-oriented PDUs: the framing, the bind, and the assembly of a reply that
arrives in more than one of them.

A reply is whole when one of its PDUs carries `PFC_LAST_FRAG`, and nothing else says so.
-/

namespace Smb1Client

open LittleEndian

/-- What a peer can send that the PDU layer refuses. -/
inductive PduError where
  | version (major minor : UInt8)
  | dataRepresentation (drep : Bytes)
  | fragmentLengthTooSmall (length : UInt16)
  | unexpectedType (expected actual : UInt8)
  | callId (expected actual : UInt32)
  | notFirstFragment
  | noLastFragment (pdus : ℕ)
  | tooManyFragments
  | stubTooLarge
  | truncated (part : String) (needed length : ℕ)
  | bindRejected (reason : UInt16)
  | contextRejected (result reason : UInt16)
  | notNdr32
  | fault (status : UInt32)
  deriving DecidableEq, Repr

namespace Pdu

def HEADER_LEN : ℕ := 16
def RESPONSE_PROLOGUE : ℕ := 8
def MAX_FRAGMENT : UInt16 := 4280
def STUB_CAP : ℕ := 8 * 1024 * 1024
def PDU_CAP : ℕ := STUB_CAP / (MAX_FRAGMENT.toNat - HEADER_LEN - RESPONSE_PROLOGUE) + 1

def VERSION : UInt8 × UInt8 := (5, 0)
def DATA_REPRESENTATION : Bytes := [0x10, 0x00, 0x00, 0x00]

def REQUEST : UInt8 := 0x00
def RESPONSE : UInt8 := 0x02
def FAULT : UInt8 := 0x03
def BIND : UInt8 := 0x0B
def BIND_ACK : UInt8 := 0x0C
def BIND_NAK : UInt8 := 0x0D

def PFC_FIRST_FRAG : UInt8 := 0x01
def PFC_LAST_FRAG : UInt8 := 0x02

def NDR32 : Bytes :=
  [0x04, 0x5d, 0x88, 0x8a, 0xeb, 0x1c, 0xc9, 0x11, 0x9f, 0xe8, 0x08, 0x00, 0x2b, 0x10, 0x48, 0x60]
def NDR32_VERSION : UInt32 := 2

def BIND_TIME_FEATURE_NEGOTIATION : Bytes :=
  [0x2c, 0x1c, 0xb7, 0x6c, 0x12, 0x98, 0x40, 0x45, 0x03, 0x00, 0x00, 0x00, 0x00, 0x00, 0x00, 0x00]
def BIND_TIME_FEATURE_NEGOTIATION_VERSION : UInt32 := 1

def INTERFACE_CONTEXT : UInt16 := 0
def RESULT_ACCEPTANCE : UInt16 := 0

/-! ## Headers -/

structure Header where
  ptype : UInt8
  flags : UInt8
  callId : UInt32
  deriving DecidableEq, Repr

def Header.read : Reader (Bytes × Header) := do
  let major ← Reader.u8
  let minor ← Reader.u8
  let ptype ← Reader.u8
  let flags ← Reader.u8
  let drep ← Reader.take 4
  let _fragLength ← Reader.u16
  let _authLength ← Reader.u16
  let callId ← Reader.u32
  return (major :: minor :: drep, { ptype, flags, callId })

def Header.parse (pdu : Bytes) : Except PduError Header :=
  match Header.read (pdu.take HEADER_LEN) with
  | none => .error (.truncated "PDU header" HEADER_LEN pdu.length)
  | some ((form, header), _) =>
      match form with
      | major :: minor :: drep =>
          if (major, minor) ≠ VERSION then .error (.version major minor)
          else if drep ≠ DATA_REPRESENTATION then .error (.dataRepresentation drep)
          else .ok header
      | _ => .error (.truncated "PDU header" HEADER_LEN pdu.length)

/-- The bytes between a PDU's header and its payload. -/
def Header.prologue (h : Header) : ℕ := if h.ptype = RESPONSE then RESPONSE_PROLOGUE else 0

/-- A PDU header in front of a body. -/
def pdu (ptype : UInt8) (callId : UInt32) (body : Bytes) : Bytes :=
  [VERSION.1, VERSION.2, ptype, PFC_FIRST_FRAG ||| PFC_LAST_FRAG] ++ DATA_REPRESENTATION ++
    u16le (UInt16.ofNat (HEADER_LEN + body.length)) ++ u16le 0 ++ u32le callId ++ body

/-- One presentation context of a bind. -/
def context (number : UInt16) (interface : Bytes) (version : UInt32) (syntaxId : Bytes)
    (syntaxVersion : UInt32) : Bytes :=
  u16le number ++ [1, 0] ++ interface ++ u32le version ++ syntaxId ++ u32le syntaxVersion

/-- A bind offering one interface, on NDR32 and on bind-time feature negotiation. -/
def bind (interface : Bytes) (version : UInt32) : Bytes :=
  pdu BIND 0 (u16le MAX_FRAGMENT ++ u16le MAX_FRAGMENT ++ u32le 0 ++ [2, 0, 0, 0] ++
    context INTERFACE_CONTEXT interface version NDR32 NDR32_VERSION ++
    context (INTERFACE_CONTEXT + 1) interface version BIND_TIME_FEATURE_NEGOTIATION
      BIND_TIME_FEATURE_NEGOTIATION_VERSION)

/-- A call on the bound interface. -/
def request (callId : UInt32) (opnum : UInt16) (stub : Bytes) : Bytes :=
  pdu REQUEST callId (u32le (UInt32.ofNat stub.length) ++ u16le INTERFACE_CONTEXT ++
    u16le opnum ++ stub)

/-! ## Answers -/

/-- One reply, assembled from however many PDUs carried it. -/
structure Answer where
  ptype : UInt8
  payload : Bytes
  deriving DecidableEq, Repr

def readU16 (body : Bytes) (start : ℕ) (part : String) : Except PduError UInt16 :=
  match Reader.u16 (body.drop start) with
  | some (value, _) => .ok value
  | none => .error (.truncated part (start + 2) body.length)

/-- Rounds up to a multiple of four. -/
def nextMultipleOf4 (n : ℕ) : ℕ := (n + 3) / 4 * 4

/-- Holds the server's answer to a bind to the syntax this crate marshals. -/
def bindAck (answer : Answer) : Except PduError Unit :=
  if answer.ptype = BIND_NAK then
    .error (.bindRejected ((readU16 answer.payload 0 "").toOption.getD 0))
  else if answer.ptype ≠ BIND_ACK then .error (.unexpectedType BIND_ACK answer.ptype)
  else do
    let body := answer.payload
    let secondaryAddressLength ← readU16 body 8 "sec_addr_len"
    let resultsAt := nextMultipleOf4 (10 + secondaryAddressLength.toNat)
    match body[resultsAt]? with
    | none => .error (.truncated "bind_ack results" (resultsAt + 1) body.length)
    | some count =>
        if count = 0 then .error (.contextRejected 0 0)
        else do
          let first := resultsAt + 4
          let result ← readU16 body first "context result"
          let reason ← readU16 body (first + 2) "context reason"
          if result ≠ RESULT_ACCEPTANCE then .error (.contextRejected result reason)
          else if body.length < first + 20 then
            .error (.truncated "context transfer syntax" (first + 20) body.length)
          else if (body.drop (first + 4)).take 16 ≠ NDR32 then .error .notNdr32
          else .ok ()

/-- The stub of an assembled reply, where the reply was a response. -/
def response (answer : Answer) : Except PduError Bytes :=
  if answer.ptype ≠ RESPONSE then .error (.unexpectedType RESPONSE answer.ptype)
  else .ok answer.payload

/-- A fault PDU's status, which sits eight bytes into its body. -/
def faultStatus (fragment : Bytes) : UInt32 :=
  match Reader.u32 (fragment.drop (HEADER_LEN + 8)) with
  | some (status, _) => status
  | none => 0

/-! ## Assembly -/

/-- Takes the next whole PDU off what the pipe delivered, with what is behind it. -/
def next (pending : Bytes) : Except PduError (Option (Bytes × Bytes)) :=
  if pending.length < HEADER_LEN then .ok none
  else
    let length := decode ((pending.drop 8).take 2)
    if length < HEADER_LEN then .error (.fragmentLengthTooSmall (UInt16.ofNat length))
    else if pending.length < length then .ok none
    else .ok (some (pending.take length, pending.drop length))

/-- Collects the PDUs of one reply out of the pipe's byte stream. -/
structure Collector where
  pending : Bytes
  callId : UInt32
  ptype : Option UInt8
  payload : Bytes
  pdus : ℕ
  complete : Bool
  deriving DecidableEq, Repr

namespace Collector

def new (callId : UInt32) : Collector where
  pending := []
  callId
  ptype := none
  payload := []
  pdus := 0
  complete := false

/-- The type a reply has from its first PDU on. -/
def opened (c : Collector) (header : Header) : Except PduError UInt8 :=
  match c.ptype with
  | none =>
      if header.flags &&& PFC_FIRST_FRAG = 0 then .error .notFirstFragment else .ok header.ptype
  | some opened =>
      if opened ≠ header.ptype then .error (.unexpectedType opened header.ptype) else .ok opened

def accept (c : Collector) (fragment : Bytes) : Except PduError Collector :=
  if c.complete then .ok c
  else do
    let header ← Header.parse fragment
    if header.callId ≠ c.callId then .error (.callId c.callId header.callId)
    else if header.ptype = FAULT then .error (.fault (faultStatus fragment))
    else do
      let ptype ← c.opened header
      let pdus := c.pdus + 1
      let start := HEADER_LEN + header.prologue
      if pdus > PDU_CAP then .error .tooManyFragments
      else if fragment.length < start then
        .error (.truncated "PDU payload" start fragment.length)
      else
        let payload := c.payload ++ fragment.drop start
        if payload.length > STUB_CAP then .error .stubTooLarge
        else .ok { c with ptype := some ptype, pdus, payload
                          complete := header.flags &&& PFC_LAST_FRAG ≠ 0 }

/-- Parses out the whole PDUs of what is pending, in at most `turns` turns. -/
def drain : ℕ → Collector → Except PduError Collector
  | 0, c => .ok c
  | turns + 1, c => do
      match ← next c.pending with
      | none => .ok c
      | some (fragment, pending) => drain turns (← { c with pending }.accept fragment)

/-- A collector takes nothing once it is complete, and a PDU's type and payload until then. -/
theorem of_accept {c c' : Collector} {fragment : Bytes} (accepted : c.accept fragment = .ok c') :
    c' = c ∨ ∃ ptype payload pdus complete,
      c' = { c with ptype := some ptype, payload, pdus, complete } := by
  rw [accept] at accepted
  split at accepted
  · cases accepted
    exact Or.inl rfl
  · cases parsed : Header.parse fragment with
    | error error =>
        rw [parsed] at accepted
        cases accepted
    | ok header =>
        rw [parsed] at accepted
        simp only [Bind.bind, Except.bind] at accepted
        split at accepted
        · cases accepted
        split at accepted
        · cases accepted
        cases typed : c.opened header with
        | error error =>
            rw [typed] at accepted
            cases accepted
        | ok ptype =>
            rw [typed] at accepted
            dsimp only at accepted
            split at accepted
            · cases accepted
            split at accepted
            · cases accepted
            split at accepted
            · cases accepted
            · cases accepted
              exact Or.inr ⟨_, _, _, _, rfl⟩

theorem pending_accept {c c' : Collector} {fragment : Bytes}
    (accepted : c.accept fragment = .ok c') : c'.pending = c.pending := by
  rcases of_accept accepted with rfl | ⟨_, _, _, _, rfl⟩ <;> rfl

/-- A PDU is at least its header, so what is pending is all the turns the parse takes. -/
theorem drain_succ {turns : ℕ} {c : Collector} (enough : c.pending.length ≤ turns) :
    drain (turns + 1) c = drain turns c := by
  have taken : ∀ {pending fragment rest : Bytes}, next pending = .ok (some (fragment, rest)) →
      rest.length + HEADER_LEN ≤ pending.length := by
    intro pending fragment rest found
    rw [next] at found
    split at found
    · cases found
    dsimp only at found
    split at found
    · cases found
    split at found
    · cases found
    · cases found
      rw [List.length_drop]
      omega
  induction turns generalizing c with
  | zero =>
      have none : next c.pending = .ok none := by
        rw [next, if_pos (lt_of_le_of_lt enough (by decide))]
      simp only [drain, none]
      rfl
  | succ turns ih =>
      rw [drain, drain]
      cases found : next c.pending with
      | error error => rfl
      | ok front =>
          cases front with
          | none => rfl
          | some front =>
              obtain ⟨fragment, rest⟩ := front
              have shorter := taken found
              simp only [Bind.bind, Except.bind]
              cases accepted : ({ c with pending := rest } : Collector).accept fragment with
              | error error => rfl
              | ok c' =>
                  apply ih
                  rw [pending_accept accepted]
                  have header : 0 < HEADER_LEN := by decide
                  dsimp only
                  omega

/-- Takes what the pipe delivered. -/
def feed (c : Collector) (bytes : Bytes) : Except PduError Collector :=
  let c := { c with pending := c.pending ++ bytes }
  drain c.pending.length c

/-- The assembled reply. -/
def finish (c : Collector) : Except PduError Answer :=
  match c.ptype with
  | some ptype =>
      if c.complete then .ok ⟨ptype, c.payload⟩ else .error (.noLastFragment c.pdus)
  | none => .error (.noLastFragment c.pdus)

end Collector

end Pdu

end Smb1Client
