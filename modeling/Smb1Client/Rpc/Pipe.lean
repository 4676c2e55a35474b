import Smb1Client.TreeRequest

/-!
The named pipe of `rpc/pipe.rs`, and the enumeration of shares over it.

An exchange is carried by a transaction or, from the first failure of that on, by writing
the request to the pipe and reading the answer back. The pipe is closed and opened again
between the two.
-/

namespace Smb1Client

open Pdu (Collector)

def MAX_PIPE_TRANSFER : UInt32 := 65520
def GENERIC_READ_WRITE : UInt32 := 0xC0000000
def PIPE_SHARE_ACCESS : UInt32 := 0x00000003
def LEAVE_TIME_ALONE : UInt32 := 0xFFFFFFFF
def SRVSVC_PIPE : Text := ['\\', 's', 'r', 'v', 's', 'v', 'c']
def MAX_ROUNDS : ℕ := 64

/-- Points of an enumeration: a PDU is handed to `Pipe::call`, and the answer to a bind
is accepted on a pipe. -/
inductive PipeMark where
  | calls (pdu : Bytes)
  | accepts (fid : UInt16)
  deriving DecidableEq, Repr

abbrev PipeVerb := Dialogue TreeRequest Answer PipeMark ClientError
abbrev PipeMoment := Dialogue.Happening TreeRequest Answer PipeMark

/-- An open named pipe. -/
structure Pipe where
  fid : UInt16
  offset : UInt64
  transact : Bool
  transactFailure : Option ClientError
  name : Text
  deriving DecidableEq

/-- The two statuses a pipe operation may carry and still be answering. -/
def acceptPipeStatus (status : NtStatus) : Except ClientError Unit :=
  if status = .SUCCESS ∨ status = .BUFFER_OVERFLOW then .ok () else .error (.refused status)

def pduError (error : PduError) : ClientError := .protocol (.pdu error)

namespace Pipe

variable (n : Negotiated)

/-- The most bytes one read or write on a pipe moves. -/
def transferSize : UInt32 :=
  min (n.maxBufferSize - UInt32.ofNat PROTOCOL_OVERHEAD) MAX_PIPE_TRANSFER

def createRequest (name : Text) : NtCreateAndxRequest where
  flags := 0
  rootDirectoryFid := 0
  desiredAccess := GENERIC_READ_WRITE
  allocationSize := 0
  extFileAttributes := ATTRIBUTE_NORMAL
  shareAccess := PIPE_SHARE_ACCESS
  createDisposition := FILE_OPEN
  createOptions := 0
  impersonationLevel := SEC_IMPERSONATE
  securityFlags := 0
  name

/-- Opens the pipe, for the first open and for the reopen. -/
def openFid (name : Text) : PipeVerb UInt16 := do
  let reply ← TreeRequest.checked n (.create (createRequest name))
  let opened ← .ofExcept ((NtCreateAndxResponse.decode reply.message).mapError .ofWire)
  return opened.fid

/-- Releases a file id; a close that fails is let be. -/
def release (fid : UInt16) : PipeVerb Unit := do
  let _ ← (TreeRequest.put n (.close ⟨fid, LEAVE_TIME_ALONE⟩)).attempt
  return ()

/-- Closes the pipe and opens it again. -/
def reopen (p : Pipe) : PipeVerb Pipe := do
  release n p.fid
  let fid ← openFid n p.name
  return { p with fid, offset := 0 }

/-- Reads the pipe until the answer is whole, `turns` times at most. A read that brings
nothing ends the loop. -/
def fill : ℕ → Pipe → Collector → PipeVerb (Pipe × Collector)
  | 0, _, _ => .paused
  | turns + 1, p, collector =>
      if collector.complete then return (p, collector)
      else do
        let reply ← TreeRequest.put n (.read
          { fid := p.fid, offset := p.offset, maxCount := transferSize n, minCount := 0
            remaining := 0 })
        .ofExcept (acceptPipeStatus reply.status)
        let response ← .ofExcept ((ReadAndxResponse.decode reply.message).mapError .ofWire)
        if response.data = [] then return (p, collector)
        else do
          let p := { p with offset := p.offset + UInt64.ofNat response.data.length }
          let collector ← .ofExcept ((collector.feed response.data).mapError pduError)
          fill turns p collector

/-- Writes what is left of a request to the pipe, in `turns` writes at most. -/
def writeAll : ℕ → Pipe → Bytes → PipeVerb Pipe
  | 0, _, _ => .paused
  | turns + 1, p, request =>
      if request = [] then return p
      else do
        let offered := request.take (transferSize n).toNat
        let reply ← TreeRequest.put n (.write
          { fid := p.fid, offset := p.offset, writeMode := 0, remaining := 0, data := offered })
        .ofExcept (acceptPipeStatus reply.status)
        let response ← .ofExcept ((WriteAndxResponse.decode reply.message).mapError .ofWire)
        if response.count = 0 then
          .failed (.ofWire (.truncated "the pipe write acknowledgement" offered.length 0))
        else do
          let progress := min response.count.toNat offered.length
          writeAll turns { p with offset := p.offset + UInt64.ofNat progress }
            (request.drop progress)

/-- One transaction carrying the request and returning the response. -/
def transactCall (turns : ℕ) (p : Pipe) (request : Bytes) (collector : Collector) :
    PipeVerb (Pipe × Collector) := do
  let reply ← TreeRequest.put n (.pipeTransact p.fid request)
  .ofExcept (acceptPipeStatus reply.status)
  let collector ←
    match reply.transaction with
    | none => pure collector
    | some body => .ofExcept ((collector.feed body.data).mapError pduError)
  fill n turns p collector

/-- The request written to the pipe, and the response read back. -/
def writeReadCall (turns : ℕ) (p : Pipe) (request : Bytes) (collector : Collector) :
    PipeVerb (Pipe × Collector) := do
  let p ← writeAll n turns p request
  fill n turns p collector

/-- A failure of the write/read mode beside the transact mode's, where there was one. -/
def bothFailed (p : Pipe) (second : ClientError) : Pipe × ClientError :=
  match p.transactFailure with
  | none => (p, second)
  | some first =>
      ({ p with transactFailure := none },
        .bothAttemptsFailed "the DCE/RPC exchange on the named pipe" first second)

/-- The write/read mode of a call, with the pipe it leaves. -/
def secondAttempt (turns : ℕ) (p : Pipe) (request : Bytes) (callId : UInt32) :
    PipeVerb (Pipe × Except ClientError Pdu.Answer) := do
  match ← (writeReadCall n turns p request (.new callId)).attempt with
  | .ok (p, collector) => return (p, collector.finish.mapError pduError)
  | .error second =>
      let (p, failure) := p.bothFailed second
      return (p, .error failure)

/-- Writes one request PDU and collects the PDUs of its answer. -/
def call (turns : ℕ) (p : Pipe) (request : Bytes) (callId : UInt32) :
    PipeVerb (Pipe × Except ClientError Pdu.Answer) := do
  .note (.calls request)
  if p.transact then
    match ← (transactCall n turns p request (.new callId)).attempt with
    | .ok (p, collector) => return (p, collector.finish.mapError pduError)
    | .error error =>
        let p := { p with transact := false, transactFailure := some error }
        match ← (reopen n p).attempt with
        | .error error =>
            let (p, failure) := p.bothFailed error
            return (p, .error failure)
        | .ok p => secondAttempt n turns p request callId
  else secondAttempt n turns p request callId

end Pipe

/-! ## Exchanges under a contract -/

namespace Pipe

open Dialogue

variable {n : Negotiated} {turns : ℕ} {p : Pipe} {c : Contract TreeRequest Answer PipeMark}
  {h : List PipeMoment} {I : List PipeMoment → Prop}

/-- What is so before any of these requests is put, and goes on being so. -/
def Survives (c : Contract TreeRequest Answer PipeMark) (I : List PipeMoment → Prop)
    (r : TreeRequest) : Prop :=
  ∀ h, I h → c.required h r ∧ ∀ answer, c.allowed (h ++ [.sent r]) (.answered r answer) →
    I (h ++ [.sent r, .answered r answer])

theorem keeps_put_of_survives {r : TreeRequest} (survives : Survives c I r) (holds : I h) :
    c.Keeps h (r.put n) fun h' _ => I h' := by
  cases encoded : r.encodeBody n with
  | error error =>
      rw [TreeRequest.put, encoded]
      exact Contract.keeps_failed.mpr holds
  | ok body =>
      obtain ⟨required, answered⟩ := survives h holds
      exact TreeRequest.keeps_put_of_encoded encoded required answered

/-- Reading the pipe puts reads of it. -/
theorem keeps_fill {collector : Collector}
    (reads : ∀ request, request.fid = p.fid → Survives c I (.read request)) (holds : I h) :
    c.Keeps h (fill n turns p collector) fun h' result =>
      I h' ∧ ∀ p' c', result = .ok (p', c') → p'.fid = p.fid := by
  induction turns generalizing h p collector with
  | zero => exact Contract.keeps_paused
  | succ turns ih =>
      have failed : ∀ {h' : List PipeMoment} (error : ClientError), I h' →
          I h' ∧ ∀ p' c', (.error error : Except ClientError (Pipe × Collector)) =
            .ok (p', c') → p'.fid = p.fid :=
        fun error holds => ⟨holds, fun p' c' came => by cases came⟩
      have same : ∀ {h' : List PipeMoment}, I h' → I h' ∧ ∀ p' c',
          (.ok (p, collector) : Except ClientError (Pipe × Collector)) = .ok (p', c') →
            p'.fid = p.fid := by
        intro h' holds
        refine ⟨holds, fun p' c' came => ?_⟩
        cases came
        rfl
      rw [fill]
      split
      · exact Contract.keeps_pure.mpr (same holds)
      · apply (keeps_put_of_survives (reads _ rfl) holds).bind
        · intro h' reply _ holds'
          rw [Contract.keeps_bind, Contract.keeps_ofExcept]
          cases acceptPipeStatus reply.status with
          | error error => exact failed error holds'
          | ok value =>
              dsimp only
              rw [Contract.keeps_bind, Contract.keeps_ofExcept]
              cases (ReadAndxResponse.decode reply.message).mapError ClientError.ofWire with
              | error error => exact failed error holds'
              | ok response =>
                  dsimp only
                  split
                  · exact Contract.keeps_pure.mpr (same holds')
                  · rw [Contract.keeps_bind, Contract.keeps_ofExcept]
                    cases (collector.feed response.data).mapError pduError with
                    | error error => exact failed error holds'
                    | ok collector =>
                        apply ih
                        · exact reads
                        · exact holds'
        · exact fun h' error _ holds' => failed error holds'

/-- Writing to the pipe puts writes to it. -/
theorem keeps_writeAll {request : Bytes}
    (writes : ∀ request, request.fid = p.fid → Survives c I (.write request)) (holds : I h) :
    c.Keeps h (writeAll n turns p request) fun h' result =>
      I h' ∧ ∀ p', result = .ok p' → p'.fid = p.fid := by
  induction turns generalizing h p request with
  | zero => exact Contract.keeps_paused
  | succ turns ih =>
      have failed : ∀ {h' : List PipeMoment} (error : ClientError), I h' →
          I h' ∧ ∀ p', (.error error : Except ClientError Pipe) = .ok p' → p'.fid = p.fid :=
        fun error holds => ⟨holds, fun p' came => by cases came⟩
      rw [writeAll]
      split
      · refine Contract.keeps_pure.mpr ⟨holds, fun p' came => ?_⟩
        cases came
        rfl
      · apply (keeps_put_of_survives (writes _ rfl) holds).bind
        · intro h' reply _ holds'
          rw [Contract.keeps_bind, Contract.keeps_ofExcept]
          cases acceptPipeStatus reply.status with
          | error error => exact failed error holds'
          | ok value =>
              dsimp only
              rw [Contract.keeps_bind, Contract.keeps_ofExcept]
              cases (WriteAndxResponse.decode reply.message).mapError ClientError.ofWire with
              | error error => exact failed error holds'
              | ok response =>
                  dsimp only
                  split
                  · exact Contract.keeps_failed.mpr (failed _ holds')
                  · apply ih
                    · exact writes
                    · exact holds'
        · exact fun h' error _ holds' => failed error holds'

/-- A request that names the pipe and neither opens nor closes it. -/
inductive Uses (fid : UInt16) : TreeRequest → Prop
  | read (request : ReadAndxRequest) : request.fid = fid → Uses fid (.read request)
  | write (request : WriteAndxRequest) : request.fid = fid → Uses fid (.write request)
  | pipeTransact (data : Bytes) : Uses fid (.pipeTransact fid data)

theorem keeps_transactCall {request : Bytes} {collector : Collector}
    (uses : ∀ r, Uses p.fid r → Survives c I r) (holds : I h) :
    c.Keeps h (transactCall n turns p request collector) fun h' result =>
      I h' ∧ ∀ p' c', result = .ok (p', c') → p'.fid = p.fid := by
  have failed : ∀ {h' : List PipeMoment} (error : ClientError), I h' →
      I h' ∧ ∀ p' c', (.error error : Except ClientError (Pipe × Collector)) =
        .ok (p', c') → p'.fid = p.fid :=
    fun error holds => ⟨holds, fun p' c' came => by cases came⟩
  have reads : ∀ request, request.fid = p.fid → Survives c I (.read request) :=
    fun request on => uses _ (.read request on)
  rw [transactCall]
  apply (keeps_put_of_survives (uses _ (.pipeTransact request)) holds).bind
  · intro h' reply _ holds'
    rw [Contract.keeps_bind, Contract.keeps_ofExcept]
    cases acceptPipeStatus reply.status with
    | error error => exact failed error holds'
    | ok value =>
        dsimp only
        cases reply.transaction with
        | none =>
            dsimp only
            rw [Contract.keeps_bind]
            exact Contract.keeps_pure.mpr (keeps_fill reads holds')
        | some body =>
            dsimp only
            rw [Contract.keeps_bind, Contract.keeps_ofExcept]
            cases (collector.feed body.data).mapError pduError with
            | error error => exact failed error holds'
            | ok collector => exact keeps_fill reads holds'
  · exact fun h' error _ holds' => failed error holds'

theorem fid_bothFailed (p : Pipe) (second : ClientError) : (p.bothFailed second).1.fid = p.fid := by
  unfold bothFailed
  split <;> rfl

/-- The write/read mode ends on the pipe it was started on, with an answer or a failure. -/
theorem keeps_secondAttempt {request : Bytes} {callId : UInt32}
    (uses : ∀ r, Uses p.fid r → Survives c I r) (holds : I h) :
    c.Keeps h (secondAttempt n turns p request callId) fun h' result =>
      I h' ∧ ∃ p' answer, result = .ok (p', answer) ∧ p'.fid = p.fid := by
  have called : c.Keeps h (writeReadCall n turns p request (.new callId)) fun h' result =>
      I h' ∧ ∀ p' c', result = .ok (p', c') → p'.fid = p.fid := by
    rw [writeReadCall]
    apply (keeps_writeAll (fun request on => uses _ (.write request on)) holds).bind
    · intro h' q _ wrote
      have on := wrote.2 q rfl
      have reads : ∀ request, request.fid = q.fid → Survives c I (.read request) :=
        fun request same => uses _ (.read request (same.trans on))
      apply (keeps_fill reads wrote.1).mono
      exact fun h'' result _ filled => ⟨filled.1, fun p' c' came => (filled.2 p' c' came).trans on⟩
    · exact fun h' error _ wrote => ⟨wrote.1, fun p' c' came => by cases came⟩
  rw [secondAttempt, Contract.keeps_bind, Contract.keeps_attempt]
  apply called.mono
  intro h' result _ kept
  cases result with
  | error second =>
      exact Contract.keeps_pure.mpr ⟨kept.1, _, _, rfl, p.fid_bothFailed second⟩
  | ok value => exact Contract.keeps_pure.mpr ⟨kept.1, _, _, rfl, kept.2 _ _ rfl⟩

end Pipe

namespace Ipc

variable (n : Negotiated) (turns : ℕ) (server : Text)

def bindPdu : Bytes := Pdu.bind Srvsvc.INTERFACE Srvsvc.INTERFACE_VERSION

/-- The PDU of one `NetrShareEnum` round. -/
def enumPdu (call : UInt32) (resume : UInt32) : Bytes :=
  Pdu.request call Srvsvc.OPNUM (Srvsvc.request server resume)

/-- The rounds that are left, behind the shares of the rounds before. -/
def rounds : ℕ → Pipe → UInt32 → List Share → PipeVerb (Pipe × Except ClientError (List Share))
  | 0, p, _, shares =>
      return (p, .error (.protocol (.paging (.tooManyRounds MAX_ROUNDS shares.length))))
  | left + 1, p, resume, shares => do
      let call := UInt32.ofNat (MAX_ROUNDS - (left + 1)) + 1
      let (p, answer) ← p.call n turns (enumPdu server call resume) call
      let page : Except ClientError Srvsvc.Page := do
        let stub ← (Pdu.response (← answer)).mapError pduError
        (Srvsvc.response stub).mapError fun error => .protocol (.srvsvc error)
      match page with
      | .error error => return (p, .error error)
      | .ok page =>
          let shares := shares ++ page.shares
          if page.more = false then return (p, .ok shares)
          else if page.shares = [] then
            return (p, .error (.protocol (.paging (.noProgress resume))))
          else rounds left p page.resume shares

/-- A bind, and however many rounds the server's answer takes. -/
def enumerate (p : Pipe) : PipeVerb (Pipe × Except ClientError (List Share)) := do
  let (p, answer) ← p.call n turns bindPdu 0
  let accepted : Except ClientError Unit := do (Pdu.bindAck (← answer)).mapError pduError
  match accepted with
  | .error error => return (p, .error error)
  | .ok () => do
      .note (.accepts p.fid)
      rounds n turns server MAX_ROUNDS p 0 []

/-- `Ipc::over_srvsvc`. -/
def overSrvsvc : PipeVerb (List Share) := do
  let fid ← Pipe.openFid n SRVSVC_PIPE
  let (p, shares) ← enumerate n turns server
    { fid, offset := 0, transact := true, transactFailure := none, name := SRVSVC_PIPE }
  Pipe.release n p.fid
  .ofExcept shares

end Ipc

end Smb1Client
