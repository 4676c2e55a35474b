import Smb1Client.ClientError
import Smb1Client.Lib.Dialogue
import Smb1Client.TreeVerbs
import Smb1Client.Wire.Find
import Smb1Client.Wire.Info
import Smb1Client.Wire.Io
import Smb1Client.Wire.Transaction

/-!
The requests put on a tree connect, and putting one.

A request is held as what it says until it is put: the ones that do not encode, and the
transactions that do not fit one message, fail there and reach nobody.
-/

namespace Smb1Client

/-- A request on a tree connect. -/
inductive TreeRequest where
  | create (request : NtCreateAndxRequest)
  | close (request : CloseRequest)
  | read (request : ReadAndxRequest)
  | write (request : WriteAndxRequest)
  | findFirst (params : FindFirst2Params)
  | findNext (params : FindNext2Params)
  | findClose (request : FindClose2Request)
  | queryPath (level : UInt16) (path : Text)
  | pipeTransact (fid : UInt16) (data : Bytes)
  | rap (parameters data : Bytes)
  deriving DecidableEq

/-- What the connection gives a request: a reply, or why there is none. -/
abbrev Answer := Except Error Reply

def Reply.status (r : Reply) : NtStatus := r.message.header.status

/-- The data block of a reassembled transaction reply, or nothing where there is none. -/
def Reply.transactionData (r : Reply) : Bytes := (r.transaction.map (·.data)).getD []

/-- The command body of a transaction that fits one message. -/
def transactionBody (n : Negotiated) (request : TransactionRequest) (what : String) :
    Except ClientError Bytes := do
  (request.checkLimits n.maxBufferSize).mapError (.tooLarge · what)
  request.encodeBody.mapError .ofWire

namespace TreeRequest

/-- The command body, or why the request is not put. -/
def encodeBody (n : Negotiated) : TreeRequest → Except ClientError Bytes
  | create request => request.encodeBody.mapError .ofWire
  | close request => request.encodeBody.mapError .ofWire
  | read request => request.encodeBody.mapError .ofWire
  | write request => request.encodeBody.mapError .ofWire
  | findFirst params => do
      let parameters ← params.encode.mapError .ofWire
      transactionBody n (.trans2 SUBCOMMAND_FIND_FIRST2 parameters []) "TRANS2_FIND_FIRST2"
  | findNext params => do
      let parameters ← params.encode.mapError .ofWire
      transactionBody n (.trans2 SUBCOMMAND_FIND_NEXT2 parameters []) "TRANS2_FIND_NEXT2"
  | findClose request => request.encodeBody.mapError .ofWire
  | queryPath level path =>
      transactionBody n
        (.trans2 SUBCOMMAND_QUERY_PATH_INFORMATION (queryPathParameters level path) [])
        "TRANS2_QUERY_PATH_INFORMATION"
  | pipeTransact fid data => transactionBody n (.pipeTransact fid data) "TRANS_TRANSACT_NMPIPE"
  | rap parameters data => transactionBody n (.rap parameters data) "RAP NetShareEnum"

/-- Puts a request, and goes on with its reply. -/
def put {μ : Type} (n : Negotiated) (r : TreeRequest) :
    Dialogue TreeRequest Answer μ ClientError Reply :=
  match r.encodeBody n with
  | .error error => .failed error
  | .ok _ => .ask r fun answer => .ofExcept (answer.mapError .ofConnection)

/-- Puts a request, and refuses a status that is not success. -/
def checked {μ : Type} (n : Negotiated) (r : TreeRequest) :
    Dialogue TreeRequest Answer μ ClientError Reply := do
  let reply ← r.put n
  if reply.status ≠ .SUCCESS then .failed (.refused reply.status) else return reply

end TreeRequest

/-- A request is put once. -/
theorem TreeRequest.ends_put {μ : Type} (n : Negotiated) (r : TreeRequest) :
    (r.put n : Dialogue TreeRequest Answer μ ClientError Reply).Ends 1 := by
  unfold put
  split
  · trivial
  · exact ⟨one_pos, fun answer => Dialogue.ends_ofExcept⟩

/-! ## Putting a request under a contract -/

namespace TreeRequest

open Dialogue

variable {μ : Type} {c : Contract TreeRequest Answer μ} {n : Negotiated} {r : TreeRequest}
    {h : List (Happening TreeRequest Answer μ)}
    {post : List (Happening TreeRequest Answer μ) → Except ClientError Reply → Prop}

/-- A request that is put is required, and a reply to it is what is gone on with; whatever
else comes of it is a failure. -/
theorem keeps_put (required : c.required h r)
    (replied : ∀ reply, c.allowed (h ++ [.sent r]) (.answered r (.ok reply)) →
      post (h ++ [.sent r, .answered r (.ok reply)]) (.ok reply))
    (failed : ∀ h' error, h' = h ∨ (∃ gone, h' = h ++ [.sent r, .answered r (.error gone)]) →
      post h' (.error error)) : c.Keeps h (r.put n) post := by
  unfold put
  split
  · exact Contract.keeps_failed.mpr (failed h _ (Or.inl rfl))
  · refine Contract.keeps_ask.mpr ⟨required, fun answer allowed => ?_⟩
    rw [Contract.keeps_ofExcept]
    cases answer with
    | error gone => exact failed _ _ (Or.inr ⟨gone, rfl⟩)
    | ok reply => exact replied reply allowed

/-- A request that encodes is put, whatever is said of it. -/
theorem keeps_put_of_encoded {body : Bytes} (encoded : r.encodeBody n = .ok body)
    (required : c.required h r)
    (answered : ∀ answer, c.allowed (h ++ [.sent r]) (.answered r answer) →
      post (h ++ [.sent r, .answered r answer]) (answer.mapError .ofConnection)) :
    c.Keeps h (r.put n) post := by
  unfold put
  rw [encoded]
  refine Contract.keeps_ask.mpr ⟨required, fun answer allowed => ?_⟩
  exact Contract.keeps_ofExcept.mpr (answered answer allowed)

theorem keeps_checked (required : c.required h r)
    (replied : ∀ reply, c.allowed (h ++ [.sent r]) (.answered r (.ok reply)) →
      reply.status = .SUCCESS → post (h ++ [.sent r, .answered r (.ok reply)]) (.ok reply))
    (failed : ∀ h' error, h' = h ∨ (∃ answer, h' = h ++ [.sent r, .answered r answer]) →
      post h' (.error error)) : c.Keeps h (r.checked n) post := by
  rw [checked, Contract.keeps_bind]
  apply keeps_put required
  · intro reply allowed
    dsimp only
    split
    · exact Contract.keeps_failed.mpr (failed _ _ (Or.inr ⟨_, rfl⟩))
    · next success => exact Contract.keeps_pure.mpr (replied reply allowed (not_not.mp success))
  · intro h' error shape
    rcases shape with rfl | ⟨gone, rfl⟩
    · exact failed _ _ (Or.inl rfl)
    · exact failed _ _ (Or.inr ⟨_, rfl⟩)

end TreeRequest

end Smb1Client
