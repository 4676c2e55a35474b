import Smb1Client.Resource.Writes

/-!
`FileWriter`, the streaming write of `resource/adapter.rs`.

What a caller writes is buffered, and a buffer that is full or flushed is a span of its own: a
`write_span` in flight, of which there is one at a time. A poll starts a flush or takes one up
that is over; what goes on in between is steps of the span. `into_inner` flushes the rest
before it gives the file back, and takes the writer with it.
-/

namespace Smb1Client

open Tiling Trace

/-- How far `into_inner` has come: not begun, waiting for the flush that was in flight, writing
what was buffered, and over. -/
inductive Closing where
  | writer
  | awaiting
  | writing
  | over
  deriving DecidableEq

/-- A writer over a file. `len` is the file's length as the handle records it; while no span is
in flight, `downgraded` is the connection's flag and `progress` the write's. -/
structure FileWriter where
  cursor : UInt64
  buffer : Bytes
  flight : Option (WriteCall × WriteSpan)
  pendingLength : Option UInt64
  progress : WriteProgress
  downgraded : Bool
  len : UInt64
  closing : Closing

inductive WriterEvent where
  | downgrade
  | write (data : Bytes)
  | flush
  | shutdown
  | intoInner
  | span (e : WriteEvent)

/-- What a writer does: a span it passes to `write_span`, what goes on in there, what that came
to; and what a poll comes to. -/
inductive WriterOut where
  | passes (offset : UInt64) (data : Bytes)
  | wire (out : WriteOut)
  | ended (offset : UInt64) (data : Bytes) (outcome : Except ClientError Unit)
  | wrote (offered : ℕ) (bytes : Bytes)
  | flushed
  | closed
  | pending
  | failed (error : ClientError)
  deriving DecidableEq

namespace FileWriter

/-- What the adapter buffers at most: as many chunks as the depth, modulo 2^64. -/
def capacityOf (n : Negotiated) (downgraded : Bool) (depth : ℕ) : ℕ :=
  max (n.writeChunkSize downgraded) 1 * depth % 2 ^ 64

variable (n : Negotiated) (fid : UInt16) (depth capacity : ℕ)

/-- A writer whose handle has been claimed from where its writes start. -/
def new (base len : UInt64) (downgraded : Bool) (progress : WriteProgress) : FileWriter where
  cursor := base
  buffer := []
  flight := none
  pendingLength := none
  progress
  downgraded
  len
  closing := .writer

/-- Applies what a span that is over earned: the length it wrote, and only if it wrote it. -/
def settle (w : FileWriter) (outcome : Except ClientError Unit) : FileWriter :=
  { w with
    pendingLength := none
    len :=
      match outcome, w.pendingLength with
      | .ok (), some length => max w.len length
      | _, _ => w.len }

/-- Passes what is buffered to `write_span`. -/
def pass (w : FileWriter) : FileWriter × List WriterOut :=
  ({ w with
    buffer := []
    flight := some (⟨n, fid, w.cursor, depth, w.buffer⟩, .start w.downgraded w.progress w.buffer) },
    [.passes w.cursor w.buffer])

/-- Starts writing what is buffered. The cursor goes on at once. -/
def startFlush (w : FileWriter) : FileWriter × List WriterOut :=
  if w.buffer = [] ∨ w.flight.isSome then (w, [])
  else
    let cursor := w.cursor + UInt64.ofNat w.buffer.length
    let (passed, out) := w.pass n fid depth
    ({ passed with cursor, pendingLength := some cursor }, out)

/-- Takes up a span that is over, with the buffer it gives back. -/
def takeUp (w : FileWriter) (s : WriteSpan) (outcome : Except ClientError Unit) : FileWriter :=
  { w with
    buffer := []
    flight := none
    progress := s.progress
    downgraded := s.downgraded }.settle outcome

/-- Drives a flush already in progress: nothing while it goes on. -/
def pollFlushing (w : FileWriter) :
    FileWriter × Option (Except ClientError Unit) × List WriterOut :=
  match w.flight with
  | none => (w, some (.ok ()), [])
  | some (call, s) =>
      match s.result with
      | none => (w, none, [])
      | some outcome => (w.takeUp s outcome, some outcome, [.ended call.offset call.data outcome])

/-- `poll_write`. -/
def pollWrite (w : FileWriter) (data : Bytes) : FileWriter × List WriterOut :=
  match w.pollFlushing with
  | (w, none, out) => (w, out ++ [.pending])
  | (w, some (.error error), out) => (w, out ++ [.failed error])
  | (w, some (.ok ()), out) =>
      if data = [] then (w, out ++ [.wrote 0 []])
      else
        let taking := min (capacity - w.buffer.length) data.length
        let w := { w with buffer := w.buffer ++ data.take taking }
        let out := out ++ [.wrote data.length (data.take taking)]
        if capacity ≤ w.buffer.length then
          let (w, passed) := w.startFlush n fid depth
          (w, out ++ passed)
        else (w, out)

/-- `poll_flush`. What it starts it goes on to wait for. -/
def pollFlush (w : FileWriter) : FileWriter × List WriterOut :=
  match w.pollFlushing with
  | (w, none, out) => (w, out ++ [.pending])
  | (w, some (.error error), out) => (w, out ++ [.failed error])
  | (w, some (.ok ()), out) =>
      if w.buffer = [] then (w, out ++ [.flushed])
      else
        let (w, passed) := w.startFlush n fid depth
        (w, out ++ passed ++ [.pending])

/-- The second half of `flush_buffered`: the cursor stays until the span is over. -/
def flushRest (w : FileWriter) : FileWriter × List WriterOut :=
  if w.buffer = [] then ({ w with closing := .over }, [.closed])
  else
    let (w, passed) := w.pass n fid depth
    ({ w with closing := .writing }, passed ++ [.pending])

/-- A poll of `into_inner`. -/
def pollIntoInner (w : FileWriter) : Option (FileWriter × List WriterOut) :=
  match w.closing with
  | .over => none
  | .writing =>
      match w.flight with
      | none => none
      | some (call, s) =>
          match s.result with
          | none => some (w, [.pending])
          | some outcome =>
              let cursor := w.cursor + UInt64.ofNat call.data.length
              let w := { w with cursor, pendingLength := some cursor }.takeUp s outcome
              some ({ w with closing := .over },
                [.ended call.offset call.data outcome,
                  match outcome with
                  | .ok () => .closed
                  | .error error => .failed error])
  | _ =>
      match w.pollFlushing with
      | (w, none, out) => some ({ w with closing := .awaiting }, out ++ [.pending])
      | (w, some (.error error), out) => some ({ w with closing := .over }, out ++ [.failed error])
      | (w, some (.ok ()), out) =>
          let (w, rest) := w.flushRest n fid depth
          some (w, out ++ rest)

def step (w : FileWriter) : WriterEvent → Option (FileWriter × List WriterOut)
  | .downgrade =>
      if w.downgraded || w.flight.isSome then none else some ({ w with downgraded := true }, [])
  | .write data =>
      if w.closing = .writer then some (w.pollWrite n fid depth capacity data) else none
  | .flush => if w.closing = .writer then some (w.pollFlush n fid depth) else none
  | .shutdown => if w.closing = .writer then some (w.pollFlush n fid depth) else none
  | .intoInner => w.pollIntoInner n fid depth
  | .span e =>
      match w.flight with
      | none => none
      | some (call, s) =>
          (s.step call e).map fun (s, out) =>
            ({ w with flight := some (call, s) }, out.map .wire)

def machine : Machine FileWriter WriterEvent WriterOut where
  step := step n fid depth capacity

end FileWriter

end Smb1Client
