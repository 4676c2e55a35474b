import Smb1Client.Lib.Tenure
import Smb1Client.Resource.StoredWrites
import Smb1Client.RemoveDirAll

/-!
`Tree::write` and `Tree::read`: a file opened for the call, written or read whole, and closed
whatever came of it.
-/

namespace Smb1Client

open Tiling Trace Overlay Dialogue

/-- `WRITE_PIPELINE_THRESHOLD`. -/
def WRITE_PIPELINE_THRESHOLD : ℕ := 256 * 1024

/-- How deep a one-shot write pipelines. -/
def writeDepth (length : ℕ) : ℕ := if length ≥ WRITE_PIPELINE_THRESHOLD then PIPELINE_DEPTH else 1

/-- A handle that serves one write, from the start of the file on. -/
def WriteProgress.claimed : WriteProgress :=
  { WriteProgress.new with registered := true, issuing := true }

theorem writeDepth_pos (length : ℕ) : 1 ≤ writeDepth length := by
  unfold writeDepth
  split <;> decide

/-- A call over a file that is open for it. -/
abbrev FileCall (κ σ π α : Type) :=
  Tenure TreeRequest Answer Taking ClientError NtCreateAndxResponse Bool κ σ π α

namespace Tree

variable (n : Negotiated)

/-- `Tree::open_with`. -/
def openWith (path : Text) (options : OpenOptions) : TreeVerb NtCreateAndxResponse := do
  let path ← sharePath path
  createAndx n (options.request path)

/-- `File::write_all_at`, of all there is from the start on. -/
def writeCall (file : NtCreateAndxResponse) (contents : Bytes) : WriteCall :=
  ⟨n, file.fid, 0, writeDepth contents.length, contents⟩

/-- `Tree::write`. -/
def write (path : Text) (contents : Bytes) : FileCall WriteEvent WriteSpan WriteOut Unit where
  acquire := openWith n path { write := true, create := true, truncate := true }
  enter _ downgraded := .start downgraded .claimed contents
  body file := WriteSpan.machine (writeCall n file contents)
  result _ s := s.result
  release file := closeHandle n file.fid

/-- `File::read_to_end`, of as much as the open said there is. -/
def readCall (file : NtCreateAndxResponse) : ReadCall :=
  ⟨n, file.fid, 0, readDepth file.endOfFile.toNat⟩

/-- `Tree::read`. -/
def read (path : Text) : FileCall ReadEvent ReadSpan ReadAndxRequest Bytes where
  acquire := openWith n path { read := true }
  enter file downgraded := .start downgraded (.replicate file.endOfFile.toNat 0)
  body file := ReadSpan.machine (readCall n file)
  result _ s := s.result.map (readToEnd s.buffer)
  release file := closeHandle n file.fid

/-! ## Opening and closing -/

/-- What an open makes of its answer. -/
def opened : Answer → Except ClientError NtCreateAndxResponse
  | .error error => .error (.ofConnection error)
  | .ok reply =>
      if reply.status ≠ .SUCCESS then .error (.refused reply.status)
      else (NtCreateAndxResponse.decode reply.message).mapError .ofWire

/-- What a close makes of its answer. -/
def closed : Answer → Except ClientError Unit
  | .error error => .error (.ofConnection error)
  | .ok reply => if reply.status ≠ .SUCCESS then .error (.refused reply.status) else .ok ()

variable {n} {raw : Text} {p : SharePath} {options : OpenOptions}

/-- An open is one request, where the path and the request are good for it. -/
theorem openWith_eq {body : Bytes} (accepted : SharePath.new raw = .ok p)
    (encodes : (TreeRequest.create (options.request p)).encodeBody n = .ok body) :
    openWith n raw options = single (.create (options.request p)) opened := by
  rw [openWith, sharePath, accepted]
  change createAndx n (options.request p) = _
  rw [createAndx, TreeRequest.checked, TreeRequest.put, encodes]
  apply congrArg (Dialogue.ask _)
  funext answer
  cases answer with
  | error error => rfl
  | ok reply =>
      rw [opened]
      by_cases success : reply.status = .SUCCESS
      · rw [if_neg (not_not.mpr success)]
        change Dialogue.bind (Dialogue.bind (Dialogue.done reply) fun reply => _) _ = _
        simp only [Dialogue.bind, success]
        rfl
      · rw [if_pos success]
        change Dialogue.bind (Dialogue.bind (Dialogue.done reply) fun reply => _) _ = _
        simp only [Dialogue.bind, if_pos success]
        rfl

/-- A close is one request. -/
theorem closeHandle_eq (n : Negotiated) (fid : UInt16) :
    closeHandle n fid = single (.close ⟨fid, CLOSE_LEAVES_THE_TIME_ALONE⟩) closed := by
  rw [closeHandle, TreeRequest.checked, TreeRequest.put]
  apply congrArg (Dialogue.ask _)
  funext answer
  cases answer with
  | error error => rfl
  | ok reply =>
      rw [closed]
      change Dialogue.bind (Dialogue.bind (Dialogue.done reply) fun reply => _) _ = _
      by_cases success : reply.status = .SUCCESS
      · simp only [Dialogue.bind, success]
        rfl
      · simp only [Dialogue.bind, if_pos success]
        rfl

theorem openWith_cases (n : Negotiated) (raw : Text) (options : OpenOptions) :
    (∃ error, openWith n raw options = .failed error) ∨
      ∃ p, openWith n raw options = single (.create (options.request p)) opened := by
  cases accepted : SharePath.new raw with
  | error error => exact Or.inl ⟨_, by rw [openWith, sharePath, accepted]; rfl⟩
  | ok p =>
      cases encodes : (TreeRequest.create (options.request p)).encodeBody n with
      | error error =>
          left
          refine ⟨error, ?_⟩
          rw [openWith, sharePath, accepted]
          change createAndx n (options.request p) = _
          rw [createAndx, TreeRequest.checked, TreeRequest.put, encodes]
          rfl
      | ok body => exact Or.inr ⟨p, openWith_eq accepted encodes⟩

/-- What an open asks, and when. -/
theorem openWith_asks {answers : List Answer} {request : TreeRequest}
    (asks : (openWith n raw options).asks answers = some request) :
    answers = [] ∧ ∃ p, request = .create (options.request p) := by
  rcases openWith_cases n raw options with ⟨error, fails⟩ | ⟨p, shape⟩
  · rw [fails] at asks
    cases asks
  · rw [shape] at asks
    obtain ⟨first, same⟩ := asks_single asks
    exact ⟨first, p, same⟩

/-- What an open that has ended has exchanged, and what it came to. -/
theorem ended_openWith {answers : List Answer} {came : Except ClientError NtCreateAndxResponse}
    (ended : (openWith n raw options).outcome answers = some came) :
    (∃ error, came = .error error ∧ exchanges ((openWith n raw options).history answers) = []) ∨
      ∃ p answer rest, answers = answer :: rest ∧ came = opened answer ∧
        exchanges ((openWith n raw options).history answers) =
          [(.create (options.request p), answer)] := by
  rcases openWith_cases n raw options with ⟨error, fails⟩ | ⟨p, shape⟩
  · rw [fails] at ended ⊢
    exact Or.inl ⟨error, (Option.some.inj ended).symm, rfl⟩
  · rw [shape] at ended ⊢
    exact Or.inr ⟨p, ended_single ended⟩

theorem openWith_outcome {answers : List Answer} {file : NtCreateAndxResponse}
    (acquired : (openWith n raw options).outcome answers = some (.ok file)) :
    ∃ answer rest, answers = answer :: rest ∧ opened answer = .ok file := by
  rcases ended_openWith acquired with ⟨error, ⟨⟩, -⟩ | ⟨p, answer, rest, same, granted, -⟩
  exact ⟨answer, rest, same, granted.symm⟩

theorem opened_success {answer : Answer} {file : NtCreateAndxResponse}
    (granted : opened answer = .ok file) : ∃ reply, answer = .ok reply ∧ reply.status = .SUCCESS ∧
      NtCreateAndxResponse.decode reply.message = .ok file := by
  cases answer with
  | error error => cases granted
  | ok reply =>
      rw [opened] at granted
      split at granted
      · cases granted
      · next success =>
          cases decoded : NtCreateAndxResponse.decode reply.message with
          | error error => rw [decoded] at granted; cases granted
          | ok found =>
              rw [decoded] at granted
              cases granted
              exact ⟨reply, rfl, not_not.mp success, decoded⟩

end Tree

/-! ## What is opened is closed -/

theorem openReply_fits (fid : UInt16) (length : UInt64) :
    HEADER_LEN + 1 + CREATE_RESPONSE_WORDS.toNat * 2 + 2 ≤
      (List.replicate 33 0 ++ (AndX.NONE.write ++ (0 :: (LittleEndian.u16le fid ++
        (List.replicate 48 0 ++ (LittleEndian.u64le length ++ List.replicate 7 0)))))).length := by
  simp [AndX.length_write, CREATE_RESPONSE_WORDS, HEADER_LEN]

/-- The answer to an open of a file, with its length. -/
def openReply (fid : UInt16) (length : UInt64) : Reply where
  message :=
    { header := SmbHeader.request Command.NT_CREATE_ANDX
      bytes := .replicate 33 0 ++ (AndX.NONE.write ++ (0 :: (LittleEndian.u16le fid ++
        (.replicate 48 0 ++ (LittleEndian.u64le length ++ .replicate 7 0)))))
      wordCount := CREATE_RESPONSE_WORDS
      byteCount := 0
      fits := openReply_fits fid length }
  transaction := none

/-- The answer to a close. -/
def closeReply : Reply where
  message :=
    { header := SmbHeader.request Command.CLOSE
      bytes := .replicate 35 0
      wordCount := 0
      byteCount := 0
      fits := Message.fits_empty }
  transaction := none

namespace Tree

variable {n : Negotiated} {raw : Text} {options : OpenOptions} {κ σ π α : Type}
  {call : FileCall κ σ π α} {es : List (Tenure.Event Answer Bool κ)}
  {stage : Tenure.Stage Answer ClientError NtCreateAndxResponse σ α}
  {log : List (Tenure.Out TreeRequest Answer π)} {result : Except ClientError α}

/-- What a call over a file has exchanged beside its reads and writes, once it is over: nothing,
an open that brought no handle (be it refused, lost, or answered with what does not decode), or an
open and the close of what it opened. -/
inductive Bracketed (options : OpenOptions) (result : Except ClientError α) :
    List (TreeRequest × Answer) → Prop
  | unasked {error : ClientError} (failed : result = .error error) : Bracketed options result []
  | unopened {p : SharePath} {answer : Answer} {error : ClientError}
      (unopened : Tree.opened answer = .error error) (failed : result = .error error) :
      Bracketed options result [(.create (options.request p), answer)]
  | closed {p : SharePath} {answer answer' : Answer} {file : NtCreateAndxResponse}
      (granted : Tree.opened answer = .ok file)
      (tells : ∀ error, Tree.closed answer' = .error error → ∃ error', result = .error error') :
      Bracketed options result [(.create (options.request p), answer),
        (.close ⟨file.fid, CLOSE_LEAVES_THE_TIME_ALONE⟩, answer')]

/-- A call over a file that it opens itself has closed the file by the time it is over. -/
theorem bracketed_of_outcome (opens : call.acquire = openWith n raw options)
    (closes : ∀ file, call.release file = closeHandle n file.fid)
    (ran : call.machine.run (.acquiring []) es = some (stage, log))
    (ends : call.outcome stage = some result) :
    Bracketed options result (Tenure.exchanged log) := by
  rcases Tenure.released_of_outcome ran ends with ⟨answers, error, failed, rfl, all⟩ |
    ⟨answers, file, came, answers', released, acquired, ended, comes, all⟩
  · rw [all]
    rw [opens] at failed ⊢
    rcases ended_openWith failed with ⟨_, -, none⟩ | ⟨p, answer, _, -, unopened, one⟩
    · rw [none]
      exact .unasked rfl
    · rw [one]
      exact .unopened unopened.symm rfl
  · rw [all]
    rw [opens] at acquired ⊢
    rw [closes, closeHandle_eq] at ended ⊢
    rcases ended_openWith acquired with ⟨error, ⟨⟩, -⟩ | ⟨p, answer, _, -, granted, one⟩
    obtain ⟨answer', _, -, told, last⟩ := ended_single ended
    rw [one, last]
    refine .closed granted.symm fun error unclosed => ?_
    rw [told, unclosed] at comes
    cases came with
    | error error' => exact ⟨error', comes⟩
    | ok value => exact ⟨error, comes⟩

/-- **What a one-shot call opens it closes, once.** A `write` or a `read` that is over, whatever it
came to, has closed the file it opened under the handle it was granted, and a close that failed is
told of. -/
theorem one_shots_close (n : Negotiated) (raw : Text) :
    (∀ contents es stage log result,
      (write n raw contents).machine.run (.acquiring []) es = some (stage, log) →
        (write n raw contents).outcome stage = some result →
          Bracketed { write := true, create := true, truncate := true } result
            (Tenure.exchanged log)) ∧
      ∀ es stage log result, (read n raw).machine.run (.acquiring []) es = some (stage, log) →
        (read n raw).outcome stage = some result →
          Bracketed { read := true } result (Tenure.exchanged log) :=
  ⟨fun _ _ _ _ _ => bracketed_of_outcome rfl fun _ => rfl,
    fun _ _ _ _ => bracketed_of_outcome rfl fun _ => rfl⟩

/-- Three bytes, written in one request that is answered at once. -/
def threeBytesWritten : List (Tenure.Event Answer Bool WriteEvent) :=
  [.answer (.ok (openReply 7 2)), .enter false, .work (.issue false),
    .work (.reply 0 (.ok (writeReply 3))), .work (.answer 0), .work .finish, .leave,
    .answer (.ok closeReply)]

theorem one_shots_close_three : ∃ stage log,
    (write ⟨50, 16644, 0⟩ ['a'] [1, 2, 3]).machine.run (.acquiring []) threeBytesWritten =
        some (stage, log) ∧
      (write ⟨50, 16644, 0⟩ ['a'] [1, 2, 3]).outcome stage = some (.ok ()) ∧
        Bracketed { write := true, create := true, truncate := true } (.ok ())
          (Tenure.exchanged log) := by
  have happened : ((write ⟨50, 16644, 0⟩ ['a'] [1, 2, 3]).machine.run (.acquiring [])
      threeBytesWritten).map (fun ended => (write ⟨50, 16644, 0⟩ ['a'] [1, 2, 3]).outcome ended.1) =
        some (some (.ok ())) := by
    decide +kernel
  obtain ⟨⟨stage, log⟩, ran, ends⟩ := Option.map_eq_some_iff.mp happened
  exact ⟨stage, log, ran, ends, (one_shots_close ⟨50, 16644, 0⟩ ['a']).1 [1, 2, 3]
    threeBytesWritten stage log (.ok ()) ran ends⟩

end Tree

/-! ## What is written -/

namespace FileStore

/-- An open that overwrites leaves an empty file. -/
def opens (t : FileStore) : TreeRequest → Answer → FileStore
  | .create request, .ok reply =>
      if reply.status = .SUCCESS ∧ request.createDisposition = FILE_OVERWRITE_IF then
        { t with file := [] }
      else t
  | _, _ => t

/-- What a one-shot write does on the wire. -/
def wire : Tenure.Out TreeRequest Answer WriteOut → Option WriteOut
  | .exchange _ _ => none
  | .work out => some out

def hearsCall (t : FileStore) : Tenure.Out TreeRequest Answer WriteOut → FileStore
  | .exchange request answer => t.opens request answer
  | .work out => t.hears some out

end FileStore

namespace Tree

variable {n : Negotiated} {raw : Text} {contents original : Bytes} {t : FileStore}

theorem closeHandle_asks {fid : UInt16} {answers : List Answer} {request : TreeRequest}
    (asks : (closeHandle n fid).asks answers = some request) :
    request = .close ⟨fid, CLOSE_LEAVES_THE_TIME_ALONE⟩ := by
  rw [closeHandle_eq] at asks
  exact (asks_single asks).2

/-- A one-shot write, and the server it writes to. -/
def stored (n : Negotiated) (raw : Text) (contents : Bytes) :=
  (write n raw contents).machine.beside
    (⟨FileStore.hearsCall, FileStore.lands⟩ : Surrounding FileStore Landing _)

/-- The account of the file over a one-shot write: it is as it was until the open has emptied it,
and from then on parts of the contents are stored in it. -/
inductive Written (n : Negotiated) (contents original : Bytes) (t : FileStore)
    (log : List WriteOut) :
    Tenure.Stage Answer ClientError NtCreateAndxResponse WriteSpan Unit → Prop
  | before (unasked : t.asked = []) (still : t.file = original) (quiet : log = []) :
      Written n contents original t log (.acquiring [])
  | opened {answer : Answer} (unasked : t.asked = [])
      (emptied : t.file = original ∧ (∀ file, Tree.opened answer ≠ .ok file) ∨ t.file = [])
      (quiet : log = []) : Written n contents original t log (.acquiring [answer])
  | working {file : NtCreateAndxResponse} {s : WriteSpan}
      (accounted : s.Accounted (writeCall n file contents) log)
      (finished : s.Finished (writeCall n file contents))
      (kept : FileStore.Kept 0 contents [] t log) :
      Written n contents original t log (.working file s)
  | closing {file : NtCreateAndxResponse} {came : Except ClientError Unit} {answers : List Answer}
      (kept : FileStore.Kept 0 contents [] t log)
      (all : came = .ok () → ∀ q, WriteSpan.landed q (WriteSpan.acks log) =
        holds q 0 contents.length) :
      Written n contents original t log (.releasing file came answers)

theorem Written.acquires {p : SharePath} {answer : Answer}
    (written : Written n contents original t log (.acquiring [])) :
    Written n contents original
      (t.opens (.create (({ write := true, create := true, truncate := true } :
        OpenOptions).request p)) answer) log (.acquiring [answer]) := by
  cases written with
  | before unasked still quiet =>
      cases answer with
      | error error =>
          exact .opened unasked (Or.inl ⟨still, fun file granted => by cases granted⟩) quiet
      | ok reply =>
          by_cases success : reply.status = .SUCCESS
          · have emptied : t.opens (.create (({ write := true, create := true, truncate := true } :
                OpenOptions).request p)) (.ok reply) = { t with file := [] } :=
              if_pos ⟨success, rfl⟩
            rw [emptied]
            exact .opened unasked (Or.inr rfl) quiet
          · have same : t.opens (.create (({ write := true, create := true, truncate := true } :
                OpenOptions).request p)) (.ok reply) = t :=
              if_neg fun both => success both.1
            rw [same]
            refine .opened unasked (Or.inl ⟨still, fun file granted => ?_⟩) quiet
            obtain ⟨reply', ⟨⟩, success', -⟩ := opened_success granted
            exact success success'

theorem Written.works {file : NtCreateAndxResponse} {s s' : WriteSpan} {e : WriteEvent}
    {out : List WriteOut} (fits : contents.length ≤ 2 ^ 64)
    (written : Written n contents original t log (.working file s))
    (stepped : s.step (writeCall n file contents) e = some (s', out))
    (honest : ∀ ack ∈ WriteSpan.acks out, FileStore.Has t.file ack) :
    Written n contents original (out.foldl (FileStore.hears some) t) (log ++ out)
      (.working file s') := by
  cases written with
  | working accounted finished kept =>
      obtain ⟨accounted', finished', kept'⟩ := WriteSpan.kept_stepped (writeDepth_pos _)
        (by change 0 + contents.length ≤ _; omega) accounted finished kept honest stepped
      exact .working accounted' finished' kept'

/-- A step keeps the account of the file. -/
theorem Written.stepped {stage stage' : Tenure.Stage Answer ClientError NtCreateAndxResponse
      WriteSpan Unit} {e : Tenure.Event Answer Bool WriteEvent}
    {out : List (Tenure.Out TreeRequest Answer WriteOut)} (fits : contents.length ≤ 2 ^ 64)
    (written : Written n contents original t log stage)
    (stepped : (write n raw contents).step stage e = some (stage', out))
    (honest : ∀ ack ∈ WriteSpan.acks (out.filterMap FileStore.wire), FileStore.Has t.file ack) :
    Written n contents original (out.foldl FileStore.hearsCall t)
      (log ++ out.filterMap FileStore.wire) stage' := by
  cases Tenure.step_cases stepped with
  | acquires asks =>
      obtain ⟨rfl, p, rfl⟩ := openWith_asks asks
      change Written n contents original (t.opens _ _) (log ++ []) _
      rw [List.append_nil]
      exact written.acquires
  | @enters answers held how acquired =>
      obtain ⟨answer, rest, rfl, granted⟩ := openWith_outcome acquired
      change Written n contents original t (log ++ []) _
      rw [List.append_nil]
      cases written with
      | opened unasked emptied quiet =>
          rcases emptied with ⟨-, none⟩ | empty
          · exact absurd granted (none held)
          · obtain ⟨file, asked⟩ := t
            cases unasked
            cases empty
            cases quiet
            exact .working WriteSpan.accounted_start WriteSpan.finished_start FileStore.kept_start
  | @works held s s' e did goes =>
      have wires : (did.map Tenure.Out.work).filterMap FileStore.wire = did := by
        rw [List.filterMap_map]
        exact List.filterMap_some
      have hears : (did.map Tenure.Out.work).foldl FileStore.hearsCall t =
          did.foldl (FileStore.hears some) t := List.foldl_map
      rw [wires] at honest ⊢
      rw [hears]
      exact written.works fits goes honest
  | @leaves held s came done =>
      change Written n contents original t (log ++ []) _
      rw [List.append_nil]
      cases written with
      | working accounted finished kept =>
          refine .closing kept fun fine => ?_
          rw [fine] at done
          exact WriteSpan.tiles_of_ok accounted finished done
  | releases asks =>
      cases closeHandle_asks asks
      change Written n contents original t (log ++ []) _
      rw [List.append_nil]
      cases written with
      | closing kept all => exact .closing kept all

/-- Something is stored. Nothing is before a request for it has been put. -/
theorem Written.lands {stage : Tenure.Stage Answer ClientError NtCreateAndxResponse WriteSpan Unit}
    {l : Landing} {t' : FileStore} (written : Written n contents original t log stage)
    (lands : t.lands l = some t') : Written n contents original t' log stage := by
  cases written with
  | before unasked still quiet =>
      obtain ⟨request, found, -⟩ := Option.map_eq_some_iff.mp lands
      rw [unasked] at found
      cases found
  | opened unasked emptied quiet =>
      obtain ⟨request, found, -⟩ := Option.map_eq_some_iff.mp lands
      rw [unasked] at found
      cases found
  | working accounted finished kept => exact .working accounted finished (kept.lands lands)
  | closing kept all => exact .closing (kept.lands lands) all

variable {stage : Tenure.Stage Answer ClientError NtCreateAndxResponse WriteSpan Unit}
  {es : List (Tenure.Event Answer Bool WriteEvent ⊕ Landing)}
  {log' : List (Tenure.Out TreeRequest Answer WriteOut)}

theorem written_run (fits : contents.length ≤ 2 ^ 64)
    (honest : ∀ v ∈ (stored n raw contents).visits (.acquiring [], ⟨original, []⟩) es,
      FileStore.Honest (write n raw contents).machine FileStore.wire v)
    (ran : (stored n raw contents).run (.acquiring [], ⟨original, []⟩) es =
      some ((stage, t), log')) :
    Written n contents original t (log'.filterMap FileStore.wire) stage := by
  have kept := Machine.beside_induction (P := fun done stage t log =>
    (∀ v ∈ done, FileStore.Honest (write n raw contents).machine FileStore.wire v) →
      Written n contents original t (log.filterMap FileStore.wire) stage) ?_ ?_ ?_ ran
  · exact kept honest
  · exact fun _ => .before rfl rfl rfl
  · intro done stage t log e stage' out before stepped within
    have written := before fun v member => within v (List.mem_append_left _ member)
    rw [List.filterMap_append]
    exact written.stepped fits stepped
      (within ((stage, t), .inl e) (by simp) e rfl (stage', out) stepped)
  · intro done stage t log move t' before lands within
    exact (before fun v member => within v (List.mem_append_left _ member)).lands lands

/-- The file, whatever a one-shot write has come to: as it was, or made of parts of the
contents. -/
theorem Written.between (written : Written n contents original t log stage) :
    t.file = original ∨ Between 0 [] 0 contents t.file := by
  cases written with
  | before unasked still quiet => exact Or.inl still
  | opened unasked emptied quiet =>
      rcases emptied with ⟨still, -⟩ | empty
      · exact Or.inl still
      · rw [empty]
        exact Or.inr between_refl
  | working accounted finished kept => exact Or.inr kept.file
  | closing kept all => exact Or.inr kept.file

end Tree

/-! ## What is read -/

/-- What a fill that is over is of a file that begins with the span. -/
theorem ReadSpan.Exact.readToEnd {F : Bytes} {call : ReadCall} {size : ℕ} {s : ReadSpan}
    {fill : Fill} (faithful : Exact F call size s) (start : call.offset = 0)
    (file : F.length < 2 ^ 64) (short : size < 2 ^ 64) (came : s.result = some (.ok fill)) :
    readToEnd s.buffer (.ok fill) = .ok (F.take (min size F.length)) := by
  have zero : call.offset.toNat = 0 := by
    rw [start]
    rfl
  have bytes := faithful.bytes (Or.inr file) came
  have within : held F call size ≤ size := min_le_left _ _
  have sized := faithful.accounted.sized
  have cells : fill.covered.cells = Set.Iio (held F call size) := by
    ext p
    by_cases low : call.offset.toNat + p < 2 ^ 64
    · exact faithful.covers came low
    · have next := faithful.accounted.spans.next
      obtain ⟨rfl, -⟩ := faithful.done fill came
      have outside : p ∉ s.covered.cells := by
        intro cell
        have inside := (faithful.accounted.covered p cell).1
        omega
      have past : ¬ p < held F call size := by omega
      exact iff_of_false outside past
  rw [readToEnd_of_front cells (by rw [sized]; exact within), bytes, zero, List.drop_zero, held,
    zero]
  rfl

namespace Tree

variable {n : Negotiated} {raw : Text} {F : Bytes}

/-- The server says how long its file is, and answers reads with its bytes. -/
def Reads (F : Bytes) : Tenure.Stage Answer ClientError NtCreateAndxResponse ReadSpan Bytes ×
    Tenure.Event Answer Bool ReadEvent → Prop
  | (.acquiring _, .answer answer) =>
      ∀ file ∈ (opened answer).toOption, file.endOfFile.toNat = F.length
  | (.working _ s, .work e) => s.Truthful F e
  | _ => True

instance (v : Tenure.Stage Answer ClientError NtCreateAndxResponse ReadSpan Bytes ×
    Tenure.Event Answer Bool ReadEvent) : Decidable (Reads F v) := by
  rcases v with ⟨_ | _ | _, _ | _ | _ | _⟩ <;> unfold Reads <;> infer_instance

/-- The account of a one-shot read of a file that does not change. -/
inductive ReadOut (n : Negotiated) (F : Bytes) :
    Tenure.Stage Answer ClientError NtCreateAndxResponse ReadSpan Bytes → Prop
  | before : ReadOut n F (.acquiring [])
  | opened {answer : Answer}
      (sized : ∀ file ∈ (Tree.opened answer).toOption, file.endOfFile.toNat = F.length) :
      ReadOut n F (.acquiring [answer])
  | working {file : NtCreateAndxResponse} {s : ReadSpan} (sized : file.endOfFile.toNat = F.length)
      (faithful : s.Exact F (readCall n file) F.length) : ReadOut n F (.working file s)
  | closing {file : NtCreateAndxResponse} {came : Except ClientError Bytes} {answers : List Answer}
      (whole : ∀ bytes, came = .ok bytes → bytes = F) : ReadOut n F (.releasing file came answers)

theorem readDepth_pos (length : ℕ) : 1 ≤ readDepth length := by
  unfold readDepth
  split <;> decide

theorem ReadOut.stepped {stage stage' : Tenure.Stage Answer ClientError NtCreateAndxResponse
      ReadSpan Bytes} {e : Tenure.Event Answer Bool ReadEvent}
    {out : List (Tenure.Out TreeRequest Answer ReadAndxRequest)} (short : F.length < 2 ^ 64)
    (readOut : ReadOut n F stage) (reads : Reads F (stage, e))
    (stepped : (read n raw).step stage e = some (stage', out)) : ReadOut n F stage' := by
  cases Tenure.step_cases stepped with
  | acquires asks =>
      obtain ⟨rfl, -⟩ := openWith_asks asks
      exact .opened reads
  | @enters answers held how acquired =>
      obtain ⟨answer, rest, rfl, granted⟩ := openWith_outcome acquired
      cases readOut with
      | opened sized =>
          rw [granted] at sized
          have sized := sized held rfl
          have long : (List.replicate held.endOfFile.toNat (0 : UInt8)).length = F.length := by
            rw [List.length_replicate, sized]
          refine .working sized ?_
          rw [← long]
          exact ReadSpan.exact_start
  | @works held s s' e did goes =>
      cases readOut with
      | working sized faithful =>
          exact .working sized (faithful.stepped (Or.inr short) (readDepth_pos _) reads
            (ReadSpan.step_cases goes))
  | @leaves held s came done =>
      cases readOut with
      | working sized faithful =>
          refine .closing fun bytes fine => ?_
          obtain ⟨result, came', rfl⟩ := Option.map_eq_some_iff.mp done
          cases result with
          | error error => cases fine
          | ok fill =>
              rw [faithful.readToEnd rfl short short came', min_self, List.take_length] at fine
              exact (Except.ok.inj fine).symm
  | releases asks =>
      cases readOut with
      | closing whole => exact .closing whole

end Tree

end Smb1Client
