import Smb1Client.Lib.Trace
import Smb1Client.Resource.LaidPages

/-!
A listing under `next_entry` calls that are dropped and made again.

The search goes on from where its last reply left it on the server. A page that is sent
for a call that is gone is in no later one, and nothing tells the calls behind it.
-/

namespace Smb1Client

open LittleEndian Trace

/-! ## Pages -/

/-- The entries of the page a reply carries. -/
def pageEntries (first : Bool) (reply : Reply) : List DirectoryEntry :=
  if reply.status ≠ .SUCCESS then []
  else
    match ReadDir.decodePage first reply with
    | .error _ => []
    | .ok (found, data) => (walkEntries data found.searchCount).toOption.getD []

/-- Whether a reply ends the search. -/
def endsSearch (first : Bool) (reply : Reply) : Bool :=
  if reply.status = .NO_MORE_FILES then true
  else if reply.status ≠ .SUCCESS then false
  else
    match ReadDir.decodePage first reply with
    | .error _ => false
    | .ok (found, data) =>
        (walkEntries data found.searchCount).toBool && found.endOfSearch ≠ 0

namespace ReadDir

variable {r : ReadDir} {first : Bool} {reply : Reply} {found : FindReply} {data : Bytes}

/-- A round adds the entries of the page behind those in hand, and ends the listing where
the reply says so. An error is not an end. -/
structure PagedIn (r r' : ReadDir) (entries : List DirectoryEntry) (ends : Bool)
    (taken : Except ClientError Unit) : Prop where
  page : r'.page = r.page ++ shown entries
  finished : r'.finished = (r.finished || ends)
  closed : r'.closed = r.closed
  failed : ∀ error, taken = .error error → ends = false

theorem takeEntries_spec :
    PagedIn r (r.takeEntries found data).1 ((walkEntries data found.searchCount).toOption.getD [])
      ((walkEntries data found.searchCount).toBool && found.endOfSearch ≠ 0)
      (r.takeEntries found data).2 := by
  rw [takeEntries]
  cases walkEntries data found.searchCount with
  | error error => exact ⟨(List.append_nil _).symm, (Bool.or_false _).symm, rfl, fun _ _ => rfl⟩
  | ok entries =>
      dsimp only
      split
      · next ended =>
          refine ⟨rfl, ?_, rfl, fun error came => by cases came⟩
          simp [Except.toBool, ended]
      · next unended =>
          have more : decide (found.endOfSearch ≠ 0) = false := decide_eq_false unended
          rw [more, Bool.and_false]
          split <;> exact ⟨rfl, (Bool.or_false _).symm, rfl, fun _ _ => rfl⟩

theorem pageIn_spec :
    PagedIn r (r.pageIn first reply).1 (pageEntries first reply) (endsSearch first reply)
      (r.pageIn first reply).2 := by
  rw [pageIn, pageEntries, endsSearch]
  by_cases ended : reply.status = .NO_MORE_FILES
  · have refused : reply.status ≠ .SUCCESS := by
      rw [ended]
      decide
    rw [if_pos ended, if_pos refused, if_pos ended]
    exact ⟨(List.append_nil _).symm, (Bool.or_true _).symm, rfl, fun error came => by cases came⟩
  · rw [if_neg ended, if_neg ended]
    by_cases refused : reply.status ≠ .SUCCESS
    · rw [if_pos refused, if_pos refused, if_pos refused]
      exact ⟨(List.append_nil _).symm, (Bool.or_false _).symm, rfl, fun _ _ => rfl⟩
    · rw [if_neg refused, if_neg refused, if_neg refused]
      cases decodePage first reply with
      | error error =>
          exact ⟨(List.append_nil _).symm, (Bool.or_false _).symm, rfl, fun _ _ => rfl⟩
      | ok result =>
          obtain ⟨found, data⟩ := result
          obtain ⟨page, finished, closed, failed⟩ :=
            @takeEntries_spec (if first then { r with sid := found.sid } else r) found data
          have same : (if first then { r with sid := found.sid } else r).page = r.page ∧
              (if first then { r with sid := found.sid } else r).finished = r.finished ∧
                (if first then { r with sid := found.sid } else r).closed = r.closed := by
            cases first <;> exact ⟨rfl, rfl, rfl⟩
          exact ⟨page.trans (by rw [same.1]), finished.trans (by rw [same.2.1]),
            closed.trans same.2.2, failed⟩

theorem sid_takeEntries : (r.takeEntries found data).1.sid = r.sid := by
  rw [takeEntries]
  split
  · rfl
  · dsimp only
    split
    · rfl
    · split <;> rfl

/-- Past the first page, the id of the search stays. -/
theorem sid_pageIn : (r.pageIn false reply).1.sid = r.sid := by
  rw [pageIn]
  split
  · rfl
  · split
    · rfl
    · split
      · rfl
      · exact sid_takeEntries

end ReadDir

/-! ## Calls -/

/-- How far the `FIND_NEXT2` of a pending call is. -/
inductive Round where
  | queued
  | onWire
  | answered (reply : Reply)

/-- What a call for the next entry comes to. -/
abbrev EntryResult := Except ClientError (Option DirEntry)

/-- A listing with its caller and the search on the server: the call that is pending, the
requests on the wire whose calls are gone, the entries of the pages the server has sent,
whether a call has failed, and whether entries that a listing shows went to a call that is gone. -/
structure Calls where
  listing : ReadDir
  pending : Option Round
  abandoned : ℕ
  sent : List DirectoryEntry
  failed : Bool
  lost : Bool

inductive CallEvent where
  | call
  | dispatch
  | serve (reply : Reply)
  | serveAbandoned (reply : Reply)
  | fail (error : Error)
  | poll
  | dropCall

/-- A reply of a server that has sent these entries of a directory goes on with the ones
behind them, and ends the search where there are no more. -/
def Serves (content sent : List DirectoryEntry) (first : Bool) (reply : Reply) : Prop :=
  sent ++ pageEntries first reply <+: content ∧
    (endsSearch first reply = true → sent ++ pageEntries first reply = content)

instance (content sent : List DirectoryEntry) (first : Bool) (reply : Reply) :
    Decidable (Serves content sent first reply) := by
  unfold Serves
  infer_instance

namespace Calls

/-- A listing over the first page of its search. -/
def opened (listing : ReadDir) (reply : Reply) : Calls where
  listing
  pending := none
  abandoned := 0
  sent := pageEntries true reply
  failed := false
  lost := false

/-- The call is over with an error. -/
def fails (s : Calls) (error : ClientError) : Calls × List EntryResult :=
  ({ s with pending := none, failed := true }, [.error error])

/-- A turn of the loop of `next_entry`, up to where it waits or is over. -/
def turn (n : Negotiated) (s : Calls) : Calls × List EntryResult :=
  match s.listing.next with
  | .entry e rest => ({ s with listing := rest }, [.ok (some e)])
  | .ended => (s, [.ok none])
  | .fetch params =>
      match (TreeRequest.findNext params).encodeBody n with
      | .error error => s.fails error
      | .ok _ => ({ s with pending := some .queued }, [])

/-- A reply is taken by the call it is for. -/
def take (n : Negotiated) (s : Calls) (reply : Reply) : Calls × List EntryResult :=
  let s' := { s with pending := none, listing := (s.listing.pageIn false reply).1 }
  match (s.listing.pageIn false reply).2 with
  | .error error => s'.fails error
  | .ok () => s'.turn n

/-- The entries of a reply the pending call has yet to take. -/
def inHand (s : Calls) : List DirectoryEntry :=
  match s.pending with
  | some (.answered reply) => pageEntries false reply
  | _ => []

/-- Entries go to a call that is gone. -/
def loses (s : Calls) (entries : List DirectoryEntry) : Calls :=
  { s with lost := s.lost || !(shown entries).isEmpty }

/-- What a dropped call leaves on the wire. -/
def drops (s : Calls) : Calls :=
  let s' := s.loses s.inHand
  match s.pending with
  | some .onWire => { s' with pending := none, abandoned := s.abandoned + 1 }
  | _ => { s' with pending := none }

def step (n : Negotiated) (content : List DirectoryEntry) (s : Calls) :
    CallEvent → Option (Calls × List EntryResult)
  | .call =>
      match s.pending with
      | none => some (s.turn n)
      | some _ => none
  | .dispatch =>
      match s.pending with
      | some .queued => some ({ s with pending := some .onWire }, [])
      | _ => none
  | .serve reply =>
      match s.pending with
      | some .onWire =>
          if Serves content s.sent false reply then
            some ({ s with pending := some (.answered reply)
                           sent := s.sent ++ pageEntries false reply }, [])
          else none
      | _ => none
  | .serveAbandoned reply =>
      if 0 < s.abandoned ∧ Serves content s.sent false reply then
        some ({ s.loses (pageEntries false reply) with
          abandoned := s.abandoned - 1
          sent := s.sent ++ pageEntries false reply }, [])
      else none
  | .fail error =>
      match s.pending with
      | some .queued => some (s.drops.fails (.ofConnection error))
      | some .onWire => some (s.drops.fails (.ofConnection error))
      | _ => none
  | .poll =>
      match s.pending with
      | some (.answered reply) => some (s.take n reply)
      | _ => none
  | .dropCall =>
      match s.pending with
      | some _ => some (s.drops, [])
      | none => none

/-- A listing of a directory, and its calls. -/
def machine (n : Negotiated) (content : List DirectoryEntry) :
    Machine Calls CallEvent EntryResult where
  step := step n content

/-- Whether the reply in hand ends the search. -/
def handEnds (s : Calls) : Bool :=
  match s.pending with
  | some (.answered reply) => endsSearch false reply
  | _ => false

/-- No end of the search is taken by a call behind one that failed; and once entries went to a call
that is gone, no end is taken, and no further entries are. -/
def Received (s : Calls) : CallEvent → Prop
  | .poll => (s.failed = true → s.handEnds = false) ∧
      (s.lost = true → s.handEnds = false ∧ shown s.inHand = [])
  | _ => True

instance (s : Calls) (e : CallEvent) : Decidable (s.Received e) := by
  cases e <;> unfold Received <;> infer_instance

end Calls

/-- The entries calls have returned. -/
def returned (log : List EntryResult) : List DirEntry :=
  log.filterMap fun result => result.toOption.join

/-- What calls have returned is what a whole listing may return: where one says the
listing is over and none has failed, all entries have been returned, and none says so
behind one that failed. -/
structure Whole (content : List DirectoryEntry) (log : List EntryResult) : Prop where
  ends : ∀ before after, log = before ++ .ok none :: after → (∀ error, .error error ∉ before) →
    returned before = shown content
  errors : ∀ before error after, log = before ++ .error error :: after → .ok none ∉ after

namespace Whole

variable {content : List DirectoryEntry} {log : List EntryResult} {result : EntryResult}

theorem snoc (whole : Whole content log)
    (ended : result = .ok none → (∀ error, .error error ∉ log) ∧ returned log = shown content) :
    Whole content (log ++ [result]) := by
  refine ⟨fun before after split unfailed => ?_, fun before error after split member => ?_⟩
  · rcases List.eq_nil_or_concat after with rfl | ⟨init, last, rfl⟩
    · obtain ⟨rfl, same⟩ := List.append_inj' split rfl
      exact (ended (List.cons.inj same).1).2
    · rw [List.concat_eq_append, ← List.cons_append, ← List.append_assoc] at split
      exact whole.ends before init (List.append_inj' split rfl).1 unfailed
  · rcases List.eq_nil_or_concat after with rfl | ⟨init, last, rfl⟩
    · exact absurd member List.not_mem_nil
    · rw [List.concat_eq_append] at split member
      rw [← List.cons_append, ← List.append_assoc] at split
      obtain ⟨rfl, same⟩ := List.append_inj' split rfl
      rcases List.mem_append.mp member with earlier | now
      · exact whole.errors before error init rfl earlier
      · have lastNone : last = .ok none := (List.mem_singleton.mp now).symm
        have unfailed := (ended ((List.cons.inj same).1.trans lastNone)).1 error
        exact unfailed (by simp)

end Whole

/-! ## Runs -/

namespace Calls

variable {n : Negotiated} {content : List DirectoryEntry} {s s' : Calls} {log : List EntryResult}

/-- What holds between the steps of a run that takes nothing behind what it lost. -/
structure Faithful (content : List DirectoryEntry) (s : Calls) (log : List EntryResult) : Prop where
  closed : s.listing.closed = false
  search : s.listing.finished = true ∨ s.listing.sid ≠ none
  front : returned log ++ s.listing.page <+: shown s.sent
  -- every entry sent has been returned, is in the page, or is in the reply in hand
  entries : s.lost = false → returned log ++ s.listing.page ++ shown s.inHand = shown s.sent
  unended : s.lost = true → s.listing.finished = false
  sent : s.sent <+: content
  finished : s.listing.finished = true → s.sent = content
  ending : s.handEnds = true → s.sent = content
  pending : s.pending ≠ none → s.listing.page = [] ∧ s.listing.finished = false
  failed : ∀ error, .error error ∈ log → s.failed = true
  unfinished : s.failed = true → s.listing.finished = false
  whole : Whole content log

theorem shown_append (xs ys : List DirectoryEntry) : shown (xs ++ ys) = shown xs ++ shown ys := by
  rw [shown, List.filter_append, List.map_append]
  rfl

theorem returned_append (log log' : List EntryResult) :
    returned (log ++ log') = returned log ++ returned log' := List.filterMap_append

theorem lost_loses {entries : List DirectoryEntry} :
    (s.loses entries).lost = false ↔ s.lost = false ∧ shown entries = [] := by
  simp [loses]

namespace Faithful

theorem fails {error : ClientError} (faithful : Faithful content s log)
    (nothing : s.inHand = []) (unended : s.listing.finished = false) :
    Faithful content (s.fails error).1 (log ++ (s.fails error).2) := by
  have same : returned (log ++ [.error error]) = returned log := by
    rw [returned_append]
    exact List.append_nil _
  refine ⟨faithful.closed, faithful.search, ?_, fun kept => ?_, faithful.unended, faithful.sent,
    faithful.finished, fun none => (by cases none), fun waits => absurd rfl waits, fun _ _ => rfl,
    fun _ => unended, ?_⟩
  · rw [Calls.fails, same]
    exact faithful.front
  · have entries := faithful.entries kept
    rw [nothing] at entries
    rw [Calls.fails, same]
    exact entries
  · exact faithful.whole.snoc fun none => by cases none

/-- What a turn returns, in a state where no call is pending. -/
theorem returns {listing : ReadDir} {result : EntryResult} (faithful : Faithful content s log)
    (idle : s.pending = none) (closed : listing.closed = s.listing.closed)
    (sid : listing.sid = s.listing.sid) (finished : listing.finished = s.listing.finished)
    (entries : returned [result] ++ listing.page = s.listing.page)
    (unfailed : ∀ error, result ≠ .error error)
    (ended : result = .ok none → (∀ error, .error error ∉ log) ∧ returned log = shown content) :
    Faithful content { s with listing } (log ++ [result]) := by
  have nothing : s.inHand = [] := by rw [inHand, idle]
  have still : ({ s with listing } : Calls).inHand = [] := by rw [inHand, idle]
  refine ⟨closed.trans faithful.closed, ?_, ?_, fun kept => ?_, fun lost => ?_, faithful.sent, ?_,
    faithful.ending, ?_, ?_, ?_, faithful.whole.snoc ended⟩
  · dsimp only
    rw [finished, sid]
    exact faithful.search
  · rw [returned_append, List.append_assoc (returned log), entries]
    exact faithful.front
  · have before := faithful.entries kept
    rw [still, returned_append, List.append_assoc (returned log), entries]
    rwa [nothing] at before
  · exact finished.trans (faithful.unended lost)
  · exact fun ended => faithful.finished (finished.symm.trans ended)
  · exact fun waits => absurd idle waits
  · intro error member
    rcases List.mem_append.mp member with before | now
    · exact faithful.failed error before
    · exact absurd (List.mem_singleton.mp now).symm (unfailed error)
  · exact fun failed => finished.trans (faithful.unfinished failed)

theorem turn (faithful : Faithful content s log) (idle : s.pending = none) :
    Faithful content (s.turn n).1 (log ++ (s.turn n).2) := by
  have nothing : s.inHand = [] := by rw [inHand, idle]
  rw [Calls.turn, ReadDir.next]
  cases page : s.listing.page with
  | cons e rest =>
      apply faithful.returns idle
      · rfl
      · rfl
      · rfl
      · exact page.symm
      · exact fun error same => by cases same
      · exact fun same => by cases same
  | nil =>
      by_cases finished : s.listing.finished = true
      · rw [finished, Bool.true_or, if_pos rfl]
        apply faithful.returns idle rfl rfl rfl rfl (fun error same => by cases same)
        intro _
        refine ⟨fun error member => ?_, ?_⟩
        · have unfinished := faithful.unfinished (faithful.failed error member)
          rw [finished] at unfinished
          cases unfinished
        · have found : s.lost = false := by
            by_contra lost
            have unended := faithful.unended (Bool.eq_true_of_not_eq_false lost)
            exact Bool.false_ne_true (unended.symm.trans finished)
          have kept := faithful.entries found
          rw [nothing, page, faithful.finished finished] at kept
          simpa [shown] using kept
      · have unended : s.listing.finished = false := Bool.not_eq_true _ ▸ finished
        rw [unended, faithful.closed, Bool.or_false, if_neg Bool.false_ne_true]
        cases sid : s.listing.sid with
        | none => exact absurd sid (faithful.search.resolve_left finished)
        | some sid =>
            dsimp only
            split
            · exact faithful.fails nothing unended
            · rw [List.append_nil]
              exact { faithful with
                entries := fun kept => by
                  have before := faithful.entries kept
                  rw [nothing] at before
                  rw [inHand]
                  exact before
                ending := fun none => by cases none
                pending := fun _ => ⟨page, unended⟩ }

theorem take {reply : Reply} (faithful : Faithful content s log)
    (waiting : s.pending = some (.answered reply)) (received : s.Received .poll) :
    Faithful content (s.take n reply).1 (log ++ (s.take n reply).2) := by
  obtain ⟨page, finished, closed, failed⟩ := @ReadDir.pageIn_spec s.listing false reply
  obtain ⟨empty, unended⟩ := faithful.pending (by rw [waiting]; exact Option.some_ne_none _)
  rw [empty, List.nil_append] at page
  rw [unended, Bool.false_or] at finished
  have hand : s.inHand = pageEntries false reply := by rw [inHand, waiting]
  have ends : s.handEnds = endsSearch false reply := by rw [handEnds, waiting]
  have kept : s.lost = false →
      returned log ++ (s.listing.pageIn false reply).1.page = shown s.sent := by
    intro found
    have before := faithful.entries found
    rw [empty, List.append_nil, hand, ← page] at before
    exact before
  have taken : Faithful content
      { s with pending := none, listing := (s.listing.pageIn false reply).1 } log := by
    refine ⟨closed.trans faithful.closed, ?_, ?_, fun found => ?_, fun lost => ?_, faithful.sent,
      ?_, fun none => (by cases none), fun waits => absurd rfl waits, faithful.failed, ?_,
      faithful.whole⟩
    · rw [ReadDir.sid_pageIn]
      refine Or.inr (faithful.search.resolve_left ?_)
      rw [unended]
      exact Bool.false_ne_true
    · cases lost : s.lost with
      | false => exact (kept lost) ▸ List.prefix_refl _
      | true =>
          have front := faithful.front
          rw [empty] at front
          rw [page, ← hand, (received.2 lost).2]
          exact front
    · exact (List.append_nil _).trans (kept found)
    · exact finished.trans (ends.symm.trans (received.2 lost).1)
    · exact fun ended => faithful.ending (ends.trans (finished.symm.trans ended))
    · exact fun failed => finished.trans (ends.symm.trans (received.1 failed))
  rw [Calls.take]
  cases result : (s.listing.pageIn false reply).2 with
  | ok value => exact taken.turn rfl
  | error error => exact taken.fails rfl (finished.trans (failed error result))

theorem drops (faithful : Faithful content s log) (waits : s.pending ≠ none) :
    Faithful content s.drops log := by
  have unended := (faithful.pending waits).2
  unfold Calls.drops
  split <;> exact { faithful with
    entries := fun kept => by
      obtain ⟨found, nothing⟩ := lost_loses.mp kept
      have before := faithful.entries found
      rw [nothing] at before
      rw [inHand]
      exact before
    unended := fun _ => unended
    ending := fun none => by cases none
    pending := fun waits => absurd rfl waits }

end Faithful

namespace Faithful

/-- The server answers the pending call. -/
theorem served {reply : Reply} (faithful : Faithful content s log)
    (waiting : s.pending = some .onWire) (serves : Serves content s.sent false reply) :
    Faithful content
      { s with pending := some (.answered reply), sent := s.sent ++ pageEntries false reply }
      log := by
  have waits := faithful.pending (by rw [waiting]; exact Option.some_ne_none _)
  exact { faithful with
    front := by
      rw [shown_append]
      exact faithful.front.trans (List.prefix_append _ _)
    entries := fun found => by
      have kept := faithful.entries found
      rw [inHand, waiting] at kept
      rw [inHand, shown_append, ← kept]
      simp [shown]
    sent := serves.1
    finished := fun ended => by
      rw [waits.2] at ended
      cases ended
    ending := serves.2
    pending := fun _ => waits }

end Faithful

end Calls

end Smb1Client
