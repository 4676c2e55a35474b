import Smb1Client.PathsOnWire
import Smb1Client.RemoveDirAll

/-!
Which paths a recursive delete addresses.

A child's path is its directory's with the listed name behind it, and each verb
normalizes that path again. Where normalization leaves the joined path alone and the name
is one component, the request says what was listed; where `SharePath::new` refuses
the joined path, the call fails. There are names with neither: normalization trims the
joined path, so that a listed `".. "` addresses the directory above.

What the request says is what the server reads of it only while its length can be said.
-/

namespace Smb1Client

open Dialogue

abbrev Moment := Happening TreeRequest Answer Taking

/-! ## What was listed, and what is addressed -/

/-- The names a page's reply adds to the listing. -/
def pageNames (first : Bool) (reply : Reply) : List Text :=
  if reply.status ≠ .SUCCESS then []
  else
    match ReadDir.decodePage first reply with
    | .error _ => []
    | .ok (found, data) =>
        match walkEntries data found.searchCount with
        | .error _ => []
        | .ok entries => (shown entries).map (·.name)

/-- A reply to a listing of the directory, which the server reads as one, carried an entry of
this name. -/
inductive Listed (n : Negotiated) (h : List Moment) (directory name : Text) : Prop
  | first {params : FindFirst2Params} {reply : Reply}
      (answered : .answered (.findFirst params) (.ok reply) ∈ h)
      (pattern : params.pattern = searchPattern directory)
      (names : (TreeRequest.findFirst params).Names n directory)
      (named : name ∈ pageNames true reply)
  | next {params : FindNext2Params} {reply : Reply}
      (answered : .answered (.findNext params) (.ok reply) ∈ h)
      (pattern : params.pattern = searchPattern directory)
      (names : (TreeRequest.findNext params).Names n directory)
      (named : name ∈ pageNames false reply)

/-- The starting path, and a path that is reached with the name of an entry it was listed
with as one component behind it. -/
inductive Reached (n : Negotiated) (h : List Moment) (start : Text) : Text → Prop
  | start : Reached n h start start
  | entry {directory name : Text} (reached : Reached n h start directory)
      (listed : Listed n h directory name) (named : name ≠ []) (component : '\\' ∉ name) :
      Reached n h start (join directory name)

/-- A delete on close, or a listing. -/
def TreeRequest.deletesOrLists : TreeRequest → Bool
  | .create request => request.createOptions &&& FILE_DELETE_ON_CLOSE ≠ 0
  | .findFirst _ => true
  | .findNext _ => true
  | _ => false

/-- What the walk puts for a path can say it: the listing of a directory, the open of a file. -/
def Sayable (n : Negotiated) (isDir : Bool) (path : Text) : Prop :=
  if isDir then Listable n path else Openable path

instance (n : Negotiated) (isDir : Bool) (path : Text) : Decidable (Sayable n isDir path) := by
  unfold Sayable
  infer_instance

/-- Normalization leaves the joined path alone, the name is one component of it, and its length
can be said. -/
def Taking.Addressable (n : Negotiated) (t : Taking) : Prop :=
  normalize (join t.directory t.name) = join t.directory t.name ∧ t.name ≠ [] ∧
    '\\' ∉ t.name ∧ Sayable n t.isDir (join t.directory t.name)

/-- `SharePath::new` refuses the joined path. -/
def Taking.Refused (t : Taking) : Prop :=
  ∃ refusal, SharePath.new (join t.directory t.name) = .error refusal

theorem Listed.mono {n : Negotiated} {h h' : List Moment} {directory name : Text}
    (grown : h <+: h') (listed : Listed n h directory name) : Listed n h' directory name := by
  cases listed with
  | first answered pattern names named =>
      exact .first (grown.subset answered) pattern names named
  | next answered pattern names named => exact .next (grown.subset answered) pattern names named

theorem Reached.mono {n : Negotiated} {h h' : List Moment} {start path : Text} (grown : h <+: h')
    (reached : Reached n h start path) : Reached n h' start path := by
  induction reached with
  | start => exact .start
  | entry _ listed named component ih => exact .entry ih (listed.mono grown) named component

/-! ## The contract -/

/-- No entry taken so far was one `SharePath::new` refuses. -/
def Clear (h : List Moment) : Prop := ∀ t, .marked t ∈ h → ¬ t.Refused

theorem Clear.of_exchange {h : List Moment} {request : TreeRequest} {answer : Answer}
    (clear : Clear h) : Clear (h ++ [.sent request, .answered request answer]) := by
  intro t member
  rcases List.mem_append.mp member with before | exchanged
  · exact clear t before
  · simp at exchanged

/-- Entries are addressable or refused, and what deletes or lists names a reached path,
no refused entry having been taken. -/
def addressing (n : Negotiated) (start : Text) : Contract TreeRequest Answer Taking where
  allowed _ e := ∀ t, e = .marked t → t.Refused ∨ t.Addressable n
  required h request := Clear h ∧
    (request.deletesOrLists = true → ∃ path, Reached n h start path ∧ request.Names n path)

variable {n : Negotiated} {start path : Text} {h : List Moment}

theorem keeps_checked_clear {request : TreeRequest} (clear : Clear h)
    (names : request.deletesOrLists = true →
      ∃ path, Reached n h start path ∧ request.Names n path) :
    (addressing n start).Keeps h (request.checked n) fun h' _ => Clear h' := by
  have required : (addressing n start).required h request := ⟨clear, names⟩
  apply TreeRequest.keeps_checked required
  · intro reply _ _
    exact clear.of_exchange
  · intro h' error shape
    rcases shape with rfl | ⟨answer, rfl⟩
    · exact clear
    · exact clear.of_exchange

/-- A request that neither deletes nor lists. -/
theorem keeps_checked_silent {request : TreeRequest} (clear : Clear h)
    (silent : request.deletesOrLists = false) :
    (addressing n start).Keeps h (request.checked n) fun h' _ => Clear h' :=
  keeps_checked_clear clear fun lists => (Bool.false_ne_true (silent.symm.trans lists)).elim

/-- A path the verbs normalize before they use it. -/
theorem keeps_sharePath {α : Type} {f : SharePath → TreeVerb α}
    {post : List Moment → Except ClientError α → Prop}
    (accepted : ∀ p : SharePath, p.text = normalize path → (addressing n start).Keeps h (f p) post)
    (refused : ∀ error, post h (.error error)) :
    (addressing n start).Keeps h (Tree.sharePath path >>= f) post := by
  rw [Contract.keeps_bind, Tree.sharePath, Contract.keeps_ofExcept]
  cases made : SharePath.new path with
  | error refusal => exact refused _
  | ok p => exact accepted p (SharePath.text_of_new made)

theorem keeps_createAndx {request : NtCreateAndxRequest} (clear : Clear h)
    (reached : Reached n h start request.name) (openable : Openable request.name) :
    (addressing n start).Keeps h (Tree.createAndx n request) fun h' _ => Clear h' := by
  have created : (addressing n start).Keeps h (TreeRequest.checked n (.create request))
      fun h' _ => Clear h' := keeps_checked_clear clear
        fun _ => ⟨request.name, reached, TreeRequest.names_create openable⟩
  apply created.bind
  · intro h' reply _ clear'
    exact Contract.keeps_ofExcept.mpr clear'
  · exact fun h' error _ clear' => clear'

theorem keeps_delete {kind : UInt32} (clear : Clear h) (reached : Reached n h start path)
    (normal : normalize path = path) (openable : Openable path) :
    (addressing n start).Keeps h (Tree.delete n path kind) fun h' _ => Clear h' := by
  apply keeps_sharePath
  · intro p text
    rw [← text.trans normal] at reached openable
    have created : (addressing n start).Keeps h (Tree.createAndx n (deleteRequest p kind))
        fun h' _ => Clear h' := keeps_createAndx clear reached openable
    apply created.bind
    · intro h' opened _ clear'
      apply (keeps_checked_silent clear' rfl).bind
      · exact fun h'' reply _ clear'' => Contract.keeps_pure.mpr clear''
      · exact fun h'' error _ clear'' => clear''
    · exact fun h' error _ clear' => clear'
  · exact fun error => clear

theorem keeps_queryPath {text : Text} {level : UInt16} (clear : Clear h) :
    (addressing n start).Keeps h (Tree.queryPath n text level) fun h' _ => Clear h' := by
  apply (keeps_checked_silent clear rfl).bind
  · exact fun h' reply _ clear' => Contract.keeps_pure.mpr clear'
  · exact fun h' error _ clear' => clear'

theorem keeps_metadata (clear : Clear h) :
    (addressing n start).Keeps h (Tree.metadata n path) fun h' _ => Clear h' := by
  apply keeps_sharePath
  · intro p _
    apply (keeps_queryPath clear).bind
    · intro h' basic _ clear'
      rw [Contract.keeps_bind, Contract.keeps_ofExcept]
      cases (BasicInfo.decode basic).mapError ClientError.ofWire with
      | error error => exact clear'
      | ok basic =>
          apply (keeps_queryPath clear').bind
          · intro h'' standard _ clear''
            rw [Contract.keeps_bind, Contract.keeps_ofExcept]
            cases (StandardInfo.decode standard).mapError ClientError.ofWire with
            | error error => exact clear''
            | ok standard => exact Contract.keeps_pure.mpr clear''
          · exact fun h'' error _ clear'' => clear''
    · exact fun h' error _ clear' => clear'
  · exact fun error => clear

theorem keeps_removeDir (clear : Clear h) (reached : Reached n h start path)
    (normal : normalize path = path) (openable : Openable path) :
    (addressing n start).Keeps h (Tree.removeDir n path) fun h' _ => Clear h' := by
  apply (keeps_delete clear reached normal openable).bind
  · intro h' value _ clear'
    have stat : (addressing n start).Keeps h' (Tree.metadata n path).attempt
        fun h'' _ => Clear h'' := Contract.keeps_attempt.mpr (keeps_metadata clear')
    apply stat.bind
    · intro h'' result _ clear''
      cases result with
      | error error =>
          dsimp only
          split
          · exact Contract.keeps_pure.mpr clear''
          · exact Contract.keeps_failed.mpr clear''
      | ok found => exact Contract.keeps_failed.mpr clear''
    · exact fun h'' error _ clear'' => clear''
  · exact fun h' error _ clear' => clear'

/-! ## Listings -/

/-- The listing is of the path, and holds nothing it was not listed with. -/
structure Listing (n : Negotiated) (h : List Moment) (path : Text) (r : ReadDir) : Prop where
  pattern : r.pattern = searchPattern path
  page : ∀ e ∈ r.page, Listed n h path e.name

/-- A page's reply leaves the pattern alone, and adds entries of its own names. -/
theorem pageIn_spec {r r' : ReadDir} {first : Bool} {reply : Reply}
    (paged : r.pageIn first reply = (r', .ok ())) :
    r'.pattern = r.pattern ∧ ∀ e ∈ r'.page, e ∈ r.page ∨ e.name ∈ pageNames first reply := by
  rw [ReadDir.pageIn] at paged
  split at paged
  · cases paged
    exact ⟨rfl, fun e member => Or.inl member⟩
  split at paged
  · cases paged
  · next success =>
      cases decoded : ReadDir.decodePage first reply with
      | error error =>
          rw [decoded] at paged
          cases paged
      | ok result =>
          obtain ⟨found, data⟩ := result
          rw [decoded] at paged
          dsimp only [ReadDir.takeEntries] at paged
          cases walked : walkEntries data found.searchCount with
          | error error =>
              rw [walked] at paged
              cases paged
          | ok entries =>
              rw [walked] at paged
              have names : pageNames first reply = (shown entries).map (·.name) := by
                rw [pageNames, if_neg success, decoded]
                dsimp only
                rw [walked]
              have added : ∀ e ∈ r.page ++ shown entries,
                  e ∈ r.page ∨ e.name ∈ pageNames first reply := by
                intro e member
                rcases List.mem_append.mp member with before | new
                · exact Or.inl before
                · rw [names]
                  exact Or.inr (List.mem_map_of_mem new)
              cases first <;> dsimp only at paged <;> split at paged
              · cases paged
                exact ⟨rfl, added⟩
              · split at paged <;> cases paged
                exact ⟨rfl, added⟩
              · cases paged
                exact ⟨rfl, added⟩
              · split at paged <;> cases paged
                exact ⟨rfl, added⟩

/-- A round of a listing asks for its own path, and takes what the reply lists. -/
theorem keeps_round {r : ReadDir} {first : Bool} {request : TreeRequest} (clear : Clear h)
    (reached : Reached n h start path) (listing : Listing n h path r) (names : request.Names n path)
    (lists : ∀ {h' : List Moment} {reply : Reply} {name : Text},
      .answered request (.ok reply) ∈ h' → name ∈ pageNames first reply → Listed n h' path name) :
    (addressing n start).Keeps h (r.round n first request) fun h' result =>
      Clear h' ∧ ∀ r', result = .ok r' → Listing n h' path r' := by
  have required : (addressing n start).required h request :=
    ⟨clear, fun _ => ⟨path, reached, names⟩⟩
  rw [ReadDir.round, Contract.keeps_bind]
  apply TreeRequest.keeps_put required
  · intro reply _
    dsimp only
    rw [Contract.keeps_ofExcept]
    refine ⟨clear.of_exchange, fun r' came => ?_⟩
    cases paged : r.pageIn first reply with
    | mk r₁ taken =>
        rw [paged] at came
        cases taken with
        | error error => cases came
        | ok value =>
            cases came
            obtain ⟨pattern, page⟩ := pageIn_spec paged
            refine ⟨pattern.trans listing.pattern, fun e member => ?_⟩
            rcases page e member with before | new
            · exact (listing.page e before).mono (List.prefix_append h _)
            · exact lists (by simp) new
  · intro h' error shape
    refine ⟨?_, fun r' came => by cases came⟩
    rcases shape with rfl | ⟨gone, rfl⟩
    · exact clear
    · exact clear.of_exchange

theorem keeps_readDir (clear : Clear h) (reached : Reached n h start path)
    (normal : normalize path = path) (listable : Listable n path) :
    (addressing n start).Keeps h (Tree.readDir n path) fun h' result =>
      Clear h' ∧ ∀ r, result = .ok r → Listing n h' path r := by
  apply keeps_sharePath
  · intro p text
    rw [normal] at text
    rw [text, ReadDir.start]
    exact keeps_round clear reached ⟨rfl, fun e none => absurd none List.not_mem_nil⟩
      (TreeRequest.names_findFirst listable rfl)
      fun answered named => .first answered rfl (TreeRequest.names_findFirst listable rfl) named
  · exact fun error => ⟨clear, fun r came => by cases came⟩

/-- What a call for the next entry finds in the listing. -/
theorem next_spec {r : ReadDir} (listing : Listing n h path r) :
    (∀ e rest, r.next = .entry e rest → Listed n h path e.name ∧ Listing n h path rest) ∧
      ∀ params, r.next = .fetch params → params.pattern = searchPattern path := by
  rw [ReadDir.next]
  cases page : r.page with
  | cons e page =>
      have held := listing.page
      rw [page] at held
      constructor
      · intro e' rest came
        cases came
        exact ⟨held e List.mem_cons_self, listing.pattern,
          fun e' member => held e' (List.mem_cons_of_mem _ member)⟩
      · intro params came
        cases came
  | nil =>
      dsimp only
      constructor
      · intro e rest came
        split at came
        · cases came
        · split at came <;> cases came
      · intro params came
        split at came
        · cases came
        · split at came <;> cases came
          exact listing.pattern

theorem keeps_nextEntry {turns : ℕ} {r : ReadDir} (clear : Clear h)
    (reached : Reached n h start path) (listing : Listing n h path r) (listable : Listable n path) :
    (addressing n start).Keeps h (r.nextEntry n turns) fun h' result =>
      Clear h' ∧ ∀ found r', result = .ok (found, r') →
        Listing n h' path r' ∧ ∀ e ∈ found, Listed n h' path e.name := by
  induction turns generalizing h r with
  | zero => exact Contract.keeps_paused
  | succ turns ih =>
      obtain ⟨entry, fetch⟩ := next_spec listing
      rw [ReadDir.nextEntry]
      cases head : r.next with
      | entry e rest =>
          refine Contract.keeps_pure.mpr ⟨clear, fun found r' came => ?_⟩
          cases came
          obtain ⟨listed, listing'⟩ := entry e rest head
          refine ⟨listing', fun e' member => ?_⟩
          cases member
          exact listed
      | ended =>
          refine Contract.keeps_pure.mpr ⟨clear, fun found r' came => ?_⟩
          cases came
          exact ⟨listing, fun e none => absurd none (Option.not_mem_none e)⟩
      | fetch params =>
          have pattern := fetch params head
          have names : (TreeRequest.findNext params).Names n path :=
            TreeRequest.names_findNext listable pattern
          have round : (addressing n start).Keeps h (r.round n false (.findNext params))
              fun h' result => Clear h' ∧ ∀ r', result = .ok r' → Listing n h' path r' :=
            keeps_round clear reached listing names
              fun answered named => .next answered pattern names named
          apply round.bind
          · intro h' r' grown round
            exact ih round.1 (reached.mono grown) (round.2 r' rfl)
          · exact fun h' error _ round => ⟨round.1, fun found r' came => by cases came⟩

theorem keeps_drain {turns : ℕ} {r : ReadDir} (clear : Clear h) (reached : Reached n h start path)
    (listing : Listing n h path r) (listable : Listable n path) :
    (addressing n start).Keeps h (Tree.drain n turns r) fun h' result =>
      Clear h' ∧ ∀ r' entries, result = .ok (r', entries) →
        ∀ e ∈ entries, Listed n h' path e.name := by
  induction turns generalizing h r with
  | zero => exact Contract.keeps_paused
  | succ turns ih =>
      rw [Tree.drain]
      apply (keeps_nextEntry clear reached listing listable).bind
      · intro h' found grown next
        obtain ⟨found, r'⟩ := found
        obtain ⟨listing', entry⟩ := next.2 found r' rfl
        cases found with
        | none =>
            refine Contract.keeps_pure.mpr ⟨next.1, fun r'' entries came => ?_⟩
            cases came
            exact fun e none => absurd none List.not_mem_nil
        | some e =>
            apply (ih next.1 (reached.mono grown) listing').bind
            · intro h'' drained longer rest
              refine Contract.keeps_pure.mpr ⟨rest.1, fun r'' entries came => ?_⟩
              cases came
              intro e' member
              rcases List.mem_cons.mp member with rfl | later
              · exact (entry e' rfl).mono longer
              · exact rest.2 _ _ rfl e' later
            · exact fun h'' error _ rest => ⟨rest.1, fun r' entries came => by cases came⟩
      · exact fun h' error _ next => ⟨next.1, fun r' entries came => by cases came⟩

theorem keeps_close {r : ReadDir} (clear : Clear h) :
    (addressing n start).Keeps h (r.close n) fun h' _ => Clear h' := by
  rw [ReadDir.close]
  cases r.sid with
  | none => exact Contract.keeps_pure.mpr clear
  | some sid =>
      dsimp only
      split
      · exact Contract.keeps_pure.mpr clear
      · apply (keeps_checked_silent clear rfl).bind
        · exact fun h' reply _ clear' => Contract.keeps_pure.mpr clear'
        · exact fun h' error _ clear' => clear'

/-! ## The walk -/

/-- A call that took a refused entry fails. -/
def Stopped (h : List Moment) (result : Except ClientError Unit) : Prop :=
  Clear h ∨ ∃ error, result = .error error

theorem Stopped.leaves {result : Except ClientError Unit} (stopped : Stopped h result) :
    Contract.Leaves Clear (fun _ _ => True) h result := by
  cases result with
  | error error => exact True.intro
  | ok value =>
      rcases stopped with clear | ⟨error, came⟩
      · exact clear
      · cases came

/-- A path that is refused fails the verb before it puts anything. -/
theorem keeps_sharePath_refused {α : Type} {f : SharePath → TreeVerb α}
    {post : List Moment → Except ClientError α → Prop} {refusal : InvalidPath}
    (refused : SharePath.new path = .error refusal) (failed : ∀ error, post h (.error error)) :
    (addressing n start).Keeps h (Tree.sharePath path >>= f) post := by
  rw [Contract.keeps_bind, Tree.sharePath, Contract.keeps_ofExcept, refused]
  exact failed _

theorem keeps_refused {turns : ℕ} {e : DirEntry} {refusal : InvalidPath}
    (refused : SharePath.new path = .error refusal) :
    (addressing n start).Keeps h
      (if e.isDir then Tree.removeLevel n turns path else Tree.removeFile n path) Stopped := by
  split
  · cases turns with
    | zero => exact Contract.keeps_paused
    | succ turns =>
        have opened : (addressing n start).Keeps h (Tree.readDir n path)
            fun _ result => ∃ error, result = .error error :=
          keeps_sharePath_refused refused fun error => ⟨error, rfl⟩
        apply opened.bind
        · rintro h' r _ ⟨error, came⟩
          cases came
        · exact fun h' error _ _ => Or.inr ⟨error, rfl⟩
  · exact keeps_sharePath_refused refused fun error => Or.inr ⟨error, rfl⟩

/-- A level whose listing is longer than the buffer fails before it puts anything. -/
theorem keeps_removeLevel_large {turns : ℕ} (normal : normalize path = path)
    (large : n.maxBufferSize.toNat < searchLength path) :
    (addressing n start).Keeps h (Tree.removeLevel n turns path) Stopped := by
  cases turns with
  | zero => exact Contract.keeps_paused
  | succ turns =>
      have opened : (addressing n start).Keeps h (Tree.readDir n path)
          fun _ result => ∃ error, result = .error error := by
        apply keeps_sharePath
        · intro p text
          rw [normal] at text
          obtain ⟨error, refused⟩ : ∃ error, (TreeRequest.findFirst
              (ReadDir.firstParams (searchPattern path))).encodeBody n = .error error :=
            TreeRequest.encodeBody_findFirst_of_large large rfl
          rw [text, ReadDir.start, ReadDir.round, Contract.keeps_bind, TreeRequest.put, refused]
          exact Contract.keeps_failed.mpr ⟨error, rfl⟩
        · exact fun error => ⟨error, rfl⟩
      apply opened.bind
      · rintro h' r _ ⟨error, came⟩
        cases came
      · exact fun h' error _ _ => Or.inr ⟨error, rfl⟩

theorem keeps_removeLevel {turns : ℕ} (clear : Clear h) (reached : Reached n h start path)
    (normal : normalize path = path) (listable : Listable n path) :
    (addressing n start).Keeps h (Tree.removeLevel n turns path) Stopped := by
  induction turns generalizing h path with
  | zero => exact Contract.keeps_paused
  | succ turns ih =>
      -- an entry the level was listed with: its path is refused, or it is one component behind
      -- the level's, and the level below or the delete is of that path
      have turn : ∀ {h₁ : List Moment} (e : DirEntry), Clear h₁ → Reached n h₁ start path →
          Listed n h₁ path e.name → (addressing n start).Keeps h₁ (do
            Dialogue.note ⟨path, e.name, e.isDir⟩
            let child := join path e.name
            if e.isDir then Tree.removeLevel n turns child else Tree.removeFile n child)
          Stopped := by
        intro h₁ e clear₁ reached₁ listed
        rw [Contract.keeps_bind, Contract.keeps_note]
        intro allowed
        dsimp only
        by_cases refused : Taking.Refused ⟨path, e.name, e.isDir⟩
        · obtain ⟨refusal, refused⟩ := refused
          exact keeps_refused refused
        · obtain ⟨normal', named, component, sayable⟩ := (allowed _ rfl).resolve_left refused
          have grown := List.prefix_append h₁ [.marked ⟨path, e.name, e.isDir⟩]
          have clear₂ : Clear (h₁ ++ [.marked ⟨path, e.name, e.isDir⟩]) := by
            intro t member
            rcases List.mem_append.mp member with before | here
            · exact clear₁ t before
            · cases List.mem_singleton.mp here
              exact refused
          have reached₂ := (reached₁.mono grown).entry (listed.mono grown) named component
          split
          · next directory =>
              exact ih clear₂ reached₂ normal' ((if_pos directory).mp sayable)
          · next file =>
              exact (keeps_delete clear₂ reached₂ normal' ((if_neg file).mp sayable)).mono
                fun _ _ _ clear₃ => Or.inl clear₃
      by_cases large : n.maxBufferSize.toNat < searchLength path
      · exact keeps_removeLevel_large normal large
      have openable := listable.openable (not_lt.mp large)
      rw [Tree.removeLevel]
      apply (keeps_readDir clear reached normal listable).bind
      · intro h₁ listing grown₁ opened
        apply (keeps_drain opened.1 (reached.mono grown₁) (opened.2 listing rfl) listable).bind
        · intro h₂ drained grown₂ listed
          obtain ⟨listing', entries⟩ := drained
          have reached₂ := reached.mono (grown₁.trans grown₂)
          apply (keeps_close listed.1).bind
          · intro h₃ _ grown₃ clear₃
            apply Contract.Keeps.bind (Contract.keeps_forM clear₃ fun e member h' grown' clear' =>
              (turn e clear' (reached₂.mono (grown₃.trans grown'))
                ((listed.2 _ _ rfl e member).mono (grown₃.trans grown'))).mono
                fun h'' result _ stopped => stopped.leaves)
            · intro h₄ _ grown₄ clear₄
              apply (keeps_removeDir clear₄ (reached₂.mono (grown₃.trans grown₄)) normal
                openable).mono
              exact fun h₅ result _ clear₅ => Or.inl clear₅
            · exact fun h₄ error _ _ => Or.inr ⟨error, rfl⟩
          · exact fun h₃ error _ _ => Or.inr ⟨error, rfl⟩
        · exact fun h₂ error _ _ => Or.inr ⟨error, rfl⟩
      · exact fun h₁ error _ _ => Or.inr ⟨error, rfl⟩

/-! ## Recursive deletes -/

/-- A first page with one entry, which ends its listing. -/
def onePage (name : Text) (attributes : UInt32) : Reply where
  message :=
    { header := SmbHeader.request Command.TRANSACTION2
      bytes := .replicate 35 0
      wordCount := 0
      byteCount := 0
      fits := Message.fits_empty }
  transaction := some
    { setup := []
      parameters := [1, 0, 1, 0, 1, 0, 0, 0, 0, 0]
      data := .replicate 56 0 ++ LittleEndian.u32le attributes ++
        LittleEndian.u32le (UInt32.ofNat (utf16Bytes name).length) ++ .replicate 30 0 ++
        utf16Bytes name }

theorem confined_directoryA :
    '\x00' ∉ ['a'] ∧ ['a'].head? ≠ some '\\' ∧ escapesShareRoot ['a'] = false := by
  decide

/-- A directory `a`. -/
def directoryA : SharePath :=
  ⟨['a'], confined_directoryA.1, confined_directoryA.2.1, confined_directoryA.2.2⟩

/-- What happens when a recursive delete of `a` is answered with pages, and then no more. -/
def removalOf (pages : List Reply) : List Moment :=
  (Tree.removeDirAll ⟨50, 16644, 0⟩ 8 ['a']).history (pages.map .ok)

/-- A directory's listing, up to where its one entry is taken. -/
def listingOf (directory name : Text) (attributes : UInt32) (isDir : Bool) : List Moment :=
  let listed : TreeRequest := .findFirst (ReadDir.firstParams (directory ++ ['\\', '*']))
  [.sent listed, .answered listed (.ok (onePage name attributes)), .marked ⟨directory, name, isDir⟩]

/-- The file the delete is of, for a name with a trailing space as without one. -/
def fileX : SharePath := ⟨['a', '\\', 'x'], by decide, by decide, by decide⟩

/-- A file in a directory of the directory. -/
def fileDX : SharePath := ⟨['a', '\\', 'd', '\\', 'x'], by decide, by decide, by decide⟩

/-- **A recursive delete addresses what was listed**, as long as each entry it takes is one
component that normalization leaves alone and whose path can be said, or one whose path is
refused: the server reads of what deletes or lists the starting path or one reached from it by
listed names, and nothing is put and the call fails once a refused entry is taken. -/
theorem removeDirAll_addresses {n : Negotiated} {turns : ℕ} {raw : Text} {path : SharePath}
    {answers : List Answer} (accepted : SharePath.new raw = .ok path)
    (listable : Listable n path.text)
    (taken : ∀ t, .marked t ∈ (Tree.removeDirAll n turns raw).history answers →
      t.Refused ∨ t.Addressable n) :
    (∀ before request after,
      (Tree.removeDirAll n turns raw).history answers = before ++ .sent request :: after →
        request.deletesOrLists = true →
          ∃ p, Reached n before path.text p ∧ request.Names n p) ∧
      ∀ before t after,
        (Tree.removeDirAll n turns raw).history answers = before ++ .marked t :: after →
          t.Refused → (∀ request, .sent request ∉ after) ∧
            ∀ result, (Tree.removeDirAll n turns raw).outcome answers = some result →
              ∃ error, result = .error error := by
  have nothing : Clear [] := fun t none => absurd none List.not_mem_nil
  have kept : (addressing n path.text).Keeps [] (Tree.removeDirAll n turns raw) Stopped := by
    apply keeps_sharePath
    · intro p text
      have same : p.text = path.text := text.trans (SharePath.text_of_new accepted).symm
      have normal : normalize path.text = path.text := by
        rw [SharePath.text_of_new accepted, normalize_normalize]
      rw [same]
      exact keeps_removeLevel nothing .start normal listable
    · exact fun error => Or.inr ⟨error, rfl⟩
  have admitted : (addressing n path.text).Admits []
      ((Tree.removeDirAll n turns raw).history answers) := by
    apply Contract.admits_of_forall
    rintro e member h t rfl
    exact taken t member
  obtain ⟨required, ended⟩ := kept.history admitted
  refine ⟨fun before request after split => ?_, fun before t after split refused => ⟨?_, ?_⟩⟩
  · exact (required before request after split).2
  · intro request member
    obtain ⟨between, rest, rfl⟩ := List.append_of_mem member
    have clear := (required (before ++ .marked t :: between) request rest (by simp [split])).1
    exact clear t (by simp) refused
  · intro result came
    rcases ended result came with clear | failed
    · exact absurd refused (clear t (by simp [split]))
    · exact failed

/-- A directory `d` in the directory, and one file `x` in that. -/
theorem removeDirAll_addresses_nested :
    removalOf [onePage ['d'] ATTRIBUTE_DIRECTORY, onePage ['x'] ATTRIBUTE_NORMAL] =
        listingOf ['a'] ['d'] ATTRIBUTE_DIRECTORY true ++
          listingOf ['a', '\\', 'd'] ['x'] ATTRIBUTE_NORMAL false ++
            [.sent (.create (removeFileRequest fileDX))] ∧
      ∀ before request after,
        removalOf [onePage ['d'] ATTRIBUTE_DIRECTORY, onePage ['x'] ATTRIBUTE_NORMAL] =
          before ++ .sent request :: after → request.deletesOrLists = true →
            ∃ p, Reached ⟨50, 16644, 0⟩ before ['a'] p ∧ request.Names ⟨50, 16644, 0⟩ p := by
  have happened : removalOf [onePage ['d'] ATTRIBUTE_DIRECTORY, onePage ['x'] ATTRIBUTE_NORMAL] =
      listingOf ['a'] ['d'] ATTRIBUTE_DIRECTORY true ++
        listingOf ['a', '\\', 'd'] ['x'] ATTRIBUTE_NORMAL false ++
          [.sent (.create (removeFileRequest fileDX))] := rfl
  refine ⟨happened, (@removeDirAll_addresses ⟨50, 16644, 0⟩ 8 ['a'] directoryA
    [.ok (onePage ['d'] ATTRIBUTE_DIRECTORY), .ok (onePage ['x'] ATTRIBUTE_NORMAL)]
    rfl (by decide) ?_).1⟩
  intro t member
  have taken : t = ⟨['a'], ['d'], true⟩ ∨ t = ⟨['a', '\\', 'd'], ['x'], false⟩ := by
    change .marked t ∈
      removalOf [onePage ['d'] ATTRIBUTE_DIRECTORY, onePage ['x'] ATTRIBUTE_NORMAL] at member
    rw [happened] at member
    simpa [listingOf] using member
  rcases taken with rfl | rfl
  · exact Or.inr ⟨by decide, by decide, by decide, by decide⟩
  · exact Or.inr ⟨by decide, by decide, by decide, by decide⟩

/-- One file whose name has a trailing space: what is deleted is a file that was not
listed. -/
theorem trailing_space_unlisted : ¬ ∀ (n : Negotiated) (turns : ℕ) (raw : Text) (path : SharePath)
    (answers : List Answer), SharePath.new raw = .ok path → ∀ before request after,
      (Tree.removeDirAll n turns raw).history answers = before ++ .sent request :: after →
        request.deletesOrLists = true →
          ∃ p, Reached n before path.text p ∧ request.Names n p := by
  intro claimed
  obtain ⟨p, reached, names⟩ := claimed ⟨50, 16644, 0⟩ 8 ['a'] directoryA
    [.ok (onePage ['x', ' '] ATTRIBUTE_NORMAL)] rfl
    (listingOf ['a'] ['x', ' '] ATTRIBUTE_NORMAL false)
    (.create (removeFileRequest fileX)) [] rfl rfl
  have ends : p = ['a'] ∨ p.getLast? = some ' ' := by
    cases reached with
    | start => exact Or.inl rfl
    | @entry directory name _ listed _ _ =>
        have named : name = ['x', ' '] := by
          have page : pageNames true (onePage ['x', ' '] ATTRIBUTE_NORMAL) =
              [['x', ' ']] := by decide
          cases listed with
          | @first params reply answered _ _ named =>
              have same : reply = onePage ['x', ' '] ATTRIBUTE_NORMAL := by
                simp [listingOf] at answered
                exact answered.2
              rw [same, page] at named
              exact List.mem_singleton.mp named
          | @next params reply answered _ _ named => simp [listingOf] at answered
        right
        rw [named, join]
        split
        · rfl
        split <;> simp
  have deleted : p = ['a', '\\', 'x'] :=
    TreeRequest.eq_of_names_create (Or.inl (by decide)) (by decide) names
  rcases ends with same | space
  · rw [same] at deleted
    exact absurd deleted (by decide)
  · rw [deleted] at space
    exact absurd space (by decide)

end Smb1Client
