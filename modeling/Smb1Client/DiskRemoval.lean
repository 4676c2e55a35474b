import Smb1Client.DiskListings

/-!
`remove_dir_all` against a server that answers for its disk.

Where every name below the path is a plain one, the call ends in success, and the disk is
what it was without the path and everything below it. No open and no search is left behind.
-/

namespace Smb1Client

open Dialogue

namespace Disk

/-- What is on the disk but for the place and everything below it. -/
def without (d : Disk) (place : Place) : Place → Option Metadata :=
  fun q => if place <+: q then none else d.nodes q

/-- A directory that a recursive delete can take away: nobody has any of it open, the names
below it are plain, their paths fit a message, and `tree` holds them all. -/
structure Removable (n : Negotiated) (d : Disk) (path : Text) (tree : Finset Place) : Prop where
  directory : d.Directory (resolve path)
  below : resolve path ≠ []
  unopened : ∀ fid o, d.files fid = some o → ¬ resolve path <+: o.place
  plain : ∀ q name, resolve path <+: q → (d.nodes (q ++ [name])).isSome = true → Plain name
  fits : ∀ names, (d.nodes (resolve path ++ names)).isSome = true → Fits n (names.foldl join path)
  whole : ∀ q, resolve path <+: q → (d.nodes q).isSome = true → q ∈ tree

variable {n : Negotiated} {d d₁ : Disk} {path : Text} {tree : Finset Place} {place : Place}
  {all : List DirectoryEntry}

/-- What is somewhere is below directories. -/
theorem isSome_of_append (d : Disk) {names : List Text}
    (there : (d.nodes (place ++ names)).isSome = true) : (d.nodes place).isSome = true := by
  induction names using List.reverseRecOn with
  | nil => rwa [List.append_nil] at there
  | append_singleton names name ih =>
      rw [← List.append_assoc] at there
      obtain ⟨m, parent, -⟩ := (d.rooted _ _ there).1
      exact ih (by rw [parent]; rfl)

/-- Nothing is below a file. -/
theorem bare_of_file {m : Metadata} (there : d.nodes place = some m) (file : m.isDir = false) :
    d.Bare place := by
  intro name
  by_contra something
  obtain ⟨⟨m', parent, directory⟩, -⟩ := d.rooted _ _ (Option.isSome_iff_ne_none.mpr something)
  cases Option.some.inj (there.symm.trans parent)
  exact absurd (directory.symm.trans file) (by decide)

theorem none_below_of_bare (bare : d.Bare place) {q : Place} (under : place <+: q)
    (other : q ≠ place) : d.nodes q = none := by
  obtain ⟨names, rfl⟩ := under
  cases names with
  | nil => exact absurd (List.append_nil place) other
  | cons name names =>
      by_contra something
      have there : (d.nodes (place ++ [name] ++ names)).isSome = true := by
        rw [List.append_assoc, List.singleton_append]
        exact Option.isSome_iff_ne_none.mpr something
      have child := d.isSome_of_append there
      rw [bare name] at child
      cases child

/-! ## The walk -/

/-- What is left of a level when the entries behind these have been taken: nothing but the
level itself and what is below the entries. -/
def taken (d : Disk) (place : Place) (left : List DirEntry) : Place → Option Metadata :=
  fun q => if place <+: q ∧ q ≠ place ∧ ∀ e ∈ left, ¬ place ++ [e.name] <+: q then none
    else d.nodes q

/-- Before an entry is taken, everything is there. -/
theorem Lists.taken_shown (lists : d.Lists place all) : d.taken place (shown all) = d.nodes := by
  funext q
  rw [taken]
  split
  · next outside =>
      obtain ⟨⟨names, rfl⟩, other, none_⟩ := outside
      cases names with
      | nil => exact absurd (List.append_nil place) other
      | cons name names =>
          by_contra something
          have there : (d.nodes (place ++ [name] ++ names)).isSome = true := by
            rw [List.append_assoc, List.singleton_append]
            exact Option.isSome_iff_ne_none.mpr (Ne.symm something)
          obtain ⟨e, given, rfl⟩ := lists.given (d.isSome_of_append there)
          exact none_ e given (by rw [← List.singleton_append, ← List.append_assoc]; simp)
  · rfl

/-- After the last one, nothing is below the level. -/
theorem bare_of_taken (becomes : d₁.nodes = d.taken place []) : d₁.Bare place := by
  intro name
  rw [becomes, taken, if_pos]
  exact ⟨List.prefix_append _ _, by simp, fun e none_ => absurd none_ List.not_mem_nil⟩

theorem taken_nil_update (d : Disk) :
    Function.update (d.taken place []) place none = d.without place := by
  funext q
  rw [without]
  by_cases here : q = place
  · subst here
    rw [Function.update_self, if_pos (List.prefix_refl q)]
  · rw [Function.update_of_ne here, taken]
    by_cases under : place <+: q
    · rw [if_pos under, if_pos ⟨under, here, fun e none_ => absurd none_ List.not_mem_nil⟩]
    · rw [if_neg under, if_neg fun both => under both.1]

theorem taken_of_under {left : List DirEntry} {e : DirEntry} (member : e ∈ left) {q : Place}
    (under : place ++ [e.name] <+: q) : d.taken place left q = d.nodes q := by
  rw [taken, if_neg]
  exact fun outside => outside.2.2 e member under

/-- Taking one entry away takes away what is below it. -/
theorem taken_cons {e : DirEntry} {left : List DirEntry} (once : ∀ e' ∈ left, e'.name ≠ e.name)
    (q : Place) : (if place ++ [e.name] <+: q then none else d.taken place (e :: left) q) =
      d.taken place left q := by
  by_cases under : place ++ [e.name] <+: q
  · have inside : place <+: q := (List.prefix_append _ _).trans under
    have other : q ≠ place := by
      rintro rfl
      have longer := under.length_le
      rw [List.length_append, List.length_singleton] at longer
      omega
    have apart : ∀ e' ∈ left, ¬ place ++ [e'.name] <+: q := by
      intro e' member under'
      have same : place ++ [e'.name] = place ++ [e.name] :=
        (List.prefix_of_prefix_length_le under' under (by simp)).eq_of_length (by simp)
      exact once e' member (by simpa using same)
    rw [if_pos under, taken, if_pos ⟨inside, other, apart⟩]
  · rw [if_neg under, taken, taken]
    simp only [List.forall_mem_cons, under, not_false_eq_true, true_and]

variable {turns : ℕ}

/-- What a recursive delete of an entry starts from, when it is the entry's turn. -/
theorem Removable.entry (removable : Removable n d path tree)
    (lists : d.Lists (resolve path) all) {e : DirEntry} {left : List DirEntry}
    (given : e ∈ shown all)
    (becomes : d₁.Becomes (d.taken (resolve path) (e :: left)) d.files d.searches)
    (isDir : e.isDir = true) : Removable n d₁ (join path e.name) (tree.erase (resolve path)) := by
  have there := lists.there given
  have found : (d.nodes (resolve path ++ [e.name])).isSome = true := by
    rw [there]
    rfl
  have plain := removable.plain _ _ (List.prefix_refl _) found
  have place := @resolve_join path e.name plain.named plain.component
  have same : ∀ q, resolve path ++ [e.name] <+: q → d₁.nodes q = d.nodes q := by
    intro q under
    rw [becomes.nodes]
    exact taken_of_under List.mem_cons_self under
  have inside : ∀ {q}, resolve path ++ [e.name] <+: q → resolve path <+: q :=
    fun under => (List.prefix_append _ _).trans under
  constructor
  · rw [place]
    exact ⟨e.metadata, (same _ (List.prefix_refl _)).trans there, isDir⟩
  · rw [place]
    exact List.append_ne_nil_of_right_ne_nil _ (List.cons_ne_nil _ _)
  · intro fid o held under
    rw [place] at under
    rw [becomes.files] at held
    exact removable.unopened fid o held (inside under)
  · intro q name under below
    rw [place] at under
    rw [same _ (under.trans (List.prefix_append _ _))] at below
    exact removable.plain q name (inside under) below
  · intro names below
    rw [place, same _ (List.prefix_append _ _), List.append_assoc, List.singleton_append] at below
    exact removable.fits (e.name :: names) below
  · intro q under below
    rw [place] at under
    rw [same _ under] at below
    refine Finset.mem_erase.mpr ⟨?_, removable.whole q (inside under) below⟩
    rintro rfl
    have longer := under.length_le
    rw [List.length_append, List.length_singleton] at longer
    omega

theorem meets_removeLevel {p : SharePath} (accepted : SharePath.new p.text = .ok p)
    (removable : Removable n d p.text tree) (enough : tree.card + 5 ≤ turns) :
    Meets Serves d (Tree.removeLevel n turns p.text)
      (Returns fun _ d' => d'.Becomes (d.without (resolve p.text)) d.files d.searches) := by
  induction turns generalizing d p tree with
  | zero => omega
  | succ turns ih =>
      obtain ⟨m, root, isDir⟩ := removable.directory
      have rootThere : (d.nodes (resolve p.text)).isSome = true := by
        rw [root]
        rfl
      have inTree := removable.whole _ (List.prefix_refl _) rootThere
      have fits : Fits n p.text := removable.fits [] (by rwa [List.append_nil])
      rw [Tree.removeLevel]
      apply (meets_readDir accepted fits removable.directory).bind
      rintro r d₁ ⟨all, lists, under⟩
      have few : all.length ≤ (tree.erase (resolve p.text)).card + 2 := by
        apply lists.length_le
        intro name there
        refine Finset.mem_erase.mpr ⟨by simp, removable.whole _ (List.prefix_append _ _) there⟩
      have smaller := Finset.card_erase_of_mem inTree
      have positive := Finset.card_pos.mpr ⟨_, inTree⟩
      apply (meets_drain fits under (by omega)).bind
      rintro ⟨r', entries⟩ d₂ ⟨given, finished, still⟩
      obtain rfl : entries = shown all := given
      rw [still]
      apply (meets_closeFinished finished).bind
      intro _ d₃ still'
      rw [still']
      -- every turn takes one entry away, with what is below it
      have loop : Meets Serves d ((shown all).forM fun e => do
          Dialogue.note ⟨p.text, e.name, e.isDir⟩
          let child := join p.text e.name
          if e.isDir then Tree.removeLevel n turns child else Tree.removeFile n child)
          (Returns fun _ d' =>
            d'.Becomes (d.taken (resolve p.text) []) d.files d.searches) := by
        apply meets_forM fun left (d' : Disk) =>
          d'.Becomes (d.taken (resolve p.text) left) d.files d.searches
        · exact ⟨lists.taken_shown.symm, rfl, rfl⟩
        intro e left d' suffix becomes
        have member : e ∈ shown all := suffix.subset List.mem_cons_self
        have once : ∀ e' ∈ left, e'.name ≠ e.name := by
          intro e' later same
          have nodup := lists.nodup_shown.sublist (suffix.sublist.map (·.name))
          rw [List.map_cons, List.nodup_cons] at nodup
          exact nodup.1 (same ▸ List.mem_map_of_mem later)
        have there := lists.there member
        have found : (d.nodes (resolve p.text ++ [e.name])).isSome = true := by
          rw [there]
          rfl
        have plain := removable.plain _ _ (List.prefix_refl _) found
        have place := @resolve_join p.text e.name plain.named plain.component
        obtain ⟨c, accepted', text⟩ := new_join accepted plain
        rw [meets_note_bind]
        dsimp only
        rw [← text] at place ⊢
        split
        · next directory =>
            have inner := removable.entry lists member becomes directory
            rw [← text] at inner
            apply (ih (new_text accepted') inner (by omega)).mono
            rintro d'' result ⟨_, rfl, becomes'⟩
            rw [becomes.files, becomes.searches] at becomes'
            refine ⟨(), rfl, becomes'.nodes.trans ?_, becomes'.files, becomes'.searches⟩
            funext q
            rw [without, place, becomes.nodes, taken_cons once q]
        · next file =>
            have there' : d'.nodes (resolve c.text) = some e.metadata := by
              rw [place, becomes.nodes, taken_of_under List.mem_cons_self (List.prefix_refl _)]
              exact there
            have isFile : e.metadata.isDir = false := Bool.eq_false_iff.mpr file
            have unopened : d'.Unopened (resolve c.text) := by
              intro fid o held
              rw [becomes.files] at held
              rintro here
              refine removable.unopened fid o held ?_
              rw [here, place]
              exact List.prefix_append _ _
            have below : resolve c.text ≠ [] := by
              rw [place]
              exact List.append_ne_nil_of_right_ne_nil _ (List.cons_ne_nil _ _)
            apply (meets_removeFile (new_text accepted') unopened).mono
            intro d'' result deletes
            obtain ⟨rfl, deleted⟩ := deletes.removed there' isFile
            have bare := bare_of_file there' isFile
            cases deleted with
            | outlived full => exact absurd full (not_or.mpr ⟨not_not.mpr bare, below⟩)
            | gone _ _ becomes' =>
                rw [becomes.files, becomes.searches] at becomes'
                refine ⟨(), rfl, becomes'.nodes.trans ?_, becomes'.files, becomes'.searches⟩
                funext q
                rw [← taken_cons once q, ← place, ← becomes.nodes]
                by_cases here : q = resolve c.text
                · subst here
                  rw [Function.update_self, if_pos (List.prefix_refl _)]
                · rw [Function.update_of_ne here]
                  split
                  · next under => exact none_below_of_bare bare under here
                  · rfl
      apply loop.bind
      intro _ d₄ becomes
      have stays : d₄.nodes (resolve p.text) = some m := by
        rw [becomes.nodes, taken, if_neg fun outside => outside.2.1 rfl, root]
      have unopened : d₄.Unopened (resolve p.text) := by
        intro fid o held here
        rw [becomes.files] at held
        exact removable.unopened fid o held (here ▸ List.prefix_refl _)
      apply (meets_removeDir accepted fits unopened).mono
      intro d' result removes
      cases removes with
      | gone _ _ _ becomes' =>
          rw [becomes.nodes, becomes.files, becomes.searches, taken_nil_update] at becomes'
          exact ⟨(), rfl, becomes'⟩
      | full _ full =>
          exact absurd full
            (not_or.mpr ⟨not_not.mpr (bare_of_taken becomes.nodes), removable.below⟩)
      | refused refused => cases (refused.removed stays isDir).1

theorem meets_removeDirAll {raw : Text} {p : SharePath} (accepted : SharePath.new raw = .ok p)
    (removable : Removable n d p.text tree) (enough : tree.card + 5 ≤ turns) :
    Meets Serves d (Tree.removeDirAll n turns raw)
      (Returns fun _ d' => d'.Becomes (d.without (resolve p.text)) d.files d.searches) := by
  rw [Tree.removeDirAll, meets_sharePath accepted]
  exact meets_removeLevel (new_text accepted) removable enough

/-- **`remove_dir_all` takes the directory away, with everything below it and nothing else.**
A conversation that is not waiting for an answer has ended in success. -/
theorem removeDirAll_removes {raw : Text} {p : SharePath} {answers : List Answer} {d' : Disk}
    (accepted : SharePath.new raw = .ok p) (removable : Removable n d p.text tree)
    (enough : tree.card + 5 ≤ turns)
    (served : Served Serves d (Tree.removeDirAll n turns raw) answers d') :
    (∃ request, (Tree.removeDirAll n turns raw).asks answers = some request) ∨
      (Tree.removeDirAll n turns raw).outcome answers = some (.ok ()) ∧
        d'.Becomes (d.without (resolve p.text)) d.files d.searches := by
  have meets := meets_removeDirAll accepted removable enough
  rcases meets.served served with asks | ⟨result, came, _, rfl, becomes⟩
  · exact Or.inl asks
  · exact Or.inr ⟨came, becomes⟩

/-! ## A directory with one file -/

/-- The answer to a request that is refused or has nothing to say. -/
def plainly (status : NtStatus) : Reply where
  message :=
    { header := { SmbHeader.request Command.CLOSE with status }
      bytes := .replicate 35 0
      wordCount := 0
      byteCount := 0
      fits := Message.fits_empty }
  transaction := none

theorem openedAs_fits (fid : UInt16) : HEADER_LEN + 1 + CREATE_RESPONSE_WORDS.toNat * 2 + 2 ≤
    (List.replicate 33 0 ++ (AndX.NONE.write ++ (0 :: (LittleEndian.u16le fid ++
      List.replicate 63 0)))).length := by
  simp [AndX.length_write, CREATE_RESPONSE_WORDS, HEADER_LEN]

/-- The answer to an open of something empty. -/
def openedAs (fid : UInt16) : Reply where
  message :=
    { header := SmbHeader.request Command.NT_CREATE_ANDX
      bytes := .replicate 33 0 ++ (AndX.NONE.write ++ (0 :: (LittleEndian.u16le fid ++
        .replicate 63 0)))
      wordCount := CREATE_RESPONSE_WORDS
      byteCount := 0
      fits := openedAs_fits fid }
  transaction := none

/-- The file is deleted on an open, and then its directory on another. -/
def removal : List Answer :=
  [.ok (onePage ['x'] ATTRIBUTE_NORMAL), .ok (openedAs 1), .ok (plainly .SUCCESS),
    .ok (openedAs 2), .ok (plainly .SUCCESS), .ok (plainly .OBJECT_NAME_NOT_FOUND)]

theorem bare_fileX : oneFile.Bare [['a'], ['x']] := bare_of_file rfl rfl

/-- The disk without the file. -/
def noFile : Disk := oneFile.unlink [['a'], ['x']] bare_fileX (List.cons_ne_nil _ _)

theorem bare_directoryA : noFile.Bare [['a']] := by
  intro name
  by_contra something
  have there := Option.isSome_iff_ne_none.mpr something
  by_cases named : name = ['x']
  · subst named
    cases there
  · have other : [['a']] ++ [name] ≠ [['a'], ['x']] := by simpa using named
    change (Function.update oneFile.nodes _ none _).isSome = true at there
    rw [Function.update_of_ne other] at there
    exact named (named_oneFile there)

/-- The disk without the directory. -/
def nothing : Disk := noFile.unlink [['a']] bare_directoryA (List.cons_ne_nil _ _)

theorem plain_x : Plain ['x'] where
  named := by decide
  trimmed := by
    constructor <;>
    · intro c member
      cases member
      decide
  characters := by
    intro c member
    rw [List.mem_singleton.mp member]
    decide

theorem removable_oneFile : Removable ⟨50, 16644, 0⟩ oneFile ['a'] {[['a']], [['a'], ['x']]} := by
  have rows : ∀ q, [['a']] <+: q → (oneFile.nodes q).isSome = true →
      q = [['a']] ∨ q = [['a'], ['x']] := by
    intro q under there
    obtain ⟨row, member, same⟩ := List.lookup_isSome_iff.mp there
    simp at member
    rcases member with rfl | rfl | rfl <;> simp at same <;> subst same
    · exact absurd under (by decide)
    · exact Or.inl rfl
    · exact Or.inr rfl
  constructor
  · exact ⟨directoryInfo, rfl, rfl⟩
  · exact List.cons_ne_nil _ _
  · intro fid o held
    cases held
  · intro q name under there
    have parent := (oneFile.rooted q name there).1
    rcases rows (q ++ [name]) (under.trans (List.prefix_append _ _)) there with same | same
    · obtain rfl : q = [] := by
        have shorter := congrArg List.length same
        rw [List.length_append, List.length_singleton, List.length_singleton] at shorter
        exact List.length_eq_zero_iff.mp (by omega)
      exact absurd under (by decide)
    · have named : name = ['x'] := by simpa using congrArg List.getLast? same
      exact named ▸ plain_x
  · intro names there
    rcases rows _ (List.prefix_append _ _) there with same | same
    · obtain rfl : names = [] := by simpa [resolve] using same
      decide
    · obtain rfl : names = [['x']] := by simpa [resolve] using same
      decide
  · intro q under there
    rw [Finset.mem_insert, Finset.mem_singleton]
    exact rows q under there

/-- An open of a place that is there, for the delete. -/
theorem creates_delete {m : Metadata} {fid : UInt16}
    {request : NtCreateAndxRequest} {response : NtCreateAndxResponse}
    (there : d.nodes (resolve request.name) = some m) (suited : Suits request m)
    (opens : request.createDisposition = FILE_OPEN)
    (marked : request.createOptions &&& FILE_DELETE_ON_CLOSE ≠ 0)
    (decoded : NtCreateAndxResponse.decode (openedAs fid).message = .ok response)
    (free : d.files response.fid = none) (length : response.endOfFile = m.len) :
    d.Creates request (openedAs fid) (d.holding
      (Function.update d.files response.fid (some ⟨resolve request.name, true⟩)) d.searches) := by
  refine .opened there suited (Or.inl opens) ⟨rfl, decoded, free, length, ?_, ?_, rfl⟩
  · exact (Function.update_eq_self_iff.mpr there.symm).symm
  · rw [decide_eq_true marked]
    rfl

theorem closes_delete {fid : UInt16} (free : d.files fid = none) (bare : d.Bare place)
    (below : place ≠ []) :
    (d.holding (Function.update d.files fid (some ⟨place, true⟩)) d.searches).Closes fid
      (plainly .SUCCESS) (d.unlink place bare below) := by
  refine .unlinked (Function.update_self _ _ _) rfl bare below rfl ⟨rfl, ?_, rfl⟩
  change d.files = Function.update (Function.update d.files fid _) fid none
  rw [Function.update_idem, Function.update_eq_self_iff.mpr free.symm]

/-- A directory with one file in it is deleted in six requests. -/
theorem removeDirAll_removes_one :
    (Tree.removeDirAll ⟨50, 16644, 0⟩ 7 ['a']).outcome removal = some (.ok ()) ∧
      nothing.Becomes (oneFile.without [['a']]) oneFile.files oneFile.searches := by
  have served :
      Served Serves oneFile (Tree.removeDirAll ⟨50, 16644, 0⟩ 7 ['a']) removal nothing := by
    have file : Suits (removeFileRequest fileX) fileInfo := ⟨by decide, by decide⟩
    have directory : Suits (removeDirRequest directoryA) directoryInfo := ⟨by decide, by decide⟩
    have first : oneFile.Creates (removeFileRequest fileX) (openedAs 1) _ :=
      creates_delete rfl file rfl (by decide) rfl rfl rfl
    have second : noFile.Creates (removeDirRequest directoryA) (openedAs 2) _ :=
      creates_delete rfl directory rfl (by decide) rfl rfl rfl
    exact ⟨oneFile, ⟨_, rfl, finds_oneFile⟩, _, ⟨_, rfl, first⟩,
      noFile, ⟨_, rfl, closes_delete rfl bare_fileX (List.cons_ne_nil _ _)⟩, _, ⟨_, rfl, second⟩,
      nothing, ⟨_, rfl, closes_delete rfl bare_directoryA (List.cons_ne_nil _ _)⟩,
      nothing, ⟨_, rfl, .absent rfl rfl rfl⟩, rfl, rfl⟩
  rcases @removeDirAll_removes ⟨50, 16644, 0⟩ oneFile _ 7 ['a'] directoryA removal nothing rfl
    removable_oneFile (by decide) served with ⟨request, asks⟩ | ended
  · have done : (Tree.removeDirAll ⟨50, 16644, 0⟩ 7 ['a']).asks removal = none := rfl
    cases done.symm.trans asks
  · exact ended

end Disk

end Smb1Client
