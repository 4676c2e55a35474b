import Smb1Client.DiskVerbs
import Smb1Client.ListedPaths

/-!
Listings against a server that answers for its disk.

A listing under way holds a page, and the server the rest of the search. What it has given
its caller, what it holds and what the server holds are together the directory; nothing but
the search distinguishes the disk from what it was, and with a close nothing does.
-/

namespace Smb1Client

open Dialogue

/-! ## Patterns and pages -/

theorem resolve_separator (path : Text) : resolve (path ++ ['\\']) = resolve path := by
  unfold resolve components
  rw [List.splitOn_append_cons_self, List.foldl_append]
  rfl

theorem matches_searchPattern {path : Text} {place : Place} :
    Disk.Matches (searchPattern path) place ↔ place = resolve path := by
  rw [Disk.Matches, searchPattern]
  split
  · next root =>
      rw [root]
      exact and_iff_right rfl
  split
  · rw [List.dropLast_concat]
    exact and_iff_right List.getLast?_concat
  · have split : path ++ ['\\', '*'] = path ++ ['\\'] ++ ['*'] := by
      rw [List.append_assoc]
      rfl
    rw [split, List.dropLast_concat, resolve_separator]
    exact and_iff_right List.getLast?_concat

theorem shown_append (page rest : List DirectoryEntry) :
    shown (page ++ rest) = shown page ++ shown rest := by
  rw [shown, List.filter_append, List.map_append]
  rfl

theorem length_shown_le (page : List DirectoryEntry) : (shown page).length ≤ page.length := by
  rw [shown, List.length_map]
  exact List.length_filter_le _ page

namespace ReadDir

/-- What a page with something in it adds to a listing. -/
def paged (r : ReadDir) (first : Bool) (page : List DirectoryEntry) (found : FindReply) :
    ReadDir where
  pattern := r.pattern
  sid := if first then found.sid else r.sid
  finished := r.finished || decide (found.endOfSearch ≠ 0)
  closed := r.closed
  page := r.page ++ shown page

theorem pageIn_of_pages {r : ReadDir} {first : Bool} {reply : Reply} {page : List DirectoryEntry}
    {found : FindReply} (paged : Disk.Pages first reply page found) (filled : page ≠ []) :
    r.pageIn first reply = (r.paged first page found, .ok ()) := by
  obtain ⟨laid, carries, rfl⟩ := paged
  obtain ⟨data, decoded, walked⟩ := carries.read
  have success := carries.success
  have more : ¬ reply.status = .NO_MORE_FILES := by
    rw [success]
    decide
  rw [pageIn, if_neg more, if_neg (not_not.mpr success), decoded]
  dsimp only
  rw [takeEntries, walked]
  dsimp only
  by_cases ends : found.endOfSearch ≠ 0
  · rw [if_pos ends, ReadDir.paged, decide_eq_true ends, Bool.or_true]
    cases first <;> rfl
  · rw [if_neg ends, if_neg filled, ReadDir.paged, decide_eq_false ends, Bool.or_false]
    cases first <;> rfl

theorem pageIn_of_ended {r : ReadDir} {reply : Reply} (status : reply.status = .NO_MORE_FILES) :
    r.pageIn false reply = ({ r with finished := true }, .ok ()) := by
  rw [pageIn, if_pos status]

end ReadDir

namespace Disk

section Entries

variable {d : Disk} {place : Place} {all : List DirectoryEntry}

/-! ## The entries of a directory -/

theorem Lists.nodup_shown (lists : d.Lists place all) : ((shown all).map (·.name)).Nodup := by
  have names : (shown all).map (·.name) = (all.filter fun e => !e.isDots).map (·.fileName) := by
    rw [shown, List.map_map]
    rfl
  rw [names]
  exact lists.nodup.sublist (List.filter_sublist.map _)

/-- An entry that is given is of what is there, and says of it what a stat does. -/
theorem Lists.there (lists : d.Lists place all) {e : DirEntry} (given : e ∈ shown all) :
    d.nodes (place ++ [e.name]) = some e.metadata := by
  obtain ⟨listed, member, rfl⟩ := List.mem_map.mp given
  obtain ⟨inside, visible⟩ := List.mem_filter.mp member
  exact lists.shows listed inside (by simpa using visible)

theorem Lists.given (lists : d.Lists place all) {name : Text}
    (there : (d.nodes (place ++ [name])).isSome = true) : ∃ e ∈ shown all, e.name = name := by
  obtain ⟨e, member, rfl⟩ := lists.whole name there
  obtain ⟨-, here, climbs⟩ := isName_iff.mp (d.rooted _ _ there).2.1
  have visible : e.isDots = false := by
    rw [PARENT] at climbs
    rw [DirectoryEntry.isDots, decide_eq_false here, decide_eq_false climbs]
    rfl
  refine ⟨DirEntry.ofDirectoryEntry e, List.mem_map_of_mem (List.mem_filter.mpr ⟨member, ?_⟩), rfl⟩
  rw [visible]
  rfl

/-- A listing is `.`, `..` and what is below the directory. -/
theorem Lists.length_le {below : Finset Place} (lists : d.Lists place all)
    (whole : ∀ name, (d.nodes (place ++ [name])).isSome = true → place ++ [name] ∈ below) :
    all.length ≤ below.card + 2 := by
  have dots : (all.filter (·.isDots)).length ≤ 2 := by
    have nodup : ((all.filter (·.isDots)).map (·.fileName)).Nodup :=
      lists.nodup.sublist (List.filter_sublist.map _)
    have among : (all.filter (·.isDots)).map (·.fileName) ⊆ [['.'], ['.', '.']] := by
      intro name member
      obtain ⟨e, listed, rfl⟩ := List.mem_map.mp member
      have dotted := (List.mem_filter.mp listed).2
      simpa [DirectoryEntry.isDots] using dotted
    have fewer := (List.subperm_of_subset nodup among).length_le
    rwa [List.length_map] at fewer
  have names : (shown all).length ≤ below.card := by
    have nodup : ((shown all).map fun e => place ++ [e.name]).Nodup := by
      have injective : Function.Injective fun name : Text => place ++ [name] := by
        intro name name' same
        simpa using same
      have mapped := lists.nodup_shown.map injective
      rwa [List.map_map] at mapped
    have inside : ((shown all).map fun e => place ++ [e.name]).toFinset ⊆ below := by
      intro q member
      obtain ⟨e, given, rfl⟩ := List.mem_map.mp (List.mem_toFinset.mp member)
      refine whole _ ?_
      rw [lists.there given]
      rfl
    have fewer := Finset.card_le_card inside
    rwa [List.toFinset_card_of_nodup nodup, List.length_map] at fewer
  have split := List.length_eq_length_filter_add (l := all) (·.isDots)
  have visible : (shown all).length = (all.filter fun e => !e.isDots).length := by
    rw [shown, List.length_map]
  omega

end Entries

/-! ## Listings under way -/

/-- A listing of entries is under way on a disk that was `d₀`: these have been given, and at
most so many are left on the page and with the server. -/
inductive UnderWay (d₀ : Disk) (path : Text) (all : List DirectoryEntry) (given : List DirEntry)
    (left : ℕ) (r : ReadDir) (d : Disk) : Prop
  | going {sid : UInt16} {rest : List DirectoryEntry} (pattern : r.pattern = searchPattern path)
      (named : r.sid = some sid) (unfinished : r.finished = false) (unclosed : r.closed = false)
      (free : d₀.searches sid = none)
      (becomes : d.Becomes d₀.nodes d₀.files (Function.update d₀.searches sid (some rest)))
      (listed : given ++ r.page ++ shown rest = shown all)
      (count : r.page.length + rest.length ≤ left)
  | ended (finished : r.finished = true) (still : d = d₀) (listed : given ++ r.page = shown all)
      (count : r.page.length ≤ left)

variable {n : Negotiated} {d d₀ : Disk} {path : Text} {p : SharePath} {r : ReadDir}
  {all : List DirectoryEntry} {given : List DirEntry} {left turns : ℕ}

theorem UnderWay.mono {left' : ℕ} (under : UnderWay d₀ path all given left r d)
    (more : left ≤ left') : UnderWay d₀ path all given left' r d := by
  cases under with
  | going pattern named unfinished unclosed free becomes listed count =>
      exact .going pattern named unfinished unclosed free becomes listed (count.trans more)
  | ended finished still listed count => exact .ended finished still listed (count.trans more)

/-- One FIND round, where every reply the server may give makes something of the listing. -/
theorem meets_round {first : Bool} {request : TreeRequest} {post : ReadDir → Disk → Prop}
    (encodes : ∃ body, request.encodeBody n = .ok body)
    (answered : ∀ reply d', Serves d request (.ok reply) d' →
      ∃ r', r.pageIn first reply = (r', .ok ()) ∧ post r' d') :
    Meets Serves d (r.round n first request : TreeVerb ReadDir) (Returns post) := by
  rw [ReadDir.round, meets_bind]
  apply TreeRequest.meets_put encodes
  intro reply d' served
  obtain ⟨r', taken, holds⟩ := answered reply d' served
  dsimp only
  rw [taken]
  exact meets_ofExcept.mpr ⟨r', rfl, holds⟩

theorem meets_readDir (accepted : SharePath.new path = .ok p) (fits : Fits n p.text)
    (directory : d.Directory (resolve p.text)) :
    Meets Serves d (Tree.readDir n path) (Returns fun r d' => ∃ all,
      d.Lists (resolve p.text) all ∧ UnderWay d p.text all [] all.length r d') := by
  rw [Tree.readDir, meets_sharePath accepted, ReadDir.start]
  apply meets_round (TreeRequest.encodes_findFirst fits)
  rintro reply d' ⟨_, ⟨⟩, finds⟩
  cases finds with
  | absent pattern nowhere =>
      obtain rfl := matches_searchPattern.mp pattern
      exact absurd directory nowhere
  | other narrower => exact absurd (matches_searchPattern.mpr rfl) (narrower _)
  | @page _ page rest found sid pattern _ lists filled paged named free last becomes =>
      obtain rfl := matches_searchPattern.mp pattern
      have flagged : FIRST_FLAGS &&& FLAG_CLOSE_AT_EOS ≠ 0 := by decide
      refine ⟨_, ReadDir.pageIn_of_pages paged filled, _, lists, ?_⟩
      by_cases ends : found.endOfSearch ≠ 0
      · rw [if_pos ⟨ends, flagged⟩] at becomes
        obtain rfl := last ends
        refine .ended ?_ becomes.eq ?_ ?_
        · rw [ReadDir.paged, decide_eq_true ends, Bool.or_true]
        · rw [List.append_nil]
          rfl
        · rw [List.append_nil]
          exact length_shown_le page
      · rw [if_neg fun both => ends both.1] at becomes
        refine .going rfl named ?_ rfl free becomes ?_ ?_
        · rw [ReadDir.paged, decide_eq_false ends, Bool.or_false]
          rfl
        · rw [shown_append]
          rfl
        · rw [List.length_append]
          exact Nat.add_le_add_right (length_shown_le page) _

/-- What a call for the next entry comes to: an entry behind those given, or the listing has
been given whole. -/
def Given (d₀ : Disk) (path : Text) (all : List DirectoryEntry) (given : List DirEntry)
    (left : ℕ) (out : Option DirEntry × ReadDir) (d : Disk) : Prop :=
  match out.1 with
  | some e => ∃ left', left' + 1 ≤ left ∧ UnderWay d₀ path all (given ++ [e]) left' out.2 d
  | none => UnderWay d₀ path all given left out.2 d ∧ given = shown all ∧ out.2.finished = true

/-- A call that needs no page. -/
theorem meets_nextEntry_held (under : UnderWay d₀ path all given left r d)
    (held : r.page ≠ [] ∨ r.finished = true) :
    Meets Serves d (r.nextEntry n (turns + 1) : TreeVerb _)
      (Returns (Given d₀ path all given left)) := by
  rw [ReadDir.nextEntry]
  cases holds : r.page with
  | cons e page =>
      have next : r.next = .entry e { r with page } := by
        rw [ReadDir.next, holds]
      rw [next]
      refine meets_pure.mpr ⟨_, rfl, left - 1, ?_⟩
      cases under with
      | going pattern named unfinished unclosed free becomes listed count =>
          rw [holds, List.length_cons] at count
          rw [holds] at listed
          refine ⟨by omega, .going pattern named unfinished unclosed free becomes ?_ ?_⟩
          · rwa [List.append_assoc given, List.singleton_append]
          · dsimp only
            omega
      | ended finished still listed count =>
          rw [holds, List.length_cons] at count
          rw [holds] at listed
          refine ⟨by omega, .ended finished still ?_ ?_⟩
          · rwa [List.append_assoc given, List.singleton_append]
          · dsimp only
            omega
  | nil =>
      have finished : r.finished = true := held.resolve_left (not_not.mpr holds)
      have next : r.next = .ended := by
        rw [ReadDir.next, holds]
        dsimp only
        rw [finished, Bool.true_or, if_pos rfl]
      rw [next]
      refine meets_pure.mpr ⟨_, rfl, under, ?_, finished⟩
      cases under with
      | going _ _ unfinished => exact absurd (finished.symm.trans unfinished) (by decide)
      | ended _ _ listed => rwa [holds, List.append_nil] at listed

theorem meets_nextEntry (fits : Fits n path) (under : UnderWay d₀ path all given left r d)
    (enough : left + 2 ≤ turns) :
    Meets Serves d (r.nextEntry n turns : TreeVerb _) (Returns (Given d₀ path all given left)) := by
  induction turns generalizing r d left with
  | zero => omega
  | succ turns ih =>
      by_cases held : r.page ≠ [] ∨ r.finished = true
      · exact meets_nextEntry_held under held
      rw [not_or, not_not] at held
      cases under with
      | ended finished => exact absurd finished held.2
      | @going sid rest pattern named unfinished unclosed free becomes listed count =>
          have next : r.next = .fetch (r.nextParams sid) := by
            rw [ReadDir.next, held.1]
            dsimp only
            rw [unfinished, unclosed, if_neg (by decide), named]
          have flagged : (r.nextParams sid).flags &&& FLAG_CLOSE_AT_EOS ≠ 0 := by
            change NEXT_FLAGS &&& FLAG_CLOSE_AT_EOS ≠ 0
            decide
          have searching : d.searches sid = some rest := by
            rw [becomes.searches, Function.update_self]
          have restored : Function.update d.searches sid none = d₀.searches := by
            rw [becomes.searches, Function.update_idem, Function.update_eq_self_iff.mpr free.symm]
          rw [held.1, List.append_nil] at listed
          rw [held.1, List.length_nil, Nat.zero_add] at count
          -- the round brings something to give, ends the listing, or leaves less to list
          have round : Meets Serves d
              (r.round n false (.findNext (r.nextParams sid)) : TreeVerb ReadDir)
              (Returns fun r' d' => ∃ left', left' ≤ left ∧ UnderWay d₀ path all given left' r' d' ∧
                (r'.page ≠ [] ∨ r'.finished = true ∨ left' + 1 ≤ left)) := by
            apply meets_round (TreeRequest.encodes_findNext pattern fits)
            rintro reply d' ⟨_, ⟨⟩, finds⟩
            cases finds with
            | unknown closed => exact absurd (searching.symm.trans closed) (by simp)
            | ended under' status becomes' =>
                obtain rfl := Option.some.inj (searching.symm.trans under')
                rw [if_pos flagged, becomes.nodes, becomes.files] at becomes'
                change d'.Becomes _ _ (Function.update d.searches sid none) at becomes'
                refine ⟨_, ReadDir.pageIn_of_ended status, left, le_rfl, .ended rfl ?_ ?_ ?_,
                  Or.inr (Or.inl rfl)⟩
                · exact Becomes.eq (restored ▸ becomes')
                · dsimp only
                  rwa [held.1]
                · dsimp only
                  rw [held.1]
                  exact Nat.zero_le left
            | @page page rest' found under' filled paged last becomes' =>
                obtain rfl := Option.some.inj (searching.symm.trans under')
                rw [becomes.nodes, becomes.files] at becomes'
                rw [shown_append] at listed
                rw [List.length_append] at count
                have nonempty := List.length_pos_of_ne_nil filled
                have few := length_shown_le page
                have taken : (r.paged false page found).page = shown page := by
                  rw [ReadDir.paged, held.1, List.nil_append]
                refine ⟨_, ReadDir.pageIn_of_pages paged filled, ?_⟩
                by_cases ends : found.endOfSearch ≠ 0
                · have finished : (r.paged false page found).finished = true := by
                    rw [ReadDir.paged, decide_eq_true ends, Bool.or_true]
                  rw [if_pos ⟨ends, flagged⟩] at becomes'
                  change d'.Becomes _ _ (Function.update d.searches sid none) at becomes'
                  obtain rfl := last ends
                  refine ⟨left, le_rfl, .ended finished ?_ ?_ ?_, Or.inr (Or.inl finished)⟩
                  · exact Becomes.eq (restored ▸ becomes')
                  · rw [show shown [] = [] from rfl, List.append_nil] at listed
                    rwa [taken]
                  · rw [taken]
                    omega
                · have going : UnderWay d₀ path all given ((shown page).length + rest'.length)
                      (r.paged false page found) d' := by
                    rw [if_neg fun both => ends both.1] at becomes'
                    change d'.Becomes _ _ (Function.update d.searches sid (some rest')) at becomes'
                    rw [becomes.searches, Function.update_idem] at becomes'
                    refine .going pattern named ?_ unclosed free becomes' ?_ ?_
                    · rw [ReadDir.paged, decide_eq_false ends, unfinished, Bool.or_false]
                    · rw [taken, List.append_assoc, listed]
                    · rw [taken]
                  refine ⟨_, by omega, going, ?_⟩
                  by_cases dotted : shown page = []
                  · refine Or.inr (Or.inr ?_)
                    rw [dotted, List.length_nil]
                    omega
                  · exact Or.inl (taken ▸ dotted)
          rw [ReadDir.nextEntry, next]
          apply round.bind
          rintro r' d' ⟨left', fewer, under', goes⟩
          have weaker : ∀ out d'', Given d₀ path all given left' out d'' →
              Given d₀ path all given left out d'' := by
            rintro ⟨_ | e, r''⟩ d'' came
            · exact ⟨came.1.mono fewer, came.2⟩
            · obtain ⟨left'', less, under''⟩ := came
              exact ⟨left'', by omega, under''⟩
          have called : Meets Serves d' (r'.nextEntry n turns : TreeVerb _)
              (Returns (Given d₀ path all given left')) := by
            rcases goes with page | finished | less
            · obtain ⟨turns, rfl⟩ := Nat.exists_eq_succ_of_ne_zero (by omega : turns ≠ 0)
              exact meets_nextEntry_held under' (Or.inl page)
            · obtain ⟨turns, rfl⟩ := Nat.exists_eq_succ_of_ne_zero (by omega : turns ≠ 0)
              exact meets_nextEntry_held under' (Or.inr finished)
            · exact ih under' (by omega)
          apply called.mono
          rintro d'' result ⟨out, rfl, came⟩
          exact ⟨out, rfl, weaker out d'' came⟩

/-- A listing that is dropped to its end leaves nothing on the server. -/
theorem meets_drain (fits : Fits n path) (under : UnderWay d₀ path all given left r d)
    (enough : left + 3 ≤ turns) :
    Meets Serves d (Tree.drain n turns r) (Returns fun out d' =>
      given ++ out.2 = shown all ∧ out.1.finished = true ∧ d' = d₀) := by
  induction turns generalizing r d left given with
  | zero => omega
  | succ turns ih =>
      rw [Tree.drain]
      apply (meets_nextEntry fits under (by omega)).bind
      rintro ⟨_ | e, r'⟩ d' came
      · obtain ⟨under', whole, finished⟩ := came
        refine meets_pure.mpr ⟨_, rfl, ?_, finished, ?_⟩
        · rwa [List.append_nil]
        · cases under' with
          | going _ _ unfinished => exact absurd (finished.symm.trans unfinished) (by decide)
          | ended _ still => exact still
      · obtain ⟨left', less, under'⟩ := came
        apply (ih under' (by omega)).bind
        rintro ⟨r'', entries⟩ d'' ⟨whole, finished, still⟩
        refine meets_pure.mpr ⟨_, rfl, ?_, finished, still⟩
        rwa [List.append_assoc, List.singleton_append] at whole

/-- A listing that has ended sends nothing with its close. -/
theorem meets_closeFinished (finished : r.finished = true) :
    Meets Serves d (r.close n : TreeVerb Unit) (Returns fun _ d' => d' = d) := by
  rw [ReadDir.close]
  cases r.sid with
  | none => exact meets_pure.mpr ⟨(), rfl, rfl⟩
  | some sid =>
      dsimp only
      rw [finished, if_pos rfl]
      exact meets_pure.mpr ⟨(), rfl, rfl⟩

/-- A close leaves nothing on the server, wherever the listing stood. -/
theorem meets_closeListing (under : UnderWay d₀ path all given left r d) :
    Meets Serves d (r.close n : TreeVerb Unit) (Returns fun _ d' => d' = d₀) := by
  cases under with
  | ended finished still => exact still ▸ meets_closeFinished finished
  | @going sid rest _ named unfinished _ free becomes =>
      rw [ReadDir.close]
      have searching : d.searches sid = some rest := by
        rw [becomes.searches, Function.update_self]
      rw [named]
      dsimp only
      rw [unfinished, if_neg Bool.false_ne_true, meets_bind]
      apply TreeRequest.meets_checked ⟨_, rfl⟩
      · rintro reply d' ⟨_, ⟨⟩, closes⟩ success
        refine meets_pure.mpr ⟨(), rfl, ?_⟩
        cases closes with
        | unknown closed => exact absurd (searching.symm.trans closed) (by simp)
        | closed _ _ becomes' =>
            rw [becomes.nodes, becomes.files, becomes.searches, Function.update_idem,
              Function.update_eq_self_iff.mpr free.symm] at becomes'
            exact becomes'.eq
      · rintro reply d' ⟨_, ⟨⟩, closes⟩ refused
        cases closes with
        | unknown closed => exact absurd (searching.symm.trans closed) (by simp)
        | closed _ status => exact absurd status refused

end Disk

/-! ## Callers of a listing -/

namespace Tree

/-- So many calls for the next entry, or as many as there are entries for. -/
def advance (n : Negotiated) (turns : ℕ) : ℕ → ReadDir → TreeVerb (ReadDir × List DirEntry)
  | 0, listing => return (listing, [])
  | count + 1, listing => do
      match ← listing.nextEntry n turns with
      | (none, listing) => return (listing, [])
      | (some entry, listing) => do
          let (listing, entries) ← advance n turns count listing
          return (listing, entry :: entries)

/-- A caller that lists a path, calls for so many entries, and closes the listing. -/
def listSome (n : Negotiated) (turns count : ℕ) (path : Text) : TreeVerb (List DirEntry) := do
  let listing ← readDir n path
  let (listing, entries) ← advance n turns count listing
  listing.close n
  return entries

end Tree

namespace Disk

variable {n : Negotiated} {d d₀ d' : Disk} {path : Text} {p : SharePath} {r : ReadDir}
  {all : List DirectoryEntry} {given : List DirEntry} {left turns count : ℕ}

theorem meets_advance (fits : Fits n path) (under : UnderWay d₀ path all given left r d)
    (enough : left + 2 ≤ turns) :
    Meets Serves d (Tree.advance n turns count r) (Returns fun out d' =>
      UnderWay d₀ path all (given ++ out.2) left out.1 d' ∧
        (out.2.length = count ∨ out.2.length ≤ count ∧ given ++ out.2 = shown all)) := by
  induction count generalizing r d left given with
  | zero =>
      refine meets_pure.mpr ⟨_, rfl, ?_, Or.inl rfl⟩
      rwa [List.append_nil]
  | succ count ih =>
      rw [Tree.advance]
      apply (meets_nextEntry fits under enough).bind
      rintro ⟨_ | e, r'⟩ d' came
      · obtain ⟨under', whole, -⟩ := came
        refine meets_pure.mpr ⟨_, rfl, ?_, Or.inr ⟨Nat.zero_le _, ?_⟩⟩
        · rwa [List.append_nil]
        · rwa [List.append_nil]
      · obtain ⟨left', less, under'⟩ := came
        apply (ih under' (by omega)).bind
        rintro ⟨r'', entries⟩ d'' ⟨under'', taken⟩
        rw [List.append_assoc, List.singleton_append] at under'' taken
        refine meets_pure.mpr ⟨_, rfl, under''.mono (by omega), ?_⟩
        dsimp only at taken ⊢
        rw [List.length_cons]
        rcases taken with full | ⟨few, whole⟩
        · exact Or.inl (by omega)
        · exact Or.inr ⟨by omega, whole⟩

theorem meets_listSome {raw : Text} {below : Finset Place} (accepted : SharePath.new raw = .ok p)
    (fits : Fits n p.text) (directory : d.Directory (resolve p.text))
    (whole : ∀ name, (d.nodes (resolve p.text ++ [name])).isSome = true →
      resolve p.text ++ [name] ∈ below)
    (enough : below.card + 4 ≤ turns) :
    Meets Serves d (Tree.listSome n turns count raw) (Returns fun entries d' =>
      ∃ all, d.Lists (resolve p.text) all ∧ d' = d ∧ entries = (shown all).take count) := by
  rw [Tree.listSome]
  apply (meets_readDir accepted fits directory).bind
  rintro r d₁ ⟨all, lists, under⟩
  have few := lists.length_le whole
  apply (meets_advance fits under (by omega)).bind
  rintro ⟨r', entries⟩ d₂ ⟨under', taken⟩
  rw [List.nil_append] at under' taken
  apply (meets_closeListing under').bind
  intro _ d₃ still
  refine meets_pure.mpr ⟨_, rfl, all, lists, still, ?_⟩
  dsimp only at taken under'
  rcases taken with full | ⟨short, whole⟩
  · have front : entries <+: shown all := by
      cases under' with
      | going _ _ _ _ _ _ listed =>
          rw [List.append_assoc] at listed
          exact ⟨_, listed⟩
      | ended _ _ listed => exact ⟨_, listed⟩
    rw [← full]
    exact List.prefix_iff_eq_take.mp front
  · rw [← whole]
    exact (List.take_of_length_le short).symm

/-- **A listing gives the directory's entries, and leaves no search behind.** However many
entries its caller takes before the close, they are the first so many of a list of what is
in the directory, each once, and the disk is as it was, searches included. -/
theorem listSome_lists {raw : Text} {answers : List Answer} {below : Finset Place}
    (accepted : SharePath.new raw = .ok p) (fits : Fits n p.text)
    (directory : d.Directory (resolve p.text))
    (whole : ∀ name, (d.nodes (resolve p.text ++ [name])).isSome = true →
      resolve p.text ++ [name] ∈ below)
    (enough : below.card + 4 ≤ turns)
    (served : Served Serves d (Tree.listSome n turns count raw) answers d') :
    (∃ request, (Tree.listSome n turns count raw).asks answers = some request) ∨
      ∃ all, d.Lists (resolve p.text) all ∧ d' = d ∧
        (Tree.listSome n turns count raw).outcome answers =
          some (.ok ((shown all).take count)) := by
  have meets := @meets_listSome n d p turns count raw below accepted fits directory whole enough
  rcases meets.served served with asks | ⟨result, came, entries, rfl, all, lists, still, rfl⟩
  · exact Or.inl asks
  · exact Or.inr ⟨all, lists, still, came⟩

def directoryInfo : Metadata := ⟨0, 0, 0, 0, 0, 0, ATTRIBUTE_DIRECTORY⟩

def fileInfo : Metadata := ⟨0, 0, 0, 0, 0, 0, ATTRIBUTE_NORMAL⟩

/-- A directory `a` with a file `x`. -/
def oneFile : Disk :=
  .ofTable directoryInfo [([['a']], directoryInfo), ([['a'], ['x']], fileInfo)] (by decide)

/-- The entry of the file. -/
def entryX : DirectoryEntry := ⟨0, 0, 0, 0, 0, 0, 0, ATTRIBUTE_NORMAL, 0, [], ['x']⟩

theorem named_oneFile {name : Text} (there : (oneFile.nodes ([['a']] ++ [name])).isSome = true) :
    name = ['x'] := by
  obtain ⟨row, member, same⟩ := List.lookup_isSome_iff.mp there
  simp at member
  rcases member with rfl | rfl | rfl <;> simp at same
  exact same

theorem lists_oneFile : oneFile.Lists [['a']] [entryX] where
  nodup := List.nodup_singleton _
  shows := by
    intro e member _
    rw [List.mem_singleton.mp member]
    rfl
  whole := fun name there => ⟨entryX, List.mem_singleton_self _, (named_oneFile there).symm⟩

theorem pages_oneFile : Pages true (onePage ['x'] ATTRIBUTE_NORMAL) [entryX]
    ⟨some 1, 1, 1, 0, 0⟩ := by
  refine ⟨[.plain entryX rfl (by decide)], ⟨rfl, ⟨[], false, ?_⟩, rfl, rfl⟩, rfl⟩
  decide +kernel

theorem finds_oneFile : oneFile.FindsFirst (ReadDir.firstParams (searchPattern ['a']))
    (onePage ['x'] ATTRIBUTE_NORMAL) oneFile := by
  have pattern : Matches (searchPattern ['a']) [['a']] := matches_searchPattern.mpr rfl
  have lists : oneFile.Lists [['a']] ([entryX] ++ []) := lists_oneFile
  exact .page pattern ⟨directoryInfo, rfl, rfl⟩ lists (List.cons_ne_nil _ _) pages_oneFile rfl rfl
    (fun _ => rfl) ⟨rfl, rfl, rfl⟩

theorem listSome_lists_one : ∃ all, oneFile.Lists [['a']] all ∧
    (Tree.listSome ⟨50, 16644, 0⟩ 5 1 ['a']).outcome [.ok (onePage ['x'] ATTRIBUTE_NORMAL)] =
      some (.ok ((shown all).take 1)) := by
  have served : Served Serves oneFile (Tree.listSome ⟨50, 16644, 0⟩ 5 1 ['a'])
      [.ok (onePage ['x'] ATTRIBUTE_NORMAL)] oneFile :=
    ⟨oneFile, ⟨_, rfl, finds_oneFile⟩, rfl, rfl⟩
  have below : ∀ name, (oneFile.nodes ([['a']] ++ [name])).isSome = true →
      [['a']] ++ [name] ∈ ({[['a'], ['x']]} : Finset Place) := by
    intro name there
    rw [Finset.mem_singleton, named_oneFile there]
    rfl
  rcases @listSome_lists ⟨50, 16644, 0⟩ oneFile oneFile directoryA 5 1 ['a'] _ _ rfl (by decide)
    ⟨directoryInfo, rfl, rfl⟩ below (by decide) served with ⟨request, asks⟩ | ⟨all, lists, -, came⟩
  · have ended : (Tree.listSome ⟨50, 16644, 0⟩ 5 1 ['a']).asks
        [.ok (onePage ['x'] ATTRIBUTE_NORMAL)] = none := rfl
    cases ended.symm.trans asks
  · exact ⟨all, lists, came⟩

end Disk

end Smb1Client
