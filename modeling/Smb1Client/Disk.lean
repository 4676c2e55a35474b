import Smb1Client.Lib.Peer
import Smb1Client.RemoveDirAll
import Smb1Client.Resource.LaidPages
import Smb1Client.SharePaths

/-!
A disk that a server shares, and what the server answers on it.

This is not code of the repository: it is what the tree verbs are for. A disk has files and
directories at places, opens of them, and searches that are under way. A server gives out
any identifier that is free, cuts a listing into pages as it likes, and picks any status
that says nothing is there. A page is stated by how it is laid out, and any other answer by what
the reply decodes to.
-/

namespace Smb1Client

open Dialogue

/-! ## Places -/

/-- The names down from the share root. -/
abbrev Place := List Text

/-- Where one component leads from a place. -/
def descend (place : Place) (component : Text) : Place :=
  if component = [] ∨ component = ['.'] then place
  else if component = PARENT then place.dropLast
  else place ++ [component]

/-- Where a server finds what a path names. -/
def resolve (path : Text) : Place := (components path).foldl descend []

/-- A name that a path can be given behind a directory's, and comes out as it went in. -/
structure Plain (name : Text) : Prop where
  named : isName name = true
  trimmed : Trimmed name
  characters : ∀ c ∈ name, c ≠ '\\' ∧ c ≠ '/' ∧ c ≠ '\x00'

theorem Plain.ne_nil {name : Text} (plain : Plain name) : name ≠ [] := by
  rintro rfl
  exact absurd plain.named (by decide)

theorem Plain.component {name : Text} (plain : Plain name) : '\\' ∉ name :=
  fun member => (plain.characters _ member).1 rfl

theorem components_of_component {name : Text} (component : '\\' ∉ name) :
    components name = [name] := by
  have split := @components_append name [] component
  rw [List.append_nil] at split
  rw [split, components, List.splitOn_nil, List.modifyHead_cons, List.append_nil]

theorem isName_iff {name : Text} :
    isName name = true ↔ name ≠ [] ∧ name ≠ ['.'] ∧ name ≠ PARENT := by
  rw [isName, Bool.and_eq_true, Bool.and_eq_true, decide_eq_true_iff, decide_eq_true_iff,
    decide_eq_true_iff, and_assoc]

theorem descend_name {place : Place} {name : Text} (named : isName name = true) :
    descend place name = place ++ [name] := by
  obtain ⟨nonempty, here, climbs⟩ := isName_iff.mp named
  rw [descend, if_neg (not_or.mpr ⟨nonempty, here⟩), if_neg climbs]

/-- An entry is found one level below its directory. -/
theorem resolve_join {directory name : Text} (named : isName name = true)
    (component : '\\' ∉ name) : resolve (join directory name) = resolve directory ++ [name] := by
  have behind : ∀ front : Text, resolve (front ++ '\\' :: name) = resolve front ++ [name] := by
    intro front
    unfold resolve components
    rw [List.splitOn_append_cons_self, List.foldl_append]
    have single := components_of_component component
    unfold components at single
    rw [single, List.foldl_cons, List.foldl_nil, descend_name named]
  rw [join]
  split
  · next root =>
      rw [root, resolve, components_of_component component, List.foldl_cons, List.foldl_nil,
        descend_name named]
      rfl
  split
  · next last =>
      -- a trailing separator adds an empty component, which leads nowhere
      obtain ⟨front, rfl⟩ := List.getLast?_eq_some_iff.mp last
      have still : resolve (front ++ ['\\']) = resolve front := by
        unfold resolve components
        rw [List.splitOn_append_cons_self, List.foldl_append]
        rfl
      rw [List.append_assoc, List.singleton_append, behind, still]
  · exact behind directory

/-- A path that has been accepted is accepted as it is. -/
theorem new_text {p : SharePath} {path : Text} (accepted : SharePath.new path = .ok p) :
    SharePath.new p.text = .ok p := by
  have normal : normalize p.text = p.text := by
    rw [SharePath.text_of_new accepted, normalize_normalize]
  have again : ∃ q, SharePath.new p.text = .ok q := by
    rw [new_isOk_iff, normal]
    exact ⟨p.noNull, p.relative, escapesShareRoot_eq_false_iff.mp p.confined⟩
  obtain ⟨q, accepted'⟩ := again
  have same : q.text = p.text := (SharePath.text_of_new accepted').trans normal
  rw [accepted']
  obtain ⟨text, _, _, _⟩ := p
  obtain ⟨text', _, _, _⟩ := q
  obtain rfl : text' = text := same
  rfl

/-- A plain name behind a path of the share is accepted as it is. -/
theorem new_join {p : SharePath} {path name : Text} (accepted : SharePath.new path = .ok p)
    (plain : Plain name) :
    ∃ q, SharePath.new (join p.text name) = .ok q ∧ q.text = join p.text name := by
  have normal : normalize p.text = p.text := by
    rw [SharePath.text_of_new accepted, normalize_normalize]
  have trimmed : Trimmed p.text := by
    rw [SharePath.text_of_new accepted]
    exact trimmed_normalize path
  have nonempty := plain.ne_nil
  have single : Confined name := by
    rw [Confined, components_of_component plain.component, within_cons_name plain.named]
    exact within_nil
  have behind : ∀ front : Text, Within 0 (components front) →
      Within 0 (components (front ++ '\\' :: name)) := by
    intro front confined
    rw [components, List.splitOn_append_cons_self]
    exact Within.append confined single
  have kept : (p.text.map fun c => if c = '/' then '\\' else c) = p.text := by
    rwa [normalize, trim_of_trimmed trimmed] at normal
  have kept' : (name.map fun c => if c = '/' then '\\' else c) = name := by
    refine (List.map_congr_left fun c member => if_neg ?_).trans (List.map_id _)
    exact (plain.characters c member).2.1
  -- whatever stands between the two, it is a separator or nothing
  have between : ∃ rest, join p.text name = p.text ++ rest ++ name ∧
      (rest = [] ∨ rest = ['\\']) := by
    rw [join]
    split
    · next root => exact ⟨[], by rw [root]; rfl, Or.inl rfl⟩
    split
    · exact ⟨[], by rw [List.append_nil], Or.inl rfl⟩
    · exact ⟨['\\'], by rw [List.append_assoc]; rfl, Or.inr rfl⟩
  have confined : Confined (join p.text name) := by
    have front := escapesShareRoot_eq_false_iff.mp p.confined
    rw [join]
    split
    · exact single
    split
    · next last =>
        obtain ⟨stem, ends⟩ := List.getLast?_eq_some_iff.mp last
        rw [ends] at front ⊢
        rw [Confined, components, List.splitOn_append_cons_self] at front
        rw [List.append_assoc]
        refine behind stem fun parts fits => front parts ?_
        exact fits.trans (List.prefix_append _ _)
    · exact behind p.text front
  obtain ⟨rest, joined, separator⟩ := between
  have keptRest : (rest.map fun c => if c = '/' then '\\' else c) = rest := by
    rcases separator with rfl | rfl <;> rfl
  have settled : normalize (join p.text name) = join p.text name := by
    have trimmedJoin : Trimmed (join p.text name) := by
      constructor
      · rw [joined, List.append_assoc, List.head?_append]
        intro c head
        cases front : p.text.head? with
        | some first =>
            rw [front] at head
            cases head
            exact trimmed.1 _ front
        | none =>
            have root : p.text = [] := List.head?_eq_none_iff.mp front
            rw [front] at head
            rw [join, if_pos root, root, List.nil_append] at joined
            rw [← joined] at head
            exact plain.trimmed.1 c head
      · rw [joined, List.getLast?_append_of_ne_nil _ nonempty]
        exact plain.trimmed.2
    rw [normalize, trim_of_trimmed trimmedJoin, joined, List.map_append, List.map_append, kept,
      kept', keptRest]
  have noNull : '\x00' ∉ join p.text name := by
    rw [joined]
    simp only [List.mem_append, not_or]
    refine ⟨⟨p.noNull, ?_⟩, fun member => (plain.characters _ member).2.2 rfl⟩
    rcases separator with rfl | rfl <;> decide
  have relative : (join p.text name).head? ≠ some '\\' := by
    rw [join]
    split
    · intro head
      exact plain.component (List.mem_of_head? head)
    · next inner =>
        have front := p.relative
        obtain ⟨c, tail, ends⟩ := List.exists_cons_of_ne_nil inner
        rw [ends] at front ⊢
        split <;> exact front
  have accepts : ∃ q, SharePath.new (join p.text name) = .ok q := by
    rw [new_isOk_iff, settled]
    exact ⟨noNull, relative, confined⟩
  obtain ⟨q, made⟩ := accepts
  exact ⟨q, made, (SharePath.text_of_new made).trans settled⟩

/-! ## Disks -/

/-- An open of a place, and whether it deletes the place when it is closed. -/
structure Opened where
  place : Place
  deleteOnClose : Bool
  deriving DecidableEq, Repr

/-- What is at each place, what is open, and the searches under way with the entries each
has still to list. What is at a place is what a stat of it says. -/
@[ext]
structure Disk where
  nodes : Place → Option Metadata
  files : UInt16 → Option Opened
  searches : UInt16 → Option (List DirectoryEntry)
  root : ∃ m, nodes [] = some m ∧ m.isDir = true
  rooted : ∀ place name, (nodes (place ++ [name])).isSome = true →
    (∃ m, nodes place = some m ∧ m.isDir = true) ∧ isName name = true ∧ '\\' ∉ name

namespace Disk

def Directory (d : Disk) (place : Place) : Prop := ∃ m, d.nodes place = some m ∧ m.isDir = true

/-- Nothing is below the place. -/
def Bare (d : Disk) (place : Place) : Prop := ∀ name, d.nodes (place ++ [name]) = none

/-- The entries are those of the directory, each once, with `.` and `..` as the server likes
to list them. -/
structure Lists (d : Disk) (place : Place) (entries : List DirectoryEntry) : Prop where
  nodup : (entries.map (·.fileName)).Nodup
  shows : ∀ e ∈ entries, e.isDots = false →
    d.nodes (place ++ [e.fileName]) = some (DirEntry.ofDirectoryEntry e).metadata
  whole : ∀ name, (d.nodes (place ++ [name])).isSome = true → ∃ e ∈ entries, e.fileName = name

/-- What the disk has come to be. -/
structure Becomes (d' : Disk) (nodes : Place → Option Metadata) (files : UInt16 → Option Opened)
    (searches : UInt16 → Option (List DirectoryEntry)) : Prop where
  nodes : d'.nodes = nodes
  files : d'.files = files
  searches : d'.searches = searches

/-- The disk with its opens and searches replaced. -/
def holding (d : Disk) (files : UInt16 → Option Opened)
    (searches : UInt16 → Option (List DirectoryEntry)) : Disk :=
  { d with files, searches }

/-- The disk without a place that nothing is below. -/
def unlink (d : Disk) (place : Place) (bare : d.Bare place) (below : place ≠ []) : Disk where
  nodes := Function.update d.nodes place none
  files := d.files
  searches := d.searches
  root := by
    obtain ⟨m, there, directory⟩ := d.root
    exact ⟨m, by rwa [Function.update_of_ne below.symm], directory⟩
  rooted := by
    intro q name there
    have other : q ++ [name] ≠ place := by
      rintro rfl
      rw [Function.update_self] at there
      cases there
    rw [Function.update_of_ne other] at there
    obtain ⟨⟨m, parent, directory⟩, named⟩ := d.rooted q name there
    refine ⟨⟨m, ?_, directory⟩, named⟩
    rwa [Function.update_of_ne]
    rintro rfl
    rw [bare name] at there
    cases there

/-- A table of a disk is in order: what it lists is below directories that it lists. -/
def InOrder (root : Metadata) (table : List (Place × Metadata)) : Prop :=
  root.isDir = true ∧ ∀ row ∈ table,
    (∃ m ∈ (([], root) :: table).lookup row.1.dropLast, m.isDir = true) ∧
      ∀ name ∈ row.1.getLast?, isName name = true ∧ '\\' ∉ name

instance (root : Metadata) (table : List (Place × Metadata)) : Decidable (InOrder root table) :=
  inferInstanceAs (Decidable (_ ∧ _))

/-- A disk as a table says, with nothing open. -/
def ofTable (root : Metadata) (table : List (Place × Metadata)) (inOrder : InOrder root table) :
    Disk where
  nodes := fun q => (([], root) :: table).lookup q
  files := fun _ => none
  searches := fun _ => none
  root := ⟨root, rfl, inOrder.1⟩
  rooted := by
    intro place name there
    obtain ⟨row, member, same⟩ := List.lookup_isSome_iff.mp there
    obtain rfl | listed := List.mem_cons.mp member
    · simp at same
    · obtain ⟨⟨m, parent, directory⟩, named⟩ := inOrder.2 row listed
      rw [← beq_iff_eq.mp same, List.dropLast_concat] at parent
      refine ⟨⟨m, parent, directory⟩, named name ?_⟩
      rw [← beq_iff_eq.mp same, List.getLast?_concat]
      rfl

/-! ## Answers -/

/-- A request that asks for a directory, or for anything but one, is at what it asks for. -/
def Suits (r : NtCreateAndxRequest) (m : Metadata) : Prop :=
  (r.createOptions &&& FILE_DIRECTORY_FILE ≠ 0 → m.isDir = true) ∧
    (r.createOptions &&& FILE_NON_DIRECTORY_FILE ≠ 0 → m.isDir = false)

/-- The reply opens the place on an identifier that is free, and the disk has this at it. -/
structure Grants (d : Disk) (r : NtCreateAndxRequest) (m : Metadata) (reply : Reply)
    (response : NtCreateAndxResponse) (d' : Disk) : Prop where
  success : reply.status = .SUCCESS
  decoded : NtCreateAndxResponse.decode reply.message = .ok response
  free : d.files response.fid = none
  length : response.endOfFile = m.len
  becomes : d'.Becomes (Function.update d.nodes (resolve r.name) (some m))
    (Function.update d.files response.fid
      (some ⟨resolve r.name, decide (r.createOptions &&& FILE_DELETE_ON_CLOSE ≠ 0)⟩)) d.searches

/-- `NT_CREATE_ANDX`. -/
inductive Creates (d : Disk) (r : NtCreateAndxRequest) (reply : Reply) (d' : Disk) : Prop
  | missing (absent : d.nodes (resolve r.name) = none)
      (needed : r.createDisposition = FILE_OPEN ∨ r.createDisposition = FILE_OVERWRITE)
      (status : statusKind reply.status = .notFound) (still : d' = d)
  | orphan (absent : d.nodes (resolve r.name) = none)
      (parentless : ¬ d.Directory (resolve r.name).dropLast)
      (status : statusKind reply.status = .notFound) (still : d' = d)
  | collides {m : Metadata} (there : d.nodes (resolve r.name) = some m)
      (exclusive : r.createDisposition = FILE_CREATE)
      (status : reply.status = .OBJECT_NAME_COLLISION) (still : d' = d)
  | mistaken {m : Metadata} (there : d.nodes (resolve r.name) = some m)
      (shared : r.createDisposition ≠ FILE_CREATE) (unsuited : ¬ Suits r m)
      (status : reply.status = if m.isDir = true then .FILE_IS_A_DIRECTORY else .NOT_A_DIRECTORY)
      (still : d' = d)
  | opened {m : Metadata} {response : NtCreateAndxResponse}
      (there : d.nodes (resolve r.name) = some m) (suited : Suits r m)
      (opens : r.createDisposition = FILE_OPEN ∨ r.createDisposition = FILE_OPEN_IF)
      (granted : d.Grants r m reply response d')
  | overwritten {m m' : Metadata} {response : NtCreateAndxResponse}
      (there : d.nodes (resolve r.name) = some m) (suited : Suits r m)
      (empties : r.createDisposition = FILE_OVERWRITE ∨ r.createDisposition = FILE_OVERWRITE_IF)
      (emptied : m'.isDir = m.isDir ∧ m'.len = 0) (granted : d.Grants r m' reply response d')
  | created {m' : Metadata} {response : NtCreateAndxResponse}
      (absent : d.nodes (resolve r.name) = none)
      (parent : d.Directory (resolve r.name).dropLast)
      (creates : r.createDisposition = FILE_CREATE ∨ r.createDisposition = FILE_OPEN_IF ∨
        r.createDisposition = FILE_OVERWRITE_IF)
      (emptied : m'.isDir = decide (r.createOptions &&& FILE_DIRECTORY_FILE ≠ 0) ∧ m'.len = 0)
      (granted : d.Grants r m' reply response d')

/-- `CLOSE`. A directory with something below it outlives an open that was to delete it, and
the reply does not say so. What becomes of a place that is open elsewhere is not said. -/
inductive Closes (d : Disk) (fid : UInt16) (reply : Reply) (d' : Disk) : Prop
  | unknown (closed : d.files fid = none) (status : reply.status = .INVALID_HANDLE)
      (still : d' = d)
  | elsewhere {o o' : Opened} {fid' : UInt16} (held : d.files fid = some o) (other : fid' ≠ fid)
      (held' : d.files fid' = some o') (same : o'.place = o.place)
  | kept {o : Opened} (held : d.files fid = some o)
      (stays : o.deleteOnClose = false ∨ ¬ d.Bare o.place ∨ o.place = [])
      (status : reply.status = .SUCCESS)
      (becomes : d'.Becomes d.nodes (Function.update d.files fid none) d.searches)
  | unlinked {o : Opened} (held : d.files fid = some o) (deletes : o.deleteOnClose = true)
      (bare : d.Bare o.place) (below : o.place ≠ []) (status : reply.status = .SUCCESS)
      (becomes : d'.Becomes (Function.update d.nodes o.place none)
        (Function.update d.files fid none) d.searches)

/-- The reply carries a page of entries as they are laid out, and says whether the search ends
with it. -/
def Pages (first : Bool) (reply : Reply) (page : List DirectoryEntry) (found : FindReply) : Prop :=
  ∃ laid, reply.Carries first found laid ∧ laid.map (·.entry) = page

/-- The page ends what there is to list. -/
def Last (found : FindReply) (rest : List DirectoryEntry) : Prop :=
  found.endOfSearch ≠ 0 → rest = []

/-- The pattern is of everything in the directory at this place. -/
def Matches (pattern : Text) (place : Place) : Prop :=
  pattern.getLast? = some '*' ∧ place = resolve pattern.dropLast

/-- `TRANS2_FIND_FIRST2` on everything in a directory. A page lists something, and a search
that a page ends is closed with it where that was asked for. -/
inductive FindsFirst (d : Disk) (p : FindFirst2Params) (reply : Reply) (d' : Disk) : Prop
  | absent {place : Place} (pattern : Matches p.pattern place) (nowhere : ¬ d.Directory place)
      (status : statusKind reply.status = .notFound) (still : d' = d)
  | page {place : Place} {page rest : List DirectoryEntry} {found : FindReply} {sid : UInt16}
      (pattern : Matches p.pattern place) (directory : d.Directory place)
      (lists : d.Lists place (page ++ rest)) (filled : page ≠ [])
      (paged : Pages true reply page found) (named : found.sid = some sid)
      (free : d.searches sid = none) (last : Last found rest)
      (becomes : d'.Becomes d.nodes d.files
        (if found.endOfSearch ≠ 0 ∧ p.flags &&& FLAG_CLOSE_AT_EOS ≠ 0 then d.searches
          else Function.update d.searches sid (some rest)))
  | other (narrower : ∀ place, ¬ Matches p.pattern place)

/-- `TRANS2_FIND_NEXT2`. -/
inductive FindsNext (d : Disk) (p : FindNext2Params) (reply : Reply) (d' : Disk) : Prop
  | unknown (closed : d.searches p.sid = none) (status : reply.status = .INVALID_HANDLE)
      (still : d' = d)
  | page {page rest : List DirectoryEntry} {found : FindReply}
      (under : d.searches p.sid = some (page ++ rest)) (filled : page ≠ [])
      (paged : Pages false reply page found) (last : Last found rest)
      (becomes : d'.Becomes d.nodes d.files
        (Function.update d.searches p.sid
          (if found.endOfSearch ≠ 0 ∧ p.flags &&& FLAG_CLOSE_AT_EOS ≠ 0 then none
            else some rest)))
  | ended (under : d.searches p.sid = some []) (status : reply.status = .NO_MORE_FILES)
      (becomes : d'.Becomes d.nodes d.files
        (Function.update d.searches p.sid
          (if p.flags &&& FLAG_CLOSE_AT_EOS ≠ 0 then none else some [])))

/-- `FIND_CLOSE2`. -/
inductive FindCloses (d : Disk) (sid : UInt16) (reply : Reply) (d' : Disk) : Prop
  | unknown (closed : d.searches sid = none) (status : reply.status = .INVALID_HANDLE)
      (still : d' = d)
  | closed (under : (d.searches sid).isSome = true) (status : reply.status = .SUCCESS)
      (becomes : d'.Becomes d.nodes d.files (Function.update d.searches sid none))

end Disk

/-- What a stat says at the basic level. -/
def Metadata.basic (m : Metadata) : BasicInfo where
  creationTime := some m.creationTime
  lastAccessTime := some m.lastAccessTime
  lastWriteTime := some m.lastWriteTime
  changeTime := some m.changeTime
  attributes := some m.attributes

namespace Disk

/-- `TRANS2_QUERY_PATH_INFORMATION` at the two levels a stat asks for. -/
inductive Stats (d : Disk) (level : UInt16) (path : Text) (reply : Reply) (d' : Disk) : Prop
  | absent (absent : d.nodes (resolve path) = none) (status : statusKind reply.status = .notFound)
      (still : d' = d)
  | basic {m : Metadata} (asked : level = QUERY_BASIC_INFO)
      (there : d.nodes (resolve path) = some m) (success : reply.status = .SUCCESS)
      (decoded : BasicInfo.decode reply.transactionData = .ok m.basic) (still : d' = d)
  | standard {m : Metadata} {info : StandardInfo} (asked : level = QUERY_STANDARD_INFO)
      (there : d.nodes (resolve path) = some m) (success : reply.status = .SUCCESS)
      (decoded : StandardInfo.decode reply.transactionData = .ok info)
      (sizes : info.endOfFile = m.len ∧ info.allocationSize = m.allocationSize) (still : d' = d)
  | other (neither : level ≠ QUERY_BASIC_INFO ∧ level ≠ QUERY_STANDARD_INFO)

/-- What a server answers on its disk. Of the requests the verbs on paths do not put, it may
answer anything. -/
def Serves : Peer Disk TreeRequest Answer := fun d request answer d' =>
  ∃ reply, answer = .ok reply ∧
    match request with
    | .create r => d.Creates r reply d'
    | .close r => d.Closes r.fid reply d'
    | .findFirst p => d.FindsFirst p reply d'
    | .findNext p => d.FindsNext p reply d'
    | .findClose r => d.FindCloses r.sid reply d'
    | .queryPath level path => d.Stats level path reply d'
    | .read _ => True
    | .write _ => True
    | .pipeTransact _ _ => True
    | .rap _ _ => True

end Disk

end Smb1Client
