import Smb1Client.DiskRemoval
import Smb1Client.ShareVerbs

/-!
What the tree verbs are for, and what a server answers to the rest of their requests.

A verb's effect is stated on places: what is there, what comes to be there, and what the
caller is told. It leaves no open and no search behind, so it is a relation between disks.
-/

namespace Smb1Client

open Dialogue

/-! ## Verbs -/

/-- A verb on one path, run to its end. -/
inductive PathAction where
  | createDir
  | removeFile
  | removeDir
  | removeDirAll
  | list (count : ℕ)
  | setTimes (creation lastAccess lastWrite change : Option OffsetDateTime)
  | setAttributes (attributes : UInt32)
  | metadata
  | isThere
  | openAndClose (options : OpenOptions)

/-- A verb on paths. -/
inductive PathVerb (π : Type) where
  | on (path : π) (action : PathAction)
  | rename (old new : π)

/-- What a verb tells its caller. -/
inductive Said where
  | nothing
  | entries (entries : List DirEntry)
  | found (m : Metadata)
  | answer (there : Bool)
  | length (len : UInt64)

section Runs

variable (n : Negotiated) (turns : ℕ)

def PathAction.run (path : Text) : PathAction → ShareVerb Said
  | createDir => do
      Tree.lift (Tree.createDir n path)
      return .nothing
  | removeFile => do
      Tree.lift (Tree.removeFile n path)
      return .nothing
  | removeDir => do
      Tree.lift (Tree.removeDir n path)
      return .nothing
  | removeDirAll => do
      Tree.lift (Tree.removeDirAll n turns path)
      return .nothing
  | list count => do
      let entries ← Tree.lift (Tree.listSome n turns count path)
      return .entries entries
  | setTimes creation lastAccess lastWrite change => do
      Tree.setTimes n path creation lastAccess lastWrite change
      return .nothing
  | setAttributes attributes => do
      Tree.setAttributes n path attributes
      return .nothing
  | metadata => do
      let found ← Tree.lift (Tree.metadata n path)
      return .found found
  | isThere => do
      let there ← Tree.lift (Tree.isThere n path)
      return .answer there
  | openAndClose options => do
      let length ← Tree.lift (Tree.openAndClose n path options)
      return .length length

def PathVerb.run : PathVerb Text → ShareVerb Said
  | on path action => action.run n turns path
  | rename old new => do
      Tree.rename n old new
      return .nothing

end Runs

namespace PathVerb

/-- The verb on paths of the share, or the refusal of the first that is none. -/
def accept : PathVerb Text → Except InvalidPath (PathVerb SharePath)
  | on path action => do return .on (← SharePath.new path) action
  | rename old new => do return .rename (← SharePath.new old) (← SharePath.new new)

end PathVerb

/-! ## Effects -/

/-- What may come of a verb: what the caller is told, and the disk that is left. -/
abbrev Outcome := Except ErrorKind Said → Disk → Prop

namespace Disk

variable (d : Disk) (place : Place)

/-- The disk is as it was. -/
def kept (came : Except ErrorKind Said) : Outcome := fun result d' => result = came ∧ d' = d

/-- This is at the place, and all else as it was. -/
def put (node : Option Metadata) (said : Said) : Outcome := fun result d' =>
  result = .ok said ∧ d'.Becomes (Function.update d.nodes place node) d.files d.searches

/-- Something empty is at the place. -/
def empty (directory : Bool) (said : Said) : Outcome := fun result d' =>
  ∃ m, m.isDir = directory ∧ m.len = 0 ∧ d.put place (some m) said result d'

open Classical in
/-- Something new is at the place, where there is a directory for it. -/
noncomputable def make (directory : Bool) (said : Said) : Outcome :=
  if d.Directory place.dropLast then d.empty place directory said else d.kept (.error .notFound)

/-- A time as it is set: where none is sent, or the 1601 epoch, it stays. -/
def timeSet (time : Option OffsetDateTime) (old : Int64) : Int64 :=
  match time with
  | none => old
  | some t => if toFiletime t = 0 then old else toFiletime t

/-- The attributes that a server sets as it is told. -/
def ATTRIBUTES_SET : UInt32 := ~~~(ATTRIBUTE_DIRECTORY ||| ATTRIBUTE_NORMAL)

/-- Where everything at and below a place is after it has moved. -/
def moved (old new : Place) : Place → Option Metadata := fun q =>
  if new <+: q then d.nodes (old ++ q.drop new.length)
  else if old <+: q then none
  else d.nodes q

end Disk

open Classical in
/-- What a verb on one path comes to. -/
noncomputable def PathAction.effect (d : Disk) (place : Place) : PathAction → Outcome
  | createDir =>
      match d.nodes place with
      | some _ => d.kept (.error .alreadyExists)
      | none => d.make place true .nothing
  | removeFile =>
      match d.nodes place with
      | none => d.kept (.error .notFound)
      | some m =>
          if m.isDir = true then d.kept (.error .isADirectory) else d.put place none .nothing
  | removeDir =>
      match d.nodes place with
      | none => d.kept (.error .notFound)
      | some m =>
          if m.isDir = false then d.kept (.error .notADirectory)
          else if d.Bare place ∧ place ≠ [] then d.put place none .nothing
          else d.kept (.error .directoryNotEmpty)
  | removeDirAll => fun result d' =>
      result = .ok .nothing ∧ d'.Becomes (d.without place) d.files d.searches
  | list count => fun result d' =>
      ∃ all, d.Lists place all ∧ d.kept (.ok (.entries ((shown all).take count))) result d'
  | setTimes creation lastAccess lastWrite change =>
      match d.nodes place with
      | none => d.kept (.error .notFound)
      | some m => d.put place
          (some { m with
            creationTime := Disk.timeSet creation m.creationTime
            lastAccessTime := Disk.timeSet lastAccess m.lastAccessTime
            lastWriteTime := Disk.timeSet lastWrite m.lastWriteTime
            changeTime := Disk.timeSet change m.changeTime }) .nothing
  | setAttributes attributes =>
      match d.nodes place with
      | none => d.kept (.error .notFound)
      | some m => fun result d' => ∃ set : UInt32,
          set &&& ATTRIBUTE_DIRECTORY = m.attributes &&& ATTRIBUTE_DIRECTORY ∧
            set &&& Disk.ATTRIBUTES_SET = attributes &&& Disk.ATTRIBUTES_SET ∧
              d.put place (some { m with attributes := set }) .nothing result d'
  | metadata =>
      match d.nodes place with
      | none => d.kept (.error .notFound)
      | some m => d.kept (.ok (.found m))
  | isThere => d.kept (.ok (.answer (d.nodes place).isSome))
  | openAndClose options =>
      match d.nodes place with
      | none =>
          if options.create = true ∨ options.createNew = true then d.make place false (.length 0)
          else d.kept (.error .notFound)
      | some m =>
          if options.createNew = true then d.kept (.error .alreadyExists)
          else if m.isDir = true then d.kept (.error .isADirectory)
          else if options.truncate = true then d.empty place false (.length 0)
          else d.kept (.ok (.length m.len))

open Classical in
/-- What a rename comes to. What is at a place is not moved onto anything else, into nothing,
or below itself. -/
noncomputable def Disk.renamed (d : Disk) (old new : Place) : Outcome :=
  match d.nodes old, d.nodes new with
  | none, _ => d.kept (.error .notFound)
  | some _, some _ => fun result d' =>
      d.kept (.error .alreadyExists) result d' ∨ old = new ∧ d.kept (.ok .nothing) result d'
  | some _, none =>
      if ¬ d.Directory new.dropLast then d.kept (.error .notFound)
      else if old <+: new then fun result d' => ∃ kind, d.kept (.error kind) result d'
      else fun result d' => result = .ok .nothing ∧
        d'.Becomes (d.moved old new) d.files d.searches

/-- What a verb on paths of the share comes to. -/
noncomputable def PathVerb.effectOn (d : Disk) : PathVerb SharePath → Outcome
  | on p action => action.effect d (resolve p.text)
  | rename old new => d.renamed (resolve old.text) (resolve new.text)

/-- What a verb comes to. A path that is none of the share's is refused before anything. -/
noncomputable def PathVerb.effect (d : Disk) (verb : PathVerb Text) : Outcome :=
  match verb.accept with
  | .error _ => d.kept (.error .invalidInput)
  | .ok verb => verb.effectOn d

/-! ## Answers -/

/-- A block that is set says zero of every field it does not name. -/
theorem BasicInfo.decode_encode (i : BasicInfo) : BasicInfo.decode i.encode = .ok
    { creationTime := some (i.creationTime.getD 0), lastAccessTime := some (i.lastAccessTime.getD 0)
      lastWriteTime := some (i.lastWriteTime.getD 0), changeTime := some (i.changeTime.getD 0)
      attributes := some (i.attributes.getD 0) } := by
  have length : i.encode.length = 40 := by
    simp only [encode, List.length_append, LittleEndian.length_u64le, LittleEndian.length_u32le]
  have front : i.encode.take 36 = LittleEndian.u64le (i.creationTime.getD 0).toUInt64 ++
      (LittleEndian.u64le (i.lastAccessTime.getD 0).toUInt64 ++
        (LittleEndian.u64le (i.lastWriteTime.getD 0).toUInt64 ++
          (LittleEndian.u64le (i.changeTime.getD 0).toUInt64 ++
            (LittleEndian.u32le (i.attributes.getD 0) ++ [])))) := by
    rw [encode, List.take_left', List.append_nil]
    · simp only [List.append_assoc]
    · simp only [List.length_append, LittleEndian.length_u64le, LittleEndian.length_u32le]
  rw [decode, if_neg (by omega), front]
  simp only [readWords, read, LittleEndian.Reader.u64_bind, LittleEndian.Reader.u32_bind]
  rfl

/-- What is at a place after a block has been set on it. A field of zero is left alone. -/
structure Stamps (block : BasicInfo) (m m' : Metadata) : Prop where
  creationTime : m'.creationTime =
    if block.creationTime.getD 0 = 0 then m.creationTime else block.creationTime.getD 0
  lastAccessTime : m'.lastAccessTime =
    if block.lastAccessTime.getD 0 = 0 then m.lastAccessTime else block.lastAccessTime.getD 0
  lastWriteTime : m'.lastWriteTime =
    if block.lastWriteTime.getD 0 = 0 then m.lastWriteTime else block.lastWriteTime.getD 0
  changeTime : m'.changeTime =
    if block.changeTime.getD 0 = 0 then m.changeTime else block.changeTime.getD 0
  sizes : m'.len = m.len ∧ m'.allocationSize = m.allocationSize
  unset : block.attributes.getD 0 = 0 → m'.attributes = m.attributes
  set : block.attributes.getD 0 ≠ 0 →
    m'.attributes &&& ATTRIBUTE_DIRECTORY = m.attributes &&& ATTRIBUTE_DIRECTORY ∧
      m'.attributes &&& Disk.ATTRIBUTES_SET = block.attributes.getD 0 &&& Disk.ATTRIBUTES_SET

/-- A block that any server can set: no time before 1601, and the kind left alone. -/
structure Settable (block : BasicInfo) : Prop where
  times : ∀ t ∈ [block.creationTime, block.lastAccessTime, block.lastWriteTime, block.changeTime],
    0 ≤ t.getD 0
  kind : block.attributes.getD 0 &&& ATTRIBUTE_DIRECTORY = 0

namespace Disk

/-- `RENAME`. -/
inductive Renames (d : Disk) (r : RenameRequest) (reply : Reply) (d' : Disk) : Prop
  | missing (absent : d.nodes (resolve r.oldName) = none)
      (status : statusKind reply.status = .notFound) (still : d' = d)
  | orphan (there : (d.nodes (resolve r.oldName)).isSome = true)
      (free : d.nodes (resolve r.newName) = none)
      (parentless : ¬ d.Directory (resolve r.newName).dropLast)
      (status : statusKind reply.status = .notFound) (still : d' = d)
  | collides (there : (d.nodes (resolve r.oldName)).isSome = true)
      (taken : (d.nodes (resolve r.newName)).isSome = true)
      (status : reply.status = .OBJECT_NAME_COLLISION) (still : d' = d)
  | itself (there : (d.nodes (resolve r.oldName)).isSome = true)
      (same : resolve r.oldName = resolve r.newName) (status : reply.status = .SUCCESS)
      (still : d' = d)
  | inside (there : (d.nodes (resolve r.oldName)).isSome = true)
      (free : d.nodes (resolve r.newName) = none)
      (parent : d.Directory (resolve r.newName).dropLast)
      (inside : resolve r.oldName <+: resolve r.newName) (failure : reply.status ≠ .SUCCESS)
      (still : d' = d)
  | busy {fid : UInt16} {o : Opened} (held : d.files fid = some o)
      (under : resolve r.oldName <+: o.place)
  | moved (there : (d.nodes (resolve r.oldName)).isSome = true)
      (free : d.nodes (resolve r.newName) = none)
      (parent : d.Directory (resolve r.newName).dropLast)
      (outside : ¬ resolve r.oldName <+: resolve r.newName) (status : reply.status = .SUCCESS)
      (becomes : d'.Becomes (d.moved (resolve r.oldName) (resolve r.newName)) d.files d.searches)

/-- The disk with a place moved, where it can be. -/
def move (d : Disk) (old new : Place) (free : d.nodes new = none)
    (parent : d.Directory new.dropLast) (outside : ¬ old <+: new)
    (named : ∀ name ∈ new.getLast?, isName name = true ∧ '\\' ∉ name) : Disk where
  nodes := d.moved old new
  files := d.files
  searches := d.searches
  root := by
    obtain ⟨m, there, directory⟩ := d.root
    refine ⟨m, ?_, directory⟩
    rw [moved, if_neg, if_neg, there]
    · intro root
      exact outside (root.trans List.nil_prefix)
    · intro root
      rw [List.prefix_nil.mp root, there] at free
      cases free
  rooted := by
    intro place name there
    unfold moved at there
    -- nothing at the new place or below it was there before, so what is now has moved with it
    split at there
    · next onNew =>
      rcases List.prefix_concat_iff.mp onNew with same | below
      · have front : new.dropLast = place := by rw [same, List.dropLast_concat]
        have last : new.getLast? = some name := by rw [same, List.getLast?_concat]
        obtain ⟨m, stays, directory⟩ := front ▸ parent
        refine ⟨⟨m, ?_, directory⟩, named name last⟩
        rw [moved, if_neg, if_neg, stays]
        · intro under
          exact outside (same ▸ under.trans (List.prefix_append _ _))
        · intro under
          have short := under.length_le
          rw [same, List.length_append, List.length_singleton] at short
          omega
      · rw [List.drop_append_of_le_length below.length_le, ← List.append_assoc] at there
        obtain ⟨⟨m, stays, directory⟩, name⟩ := d.rooted _ _ there
        exact ⟨⟨m, by rw [moved, if_pos below, stays], directory⟩, name⟩
    · next offNew =>
      split at there
      · cases there
      · next offOld =>
        obtain ⟨⟨m, stays, directory⟩, name⟩ := d.rooted _ _ there
        refine ⟨⟨m, ?_, directory⟩, name⟩
        rw [moved, if_neg, if_neg, stays]
        · exact fun under => offOld (under.trans (List.prefix_append _ _))
        · exact fun under => offNew (under.trans (List.prefix_append _ _))

/-- `TRANS2_SET_PATH_INFORMATION` at the basic level. What is not settable is not said. -/
inductive Sets (d : Disk) (path : Text) (data : Bytes) (reply : Reply) (d' : Disk) : Prop
  | absent (absent : d.nodes (resolve path) = none) (status : statusKind reply.status = .notFound)
      (still : d' = d)
  | unsettable {block : BasicInfo} (decoded : BasicInfo.decode data = .ok block)
      (unsettable : ¬ Settable block)
  | set {m m' : Metadata} {block : BasicInfo} (there : d.nodes (resolve path) = some m)
      (decoded : BasicInfo.decode data = .ok block) (stamps : Stamps block m m')
      (success : reply.status = .SUCCESS)
      (becomes : d'.Becomes (Function.update d.nodes (resolve path) (some m')) d.files d.searches)

/-- What a server answers to the requests of the tree verbs. Of the volume it may say
anything. -/
def Shares : Peer Disk ShareRequest Answer := fun d request answer d' =>
  match request with
  | .tree request => Serves d request answer d'
  | .rename r => ∃ reply, answer = .ok reply ∧ d.Renames r reply d'
  | .setPath path block => ∃ reply, answer = .ok reply ∧ d.Sets path block.encode reply d'
  | .queryFs _ => d' = d

end Disk

end Smb1Client
