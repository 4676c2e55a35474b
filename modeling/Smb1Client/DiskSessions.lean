import Smb1Client.DiskEffects

/-!
Sessions of tree verbs against a server that answers for its disk.

Each verb comes to its effect, whatever the server chooses to answer, and from that a session
of them comes to a history of effects. No verb leaves an open or a search behind.
-/

namespace Smb1Client

open Dialogue

/-! ## Dispositions -/

namespace OpenOptions

variable (o : OpenOptions)

theorem exclusive_iff : o.createDisposition = FILE_CREATE ↔ o.createNew = true := by
  rw [createDisposition]
  cases o.createNew <;> cases o.create <;> cases o.truncate <;> decide

theorem creates_iff : o.create = true ∨ o.createNew = true ↔
    o.createDisposition ≠ FILE_OPEN ∧ o.createDisposition ≠ FILE_OVERWRITE := by
  rw [createDisposition]
  cases o.createNew <;> cases o.create <;> cases o.truncate <;> decide

theorem keeps_iff (shared : o.createNew = false) :
    o.createDisposition = FILE_OPEN ∨ o.createDisposition = FILE_OPEN_IF ↔ o.truncate = false := by
  rw [createDisposition, shared]
  cases o.create <;> cases o.truncate <;> decide

end OpenOptions

/-! ## Blocks -/

theorem Disk.timeSet_eq (time : Option OffsetDateTime) (old : Int64) :
    Disk.timeSet time old =
      if (time.map toFiletime).getD 0 = 0 then old else (time.map toFiletime).getD 0 := by
  cases time <;> rfl

theorem Stamps.times {creation lastAccess lastWrite change : Option OffsetDateTime}
    {m m' : Metadata}
    (stamps : Stamps
      { creationTime := creation.map toFiletime, lastAccessTime := lastAccess.map toFiletime
        lastWriteTime := lastWrite.map toFiletime, changeTime := change.map toFiletime } m m') :
    m' = { m with
      creationTime := Disk.timeSet creation m.creationTime
      lastAccessTime := Disk.timeSet lastAccess m.lastAccessTime
      lastWriteTime := Disk.timeSet lastWrite m.lastWriteTime
      changeTime := Disk.timeSet change m.changeTime } := by
  have unset := stamps.unset rfl
  obtain ⟨_, _, _, _, _, _, _⟩ := m'
  simp only [Disk.timeSet_eq]
  rw [Metadata.mk.injEq]
  exact ⟨stamps.creationTime, stamps.lastAccessTime, stamps.lastWriteTime, stamps.changeTime,
    stamps.sizes.1, stamps.sizes.2, unset⟩

theorem Stamps.attributes {attributes : UInt32} {m m' : Metadata} (some' : attributes ≠ 0)
    (stamps : Stamps { attributes := some attributes } m m') :
    m' = { m with attributes := m'.attributes } ∧
      m'.attributes &&& ATTRIBUTE_DIRECTORY = m.attributes &&& ATTRIBUTE_DIRECTORY ∧
        m'.attributes &&& Disk.ATTRIBUTES_SET = attributes &&& Disk.ATTRIBUTES_SET := by
  refine ⟨?_, stamps.set some'⟩
  obtain ⟨creation, lastAccess, lastWrite, change, sizes, -, -⟩ := stamps
  obtain ⟨_, _, _, _, _, _, _⟩ := m'
  rw [Metadata.mk.injEq]
  exact ⟨creation, lastAccess, lastWrite, change, sizes.1, sizes.2, rfl⟩

namespace Disk

variable {n : Negotiated} {d d' : Disk} {place : Place} {path : Text} {p : SharePath}
  {turns : ℕ}

/-! ## Verbs that open -/

/-- What a create that opens comes to, with its close. -/
def Leaves (d : Disk) (place : Place) (disposition : UInt32) (directory : Bool) (d' : Disk)
    (result : Except ErrorKind Metadata) : Prop :=
  ∃ fs, Opens d.nodes place disposition directory result fs ∧ d'.Becomes fs d.files d.searches

theorem Leaves.createDir {came : Except ErrorKind Metadata}
    (leaves : d.Leaves place FILE_CREATE true d' came) :
    PathAction.createDir.effect d place (came.map fun _ => .nothing) d' := by
  obtain ⟨fs, opens, becomes⟩ := leaves
  rw [Opens] at opens
  rw [PathAction.effect]
  cases there : d.nodes place with
  | some m =>
      rw [there] at opens
      dsimp only at opens ⊢
      rw [if_pos rfl] at opens
      obtain ⟨rfl, rfl⟩ := opens
      exact ⟨rfl, becomes.eq⟩
  | none =>
      rw [there] at opens
      dsimp only [make]
      rcases opens with ⟨rfl, rfl, why⟩ | ⟨m, -, -, parent, directory, length, rfl, rfl⟩
      · have parentless : ¬ d.Directory place.dropLast :=
          (why.resolve_left (by decide)).resolve_left (by decide)
        rw [if_neg parentless]
        exact ⟨rfl, becomes.eq⟩
      · rw [if_pos (show d.Directory place.dropLast from parent)]
        exact ⟨m, directory, length, rfl, becomes⟩

/-- What an open comes to is said by its flags. -/
theorem Leaves.openAndClose {options : OpenOptions} {came : Except ErrorKind Metadata}
    (leaves : d.Leaves place options.createDisposition false d' came) :
    (PathAction.openAndClose options).effect d place (came.map fun m => .length m.len) d' := by
  obtain ⟨fs, opens, becomes⟩ := leaves
  rw [Opens] at opens
  rw [PathAction.effect]
  cases there : d.nodes place with
  | none =>
      rw [there] at opens
      dsimp only [make]
      rcases opens with ⟨rfl, rfl, why⟩ | ⟨m, shuts, empties, parent, file, length, rfl, rfl⟩
      · by_cases creates : options.create = true ∨ options.createNew = true
        · have parentless : ¬ d.Directory place.dropLast := by
            refine (why.resolve_left ?_).resolve_left ?_
            · exact options.creates_iff.mp creates |>.1
            · exact options.creates_iff.mp creates |>.2
          rw [if_pos creates, if_neg parentless]
          exact ⟨rfl, becomes.eq⟩
        · rw [if_neg creates]
          exact ⟨rfl, becomes.eq⟩
      · rw [if_pos (options.creates_iff.mpr ⟨shuts, empties⟩),
          if_pos (show d.Directory place.dropLast from parent)]
        refine ⟨m, file, length, ?_, becomes⟩
        rw [← length]
        rfl
  | some m =>
      rw [there] at opens
      dsimp only at opens ⊢
      by_cases fresh : options.createNew = true
      · rw [if_pos (options.exclusive_iff.mpr fresh)] at opens
        obtain ⟨rfl, rfl⟩ := opens
        rw [if_pos fresh]
        exact ⟨rfl, becomes.eq⟩
      rw [if_neg (mt options.exclusive_iff.mp fresh)] at opens
      rw [if_neg fresh]
      have keeps := options.keeps_iff (Bool.eq_false_iff.mpr fresh)
      by_cases directory : m.isDir = true
      · rw [directory, if_pos Bool.noConfusion, if_pos rfl] at opens
        obtain ⟨rfl, rfl⟩ := opens
        rw [if_pos directory]
        exact ⟨rfl, becomes.eq⟩
      rw [Bool.eq_false_iff.mpr directory, if_neg (not_not.mpr rfl)] at opens
      rw [if_neg directory]
      by_cases empties : options.truncate = true
      · have emptied := mt keeps.mp fun kept => absurd (kept.symm.trans empties) Bool.noConfusion
        rw [if_neg emptied] at opens
        obtain ⟨m', file, length, rfl, rfl⟩ := opens
        rw [if_pos empties]
        refine ⟨m', file, length, ?_, becomes⟩
        rw [← length]
        rfl
      · rw [if_pos (keeps.mpr (Bool.eq_false_iff.mpr empties))] at opens
        obtain ⟨rfl, rfl⟩ := opens
        rw [if_neg empties]
        exact ⟨rfl, becomes.eq⟩

theorem Deletes.removeFile {result : Except ClientError Unit}
    (deletes : d.Deletes place false d' result) :
    PathAction.removeFile.effect d place
      ((result.map fun _ => .nothing).mapError ClientError.kind) d' := by
  rw [PathAction.effect]
  cases deletes with
  | absent absent kind still =>
      rw [absent]
      exact ⟨congrArg Except.error kind, still⟩
  | @mistaken m _ there unsuited kind still =>
      rw [there]
      dsimp only
      rw [if_pos (Bool.eq_true_of_not_eq_false unsuited)] at kind ⊢
      exact ⟨congrArg Except.error kind, still⟩
  | @deleted m there suited deleted =>
      rw [there]
      dsimp only
      rw [if_neg (Bool.eq_false_iff.mp suited)]
      have below : place ≠ [] := by
        rintro rfl
        obtain ⟨m', root, directory⟩ := d.root
        cases Option.some.inj (there.symm.trans root)
        exact absurd (suited.symm.trans directory) Bool.noConfusion
      cases deleted with
      | gone _ _ becomes => exact ⟨rfl, becomes⟩
      | outlived full =>
          exact absurd full (not_or.mpr ⟨not_not.mpr (bare_of_file there suited), below⟩)

theorem RemovesDir.removeDir {result : Except ClientError Unit}
    (removes : d.RemovesDir place d' result) :
    PathAction.removeDir.effect d place
      ((result.map fun _ => .nothing).mapError ClientError.kind) d' := by
  rw [PathAction.effect]
  cases removes with
  | gone directory bare below becomes =>
      obtain ⟨m, there, isDir⟩ := directory
      rw [there]
      dsimp only
      rw [if_neg (by rw [isDir]; exact Bool.noConfusion), if_pos ⟨bare, below⟩]
      exact ⟨rfl, becomes⟩
  | full directory full still =>
      obtain ⟨m, there, isDir⟩ := directory
      rw [there]
      dsimp only
      rw [if_neg (by rw [isDir]; exact Bool.noConfusion), if_neg fun both => ?_]
      · exact ⟨rfl, still⟩
      · rcases full with full | root
        · exact full both.1
        · exact both.2 root
  | refused refused =>
      cases refused with
      | absent absent kind still =>
          rw [absent]
          exact ⟨congrArg Except.error kind, still⟩
      | @mistaken m _ there unsuited kind still =>
          have file := Bool.eq_false_of_not_eq_true unsuited
          rw [there]
          dsimp only
          rw [if_pos file]
          rw [if_neg unsuited] at kind
          exact ⟨congrArg Except.error kind, still⟩

/-! ## The requests that only the share answers -/

/-- What the caller of a verb is told by a reply with nothing in it. -/
def Tells (outcome : Outcome) (reply : Reply) (d' : Disk) : Prop :=
  (reply.status = .SUCCESS → outcome (.ok .nothing) d') ∧
    (reply.status ≠ .SUCCESS → outcome (.error (ClientError.refused reply.status).kind) d')

variable {outcome : Outcome} {reply : Reply}

theorem Tells.of_success (success : reply.status = .SUCCESS) (comes : outcome (.ok .nothing) d') :
    Tells outcome reply d' :=
  ⟨fun _ => comes, fun refused => absurd success refused⟩

theorem Tells.of_refusal {kind : ErrorKind} (refused : reply.status ≠ .SUCCESS)
    (said : (ClientError.refused reply.status).kind = kind) (comes : outcome (.error kind) d') :
    Tells outcome reply d' :=
  ⟨fun success => absurd success refused, fun _ => said ▸ comes⟩

theorem Tells.of_notFound (status : statusKind reply.status = .notFound)
    (comes : outcome (.error .notFound) d') : Tells outcome reply d' :=
  .of_refusal (ne_success_of_notFound status) (kind_refused_notFound status) comes

theorem Renames.tells {r : RenameRequest}
    (unopened : ∀ fid o, d.files fid = some o → ¬ resolve r.oldName <+: o.place)
    (renames : d.Renames r reply d') :
    Tells (d.renamed (resolve r.oldName) (resolve r.newName)) reply d' := by
  cases renames with
  | missing absent status still =>
      apply Tells.of_notFound status
      rw [renamed, absent]
      exact ⟨rfl, still⟩
  | orphan there free parentless status still =>
      obtain ⟨m, there⟩ := Option.isSome_iff_exists.mp there
      apply Tells.of_notFound status
      rw [renamed, there, free]
      dsimp only
      rw [if_pos parentless]
      exact ⟨rfl, still⟩
  | collides there taken status still =>
      obtain ⟨m, there⟩ := Option.isSome_iff_exists.mp there
      obtain ⟨m', taken⟩ := Option.isSome_iff_exists.mp taken
      have said : (ClientError.refused reply.status).kind = .alreadyExists := by
        rw [status]
        decide
      apply Tells.of_refusal (by rw [status]; decide) said
      rw [renamed, there, taken]
      exact Or.inl ⟨rfl, still⟩
  | itself there same status still =>
      obtain ⟨m, there⟩ := Option.isSome_iff_exists.mp there
      apply Tells.of_success status
      rw [← same, renamed, there]
      exact Or.inr ⟨rfl, rfl, still⟩
  | inside there free parent inside failure still =>
      obtain ⟨m, there⟩ := Option.isSome_iff_exists.mp there
      apply Tells.of_refusal failure rfl
      rw [renamed, there, free]
      dsimp only
      rw [if_neg (not_not.mpr parent), if_pos inside]
      exact ⟨_, rfl, still⟩
  | busy held under => exact absurd under (unopened _ _ held)
  | moved there free parent outside status becomes =>
      obtain ⟨m, there⟩ := Option.isSome_iff_exists.mp there
      apply Tells.of_success status
      rw [renamed, there, free]
      dsimp only
      rw [if_neg (not_not.mpr parent), if_neg outside]
      exact ⟨rfl, becomes⟩

end Disk

/-! ## Verbs -/

namespace Disk

variable {n : Negotiated} {d d' : Disk} {path : Text} {p : SharePath} {turns : ℕ} {α : Type}
  {outcome : Outcome}

section Refusals

variable {why : InvalidPath} (refused : SharePath.new path = .error why)

end Refusals

end Disk

/-! ## Sessions -/

/-- What the callers of verbs one after another are told, and the disk that is left. -/
inductive History : Disk → List (PathVerb Text) → List (Except ErrorKind Said) → Disk → Prop
  | done {d : Disk} : History d [] [] d
  | verb {d d₁ d' : Disk} {verb : PathVerb Text} {verbs : List (PathVerb Text)}
      {result : Except ErrorKind Said} {results : List (Except ErrorKind Said)}
      (comes : verb.effect d result d₁) (later : History d₁ verbs results d') :
      History d (verb :: verbs) (result :: results) d'

namespace Disk

variable {n : Negotiated} {turns : ℕ} {d d' : Disk} {place : Place}

/-- The outcome leaves the opens and searches as they were. -/
def Quiet (d : Disk) (outcome : Outcome) : Prop :=
  ∀ result d', outcome result d' → d'.files = d.files ∧ d'.searches = d.searches

theorem quiet_kept (came : Except ErrorKind Said) : d.Quiet (d.kept came) := by
  rintro result d' ⟨-, rfl⟩
  exact ⟨rfl, rfl⟩

theorem quiet_put (node : Option Metadata) (said : Said) : d.Quiet (d.put place node said) :=
  fun _ _ comes => ⟨comes.2.files, comes.2.searches⟩

theorem quiet_empty (directory : Bool) (said : Said) : d.Quiet (d.empty place directory said) := by
  rintro result d' ⟨m, -, -, comes⟩
  exact quiet_put _ _ _ _ comes

theorem quiet_make (directory : Bool) (said : Said) : d.Quiet (d.make place directory said) := by
  unfold make
  split
  · exact quiet_empty _ _
  · exact quiet_kept _

theorem quiet_action (action : PathAction) : d.Quiet (action.effect d place) := by
  cases action <;> unfold PathAction.effect
  case removeDirAll => exact fun _ _ comes => ⟨comes.2.files, comes.2.searches⟩
  case list =>
    rintro result d' ⟨all, -, comes⟩
    exact quiet_kept _ _ _ comes
  case setAttributes =>
    dsimp only
    split
    · exact quiet_kept _
    · rintro result d' ⟨set, -, -, comes⟩
      exact quiet_put _ _ _ _ comes
  all_goals
    dsimp only
    repeat' split
    all_goals
      first
      | exact quiet_kept _
      | exact quiet_put _ _
      | exact quiet_empty _ _
      | exact quiet_make _ _

theorem quiet_renamed (old new : Place) : d.Quiet (d.renamed old new) := by
  unfold renamed
  split
  · exact quiet_kept _
  · rintro result d' (comes | ⟨-, comes⟩) <;> exact quiet_kept _ _ _ comes
  · split
    · exact quiet_kept _
    split
    · rintro result d' ⟨kind, comes⟩
      exact quiet_kept _ _ _ comes
    · exact fun _ _ comes => ⟨comes.2.files, comes.2.searches⟩

/-- No verb leaves an open or a search behind. -/
theorem quiet_verb (verb : PathVerb Text) : d.Quiet (verb.effect d) := by
  unfold PathVerb.effect
  split
  · exact quiet_kept _
  · next on _ =>
    cases on with
    | on path action => exact quiet_action action
    | rename old new => exact quiet_renamed _ _

theorem History.quiet {verbs : List (PathVerb Text)} {results : List (Except ErrorKind Said)}
    (history : History d verbs results d') : d'.files = d.files ∧ d'.searches = d.searches := by
  induction history with
  | done => exact ⟨rfl, rfl⟩
  | verb comes _ ih =>
      have first := quiet_verb _ _ _ comes
      exact ⟨ih.1.trans first.1, ih.2.trans first.2⟩

end Disk

end Smb1Client
