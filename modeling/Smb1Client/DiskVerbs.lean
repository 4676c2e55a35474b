import Smb1Client.Disk
import Smb1Client.Wire.TransactionRead

/-!
The verbs on one path against a server that answers for its disk.

A request that names a path of at most so many code units fits a message. What a delete, a
stat and the check behind `remove_dir` come to is read off the disk, and each leaves no open
behind.
-/

namespace Smb1Client

open Dialogue

/-! ## Requests that fit -/

/-- Every request that names the path fits one message. -/
def Fits (n : Negotiated) (path : Text) : Prop :=
  2 * (Utf16.encode path).length + 90 ≤ min n.maxBufferSize.toNat 65535

instance (n : Negotiated) (path : Text) : Decidable (Fits n path) :=
  inferInstanceAs (Decidable (_ ≤ _))

namespace TreeRequest

variable {n : Negotiated}

theorem encodes_trans2 (subcommand : UInt16) {parameters data : Bytes} (what : String)
    (short : parameters.length + data.length + 67 ≤ n.maxBufferSize.toNat) :
    ∃ body, transactionBody n (.trans2 subcommand parameters data) what = .ok body := by
  have built := TransactionRequest.Built.trans2 subcommand parameters data
  have offset := TransactionRequest.dataOffset_le (.trans2 subcommand parameters data)
  have start : (TransactionRequest.trans2 subcommand parameters data).areaStart = 65 := rfl
  have name : (TransactionRequest.trans2 subcommand parameters data).nameBytes = [] := rfl
  rw [start, name, List.length_nil] at offset
  have fits : (TransactionRequest.trans2 subcommand parameters data).dataOffset +
      (TransactionRequest.trans2 subcommand parameters data).data.length ≤
        n.maxBufferSize.toNat := by
    have block : (TransactionRequest.trans2 subcommand parameters data).parameters.length =
      parameters.length := rfl
    have rest : (TransactionRequest.trans2 subcommand parameters data).data.length =
      data.length := rfl
    omega
  rw [transactionBody, built.checkLimits fits, built.encodeBody]
  exact ⟨_, rfl⟩

theorem length_encode_searchPattern (path : Text) :
    (Utf16.encode (searchPattern path)).length ≤ (Utf16.encode path).length + 2 := by
  have behind : ∀ tail : Text, (Utf16.encode (path ++ tail)).length =
      (Utf16.encode path).length + (Utf16.encode tail).length := by
    intro tail
    rw [Utf16.encode, List.flatMap_append, List.length_append]
    rfl
  have star : (Utf16.encode ['*']).length = 1 := by decide
  have both : (Utf16.encode ['\\', '*']).length = 2 := by decide
  rw [searchPattern]
  split
  · rw [both]
    omega
  split
  · rw [behind, star]
    omega
  · rw [behind, both]

theorem encodes_findFirst {path : Text} (fits : Fits n path) :
    ∃ body, encodeBody n (.findFirst (ReadDir.firstParams (searchPattern path))) = .ok body := by
  have pattern := length_encode_searchPattern path
  have buffer := fits.trans (Nat.min_le_left _ _)
  have short : (LittleEndian.u16le SEARCH_ATTRIBUTES ++ LittleEndian.u16le BATCH ++
      LittleEndian.u16le FIRST_FLAGS ++ LittleEndian.u16le INFO_LEVEL_BOTH_DIRECTORY_INFO ++
      LittleEndian.u32le 0 ++ utf16z (searchPattern path)).length + 67 ≤
        n.maxBufferSize.toNat := by
    simp only [List.length_append, LittleEndian.length_u16le, LittleEndian.length_u32le,
      length_utf16z]
    omega
  simp only [encodeBody, FindFirst2Params.encode, Except.mapError, Bind.bind, Except.bind]
  exact encodes_trans2 SUBCOMMAND_FIND_FIRST2 "TRANS2_FIND_FIRST2" short

theorem encodes_findNext {path : Text} {params : FindNext2Params}
    (names : params.pattern = searchPattern path) (fits : Fits n path) :
    ∃ body, encodeBody n (.findNext params) = .ok body := by
  have pattern := length_encode_searchPattern path
  have buffer := fits.trans (Nat.min_le_left _ _)
  have short : (LittleEndian.u16le params.sid ++ LittleEndian.u16le params.searchCount ++
      LittleEndian.u16le params.informationLevel ++ LittleEndian.u32le params.resumeKey ++
      LittleEndian.u16le params.flags ++ utf16z params.pattern).length + 67 ≤
        n.maxBufferSize.toNat := by
    simp only [names, List.length_append, LittleEndian.length_u16le, LittleEndian.length_u32le,
      length_utf16z]
    omega
  simp only [encodeBody, FindNext2Params.encode, Except.mapError, Bind.bind, Except.bind]
  exact encodes_trans2 SUBCOMMAND_FIND_NEXT2 "TRANS2_FIND_NEXT2" short

theorem encodes_queryPath {path : Text} {level : UInt16} (fits : Fits n path) :
    ∃ body, encodeBody n (.queryPath level path) = .ok body := by
  have buffer := fits.trans (Nat.min_le_left _ _)
  refine encodes_trans2 SUBCOMMAND_QUERY_PATH_INFORMATION "TRANS2_QUERY_PATH_INFORMATION" ?_
  simp only [queryPathParameters, List.length_append, LittleEndian.length_u16le,
    LittleEndian.length_u32le, length_utf16z, List.length_nil]
  omega

/-! ## Putting a request -/

variable {μ : Type} {d : Disk} {r : TreeRequest} {post : Disk → Except ClientError Reply → Prop}

theorem meets_put (encodes : ∃ body, r.encodeBody n = .ok body)
    (served : ∀ reply d', Disk.Serves d r (.ok reply) d' → post d' (.ok reply)) :
    Meets Disk.Serves d (r.put n : Dialogue TreeRequest Answer μ ClientError Reply) post := by
  obtain ⟨body, encoded⟩ := encodes
  rw [put, encoded]
  refine meets_ask.mpr fun answer d' given => meets_ofExcept.mpr ?_
  obtain ⟨reply, rfl, -⟩ := id given
  exact served reply d' given

theorem meets_checked (encodes : ∃ body, r.encodeBody n = .ok body)
    (success : ∀ reply d', Disk.Serves d r (.ok reply) d' → reply.status = .SUCCESS →
      post d' (.ok reply))
    (refusal : ∀ reply d', Disk.Serves d r (.ok reply) d' → reply.status ≠ .SUCCESS →
      post d' (.error (.refused reply.status))) :
    Meets Disk.Serves d (r.checked n : Dialogue TreeRequest Answer μ ClientError Reply) post := by
  rw [checked, meets_bind]
  apply meets_put encodes
  intro reply d' given
  dsimp only
  split
  · next refused => exact meets_failed.mpr (refusal reply d' given refused)
  · next succeeded => exact meets_pure.mpr (success reply d' given (not_not.mp succeeded))

end TreeRequest

/-! ## Statuses that say nothing is there -/

theorem statuses_notFound {status : NtStatus} (absent : statusKind status = .notFound) :
    status ∈ [NtStatus.NO_SUCH_FILE, NtStatus.OBJECT_NAME_NOT_FOUND,
      NtStatus.OBJECT_PATH_NOT_FOUND, NtStatus.NOT_FOUND] := by
  by_contra other
  rw [statusKind, if_neg other] at absent
  repeat' split at absent
  all_goals cases absent

theorem kind_refused_notFound {status : NtStatus} (absent : statusKind status = .notFound) :
    (ClientError.refused status).kind = .notFound := by
  have listed := statuses_notFound absent
  simp only [List.mem_cons, List.not_mem_nil, or_false] at listed
  rcases listed with rfl | rfl | rfl | rfl <;> decide

theorem ne_success_of_notFound {status : NtStatus} (absent : statusKind status = .notFound) :
    status ≠ .SUCCESS := by
  rintro rfl
  exact absurd absent (by decide)

/-! ## The disk -/

namespace Disk

variable {n : Negotiated} {d d' : Disk} {place : Place}

theorem Becomes.eq (becomes : d'.Becomes d.nodes d.files d.searches) : d' = d :=
  Disk.ext becomes.nodes becomes.files becomes.searches

/-- Nobody has the place open. -/
def Unopened (d : Disk) (place : Place) : Prop := ∀ fid o, d.files fid = some o → o.place ≠ place

/-- The place has been deleted, or has outlived its deletion: with what is below it, or as the
root. -/
inductive Deleted (d : Disk) (place : Place) (d' : Disk) : Prop
  | gone (bare : d.Bare place) (below : place ≠ [])
      (becomes : d'.Becomes (Function.update d.nodes place none) d.files d.searches)
  | outlived (full : ¬ d.Bare place ∨ place = []) (still : d' = d)

variable {α : Type} {path : Text} {p : SharePath} {m : Metadata}

theorem meets_sharePath (accepted : SharePath.new path = .ok p) {f : SharePath → TreeVerb α}
    {post : Disk → Except ClientError α → Prop} :
    Meets Serves d (Tree.sharePath path >>= f) post ↔ Meets Serves d (f p) post := by
  rw [meets_bind, Tree.sharePath, meets_ofExcept, accepted]
  rfl

/-- A request that asks for a directory, or for anything but one. -/
def Asks (r : NtCreateAndxRequest) (directory : Bool) : Prop :=
  (r.createOptions &&& FILE_DIRECTORY_FILE ≠ 0 ↔ directory = true) ∧
    (r.createOptions &&& FILE_NON_DIRECTORY_FILE ≠ 0 ↔ directory = false)

theorem Asks.suits_iff {r : NtCreateAndxRequest} {directory : Bool} (asks : Asks r directory) :
    Suits r m ↔ m.isDir = directory := by
  rw [Suits, asks.1, asks.2]
  cases directory <;> simp

/-- What a create comes to on the places of a disk: what it opened, or why not. -/
def Opens (fs : Place → Option Metadata) (place : Place) (disposition : UInt32) (directory : Bool)
    (result : Except ErrorKind Metadata) (fs' : Place → Option Metadata) : Prop :=
  match fs place with
  | some m =>
      if disposition = FILE_CREATE then result = .error .alreadyExists ∧ fs' = fs
      else if m.isDir ≠ directory then
        result = .error (if m.isDir = true then .isADirectory else .notADirectory) ∧ fs' = fs
      else if disposition = FILE_OPEN ∨ disposition = FILE_OPEN_IF then result = .ok m ∧ fs' = fs
      else ∃ m', m'.isDir = m.isDir ∧ m'.len = 0 ∧ result = .ok m' ∧
        fs' = Function.update fs place (some m')
  | none =>
      (result = .error .notFound ∧ fs' = fs ∧
        (disposition = FILE_OPEN ∨ disposition = FILE_OVERWRITE ∨
          ¬ ∃ m, fs place.dropLast = some m ∧ m.isDir = true)) ∨
      ∃ m', disposition ≠ FILE_OPEN ∧ disposition ≠ FILE_OVERWRITE ∧
        (∃ m, fs place.dropLast = some m ∧ m.isDir = true) ∧ m'.isDir = directory ∧ m'.len = 0 ∧
          result = .ok m' ∧ fs' = Function.update fs place (some m')

/-- What a reply to a create says. -/
inductive Created (d : Disk) (r : NtCreateAndxRequest) (directory : Bool) (reply : Reply)
    (d' : Disk) : Prop
  | granted {m : Metadata} {response : NtCreateAndxResponse} {fs : Place → Option Metadata}
      (opens : Opens d.nodes (resolve r.name) r.createDisposition directory (.ok m) fs)
      (success : reply.status = .SUCCESS)
      (decoded : NtCreateAndxResponse.decode reply.message = .ok response)
      (free : d.files response.fid = none) (length : response.endOfFile = m.len)
      (becomes : d'.Becomes fs (Function.update d.files response.fid
        (some ⟨resolve r.name, decide (r.createOptions &&& FILE_DELETE_ON_CLOSE ≠ 0)⟩)) d.searches)
  | refused {kind : ErrorKind}
      (opens : Opens d.nodes (resolve r.name) r.createDisposition directory (.error kind) d.nodes)
      (failure : reply.status ≠ .SUCCESS) (said : (ClientError.refused reply.status).kind = kind)
      (still : d' = d)

theorem Creates.comes {r : NtCreateAndxRequest} {directory : Bool} {reply : Reply}
    (asks : Asks r directory) (creates : d.Creates r reply d') :
    d.Created r directory reply d' := by
  have apart : FILE_OPEN ≠ FILE_CREATE ∧ FILE_OPEN_IF ≠ FILE_CREATE ∧ FILE_OVERWRITE ≠ FILE_CREATE ∧
      FILE_OVERWRITE_IF ≠ FILE_CREATE := by decide
  have apart' : FILE_OVERWRITE ≠ FILE_OPEN ∧ FILE_OVERWRITE ≠ FILE_OPEN_IF ∧
      FILE_OVERWRITE_IF ≠ FILE_OPEN ∧ FILE_OVERWRITE_IF ≠ FILE_OPEN_IF := by decide
  have apart'' : FILE_CREATE ≠ FILE_OVERWRITE ∧ FILE_OPEN_IF ≠ FILE_OVERWRITE ∧
      FILE_OVERWRITE_IF ≠ FILE_OVERWRITE ∧ FILE_OPEN_IF ≠ FILE_OPEN := by decide
  cases creates with
  | missing absent needed status still =>
      refine .refused ?_ (ne_success_of_notFound status) (kind_refused_notFound status) still
      rw [Opens, absent]
      exact Or.inl ⟨rfl, rfl, needed.imp_right Or.inl⟩
  | orphan absent parentless status still =>
      refine .refused ?_ (ne_success_of_notFound status) (kind_refused_notFound status) still
      rw [Opens, absent]
      exact Or.inl ⟨rfl, rfl, Or.inr (Or.inr parentless)⟩
  | collides there exclusive status still =>
      have said : (ClientError.refused reply.status).kind = .alreadyExists := by
        rw [status]
        decide
      refine .refused ?_ (by rw [status]; decide) said still
      rw [Opens, there]
      dsimp only
      rw [if_pos exclusive]
      exact ⟨rfl, rfl⟩
  | @mistaken m there shared unsuited status still =>
      rw [asks.suits_iff] at unsuited
      have said : (ClientError.refused reply.status).kind =
          if m.isDir = true then .isADirectory else .notADirectory := by
        rw [status]
        split <;> decide
      refine .refused ?_ ?_ said still
      · rw [Opens, there]
        dsimp only
        rw [if_neg shared, if_pos unsuited]
        exact ⟨rfl, rfl⟩
      · rw [status]
        split <;> decide
  | @opened m _ there suited opens granted =>
      rw [asks.suits_iff] at suited
      refine .granted ?_ granted.success granted.decoded granted.free granted.length granted.becomes
      rw [Opens, there]
      dsimp only
      rw [if_neg (by rcases opens with same | same <;> rw [same]; exacts [apart.1, apart.2.1]),
        if_neg (not_not.mpr suited), if_pos opens]
      exact ⟨rfl, Function.update_eq_self_iff.mpr there.symm⟩
  | @overwritten m m' _ there suited empties emptied granted =>
      rw [asks.suits_iff] at suited
      refine .granted ?_ granted.success granted.decoded granted.free granted.length granted.becomes
      rw [Opens, there]
      dsimp only
      rw [if_neg (by
          rcases empties with same | same <;> rw [same]; exacts [apart.2.2.1, apart.2.2.2]),
        if_neg (not_not.mpr suited), if_neg]
      · exact ⟨m', emptied.1, emptied.2, rfl, rfl⟩
      · rcases empties with same | same <;> rw [same]
        exacts [not_or.mpr ⟨apart'.1, apart'.2.1⟩, not_or.mpr ⟨apart'.2.2.1, apart'.2.2.2⟩]
  | @created m' _ absent parent creates emptied granted =>
      refine .granted ?_ granted.success granted.decoded granted.free granted.length granted.becomes
      rw [Opens, absent]
      refine Or.inr ⟨m', ?_, ?_, parent, ?_, emptied.2, rfl, rfl⟩
      · rcases creates with same | same | same <;> rw [same]
        exacts [apart.1.symm, apart''.2.2.2, apart'.2.2.1]
      · rcases creates with same | same | same <;> rw [same]
        exacts [apart''.1, apart''.2.1, apart''.2.2.1]
      · rw [emptied.1]
        have asked := asks.1
        cases directory <;> simp_all

/-- What is made of a create, opened or refused. -/
theorem meets_createAndx {r : NtCreateAndxRequest} {directory : Bool} (asks : Asks r directory)
    {post : Disk → Except ClientError NtCreateAndxResponse → Prop}
    (granted : ∀ m response fs d', Opens d.nodes (resolve r.name) r.createDisposition directory
      (.ok m) fs → d.files response.fid = none → response.endOfFile = m.len →
        d'.Becomes fs (Function.update d.files response.fid
          (some ⟨resolve r.name, decide (r.createOptions &&& FILE_DELETE_ON_CLOSE ≠ 0)⟩))
          d.searches → post d' (.ok response))
    (refused : ∀ error, Opens d.nodes (resolve r.name) r.createDisposition directory
      (.error error.kind) d.nodes → post d (.error error)) :
    Meets Serves d (Tree.createAndx n r) post := by
  rw [Tree.createAndx, meets_bind]
  apply TreeRequest.meets_checked ⟨_, rfl⟩
  · rintro reply d' ⟨_, ⟨⟩, creates⟩ success
    cases Creates.comes asks creates with
    | granted opens _ decoded free length becomes =>
        refine meets_ofExcept.mpr ?_
        rw [decoded]
        exact granted _ _ _ _ opens free length becomes
    | refused _ failure => exact absurd success failure
  · rintro reply d' ⟨_, ⟨⟩, creates⟩ failure
    cases Creates.comes asks creates with
    | granted _ success => exact absurd success failure
    | refused opens _ said still =>
        subst said still
        exact refused _ opens

/-- A close by the only one who has the place open. -/
theorem meets_closeHandle {fid : UInt16} {o : Opened} (held : d.files fid = some o)
    (alone : ∀ fid' o', fid' ≠ fid → d.files fid' = some o' → o'.place ≠ o.place) :
    Meets Serves d (Tree.closeHandle n fid)
      (Returns fun _ d' =>
        (o.deleteOnClose = true ∧ d.Bare o.place ∧ o.place ≠ [] ∧
          d'.Becomes (Function.update d.nodes o.place none) (Function.update d.files fid none)
            d.searches) ∨
        ((o.deleteOnClose = false ∨ ¬ d.Bare o.place ∨ o.place = []) ∧
          d'.Becomes d.nodes (Function.update d.files fid none) d.searches)) := by
  rw [Tree.closeHandle, meets_bind]
  apply TreeRequest.meets_checked ⟨_, rfl⟩
  · rintro reply d' ⟨_, ⟨⟩, closes⟩ success
    refine meets_pure.mpr ⟨(), rfl, ?_⟩
    cases closes with
    | unknown closed status =>
        rw [status] at success
        exact absurd success (by decide)
    | elsewhere held' other held'' same =>
        cases Option.some.inj (held.symm.trans held')
        exact absurd same (alone _ _ other held'')
    | kept held' stays status becomes =>
        cases Option.some.inj (held.symm.trans held')
        exact Or.inr ⟨stays, becomes⟩
    | unlinked held' deletes bare below status becomes =>
        cases Option.some.inj (held.symm.trans held')
        exact Or.inl ⟨deletes, bare, below, becomes⟩
  · rintro reply d' ⟨_, ⟨⟩, closes⟩ refused
    cases closes with
    | unknown closed => exact absurd (held.symm.trans closed) (by simp)
    | elsewhere held' other held'' same =>
        cases Option.some.inj (held.symm.trans held')
        exact absurd same (alone _ _ other held'')
    | kept _ _ status => exact absurd status refused
    | unlinked _ _ _ _ status => exact absurd status refused

/-- After a close of what a create opened, the open is as it was before. -/
theorem Unopened.alone {fid : UInt16} {o : Opened} (unopened : d.Unopened o.place)
    {files : UInt16 → Option Opened} (becomes : files = Function.update d.files fid (some o)) :
    ∀ fid' o', fid' ≠ fid → files fid' = some o' → o'.place ≠ o.place := by
  intro fid' o' other held
  rw [becomes, Function.update_of_ne other] at held
  exact unopened fid' o' held

theorem update_files {fid : UInt16} {o : Opened} (free : d.files fid = none) :
    Function.update (Function.update d.files fid (some o)) fid none = d.files := by
  rw [Function.update_idem, Function.update_eq_self_iff.mpr free.symm]

theorem Opens.opened {place : Place} {directory : Bool} {fs : Place → Option Metadata}
    (opens : Opens d.nodes place FILE_OPEN directory (.ok m) fs) :
    d.nodes place = some m ∧ m.isDir = directory ∧ fs = d.nodes := by
  rw [Opens] at opens
  cases there : d.nodes place with
  | none =>
      rw [there] at opens
      rcases opens with ⟨_, _⟩ | ⟨_, other, _⟩
      · contradiction
      · exact absurd rfl other
  | some m' =>
      rw [there] at opens
      dsimp only at opens
      rw [if_neg (show FILE_OPEN ≠ FILE_CREATE by decide)] at opens
      by_cases suited : m'.isDir = directory
      · rw [if_neg (not_not.mpr suited), if_pos (Or.inl rfl)] at opens
        obtain ⟨same, kept⟩ := opens
        cases same
        exact ⟨rfl, suited, kept⟩
      · rw [if_pos suited] at opens
        cases opens.1

theorem Opens.turned_away {place : Place} {directory : Bool} {fs : Place → Option Metadata}
    {kind : ErrorKind} (opens : Opens d.nodes place FILE_OPEN directory (.error kind) fs) :
    (d.nodes place = none ∧ kind = .notFound) ∨
      ∃ m, d.nodes place = some m ∧ m.isDir ≠ directory ∧
        kind = if m.isDir = true then .isADirectory else .notADirectory := by
  rw [Opens] at opens
  cases there : d.nodes place with
  | none =>
      rw [there] at opens
      rcases opens with ⟨same, _⟩ | ⟨_, other, _⟩
      · exact Or.inl ⟨rfl, Except.error.inj same⟩
      · exact absurd rfl other
  | some m =>
      rw [there] at opens
      dsimp only at opens
      rw [if_neg (show FILE_OPEN ≠ FILE_CREATE by decide)] at opens
      by_cases suited : m.isDir = directory
      · rw [if_neg (not_not.mpr suited), if_pos (Or.inl rfl)] at opens
        cases opens.1
      · rw [if_pos suited] at opens
        exact Or.inr ⟨m, rfl, suited, Except.error.inj opens.1⟩

/-- What a delete comes to: what is there, and of the kind asked for, is deleted with the close,
where nothing is below it. -/
inductive Deletes (d : Disk) (place : Place) (directory : Bool) (d' : Disk) :
    Except ClientError Unit → Prop
  | deleted {m : Metadata} (there : d.nodes place = some m) (suited : m.isDir = directory)
      (deleted : d.Deleted place d') : Deletes d place directory d' (.ok ())
  | absent {error : ClientError} (absent : d.nodes place = none) (kind : error.kind = .notFound)
      (still : d' = d) : Deletes d place directory d' (.error error)
  | mistaken {m : Metadata} {error : ClientError} (there : d.nodes place = some m)
      (unsuited : m.isDir ≠ directory)
      (kind : error.kind = if m.isDir = true then .isADirectory else .notADirectory)
      (still : d' = d) : Deletes d place directory d' (.error error)

theorem meets_delete {kind : UInt32} {directory : Bool} (accepted : SharePath.new path = .ok p)
    (asks : Asks (deleteRequest p kind) directory)
    (marked : (kind ||| FILE_DELETE_ON_CLOSE) &&& FILE_DELETE_ON_CLOSE ≠ 0)
    (unopened : d.Unopened (resolve p.text)) :
    Meets Serves d (Tree.delete n path kind)
      fun d' result => d.Deletes (resolve p.text) directory d' result := by
  rw [Tree.delete, meets_sharePath accepted, meets_bind]
  apply meets_createAndx asks
  · intro m response fs d₁ opens free _ becomes
    obtain ⟨there, suited, rfl⟩ := opens.opened
    have files : d₁.files = Function.update d.files response.fid
        (some ⟨resolve p.text, true⟩) := by
      rw [becomes.files, ← decide_eq_true marked]
      rfl
    have held : d₁.files response.fid = some ⟨resolve p.text, true⟩ := by
      rw [files, Function.update_self]
    have alone := Unopened.alone (o := ⟨resolve p.text, true⟩) unopened files
    apply (meets_closeHandle held alone).mono
    rintro d' result ⟨_, rfl, gone | stays⟩
    · obtain ⟨-, bare, below, becomes'⟩ := gone
      rw [files, update_files free, becomes.nodes, becomes.searches] at becomes'
      rw [Bare, becomes.nodes] at bare
      exact .deleted there suited (.gone bare below becomes')
    · obtain ⟨full, becomes'⟩ := stays
      rw [files, update_files free, becomes.nodes, becomes.searches] at becomes'
      rw [Bare, becomes.nodes] at full
      exact .deleted there suited (.outlived (full.resolve_left Bool.noConfusion) becomes'.eq)
  · intro error opens
    rcases opens.turned_away with ⟨absent, kind⟩ | ⟨m, there, unsuited, kind⟩
    · exact .absent absent kind rfl
    · exact .mistaken there unsuited kind rfl

/-! ## Stats -/

theorem meets_queryPath {level : UInt16} {post : Bytes → Disk → Prop}
    {text : Text} (fits : Fits n text) (there : d.nodes (resolve text) = some m)
    (basic : level = QUERY_BASIC_INFO → ∀ data, BasicInfo.decode data = .ok m.basic → post data d)
    (standard : level = QUERY_STANDARD_INFO → ∀ data info,
      StandardInfo.decode data = .ok info → info.endOfFile = m.len →
        info.allocationSize = m.allocationSize → post data d)
    (known : level = QUERY_BASIC_INFO ∨ level = QUERY_STANDARD_INFO) :
    Meets Serves d (Tree.queryPath n text level) (Returns post) := by
  rw [Tree.queryPath, meets_bind]
  apply TreeRequest.meets_checked (TreeRequest.encodes_queryPath fits)
  · rintro reply d' ⟨_, ⟨⟩, stats⟩ _
    refine meets_pure.mpr ⟨_, rfl, ?_⟩
    cases stats with
    | absent absent => exact absurd (there.symm.trans absent) (by simp)
    | basic asked there' _ decoded still =>
        cases Option.some.inj (there.symm.trans there')
        exact still ▸ basic asked _ decoded
    | standard asked there' _ decoded sizes still =>
        cases Option.some.inj (there.symm.trans there')
        exact still ▸ standard asked _ _ decoded sizes.1 sizes.2
    | other neither => exact absurd known (not_or.mpr neither)
  · rintro reply d' ⟨_, ⟨⟩, stats⟩ refused
    cases stats with
    | absent absent => exact absurd (there.symm.trans absent) (by simp)
    | basic _ _ success => exact absurd success refused
    | standard _ _ success => exact absurd success refused
    | other neither => exact absurd known (not_or.mpr neither)

theorem meets_queryPath_absent {level : UInt16} {text : Text} (fits : Fits n text)
    (absent : d.nodes (resolve text) = none)
    (known : level = QUERY_BASIC_INFO ∨ level = QUERY_STANDARD_INFO) :
    Meets Serves d (Tree.queryPath n text level)
      (Raises fun error d' => error.isNotFound = true ∧ d' = d) := by
  have answered : ∀ reply d', Serves d (.queryPath level text) (.ok reply) d' →
      statusKind reply.status = .notFound ∧ d' = d := by
    rintro reply d' ⟨_, ⟨⟩, stats⟩
    cases stats with
    | absent _ status still => exact ⟨status, still⟩
    | basic _ there => exact absurd (absent.symm.trans there) (by simp)
    | standard _ there => exact absurd (absent.symm.trans there) (by simp)
    | other neither => exact absurd known (not_or.mpr neither)
  rw [Tree.queryPath, meets_bind]
  apply TreeRequest.meets_checked (TreeRequest.encodes_queryPath fits)
  · intro reply d' served success
    exact absurd success (ne_success_of_notFound (answered reply d' served).1)
  · intro reply d' served _
    obtain ⟨status, still⟩ := answered reply d' served
    exact ⟨_, rfl, decide_eq_true (kind_refused_notFound status), still⟩

theorem fromParts_basic (m : Metadata) :
    Metadata.fromParts m.basic m.len m.allocationSize (m.basic.attributes.getD 0) = m := rfl

/-- A stat says what is there. -/
theorem meets_metadata (accepted : SharePath.new path = .ok p) (fits : Fits n p.text)
    (there : d.nodes (resolve p.text) = some m) :
    Meets Serves d (Tree.metadata n path) (Returns fun found d' => found = m ∧ d' = d) := by
  rw [Tree.metadata, meets_sharePath accepted]
  have first : Meets Serves d (Tree.queryPath n p.text QUERY_BASIC_INFO)
      (Returns fun data d' => BasicInfo.decode data = .ok m.basic ∧ d' = d) := by
    apply meets_queryPath fits there
    · exact fun _ data decoded => ⟨decoded, rfl⟩
    · exact fun asked => absurd asked (by decide)
    · exact Or.inl rfl
  have second : Meets Serves d (Tree.queryPath n p.text QUERY_STANDARD_INFO)
      (Returns fun data d' => (∃ info, StandardInfo.decode data = .ok info ∧
        info.endOfFile = m.len ∧ info.allocationSize = m.allocationSize) ∧ d' = d) := by
    apply meets_queryPath fits there
    · exact fun asked => absurd asked (by decide)
    · exact fun _ data info decoded length size => ⟨⟨info, decoded, length, size⟩, rfl⟩
    · exact Or.inr rfl
  apply first.bind
  rintro basic d₁ ⟨decoded, rfl⟩
  rw [meets_bind, meets_ofExcept, decoded]
  apply second.bind
  rintro standard d₂ ⟨⟨info, decoded', length, size⟩, rfl⟩
  rw [meets_bind, meets_ofExcept, decoded']
  refine meets_pure.mpr ⟨_, rfl, ?_, rfl⟩
  rw [length, size, fromParts_basic]

theorem meets_metadata_absent (accepted : SharePath.new path = .ok p) (fits : Fits n p.text)
    (absent : d.nodes (resolve p.text) = none) :
    Meets Serves d (Tree.metadata n path)
      (Raises fun error d' => error.isNotFound = true ∧ d' = d) := by
  rw [Tree.metadata, meets_sharePath accepted]
  apply (meets_queryPath_absent fits absent (Or.inl rfl)).bind_raises
  rintro error d' ⟨missing, still⟩
  exact ⟨error, rfl, missing, still⟩

/-! ## Deletes -/

theorem asks_removeFile (p : SharePath) : Asks (removeFileRequest p) false := by
  have options : (removeFileRequest p).createOptions =
    FILE_NON_DIRECTORY_FILE ||| FILE_DELETE_ON_CLOSE := rfl
  rw [Asks, options]
  decide

theorem asks_removeDir (p : SharePath) : Asks (removeDirRequest p) true := by
  have options : (removeDirRequest p).createOptions =
    FILE_DIRECTORY_FILE ||| FILE_DELETE_ON_CLOSE := rfl
  rw [Asks, options]
  decide

theorem Deletes.removed {directory : Bool} {result : Except ClientError Unit}
    (deletes : d.Deletes place directory d' result) (there : d.nodes place = some m)
    (suited : m.isDir = directory) : result = .ok () ∧ d.Deleted place d' := by
  cases deletes with
  | deleted _ _ deleted => exact ⟨rfl, deleted⟩
  | absent absent => exact absurd (there.symm.trans absent) (by simp)
  | mistaken there' unsuited =>
      cases Option.some.inj (there.symm.trans there')
      exact absurd suited unsuited

theorem meets_removeFile (accepted : SharePath.new path = .ok p)
    (unopened : d.Unopened (resolve p.text)) :
    Meets Serves d (Tree.removeFile n path)
      fun d' result => d.Deletes (resolve p.text) false d' result :=
  meets_delete accepted (asks_removeFile p) (by decide) unopened

/-- What a `remove_dir` comes to. -/
inductive RemovesDir (d : Disk) (place : Place) (d' : Disk) : Except ClientError Unit → Prop
  | gone (directory : d.Directory place) (bare : d.Bare place) (below : place ≠ [])
      (becomes : d'.Becomes (Function.update d.nodes place none) d.files d.searches) :
      RemovesDir d place d' (.ok ())
  | full (directory : d.Directory place) (full : ¬ d.Bare place ∨ place = []) (still : d' = d) :
      RemovesDir d place d' (.error (.status .DIRECTORY_NOT_EMPTY))
  | refused {error : ClientError} (refused : d.Deletes place true d' (.error error)) :
      RemovesDir d place d' (.error error)

/-- **`remove_dir`**: a directory with nothing below it is gone, and one with something below
it, or the root, is as it was and reported as not empty. -/
theorem meets_removeDir (accepted : SharePath.new path = .ok p) (fits : Fits n p.text)
    (unopened : d.Unopened (resolve p.text)) :
    Meets Serves d (Tree.removeDir n path)
      fun d' result => d.RemovesDir (resolve p.text) d' result := by
  rw [Tree.removeDir, meets_bind]
  apply (meets_delete accepted (asks_removeDir p) (by decide) unopened).mono
  intro d₁ result deletes
  cases deletes with
  | absent absent kind still => exact .refused (.absent absent kind still)
  | mistaken there unsuited kind still => exact .refused (.mistaken there unsuited kind still)
  | @deleted m there suited deleted =>
      change Meets Serves d₁ (attempt _ >>= _) _
      rw [meets_bind, meets_attempt]
      cases deleted with
      | gone bare below becomes =>
          have absent : d₁.nodes (resolve p.text) = none := by
            rw [becomes.nodes, Function.update_self]
          apply (meets_metadata_absent accepted fits absent).mono
          rintro d' result ⟨error, rfl, missing, rfl⟩
          dsimp only
          rw [if_pos missing]
          exact meets_pure.mpr (.gone ⟨m, there, suited⟩ bare below becomes)
      | outlived full still =>
          subst still
          apply (meets_metadata accepted fits there).mono
          rintro d' result ⟨found, rfl, -, rfl⟩
          exact meets_failed.mpr (.full ⟨m, there, suited⟩ full rfl)

end Disk

end Smb1Client
