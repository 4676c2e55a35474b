import Smb1Client.Resource.Spans
import Smb1Client.Rpc.Shares
import Smb1Client.Lib.Trace

/-!
`client.rs` and `tree.rs`: the trees that one connection's cache entry holds, the values held
on them, and what a value puts on the wire when it goes.

A tree is named by its place among the trees that were connected, so that two trees of one
tid are two. A reply is one step and its caller's reading of it another: in between it lies in
the caller's channel, and any other task runs. `told` and `reused` are kept for the reader of a
run, and no step looks at them: the trees the server has answered `STATUS_NETWORK_NAME_DELETED`
for, and those of them whose tid it has granted again since.
-/

namespace Smb1Client

/-- What a tree owns, shared by every handle opened on it. -/
structure TreeInner where
  tid : UInt16
  released : Bool
  disconnected : Bool
  deriving DecidableEq

/-- Records that a refusal says the tree is gone. -/
def TreeInner.refused (inner : TreeInner) (status : NtStatus) : TreeInner :=
  if status = .NETWORK_NAME_DELETED then { inner with disconnected := true } else inner

namespace TreeCache

/-- The places where a status that answers a request of a tree is read. -/
inductive Site where
  /-- `TreeInner::checked`, and every transaction but a page of a listing. -/
  | checked
  /-- `ReadDir::page_in`. -/
  | page
  /-- `Handle::read_span`. -/
  | read (large : Bool)
  /-- `Handle::acknowledge`. -/
  | written (large : Bool)
  deriving DecidableEq

/-- What a site makes of a status, as far as the tree is concerned. -/
def Site.settle (site : Site) (status : NtStatus) (inner : TreeInner) : TreeInner :=
  match site with
  | checked => if status ≠ .SUCCESS then inner.refused status else inner
  | page =>
      if status = .NO_MORE_FILES then inner
      else if status ≠ .SUCCESS then inner.refused status else inner
  | read large =>
      if refusesTheSize status ∧ large then inner
      else if status = .END_OF_FILE then inner
      else if status ≠ .SUCCESS then inner.refused status else inner
  | written large =>
      if refusesTheSize status ∧ large then inner
      else if status ≠ .SUCCESS then inner.refused status else inner

theorem Site.tid_settle (site : Site) (status : NtStatus) (inner : TreeInner) :
    (site.settle status inner).tid = inner.tid := by
  unfold settle TreeInner.refused
  cases site <;> (repeat' split) <;> rfl

theorem Site.disconnected_settle (site : Site) (status : NtStatus) {inner : TreeInner}
    (before : inner.disconnected = true) : (site.settle status inner).disconnected = true := by
  unfold settle TreeInner.refused
  cases site <;> (repeat' split) <;> first | exact before | rfl

/-- **Every site records the discard**, whatever it was waiting for. -/
theorem Site.disconnected_settle_deleted (site : Site) (inner : TreeInner) :
    (site.settle .NETWORK_NAME_DELETED inner).disconnected = true := by
  cases site with
  | checked => rfl
  | page => rfl
  | read large => cases large <;> rfl
  | written large => cases large <;> rfl

/-- What releases a handle, or the tree connect itself. -/
inductive Release where
  | close (fid : UInt16)
  | findClose (sid : UInt16)
  | treeDisconnect
  deriving DecidableEq

/-- What a value that holds its tree alive is. -/
inductive Kind where
  | tree
  | file (fid : UInt16)
  | listing (sid : Option UInt16) (finished : Bool)
  /-- A verb between the open and the close it is made of. -/
  | opened (fid : UInt16)
  /-- A call of `list_shares`, with the answers it has had. -/
  | enumerating (answers : List Answer)
  /-- A release that is awaited. -/
  | closing
  | gone

def Kind.live : Kind → Bool
  | gone => false
  | _ => true

/-- Whether requests are put for it whose replies a site reads. -/
def Kind.asks : Kind → Bool
  | tree => true
  | file _ => true
  | listing _ _ => true
  | opened _ => true
  | _ => false

/-- What an enumeration has been answered. -/
def Kind.answers : Kind → List Answer
  | enumerating answers => answers
  | _ => []

/-- Whether a success on a tree brings such a value. -/
def Kind.opens : Kind → Bool
  | file _ => true
  | listing _ _ => true
  | opened _ => true
  | _ => false

structure Value where
  tree : ℕ
  kind : Kind

/-- A release that is handed to the connection, and the value that awaits its reply, if one does. -/
structure Outgoing where
  tree : ℕ
  release : Release
  awaited : Option ℕ
  deriving DecidableEq

def IPC_SHARE : Text := ['I', 'P', 'C', '$']

/-- What a tree is asked for: `Client::tree`, or `Client::list_shares`. -/
inductive Purpose where
  | tree (share : Text)
  | enumerate
  deriving DecidableEq

def Purpose.share : Purpose → Text
  | tree share => share
  | enumerate => IPC_SHARE

def Purpose.kind : Purpose → Kind
  | tree _ => .tree
  | enumerate => .enumerating []

/-- A call that connects a tree, and the tree it was granted, once that has come back. -/
structure Connecting where
  purpose : Purpose
  granted : Option ℕ
  deriving DecidableEq

/-- What the caller of a request makes of the reply. -/
inductive Awaits where
  | site (site : Site) (status : NtStatus)
  /-- A release that is awaited. -/
  | release (status : NtStatus)
  /-- An enumeration, by what it has been answered with this. -/
  | enumeration (answers : List Answer)

/-- A reply that its caller has not read yet. -/
structure Delivered where
  value : ℕ
  tree : ℕ
  awaits : Awaits

structure State where
  inners : List TreeInner
  cache : List (Text × ℕ)
  connecting : List Connecting
  values : List Value
  outbound : List Outgoing
  delivered : List Delivered
  /-- The trees of the requests whose replies nobody reads. -/
  unread : List ℕ
  told : List ℕ
  reused : List ℕ

/-- What a run is seen to do. -/
inductive Sight where
  | granted (tree : ℕ) (tid : UInt16)
  | deleted (tree : ℕ)
  | used (tree : ℕ)
  | put (tree : ℕ) (release : Release)
  deriving DecidableEq

inductive Event where
  | treeOn (purpose : Purpose)
  | connected (call : ℕ) (tid : UInt16)
  | taken (call : ℕ)
  /-- The tree was refused, or the call is gone. -/
  | connectFailed (call : ℕ)
  | clone (value : ℕ)
  | opened (value : ℕ) (kind : Kind)
  | paged (value : ℕ) (sid : Option UInt16) (finished : Bool)
  | answered (value : ℕ) (site : Site) (status : NtStatus)
  | abandoned (value : ℕ)
  | enumeration (value : ℕ) (answer : Answer)
  | close (value : ℕ)
  | closed (value : ℕ) (status : NtStatus)
  /-- The caller of a reply is polled. -/
  | read (reply : ℕ)
  /-- The caller of a reply is dropped before that. -/
  | lose (reply : ℕ)
  | drop (value : ℕ)
  | write (outgoing : ℕ)
  | skip (outgoing : ℕ)
  | unreadReply (request : ℕ) (status : NtStatus)
  | evict (share : Text)

namespace State

def init : State := ⟨[], [], [], [], [], [], [], [], []⟩

/-- Whether anything holds the tree: a value, or the cache. -/
def held (s : State) (t : ℕ) : Bool :=
  s.values.any (fun v => v.tree = t && v.kind.live) || s.cache.any (·.2 = t)

def isDisconnected (s : State) (t : ℕ) : Bool := s.inners[t]?.any (·.disconnected)

def setValue (s : State) (v : ℕ) (value : Value) : State :=
  { s with values := s.values.set v value }

def enqueue (s : State) (o : Outgoing) : State := { s with outbound := s.outbound ++ [o] }

/-- `TreeInner::drop`, where what has just gone was the last to hold the tree. -/
def letGo (s : State) (t : ℕ) : State :=
  if s.held t || s.inners[t]?.any (·.released) then s else s.enqueue ⟨t, .treeDisconnect, none⟩

/-- A value goes, and with it its hold on the tree. -/
def dispose (s : State) (v : ℕ) (t : ℕ) : State := (s.setValue v ⟨t, .gone⟩).letGo t

/-- `trees.remove(share)`. -/
def remove (s : State) (share : Text) : State :=
  let rest := { s with cache := s.cache.filter (·.1 ≠ share) }
  match s.cache.lookup share with
  | some t => rest.letGo t
  | none => rest

/-- `trees.insert(share, tree)`. -/
def insert (s : State) (share : Text) (t : ℕ) : State :=
  let rest := { s with cache := (share, t) :: s.cache.filter (·.1 ≠ share) }
  match s.cache.lookup share with
  | some old => rest.letGo old
  | none => rest

/-- A call is given a tree. -/
def hand (s : State) (purpose : Purpose) (t : ℕ) : State :=
  { s with values := s.values ++ [⟨t, purpose.kind⟩] }

def connect (s : State) (purpose : Purpose) : State :=
  { s with connecting := s.connecting ++ [⟨purpose, none⟩] }

/-- `tree_on`: the cached tree for the share, where there is a healthy one. -/
def treeOn (s : State) (purpose : Purpose) : State × List Sight :=
  match s.cache.lookup purpose.share with
  | some t =>
      if s.isDisconnected t then ((s.remove purpose.share).connect purpose, [])
      else (s.hand purpose t, [.used t])
  | none => (s.connect purpose, [])

/-- Puts a freshly connected tree in the cache, or takes the one that arrived meanwhile. -/
def remember (s : State) (purpose : Purpose) (t : ℕ) : State × List Sight :=
  match s.cache.lookup purpose.share with
  | some existing =>
      if s.isDisconnected existing then ((s.insert purpose.share t).hand purpose t, [.used t])
      else ((s.hand purpose existing).letGo t, [.used existing])
  | none => ((s.insert purpose.share t).hand purpose t, [.used t])

/-- A reply of `TREE_CONNECT_ANDX` grants a tid. -/
def grant (s : State) (tid : UInt16) : State :=
  { s with
    inners := s.inners ++ [⟨tid, false, false⟩]
    reused := s.reused ++ s.told.filter fun t => s.inners[t]?.any (·.tid = tid) }

/-- The server answers a request of the tree. -/
def tell (s : State) (t : ℕ) (status : NtStatus) : State :=
  if status = .NETWORK_NAME_DELETED then { s with told := s.told ++ [t] } else s

def sight (t : ℕ) (status : NtStatus) : List Sight :=
  if status = .NETWORK_NAME_DELETED then [.deleted t] else []

/-- A reply comes for somebody who waits for it. -/
def deliver (s : State) (d : Delivered) (status : NtStatus) : State :=
  { s.tell d.tree status with delivered := s.delivered ++ [d] }

/-- Whether a reply lies unread for the value, which what is to read it borrows. -/
def unheard (s : State) (v : ℕ) : Bool := s.delivered.any (·.value = v)

/-- The replies but one. -/
def without (s : State) (reply : ℕ) : State :=
  { s with delivered := s.delivered.eraseIdx reply }

/-- A site reads the answer to a request of the tree. -/
def record (s : State) (t : ℕ) (site : Site) (status : NtStatus) : State :=
  { s with inners := s.inners.modify t (site.settle status) }

/-- The call a reply came for. -/
def caller (s : State) (d : Delivered) : Option Kind :=
  s.values[d.value]?.bind fun value => if value.tree = d.tree then some value.kind else none

/-- `close`, of what has one: the release is awaited, where there is something to release. -/
def close (s : State) (v t : ℕ) : Kind → Option State
  | .file fid => some ((s.setValue v ⟨t, .closing⟩).enqueue ⟨t, .close fid, some v⟩)
  | .opened fid => some ((s.setValue v ⟨t, .closing⟩).enqueue ⟨t, .close fid, some v⟩)
  | .listing (some sid) false =>
      some ((s.setValue v ⟨t, .closing⟩).enqueue ⟨t, .findClose sid, some v⟩)
  | .listing _ _ => some (s.dispose v t)
  | .tree =>
      let alone := s.setValue v ⟨t, .gone⟩
      if alone.held t then some alone
      else some ({ s.setValue v ⟨t, .closing⟩ with
          inners := s.inners.modify t ({ · with released := true }) }.enqueue
        ⟨t, .treeDisconnect, some v⟩)
  | _ => none

/-- `drop`: the release is handed over, and nobody reads what is answered. -/
def drop (s : State) (v t : ℕ) : Kind → Option State
  | .file fid => some ((s.enqueue ⟨t, .close fid, none⟩).dispose v t)
  | .listing (some sid) false => some ((s.enqueue ⟨t, .findClose sid, none⟩).dispose v t)
  | .listing _ _ => some (s.dispose v t)
  | .tree => some (s.dispose v t)
  | .opened _ => some (s.dispose v t)
  | .enumerating _ => some ({ s with unread := s.unread ++ [t] }.dispose v t)
  | .closing => some ({ s with unread := s.unread ++ [t] }.dispose v t)
  | .gone => none

/-- The close of a pipe is handed over as the enumeration asks for it. -/
def askClose (s : State) (v t : ℕ) : Option TreeRequest → State
  | some (.close request) => s.enqueue ⟨t, .close request.fid, some v⟩
  | _ => s

/-- `list_shares` takes an answer, and looks for one error at its end. -/
def enumeration (listing : PipeVerb (List Share)) (s : State) (v t : ℕ) (answers : List Answer) :
    State :=
  match listing.outcome answers with
  | none => (s.setValue v ⟨t, .enumerating answers⟩).askClose v t (listing.asks answers)
  | some result =>
      (if result = .error .treeDisconnected then s.remove IPC_SHARE else s).dispose v t

/-- The caller of a reply reads it. -/
def read (listing : PipeVerb (List Share)) (s : State) (d : Delivered) : Option State :=
  match d.awaits with
  | .site site status => some (s.record d.tree site status)
  | .release status =>
      match s.caller d with
      | some .closing => some ((s.record d.tree .checked status).dispose d.value d.tree)
      | _ => none
  | .enumeration answers =>
      match s.caller d with
      | some (.enumerating _) => some (s.enumeration listing d.value d.tree answers)
      | _ => none

/-- The caller of a reply is dropped without having read it, and where it is the value, with it. -/
def lose (s : State) (d : Delivered) : Option State :=
  match d.awaits with
  | .site _ _ => some s
  | _ =>
      match s.caller d with
      | some kind => if kind.live then some (s.dispose d.value d.tree) else none
      | none => none

def answerStatus : Answer → NtStatus
  | .ok reply => reply.status
  | .error _ => .SUCCESS

def step (listing : PipeVerb (List Share)) (s : State) : Event → Option (State × List Sight)
  | .treeOn purpose => some (s.treeOn purpose)
  | .connected call tid =>
      match s.connecting[call]? with
      | some ⟨purpose, none⟩ => some
          ({ s with
              connecting := s.connecting.set call ⟨purpose, some s.inners.length⟩ }.grant tid,
            [.granted s.inners.length tid])
      | _ => none
  | .taken call =>
      match s.connecting[call]? with
      | some ⟨purpose, some t⟩ =>
          some ({ s with connecting := s.connecting.eraseIdx call }.remember purpose t)
      | _ => none
  | .connectFailed call => some ({ s with connecting := s.connecting.eraseIdx call }, [])
  | .clone v =>
      match s.values[v]? with
      | some ⟨t, .tree⟩ => some ({ s with values := s.values ++ [⟨t, .tree⟩] }, [])
      | _ => none
  | .opened v kind =>
      match s.values[v]? with
      | some ⟨t, .tree⟩ =>
          if kind.opens then some ({ s with values := s.values ++ [⟨t, kind⟩] }, []) else none
      | _ => none
  | .paged v sid finished =>
      match s.values[v]? with
      | some ⟨t, .listing _ _⟩ => some (s.setValue v ⟨t, .listing sid finished⟩, [])
      | _ => none
  | .answered v site status =>
      match s.values[v]? with
      | some ⟨t, kind⟩ =>
          if kind.asks then some (s.deliver ⟨v, t, .site site status⟩ status, sight t status)
          else none
      | none => none
  | .abandoned v =>
      match s.values[v]? with
      | some ⟨t, kind⟩ =>
          if kind.asks then some ({ s with unread := s.unread ++ [t] }, []) else none
      | none => none
  | .enumeration v answer =>
      match s.values[v]? with
      | some ⟨t, .enumerating answers⟩ =>
          if (listing.asks answers).isSome && !s.unheard v then
            some (s.deliver ⟨v, t, .enumeration (answers ++ [answer])⟩ (answerStatus answer),
              sight t (answerStatus answer))
          else none
      | _ => none
  | .close v =>
      if s.unheard v then none
      else s.values[v]?.bind fun value => (s.close v value.tree value.kind).map (·, [])
  | .closed v status =>
      match s.values[v]? with
      | some ⟨t, .closing⟩ =>
          if s.outbound.any (·.awaited = some v) || s.unheard v then none
          else some (s.deliver ⟨v, t, .release status⟩ status, sight t status)
      | _ => none
  | .read i => s.delivered[i]?.bind fun d => ((s.without i).read listing d).map (·, [])
  | .lose i => s.delivered[i]?.bind fun d => ((s.without i).lose d).map (·, [])
  | .drop v =>
      if s.unheard v then none
      else s.values[v]?.bind fun value => (s.drop v value.tree value.kind).map (·, [])
  | .write i => s.outbound[i]?.map fun o =>
      ({ s with
          outbound := s.outbound.eraseIdx i
          unread := if o.awaited = none then s.unread ++ [o.tree] else s.unread },
        [.put o.tree o.release])
  -- the actor drops a request whose caller has gone
  | .skip i =>
      match s.outbound[i]? with
      | some ⟨_, _, some v⟩ =>
          if s.values[v]?.any (·.kind.live) then none
          else some ({ s with outbound := s.outbound.eraseIdx i }, [])
      | _ => none
  | .unreadReply i status => s.unread[i]?.map fun t =>
      ({ s with unread := s.unread.eraseIdx i }.tell t status, sight t status)
  | .evict share => some (s.remove share, [])

/-! ### The steps, inverted -/

/-- What a step is, with what it found. -/
inductive Moves (listing : PipeVerb (List Share)) (s : State) : Event → State → List Sight → Prop
  | treeOn {purpose : Purpose} {s' : State} {out : List Sight}
      (taken : s.treeOn purpose = (s', out)) : Moves listing s (.treeOn purpose) s' out
  | connected {call : ℕ} {purpose : Purpose} (tid : UInt16)
      (called : s.connecting[call]? = some ⟨purpose, none⟩) :
      Moves listing s (.connected call tid)
        ({ s with connecting := s.connecting.set call ⟨purpose, some s.inners.length⟩ }.grant tid)
        [.granted s.inners.length tid]
  | taken {call t : ℕ} {purpose : Purpose} {s' : State} {out : List Sight}
      (called : s.connecting[call]? = some ⟨purpose, some t⟩)
      (kept : { s with connecting := s.connecting.eraseIdx call }.remember purpose t = (s', out)) :
      Moves listing s (.taken call) s' out
  | connectFailed (call : ℕ) : Moves listing s (.connectFailed call)
      { s with connecting := s.connecting.eraseIdx call } []
  | cloned {v t : ℕ} (found : s.values[v]? = some ⟨t, .tree⟩) :
      Moves listing s (.clone v) { s with values := s.values ++ [⟨t, .tree⟩] } []
  | opened {v t : ℕ} {kind : Kind} (found : s.values[v]? = some ⟨t, .tree⟩)
      (opens : kind.opens = true) :
      Moves listing s (.opened v kind) { s with values := s.values ++ [⟨t, kind⟩] } []
  | paged {v t : ℕ} {sid sid' : Option UInt16} {finished finished' : Bool}
      (found : s.values[v]? = some ⟨t, .listing sid' finished'⟩) :
      Moves listing s (.paged v sid finished) (s.setValue v ⟨t, .listing sid finished⟩) []
  | answered {v t : ℕ} {kind : Kind} (site : Site) (status : NtStatus)
      (found : s.values[v]? = some ⟨t, kind⟩) :
      Moves listing s (.answered v site status) (s.deliver ⟨v, t, .site site status⟩ status)
        (sight t status)
  | abandoned {v t : ℕ} {kind : Kind} (found : s.values[v]? = some ⟨t, kind⟩) :
      Moves listing s (.abandoned v) { s with unread := s.unread ++ [t] } []
  | enumeration {v t : ℕ} {answers : List Answer} (answer : Answer)
      (found : s.values[v]? = some ⟨t, .enumerating answers⟩)
      (asked : (listing.asks answers).isSome = true) :
      Moves listing s (.enumeration v answer)
        (s.deliver ⟨v, t, .enumeration (answers ++ [answer])⟩ (answerStatus answer))
        (sight t (answerStatus answer))
  | close {v : ℕ} {value : Value} {s' : State} (found : s.values[v]? = some value)
      (closed : s.close v value.tree value.kind = some s') : Moves listing s (.close v) s' []
  | closed {v t : ℕ} (status : NtStatus) (found : s.values[v]? = some ⟨t, .closing⟩) :
      Moves listing s (.closed v status) (s.deliver ⟨v, t, .release status⟩ status) (sight t status)
  | readSite {i v t : ℕ} {site : Site} {status : NtStatus}
      (unread : s.delivered[i]? = some ⟨v, t, .site site status⟩) :
      Moves listing s (.read i) ((s.without i).record t site status) []
  | readRelease {i v t : ℕ} {status : NtStatus}
      (unread : s.delivered[i]? = some ⟨v, t, .release status⟩)
      (found : s.values[v]? = some ⟨t, .closing⟩) :
      Moves listing s (.read i) (((s.without i).record t .checked status).dispose v t) []
  | readEnumeration {i v t : ℕ} {answers before : List Answer}
      (unread : s.delivered[i]? = some ⟨v, t, .enumeration answers⟩)
      (found : s.values[v]? = some ⟨t, .enumerating before⟩) :
      Moves listing s (.read i) ((s.without i).enumeration listing v t answers) []
  | lostReply {i : ℕ} {d : Delivered} (unread : s.delivered[i]? = some d) :
      Moves listing s (.lose i) (s.without i) []
  | lostCall {i : ℕ} {d : Delivered} {kind : Kind} (unread : s.delivered[i]? = some d)
      (found : s.values[d.value]? = some ⟨d.tree, kind⟩) (live : kind.live = true) :
      Moves listing s (.lose i) ((s.without i).dispose d.value d.tree) []
  | drop {v : ℕ} {value : Value} {s' : State} (found : s.values[v]? = some value)
      (dropped : s.drop v value.tree value.kind = some s') : Moves listing s (.drop v) s' []
  | write {i : ℕ} {o : Outgoing} (found : s.outbound[i]? = some o) :
      Moves listing s (.write i)
        { s with
          outbound := s.outbound.eraseIdx i
          unread := if o.awaited = none then s.unread ++ [o.tree] else s.unread }
        [.put o.tree o.release]
  | skip (i : ℕ) : Moves listing s (.skip i) { s with outbound := s.outbound.eraseIdx i } []
  | unreadReply {i t : ℕ} (status : NtStatus) (found : s.unread[i]? = some t) :
      Moves listing s (.unreadReply i status)
        ({ s with unread := s.unread.eraseIdx i }.tell t status) (sight t status)
  | evict (share : Text) : Moves listing s (.evict share) (s.remove share) []

theorem found_of_caller {s : State} {d : Delivered} {kind : Kind}
    (called : s.caller d = some kind) : s.values[d.value]? = some ⟨d.tree, kind⟩ := by
  obtain ⟨⟨t, kind'⟩, found, same⟩ := Option.bind_eq_some_iff.mp called
  split at same
  · next here =>
      cases same
      exact here ▸ found
  · cases same

theorem moves_of_read {listing : PipeVerb (List Share)} {s s' : State} {i : ℕ} {d : Delivered}
    (unread : s.delivered[i]? = some d) (reads : (s.without i).read listing d = some s') :
    Moves listing s (.read i) s' [] := by
  obtain ⟨v, t, awaits⟩ := d
  unfold read at reads
  cases awaits with
  | site site status =>
      cases reads
      exact .readSite unread
  | release status =>
      dsimp only at reads
      split at reads
      · next called =>
          cases reads
          exact .readRelease unread (found_of_caller called)
      · cases reads
  | enumeration answers =>
      dsimp only at reads
      split at reads
      · next called =>
          cases reads
          exact .readEnumeration unread (found_of_caller called)
      · cases reads

theorem moves_of_lose {listing : PipeVerb (List Share)} {s s' : State} {i : ℕ} {d : Delivered}
    (unread : s.delivered[i]? = some d) (loses : (s.without i).lose d = some s') :
    Moves listing s (.lose i) s' [] := by
  unfold lose at loses
  split at loses
  · cases loses
    exact .lostReply unread
  · split at loses
    · next kind called =>
        split at loses
        · next live =>
            cases loses
            exact .lostCall unread (found_of_caller called) live
        · cases loses
    · cases loses

theorem moves_of_step {listing : PipeVerb (List Share)} {s s' : State} {e : Event}
    {out : List Sight} (stepped : s.step listing e = some (s', out)) :
    Moves listing s e s' out := by
  unfold step at stepped
  split at stepped
  · exact .treeOn (Option.some.inj stepped)
  · split at stepped
    · next called =>
        cases stepped
        exact .connected _ called
    · cases stepped
  · split at stepped
    · next called => exact .taken called (Option.some.inj stepped)
    · cases stepped
  · cases stepped
    exact .connectFailed _
  · split at stepped
    · next found =>
        cases stepped
        exact .cloned found
    · cases stepped
  · split at stepped
    · next found =>
        split at stepped
        · next opens =>
            cases stepped
            exact .opened found opens
        · cases stepped
    · cases stepped
  · split at stepped
    · next found =>
        cases stepped
        exact .paged found
    · cases stepped
  · split at stepped
    · next found =>
        split at stepped
        · cases stepped
          exact .answered _ _ found
        · cases stepped
    · cases stepped
  · split at stepped
    · next found =>
        split at stepped
        · cases stepped
          exact .abandoned found
        · cases stepped
    · cases stepped
  · split at stepped
    · next found =>
        split at stepped
        · next asked =>
            cases stepped
            exact .enumeration _ found (Bool.and_eq_true_iff.mp asked).1
        · cases stepped
    · cases stepped
  · split at stepped
    · cases stepped
    · obtain ⟨value, found, taken⟩ := Option.bind_eq_some_iff.mp stepped
      obtain ⟨_, closed, same⟩ := Option.map_eq_some_iff.mp taken
      cases same
      exact .close found closed
  · split at stepped
    · next found =>
        split at stepped
        · cases stepped
        · cases stepped
          exact .closed _ found
    · cases stepped
  · obtain ⟨d, unread, taken⟩ := Option.bind_eq_some_iff.mp stepped
    obtain ⟨_, reads, same⟩ := Option.map_eq_some_iff.mp taken
    cases same
    exact moves_of_read unread reads
  · obtain ⟨d, unread, taken⟩ := Option.bind_eq_some_iff.mp stepped
    obtain ⟨_, loses, same⟩ := Option.map_eq_some_iff.mp taken
    cases same
    exact moves_of_lose unread loses
  · split at stepped
    · cases stepped
    · obtain ⟨value, found, taken⟩ := Option.bind_eq_some_iff.mp stepped
      obtain ⟨_, dropped, same⟩ := Option.map_eq_some_iff.mp taken
      cases same
      exact .drop found dropped
  · obtain ⟨o, found, same⟩ := Option.map_eq_some_iff.mp stepped
    cases same
    exact .write found
  · split at stepped
    · split at stepped
      · cases stepped
      · cases stepped
        exact .skip _
    · cases stepped
  · obtain ⟨t, found, same⟩ := Option.map_eq_some_iff.mp stepped
    cases same
    exact .unreadReply _ found
  · cases stepped
    exact .evict _

/-! ### What the parts of a step leave alone -/

theorem letGo_eq (s : State) (t : ℕ) : ∃ outbound, s.letGo t = { s with outbound } := by
  unfold letGo
  split
  · exact ⟨s.outbound, rfl⟩
  · exact ⟨_, rfl⟩

theorem askClose_eq (s : State) (v t : ℕ) (asked : Option TreeRequest) :
    ∃ outbound, s.askClose v t asked = { s with outbound } := by
  unfold askClose
  split
  · exact ⟨_, rfl⟩
  · exact ⟨s.outbound, rfl⟩

theorem dispose_eq (s : State) (v t : ℕ) :
    ∃ outbound, s.dispose v t = { s.setValue v ⟨t, .gone⟩ with outbound } :=
  letGo_eq _ t

theorem remove_eq (s : State) (share : Text) : ∃ outbound,
    s.remove share = { s with cache := s.cache.filter (·.1 ≠ share), outbound } := by
  unfold remove
  dsimp only
  split
  · obtain ⟨outbound, same⟩ := letGo_eq { s with cache := s.cache.filter (·.1 ≠ share) } _
    exact ⟨outbound, same⟩
  · exact ⟨s.outbound, rfl⟩

theorem insert_eq (s : State) (share : Text) (t : ℕ) : ∃ outbound, s.insert share t =
    { s with cache := (share, t) :: s.cache.filter (·.1 ≠ share), outbound } := by
  unfold insert
  dsimp only
  split
  · obtain ⟨outbound, same⟩ :=
      letGo_eq { s with cache := (share, t) :: s.cache.filter (·.1 ≠ share) } _
    exact ⟨outbound, same⟩
  · exact ⟨s.outbound, rfl⟩

/-- What a lookup is seen to do. -/
theorem sights_of_treeOn {s s' : State} {purpose : Purpose} {out : List Sight}
    (taken : s.treeOn purpose = (s', out)) : out = [] ∨ ∃ t, out = [.used t] := by
  unfold treeOn at taken
  split at taken
  · split at taken
    · exact Or.inl (Prod.mk.inj taken).2.symm
    · exact Or.inr ⟨_, (Prod.mk.inj taken).2.symm⟩
  · exact Or.inl (Prod.mk.inj taken).2.symm

theorem sights_of_remember {s s' : State} {purpose : Purpose} {t : ℕ} {out : List Sight}
    (kept : s.remember purpose t = (s', out)) : ∃ t', out = [.used t'] := by
  unfold remember at kept
  split at kept
  · split at kept
    · exact ⟨_, (Prod.mk.inj kept).2.symm⟩
    · exact ⟨_, (Prod.mk.inj kept).2.symm⟩
  · exact ⟨_, (Prod.mk.inj kept).2.symm⟩

theorem sight_cases (t : ℕ) (status : NtStatus) :
    sight t status = [] ∨ sight t status = [.deleted t] := by
  unfold sight
  split
  · exact Or.inr rfl
  · exact Or.inl rfl

theorem treeOn_eq (s : State) (purpose : Purpose) : ∃ cache connecting values outbound,
    (s.treeOn purpose).1 = { s with cache, connecting, values, outbound } ∧
      (connecting = s.connecting ∨ connecting = s.connecting ++ [⟨purpose, none⟩]) := by
  unfold treeOn
  split
  · split
    · obtain ⟨outbound, same⟩ := remove_eq s purpose.share
      dsimp only
      rw [same]
      exact ⟨_, _, _, _, rfl, Or.inr rfl⟩
    · exact ⟨_, _, _, _, rfl, Or.inl rfl⟩
  · exact ⟨_, _, _, _, rfl, Or.inr rfl⟩

theorem remember_eq (s : State) (purpose : Purpose) (t : ℕ) : ∃ cache values outbound,
    (s.remember purpose t).1 = { s with cache, values, outbound } := by
  obtain ⟨outbound, inserted⟩ := insert_eq s purpose.share t
  unfold remember
  split
  · split
    · dsimp only
      rw [inserted]
      exact ⟨_, _, _, rfl⟩
    · obtain ⟨outbound', same⟩ := letGo_eq (s.hand purpose _) t
      dsimp only
      rw [same]
      exact ⟨_, _, _, rfl⟩
  · dsimp only
    rw [inserted]
    exact ⟨_, _, _, rfl⟩

theorem close_eq {s s' : State} {v t : ℕ} {kind : Kind} (closed : s.close v t kind = some s') :
    ∃ inners values outbound, s' = { s with inners, values, outbound } ∧
      (inners = s.inners ∨ inners = s.inners.modify t ({ · with released := true })) := by
  unfold close at closed
  split at closed
  · cases closed
    exact ⟨_, _, _, rfl, Or.inl rfl⟩
  · cases closed
    exact ⟨_, _, _, rfl, Or.inl rfl⟩
  · cases closed
    exact ⟨_, _, _, rfl, Or.inl rfl⟩
  · cases closed
    obtain ⟨_, same⟩ := dispose_eq s v t
    rw [same]
    exact ⟨_, _, _, rfl, Or.inl rfl⟩
  · dsimp only at closed
    split at closed
    · cases closed
      exact ⟨_, _, _, rfl, Or.inl rfl⟩
    · cases closed
      exact ⟨_, _, _, rfl, Or.inr rfl⟩
  · cases closed

theorem drop_eq {s s' : State} {v t : ℕ} {kind : Kind} (dropped : s.drop v t kind = some s') :
    ∃ values outbound unread, s' = { s with values, outbound, unread } := by
  unfold drop at dropped
  split at dropped
  case h_8 => cases dropped
  all_goals
    cases dropped
    obtain ⟨_, same⟩ := dispose_eq _ v t
    rw [same]
    exact ⟨_, _, _, rfl⟩

theorem enumeration_eq (listing : PipeVerb (List Share)) (s : State) (v t : ℕ)
    (answers : List Answer) : ∃ cache values outbound,
      s.enumeration listing v t answers = { s with cache, values, outbound } := by
  unfold enumeration
  split
  · obtain ⟨_, same⟩ := askClose_eq (s.setValue v ⟨t, .enumerating answers⟩) v t
      (listing.asks answers)
    rw [same]
    exact ⟨_, _, _, rfl⟩
  · split
    · obtain ⟨_, removed⟩ := remove_eq s IPC_SHARE
      rw [removed]
      obtain ⟨_, same⟩ := dispose_eq _ v t
      rw [same]
      exact ⟨_, _, _, rfl⟩
    · obtain ⟨_, same⟩ := dispose_eq s v t
      rw [same]
      exact ⟨_, _, _, rfl⟩

theorem tell_eq (s : State) (t : ℕ) (status : NtStatus) : ∃ told,
    s.tell t status = { s with told } ∧
      ∀ t', t' ∈ told ↔ t' ∈ s.told ∨ t' = t ∧ status = .NETWORK_NAME_DELETED := by
  unfold tell
  split
  · next deleted => exact ⟨_, rfl, fun t' => by simp [deleted]⟩
  · next other => exact ⟨_, rfl, fun t' => by simp [other]⟩

theorem deliver_eq (s : State) (d : Delivered) (status : NtStatus) : ∃ told,
    s.deliver d status = { s with told, delivered := s.delivered ++ [d] } ∧
      ∀ t, t ∈ told ↔ t ∈ s.told ∨ t = d.tree ∧ status = .NETWORK_NAME_DELETED := by
  obtain ⟨told, same, members⟩ := tell_eq s d.tree status
  exact ⟨told, by rw [deliver, same], members⟩

end State

/-- The trees of one connection, over which shares are listed by a program. -/
def machine (listing : PipeVerb (List Share)) : Trace.Machine State Event Sight where
  step := State.step listing

end TreeCache

end Smb1Client
