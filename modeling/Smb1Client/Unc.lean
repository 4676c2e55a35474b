import Smb1Client.Wire.Text

/-!
UNC paths, and the policy every share-relative path is held to.

`Server`, `UncPath` and `SharePath` carry what their constructors check, so a
value of one of them is a value the constructor accepted. No constructor bounds
a length.
-/

namespace Smb1Client

/-- `Error::InvalidPath`, with what its text quotes. -/
inductive InvalidPath where
  /-- names no server -/
  | noServer
  /-- port 0 cannot be dialled -/
  | portZero
  /-- is an IPv6 address, and SMB1's UNC syntax has no form for an IPv6 literal -/
  | ipv6Literal (host : Text)
  /-- is not a host: the character cannot appear in one -/
  | notAHost (host : Text) (bad : Char)
  /-- names no share -/
  | noShare
  /-- carries a null byte -/
  | nullByte (subject : Text)
  /-- is not a share name: a share name is one component -/
  | notAShare (share : Text)
  /-- is absolute; a path is relative to the share root -/
  | absolute (path : Text)
  /-- escapes the share root -/
  | escapes (path : Text)
  deriving DecidableEq, Repr

/-! ## Characters -/

/-- `char::is_whitespace`: the Unicode `White_Space` property. -/
def isWhitespace (c : Char) : Bool :=
  let n := c.toNat
  (0x09 ≤ n && n ≤ 0x0D) || n = 0x20 || n = 0x85 || n = 0xA0 || n = 0x1680 ||
    (0x2000 ≤ n && n ≤ 0x200A) || n = 0x2028 || n = 0x2029 || n = 0x202F || n = 0x205F || n = 0x3000

/-- `char::is_control`: the general category `Cc`. -/
def isControl (c : Char) : Bool := c.toNat < 0x20 || (0x7F ≤ c.toNat && c.toNat < 0xA0)

/-- `str::trim`. -/
def trim (text : Text) : Text :=
  ((text.dropWhile isWhitespace).reverse.dropWhile isWhitespace).reverse

/-! ## Servers and shares -/

def IPC_SHARE : Text := ['I', 'P', 'C', '$']

/-- The characters a host may not carry besides brackets and colons. -/
def badInHost (c : Char) : Bool := c = '\\' || c = '/' || isWhitespace c || isControl c

def validateHost (host : Text) : Except InvalidPath Unit :=
  if host = [] then .error .noServer
  else if '[' ∈ host ∨ ']' ∈ host ∨ ':' ∈ host then .error (.ipv6Literal host)
  else
    match host.find? badInHost with
    | some bad => .error (.notAHost host bad)
    | none => .ok ()

def validateShare (share : Text) : Except InvalidPath Unit :=
  if share = [] then .error .noShare
  else if '\x00' ∈ share then .error (.nullByte share)
  else if '\\' ∈ share ∨ '/' ∈ share then .error (.notAShare share)
  else .ok ()

/-- A host and the port to dial it on. -/
structure Server where
  host : Text
  port : UInt16
  validHost : validateHost host = .ok ()
  dialled : port ≠ 0

namespace Server

def new (host : Text) (port : UInt16) : Except InvalidPath Server :=
  match valid : validateHost host with
  | .error refusal => .error refusal
  | .ok () =>
      if zero : port = 0 then .error .portZero
      else .ok ⟨host, port, valid, zero⟩

/-- The form of the server's name every UNC string on the wire is built from. -/
def uncName (s : Server) : Text := '\\' :: '\\' :: s.host

def uncTo (s : Server) (share : Text) : Text := s.uncName ++ '\\' :: share

def ipcPath (s : Server) : Text := s.uncTo IPC_SHARE

end Server

/-- A server and a share on it. -/
structure UncPath where
  server : Server
  share : Text
  validShare : validateShare share = .ok ()

namespace UncPath

def new (server : Server) (share : Text) : Except InvalidPath UncPath :=
  match valid : validateShare share with
  | .error refusal => .error refusal
  | .ok () => .ok ⟨server, share, valid⟩

/-- The path a tree connect carries. -/
def sharePath (p : UncPath) : Text := p.server.uncTo p.share

end UncPath

theorem host_noNull {host : Text} (valid : validateHost host = .ok ()) : '\x00' ∉ host := by
  intro null
  unfold validateHost at valid
  split at valid
  · cases valid
  split at valid
  · cases valid
  split at valid
  · cases valid
  · next none =>
      have bad := List.find?_eq_none.mp none _ null
      exact bad (by decide)

theorem share_noNull {share : Text} (valid : validateShare share = .ok ()) : '\x00' ∉ share := by
  intro null
  unfold validateShare at valid
  rw [if_pos null] at valid
  split at valid <;> cases valid

theorem Server.uncTo_noNull (s : Server) {share : Text} (noNull : '\x00' ∉ share) :
    '\x00' ∉ s.uncTo share := by
  have host := host_noNull s.validHost
  simp [uncTo, uncName, host, noNull]

/-! ## Share-relative paths -/

/-- One component after another, `depth` components below the share root. -/
def escapesFrom (depth : ℕ) : List Text → Bool
  | [] => false
  | component :: rest =>
      if component = [] ∨ component = ['.'] then escapesFrom depth rest
      else if component = ['.', '.'] then
        match depth with
        | 0 => true
        | shallower + 1 => escapesFrom shallower rest
      else escapesFrom (depth + 1) rest

/-- Whether some leading run of components climbs above the share root. -/
def escapesShareRoot (path : Text) : Bool := escapesFrom 0 (path.splitOn '\\')

/-- The two rewrites a caller's path goes through. -/
def normalize (path : Text) : Text := (trim path).map fun c => if c = '/' then '\\' else c

/-- A path inside a share, normalized and checked. -/
structure SharePath where
  text : Text
  noNull : '\x00' ∉ text
  relative : text.head? ≠ some '\\'
  confined : escapesShareRoot text = false

def SharePath.new (path : Text) : Except InvalidPath SharePath :=
  let normalized := normalize path
  if null : '\x00' ∈ normalized then .error (.nullByte normalized)
  else if absolute : normalized.head? = some '\\' then .error (.absolute normalized)
  else if escapes : escapesShareRoot normalized = true then
    .error (.escapes normalized)
  else .ok ⟨normalized, null, absolute, Bool.eq_false_iff.mpr escapes⟩

/-! ## What normalization leaves alone -/

theorem SharePath.text_of_new {path : Text} {p : SharePath}
    (accepted : SharePath.new path = .ok p) :
    p.text = normalize path := by
  unfold SharePath.new at accepted
  dsimp only at accepted
  split at accepted
  · cases accepted
  split at accepted
  · cases accepted
  split at accepted
  · cases accepted
  · cases accepted
    rfl

/-- A text with whitespace at neither end. -/
def Trimmed (text : Text) : Prop :=
  (∀ c ∈ text.head?, isWhitespace c = false) ∧ ∀ c ∈ text.getLast?, isWhitespace c = false

theorem trim_of_trimmed {text : Text} (trimmed : Trimmed text) : trim text = text := by
  have front : text.dropWhile isWhitespace = text := by
    cases text with
    | nil => rfl
    | cons c rest =>
        have head := trimmed.1 c rfl
        rw [List.dropWhile_cons_of_neg (by rw [head]; exact Bool.false_ne_true)]
  have back : text.reverse.dropWhile isWhitespace = text.reverse := by
    cases reversed : text.reverse with
    | nil => rfl
    | cons c rest =>
        have last := trimmed.2 c (by rw [← List.head?_reverse, reversed]; rfl)
        rw [List.dropWhile_cons_of_neg (by rw [last]; exact Bool.false_ne_true)]
  rw [trim, front, back, List.reverse_reverse]

theorem head?_dropWhile {text : Text} :
    ∀ c ∈ (text.dropWhile isWhitespace).head?, isWhitespace c = false := by
  intro c head
  have stopped := List.head?_dropWhile_not isWhitespace text
  rw [Option.mem_def.mp head] at stopped
  simpa using stopped

theorem trimmed_trim (text : Text) : Trimmed (trim text) := by
  constructor
  · intro c head
    have rest : trim text <+: text.dropWhile isWhitespace := by
      have suffix := List.dropWhile_suffix isWhitespace (l := (text.dropWhile isWhitespace).reverse)
      rw [trim]
      simpa using List.reverse_prefix.mpr suffix
    obtain ⟨tail, joined⟩ := rest
    apply @head?_dropWhile text
    rw [← joined, List.head?_append, Option.mem_def.mp head]
    rfl
  · intro c last
    rw [trim, List.getLast?_reverse] at last
    exact head?_dropWhile c last

theorem trimmed_normalize (path : Text) : Trimmed (normalize path) := by
  have kept : ∀ c : Char, isWhitespace (if c = '/' then '\\' else c) = isWhitespace c := by
    intro c
    split
    · next slash => rw [slash]; decide
    · rfl
  obtain ⟨head, last⟩ := trimmed_trim path
  constructor
  · intro c member
    rw [normalize, List.head?_map] at member
    obtain ⟨c', here, rfl⟩ := Option.mem_map.mp member
    rw [kept]
    exact head c' here
  · intro c member
    rw [normalize, List.getLast?_map] at member
    obtain ⟨c', here, rfl⟩ := Option.mem_map.mp member
    rw [kept]
    exact last c' here

theorem normalize_normalize (path : Text) : normalize (normalize path) = normalize path := by
  rw [normalize, trim_of_trimmed (trimmed_normalize path), normalize, List.map_map]
  apply List.map_congr_left
  intro c _
  by_cases slash : c = '/'
  · subst slash
    decide
  · simp [slash]

end Smb1Client
