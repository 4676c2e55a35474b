import Smb1Client.Unc

/-!
UNC paths as text: what `Display` writes and what `from_str` parses.

A text is parsed back to the value it was written from, port and all, since no host carries a
colon and no share a separator. What is parsed at all is a value the constructors accept.
-/

namespace Smb1Client

def DEFAULT_PORT : UInt16 := 445

/-- What `from_str` refuses, each an `Error::InvalidPath`. -/
inductive Unparsed where
  | invalid (refusal : InvalidPath)
  /-- is not a port to dial on -/
  | notAPort (port : Text)
  /-- does not begin with two backslashes, as a UNC path does -/
  | notUnc (path : Text)
  /-- names no share; the form is `\\server\share` -/
  | namesNoShare (path : Text)
  deriving DecidableEq, Repr

/-! ## Ports -/

/-- The decimal digits of a number. -/
def decimal (n : ℕ) : Text :=
  (if n < 10 then [] else decimal (n / 10)) ++ [Char.ofNat (48 + n % 10)]
termination_by n

/-- `char::to_digit` in base ten. -/
def toDigit (c : Char) : Option ℕ :=
  if 48 ≤ c.toNat ∧ c.toNat < 58 then some (c.toNat - 48) else none

/-- One more digit of a 16-bit number, where it still fits. -/
def addDigit (value : ℕ) (c : Char) : Option ℕ :=
  (toDigit c).bind fun digit =>
    if value * 10 + digit < 2 ^ 16 then some (value * 10 + digit) else none

/-- `u16::from_str`: digits, behind a plus sign or not. -/
def parsePort (text : Text) : Option UInt16 :=
  let digits := match text with
    | '+' :: rest => rest
    | _ => text
  if digits = [] then none else (digits.foldlM addDigit 0).map UInt16.ofNat

/-! ## Splitting -/

/-- `str::split_once`. -/
def splitOnce (separator : Char) (text : Text) : Option (Text × Text) :=
  if separator ∈ text then
    some (text.takeWhile (· ≠ separator), (text.dropWhile (· ≠ separator)).tail)
  else none

/-- `str::rsplit_once`. -/
def rsplitOnce (separator : Char) (text : Text) : Option (Text × Text) :=
  (splitOnce separator text.reverse).map fun parts => (parts.2.reverse, parts.1.reverse)

/-- `str::strip_suffix`, or the text as it is. -/
def stripSuffix (suffix : Char) (text : Text) : Text :=
  if text.getLast? = some suffix then text.dropLast else text

/-! ## Servers -/

namespace Server

def fromStr (server : Text) : Except Unparsed Server :=
  if server.head? = some '[' ∨ ']' ∈ server then
    (Server.new server DEFAULT_PORT).mapError .invalid
  else
    match rsplitOnce ':' server with
    | some (host, port) =>
        -- a colon left in the host half means that the whole is an address
        if ':' ∈ host then (Server.new server DEFAULT_PORT).mapError .invalid
        else
          match parsePort port with
          | none => .error (.notAPort port)
          | some port => (Server.new host port).mapError .invalid
    | none => (Server.new server DEFAULT_PORT).mapError .invalid

/-- `Display`: the port appears only where it is not the default. -/
def display (s : Server) : Text :=
  if s.port = DEFAULT_PORT then s.host else s.host ++ ':' :: decimal s.port.toNat

/-- What a connection cache keys on, with the lowercasing of the host. -/
def cacheKey (toLowercase : Text → Text) (s : Server) : Text :=
  toLowercase s.host ++ ':' :: decimal s.port.toNat

end Server

/-! ## Paths -/

namespace UncPath

def fromStr (path : Text) : Except Unparsed UncPath :=
  match path with
  | '\\' :: '\\' :: rest =>
      match splitOnce '\\' rest with
      | none => .error (.namesNoShare path)
      | some (server, share) =>
          match Server.fromStr server with
          | .error refusal => .error refusal
          | .ok server => (UncPath.new server (stripSuffix '\\' share)).mapError .invalid
  | _ => .error (.notUnc path)

/-- `Display`: the form `fromStr` parses, port and all. -/
def display (p : UncPath) : Text := '\\' :: '\\' :: (p.server.display ++ '\\' :: p.share)

end UncPath

/-! ## Digits -/

theorem toDigit_ofNat {n : ℕ} (small : n < 10) : toDigit (Char.ofNat (48 + n)) = some n := by
  interval_cases n <;> rfl

theorem foldlM_decimal {n : ℕ} (fits : n < 2 ^ 16) : (decimal n).foldlM addDigit 0 = some n := by
  induction n using Nat.strong_induction_on with
  | _ n ih =>
      have last := toDigit_ofNat (Nat.mod_lt n (by decide : 10 > 0))
      have whole := Nat.div_add_mod n 10
      have front : (if n < 10 then [] else decimal (n / 10)).foldlM addDigit 0 = some (n / 10) := by
        split
        · next small => rw [Nat.div_eq_of_lt small]; rfl
        · next large => exact ih (n / 10) (by omega) (by omega)
      have sum : n / 10 * 10 + n % 10 = n := by omega
      rw [decimal, List.foldlM_append, front, Option.bind_eq_bind, Option.bind_some,
        List.foldlM_cons, addDigit, last, Option.bind_some, sum, if_pos fits]
      rfl

/-- Every character of a number is a digit. -/
theorem toDigit_decimal {n : ℕ} {c : Char} (member : c ∈ decimal n) :
    (toDigit c).isSome = true := by
  induction n using Nat.strong_induction_on with
  | _ n ih =>
      rw [decimal, List.mem_append, List.mem_singleton] at member
      rcases member with front | rfl
      · split at front
        · cases front
        · exact ih (n / 10) (by omega) front
      · rw [toDigit_ofNat (Nat.mod_lt n (by decide))]
        rfl

theorem decimal_ne_nil (n : ℕ) : decimal n ≠ [] := by
  rw [decimal]
  exact List.append_ne_nil_of_right_ne_nil _ (List.cons_ne_nil _ _)

theorem decimal_injective {n m : ℕ} (small : n < 2 ^ 16) (small' : m < 2 ^ 16)
    (same : decimal n = decimal m) : n = m := by
  have value := foldlM_decimal small
  rw [same, foldlM_decimal small'] at value
  exact (Option.some.inj value).symm

theorem parsePort_decimal (port : UInt16) : parsePort (decimal port.toNat) = some port := by
  have unsigned : ∀ rest, decimal port.toNat ≠ '+' :: rest := by
    intro rest same
    have digit := toDigit_decimal (n := port.toNat) (c := '+')
      (by rw [same]; exact List.mem_cons_self)
    exact absurd digit (by decide)
  unfold parsePort
  dsimp only
  split
  · next rest same => exact absurd same (unsigned rest)
  · rw [if_neg (decimal_ne_nil _), foldlM_decimal port.toNat_lt, Option.map_some,
      UInt16.ofNat_toNat]

/-! ## Splitting -/

theorem splitOnce_append {separator : Char} {front : Text} (absent : separator ∉ front)
    (back : Text) : splitOnce separator (front ++ separator :: back) = some (front, back) := by
  have kept : ∀ c ∈ front, (c ≠ separator : Bool) = true := by
    intro c member
    rw [decide_eq_true_eq]
    rintro rfl
    exact absent member
  rw [splitOnce, if_pos (by simp), List.takeWhile_append_of_pos kept,
    List.dropWhile_append_of_pos kept]
  simp

theorem rsplitOnce_append {separator : Char} (front : Text) {back : Text}
    (absent : separator ∉ back) :
    rsplitOnce separator (front ++ separator :: back) = some (front, back) := by
  rw [rsplitOnce, List.reverse_append, List.reverse_cons, List.append_assoc,
    List.singleton_append, splitOnce_append (by rwa [List.mem_reverse])]
  simp

theorem rsplitOnce_eq_none {separator : Char} {text : Text} (absent : separator ∉ text) :
    rsplitOnce separator text = none := by
  rw [rsplitOnce, splitOnce, if_neg (by rwa [List.mem_reverse])]
  rfl

theorem splitOnce_eq_some {separator : Char} {text front back : Text}
    (split : splitOnce separator text = some (front, back)) :
    text = front ++ separator :: back := by
  rw [splitOnce] at split
  split at split
  case isFalse => cases split
  next member =>
  cases split
  have rest : text.dropWhile (· ≠ separator) ≠ [] := by
    intro none
    have all := List.dropWhile_eq_nil_iff.mp none separator member
    exact absurd rfl (decide_eq_true_eq.mp all)
  obtain ⟨c, tail, stopped⟩ := List.exists_cons_of_ne_nil rest
  have here : c = separator := by
    have stop := List.head?_dropWhile_not (· ≠ separator) text
    rw [stopped] at stop
    simpa using stop
  have whole := List.takeWhile_append_dropWhile (p := (· ≠ separator)) (l := text)
  rw [stopped, here] at whole
  rw [stopped]
  exact whole.symm

theorem rsplitOnce_eq_some {separator : Char} {text front back : Text}
    (split : rsplitOnce separator text = some (front, back)) :
    text = front ++ separator :: back := by
  obtain ⟨⟨last, first⟩, once, same⟩ := Option.map_eq_some_iff.mp split
  cases same
  have whole := congrArg List.reverse (splitOnce_eq_some once)
  simpa using whole

theorem not_mem_decimal {c : Char} (n : ℕ) (digit : toDigit c = none) : c ∉ decimal n := by
  intro member
  have some := toDigit_decimal member
  rw [digit] at some
  cases some

/-! ## Hosts and shares -/

/-- What a host is not to carry. -/
theorem host_plain {host : Text} (valid : validateHost host = .ok ()) :
    host ≠ [] ∧ '[' ∉ host ∧ ']' ∉ host ∧ ':' ∉ host ∧ '\\' ∉ host := by
  unfold validateHost at valid
  split at valid
  · cases valid
  next nonempty =>
  split at valid
  · cases valid
  next plain =>
  split at valid
  · cases valid
  next none =>
  rw [not_or, not_or] at plain
  refine ⟨nonempty, plain.1, plain.2.1, plain.2.2, fun member => ?_⟩
  exact List.find?_eq_none.mp none _ member (by decide)

theorem share_plain {share : Text} (valid : validateShare share = .ok ()) :
    share ≠ [] ∧ '\\' ∉ share := by
  unfold validateShare at valid
  split at valid
  · cases valid
  next nonempty =>
  split at valid
  · cases valid
  split at valid
  · cases valid
  next plain =>
  rw [not_or] at plain
  exact ⟨nonempty, plain.1⟩

namespace Server

theorem new_self (s : Server) : Server.new s.host s.port = .ok s := by
  unfold Server.new
  split
  · next refused => cases s.validHost.symm.trans refused
  · rw [dif_neg s.dialled]

/-- A server is parsed back from its text. -/
theorem fromStr_display (s : Server) : Server.fromStr s.display = .ok s := by
  obtain ⟨nonempty, opening, closing, colon, -⟩ := host_plain s.validHost
  obtain ⟨c, rest, host⟩ := List.exists_cons_of_ne_nil nonempty
  have head : s.host.head? ≠ some '[' := by
    rw [host]
    rintro ⟨⟩
    exact opening (by rw [host]; exact List.mem_cons_self)
  unfold display
  split
  · next default =>
      rw [fromStr, if_neg (not_or.mpr ⟨head, closing⟩), rsplitOnce_eq_none colon]
      dsimp only
      rw [← default, s.new_self]
      rfl
  · have start : (s.host ++ ':' :: decimal s.port.toNat).head? ≠ some '[' := by
      rw [host] at head ⊢
      exact head
    have closing' : ']' ∉ s.host ++ ':' :: decimal s.port.toNat := by
      simp [closing, not_mem_decimal s.port.toNat (by decide : toDigit ']' = none)]
    rw [fromStr, if_neg (not_or.mpr ⟨start, closing'⟩),
      rsplitOnce_append _ (not_mem_decimal _ (by decide))]
    dsimp only
    rw [if_neg colon, parsePort_decimal]
    dsimp only
    rw [s.new_self]
    rfl

theorem of_new {host : Text} {port : UInt16} {s : Server}
    (accepted : Server.new host port = .ok s) :
    s.host = host ∧ s.port = port := by
  unfold Server.new at accepted
  split at accepted
  · cases accepted
  · split at accepted
    · cases accepted
    · cases accepted
      exact ⟨rfl, rfl⟩

theorem of_mapError {α ε ε' : Type} {f : ε → ε'} {result : Except ε α} {value : α}
    (accepted : result.mapError f = .ok value) : result = .ok value := by
  cases result with
  | error error => cases accepted
  | ok value' =>
      cases accepted
      rfl

/-- What is parsed to a server is its host, or its host and a spelling of its port. -/
theorem of_fromStr {text : Text} {s : Server} (parsed : Server.fromStr text = .ok s) :
    (text = s.host ∧ s.port = DEFAULT_PORT) ∨
      ∃ port, text = s.host ++ ':' :: port ∧ parsePort port = some s.port := by
  have alone : ∀ {s : Server}, (Server.new text DEFAULT_PORT).mapError Unparsed.invalid = .ok s →
      text = s.host ∧ s.port = DEFAULT_PORT := by
    intro s accepted
    obtain ⟨host, port⟩ := of_new (of_mapError accepted)
    exact ⟨host.symm, port⟩
  unfold fromStr at parsed
  split at parsed
  · exact Or.inl (alone parsed)
  split at parsed
  · next host port split =>
      split at parsed
      · exact Or.inl (alone parsed)
      split at parsed
      · cases parsed
      next value spelled =>
      obtain ⟨host', port'⟩ := of_new (of_mapError parsed)
      exact Or.inr ⟨port, by rw [host', rsplitOnce_eq_some split], by rw [port', spelled]⟩
  · exact Or.inl (alone parsed)

theorem cacheKey_eq_iff (toLowercase : Text → Text) (s s' : Server) :
    s.cacheKey toLowercase = s'.cacheKey toLowercase ↔
      s.port = s'.port ∧ toLowercase s.host = toLowercase s'.host := by
  constructor
  · intro same
    have parts := congrArg (rsplitOnce ':') same
    unfold cacheKey at parts
    rw [rsplitOnce_append _ (not_mem_decimal _ (by decide)),
      rsplitOnce_append _ (not_mem_decimal _ (by decide))] at parts
    obtain ⟨host, port⟩ := Prod.mk.inj (Option.some.inj parts)
    exact ⟨UInt16.toNat_inj.mp (decimal_injective s.port.toNat_lt s'.port.toNat_lt port), host⟩
  · rintro ⟨port, host⟩
    rw [cacheKey, cacheKey, port, host]

end Server

namespace UncPath

theorem new_self (p : UncPath) : UncPath.new p.server p.share = .ok p := by
  unfold UncPath.new
  split
  · next refused => cases p.validShare.symm.trans refused
  · rfl

/-- A path is parsed back from its text. -/
theorem fromStr_display (p : UncPath) : UncPath.fromStr p.display = .ok p := by
  obtain ⟨-, -, -, -, separator⟩ := host_plain p.server.validHost
  obtain ⟨nonempty, plain⟩ := share_plain p.validShare
  have absent : '\\' ∉ p.server.display := by
    unfold Server.display
    split
    · exact separator
    · simp [separator, not_mem_decimal p.server.port.toNat (by decide : toDigit '\\' = none)]
  have kept : stripSuffix '\\' p.share = p.share := by
    rw [stripSuffix, if_neg]
    exact fun last => plain (List.mem_of_getLast? last)
  rw [display, fromStr, splitOnce_append absent]
  dsimp only
  rw [Server.fromStr_display]
  dsimp only
  rw [kept, p.new_self]
  rfl

theorem of_new {server : Server} {share : Text} {p : UncPath}
    (accepted : UncPath.new server share = .ok p) : p.server = server ∧ p.share = share := by
  unfold UncPath.new at accepted
  split at accepted
  · cases accepted
  · cases accepted
    exact ⟨rfl, rfl⟩

/-- What is parsed to a path is its server's text and its share, behind the one a separator or
not. -/
theorem of_fromStr {text : Text} {p : UncPath} (parsed : UncPath.fromStr text = .ok p) :
    ∃ server, Server.fromStr server = .ok p.server ∧
      (text = '\\' :: '\\' :: (server ++ '\\' :: p.share) ∨
        text = '\\' :: '\\' :: (server ++ '\\' :: (p.share ++ ['\\']))) := by
  unfold fromStr at parsed
  split at parsed
  case h_2 => cases parsed
  next rest =>
  split at parsed
  · cases parsed
  next server share split =>
  split at parsed
  · cases parsed
  next server' found =>
  obtain ⟨same, stripped⟩ := of_new (Server.of_mapError parsed)
  refine ⟨server, by rw [same, found], ?_⟩
  rw [splitOnce_eq_some split, stripped, stripSuffix]
  split
  · next last =>
      refine Or.inr ?_
      rw [List.dropLast_append_getLast? _ last]
  · exact Or.inl rfl

end UncPath

/-- **UNC text round-trips.** -/
theorem unc_text_round_trips (toLowercase : Text → Text) :
    (∀ s : Server, Server.fromStr s.display = .ok s) ∧
    (∀ p : UncPath, UncPath.fromStr p.display = .ok p) ∧
    (∀ text s, Server.fromStr text = .ok s →
      ((text = s.host ∧ s.port = DEFAULT_PORT) ∨
        ∃ port, text = s.host ++ ':' :: port ∧ parsePort port = some s.port) ∧
      Server.new s.host s.port = .ok s ∧ Server.fromStr s.display = .ok s) ∧
    (∀ text p, UncPath.fromStr text = .ok p →
      (∃ server, Server.fromStr server = .ok p.server ∧
        (text = '\\' :: '\\' :: (server ++ '\\' :: p.share) ∨
          text = '\\' :: '\\' :: (server ++ '\\' :: (p.share ++ ['\\'])))) ∧
      UncPath.new p.server p.share = .ok p ∧ UncPath.fromStr p.display = .ok p) ∧
    (∀ s s' : Server, s.host = s'.host → s.uncName = s'.uncName ∧ s.ipcPath = s'.ipcPath) ∧
    (∀ p p' : UncPath, p.server.host = p'.server.host → p.share = p'.share →
      p.sharePath = p'.sharePath ∧ p.server.ipcPath = p'.server.ipcPath ∧
        p.server.uncName = p'.server.uncName) ∧
    ∀ s s' : Server, s.cacheKey toLowercase = s'.cacheKey toLowercase ↔
      s.port = s'.port ∧ toLowercase s.host = toLowercase s'.host := by
  have names : ∀ s s' : Server, s.host = s'.host →
      s.uncName = s'.uncName ∧ s.ipcPath = s'.ipcPath := by
    intro s s' host
    have name : s.uncName = s'.uncName := by rw [Server.uncName, Server.uncName, host]
    exact ⟨name, by rw [Server.ipcPath, Server.ipcPath, Server.uncTo, Server.uncTo, name]⟩
  refine ⟨Server.fromStr_display, UncPath.fromStr_display,
    fun _ s parsed => ⟨Server.of_fromStr parsed, s.new_self, s.fromStr_display⟩,
    fun _ p parsed => ⟨UncPath.of_fromStr parsed, p.new_self, p.fromStr_display⟩, names, ?_,
    Server.cacheKey_eq_iff toLowercase⟩
  intro p p' host share
  obtain ⟨name, ipc⟩ := names p.server p'.server host
  exact ⟨by rw [UncPath.sharePath, UncPath.sharePath, Server.uncTo, Server.uncTo, name, share],
    ipc, name⟩

/-- The default port, spelled with a zero before it. -/
theorem unc_text_round_trips_padded :
    ∃ s, Server.fromStr ['h', ':', '0', '4', '4', '5'] = .ok s ∧
      Server.fromStr s.display = .ok s :=
  have parsed : Server.fromStr ['h', ':', '0', '4', '4', '5'] =
      .ok ⟨['h'], 445, rfl, by decide⟩ := rfl
  ⟨_, parsed, ((unc_text_round_trips id).2.2.1 _ _ parsed).2.2⟩

end Smb1Client
