import Smb1Client.Unc

/-!
Share-relative paths do not leave the share.

`escapesShareRoot` walks the components with a depth. `Confined` says the same of the components
alone: at no place do more of them climb than go down. What is confined stays so behind any
components that are confined themselves, which is the law for names joined onto a prefix.
-/

namespace Smb1Client

/-! ## Components -/

/-- The component that climbs. -/
def PARENT : Text := ['.', '.']

def components (path : Text) : List Text := path.splitOn '\\'

/-- A component that goes one level down. -/
def isName (component : Text) : Bool := component ≠ [] && component ≠ ['.'] && component ≠ PARENT

/-- At every place, no more components climb than have gone down, from `depth` levels below the
root. -/
def Within (depth : ℕ) (parts : List Text) : Prop :=
  ∀ front, front <+: parts → front.count PARENT ≤ depth + front.countP isName

/-- Resolving a path never passes above the share root. -/
def Confined (path : Text) : Prop := Within 0 (components path)

variable {depth : ℕ} {parts parts' : List Text} {part : Text}

theorem within_nil : Within depth [] := by
  intro front fits
  rw [List.prefix_nil.mp fits]
  exact Nat.zero_le _

theorem within_cons : Within depth (part :: parts) ↔
    ∀ front, front <+: parts →
      (part :: front).count PARENT ≤ depth + (part :: front).countP isName := by
  constructor
  · exact fun within front fits => within _ (List.prefix_cons_inj part |>.mpr fits)
  · intro within front fits
    cases front with
    | nil => exact Nat.zero_le _
    | cons first front =>
        obtain ⟨rfl, behind⟩ := List.cons_prefix_cons.mp fits
        exact within front behind

/-- A component that names nothing adds no depth. -/
theorem within_cons_still (still : part = [] ∨ part = ['.']) :
    Within depth (part :: parts) ↔ Within depth parts := by
  have climbs : part ≠ PARENT := by rcases still with rfl | rfl <;> decide
  have goes : ¬ isName part = true := by rcases still with rfl | rfl <;> decide
  rw [within_cons]
  refine forall₂_congr fun front _ => ?_
  rw [List.count_cons_of_ne climbs, List.countP_cons_of_neg goes]

theorem within_cons_parent :
    Within depth (PARENT :: parts) ↔ 0 < depth ∧ Within (depth - 1) parts := by
  have goes : ¬ isName PARENT = true := by decide
  rw [within_cons]
  simp only [List.count_cons_self, List.countP_cons_of_neg goes]
  constructor
  · intro within
    have here := within [] List.nil_prefix
    rw [List.count_nil, List.countP_nil] at here
    refine ⟨by omega, fun front fits => ?_⟩
    have := within front fits
    omega
  · rintro ⟨positive, within⟩ front fits
    have := within front fits
    omega

theorem within_cons_name (named : isName part = true) :
    Within depth (part :: parts) ↔ Within (depth + 1) parts := by
  have climbs : part ≠ PARENT := by
    rintro rfl
    exact absurd named (by decide)
  rw [within_cons]
  refine forall₂_congr fun front _ => ?_
  rw [List.count_cons_of_ne climbs, List.countP_cons_of_pos named]
  omega

/-- The walk of the source is the count of the components. -/
theorem escapesFrom_eq_false_iff : escapesFrom depth parts = false ↔ Within depth parts := by
  induction parts generalizing depth with
  | nil => exact iff_of_true rfl within_nil
  | cons part parts ih =>
      unfold escapesFrom
      by_cases still : part = [] ∨ part = ['.']
      · rw [if_pos still, ih, within_cons_still still]
      rw [if_neg still]
      by_cases parent : part = ['.', '.']
      · rw [if_pos parent]
        obtain rfl : part = PARENT := parent
        rw [within_cons_parent]
        cases depth with
        | zero => exact iff_of_false Bool.noConfusion fun climbs => Nat.lt_irrefl 0 climbs.1
        | succ shallower => exact ih.trans (iff_and_self.mpr fun _ => Nat.succ_pos shallower)
      · have named : isName part = true := by
          rw [not_or] at still
          simp [isName, PARENT, still, parent]
        rw [if_neg parent, ih, within_cons_name named]

theorem escapesShareRoot_eq_false_iff {path : Text} :
    escapesShareRoot path = false ↔ Confined path :=
  escapesFrom_eq_false_iff

/-- What is within its own root is within any place behind what is. -/
theorem Within.append (within : Within depth parts) (within' : Within 0 parts') :
    Within depth (parts ++ parts') := by
  rintro front ⟨tail, joined⟩
  rcases List.append_eq_append_iff.mp joined with ⟨rest, before, -⟩ | ⟨rest, rfl, behind⟩
  · exact within front ⟨rest, before.symm⟩
  · have first := within parts (List.prefix_refl parts)
    have then_ := within' rest ⟨tail, behind.symm⟩
    rw [List.count_append, List.countP_append]
    omega

/-- A longer first component goes down where the shorter one did not climb. -/
theorem Within.lengthen {front : Text} (within : Within 0 (part :: parts))
    (named : isName (front ++ part) = true) : Within 0 ((front ++ part) :: parts) := by
  rw [within_cons_name named]
  by_cases still : part = [] ∨ part = ['.']
  · rw [within_cons_still still] at within
    intro front fits
    have := within front fits
    omega
  by_cases parent : part = PARENT
  · rw [parent, within_cons_parent] at within
    exact absurd within.1 (Nat.lt_irrefl 0)
  · rw [not_or] at still
    have named : isName part = true := by simp [isName, still, parent]
    rwa [within_cons_name named] at within

/-! ## Whitespace at the ends -/

/-- `str::trim_end`. -/
def trimEnd (text : Text) : Text := (text.reverse.dropWhile isWhitespace).reverse

/-- What `/` is rewritten to. -/
def separated (text : Text) : Text := text.map fun c => if c = '/' then '\\' else c

theorem normalize_eq (path : Text) : normalize path = separated (trim path) := rfl

theorem trimEnd_append (front back : Text) :
    trimEnd (front ++ back) =
      if trimEnd back = [] then trimEnd front else front ++ trimEnd back := by
  unfold trimEnd
  rw [List.reverse_append, List.dropWhile_append]
  by_cases gone : back.reverse.dropWhile isWhitespace = []
  · rw [gone, List.isEmpty_nil, if_pos rfl, List.reverse_nil, if_pos rfl]
  · rw [if_neg (by simpa using gone), if_neg (by simpa using gone), List.reverse_append,
      List.reverse_reverse]

theorem trimEnd_eq_nil {text : Text} (blank : ∀ c ∈ text, isWhitespace c = true) :
    trimEnd text = [] := by
  rw [trimEnd, List.dropWhile_eq_nil_iff.mpr, List.reverse_nil]
  exact fun c member => blank c (List.mem_reverse.mp member)

/-- Trimmed at the end only, a text is its trimmed form behind some whitespace. -/
theorem trimEnd_eq (text : Text) :
    ∃ blank, (∀ c ∈ blank, isWhitespace c = true) ∧ trimEnd text = blank ++ trim text := by
  have blank : ∀ c ∈ text.takeWhile isWhitespace, isWhitespace c = true :=
    fun c member => List.mem_takeWhile_imp member
  have whole : trimEnd text =
      trimEnd (text.takeWhile isWhitespace ++ text.dropWhile isWhitespace) := by
    rw [List.takeWhile_append_dropWhile]
  rw [trimEnd_append] at whole
  by_cases gone : trimEnd (text.dropWhile isWhitespace) = []
  · refine ⟨[], fun c no => absurd no List.not_mem_nil, ?_⟩
    rw [whole, if_pos gone, trimEnd_eq_nil blank]
    exact gone.symm
  · rw [if_neg gone] at whole
    exact ⟨_, blank, whole⟩

/-! ## Names joined onto a prefix -/

theorem trim_join {front : Text} (nonempty : front ≠ []) (trimmed : Trimmed front) (back : Text) :
    trim (front ++ '\\' :: back) = front ++ '\\' :: trimEnd back := by
  obtain ⟨c, rest, rfl⟩ := List.exists_cons_of_ne_nil nonempty
  have head := trimmed.1 c rfl
  have start : (c :: rest ++ '\\' :: back).dropWhile isWhitespace = c :: rest ++ '\\' :: back :=
    List.dropWhile_cons_of_neg (by rw [head]; exact Bool.false_ne_true)
  have stop : trimEnd ['\\'] = ['\\'] := by decide
  have last : trimEnd ('\\' :: back) = '\\' :: trimEnd back := by
    rw [← List.singleton_append, trimEnd_append, stop]
    split
    · next gone => rw [gone]
    · rfl
  rw [trim, start]
  change trimEnd _ = _
  rw [trimEnd_append, last, if_neg (List.cons_ne_nil _ _)]

theorem normalize_join {p : SharePath} {path : Text} (accepted : SharePath.new path = .ok p)
    (nonempty : p.text ≠ []) (back : Text) :
    ∃ blank, (∀ c ∈ blank, isWhitespace c = true) ∧
      normalize (p.text ++ '\\' :: back) = p.text ++ '\\' :: (blank ++ normalize back) := by
  have normal := SharePath.text_of_new accepted
  have trimmed : Trimmed p.text := normal ▸ trimmed_normalize path
  obtain ⟨blank, white, behind⟩ := trimEnd_eq back
  have kept : separated p.text = p.text := by
    have fixed := normalize_normalize path
    rwa [← normal, normalize_eq, trim_of_trimmed trimmed] at fixed
  have kept' : separated blank = blank := by
    refine (List.map_congr_left fun c member => if_neg ?_).trans (List.map_id _)
    rintro rfl
    exact absurd (white '/' member) (by decide)
  refine ⟨blank, white, ?_⟩
  rw [normalize_eq, trim_join nonempty trimmed, behind, normalize_eq]
  unfold separated at kept kept' ⊢
  rw [List.map_append, List.map_cons, List.map_append, kept, kept']
  rfl

theorem components_append {front path : Text} (within : '\\' ∉ front) :
    components (front ++ path) = (components path).modifyHead (front ++ ·) := by
  induction front with
  | nil => exact (congrFun List.modifyHead_id _).symm
  | cons c front ih =>
      rw [List.mem_cons, not_or] at within
      have behind := ih within.2
      unfold components at behind ⊢
      rw [List.cons_append, List.splitOn_cons_eq_if_modifyHead,
        if_neg (by simpa using Ne.symm within.1), behind, List.modifyHead_modifyHead]
      rfl

/-- Behind whitespace, the first component is a name. -/
theorem Confined.behind {blank path : Text} (confined : Confined path)
    (white : ∀ c ∈ blank, isWhitespace c = true) : Confined (blank ++ path) := by
  cases blank with
  | nil => exact confined
  | cons c blank =>
      have within : '\\' ∉ c :: blank := fun member => absurd (white _ member) (by decide)
      have dotted : c ≠ '.' := by
        rintro rfl
        exact absurd (white '.' List.mem_cons_self) (by decide)
      obtain ⟨first, parts, split⟩ := List.exists_cons_of_ne_nil (List.splitOn_ne_nil '\\' path)
      rw [Confined, components_append within]
      rw [Confined] at confined
      unfold components at confined ⊢
      rw [split] at confined ⊢
      have named : isName (c :: blank ++ first) = true := by
        simp [isName, PARENT, dotted]
      exact confined.lengthen named

/-- What the constructor accepts. -/
theorem new_isOk_iff {path : Text} :
    (∃ p, SharePath.new path = .ok p) ↔ '\x00' ∉ normalize path ∧
      (normalize path).head? ≠ some '\\' ∧ Confined (normalize path) := by
  rw [← escapesShareRoot_eq_false_iff]
  unfold SharePath.new
  dsimp only
  constructor
  · rintro ⟨p, accepted⟩
    split at accepted
    · cases accepted
    next null =>
    split at accepted
    · cases accepted
    next absolute =>
    split at accepted
    · cases accepted
    next escapes => exact ⟨null, absolute, Bool.eq_false_iff.mpr escapes⟩
  · rintro ⟨null, absolute, confined⟩
    rw [dif_neg null, dif_neg absolute, dif_neg (Bool.eq_false_iff.mp confined)]
    exact ⟨_, rfl⟩

/-- **Share paths cannot leave the share.** -/
theorem share_paths_stay_inside (path : Text) :
    ((∃ p, SharePath.new path = .ok p) ↔ '\x00' ∉ normalize path ∧
      (normalize path).head? ≠ some '\\' ∧ Confined (normalize path)) ∧
    ∀ p, SharePath.new path = .ok p → p.text = normalize path ∧ SharePath.new p.text = .ok p ∧
      (p.text ≠ [] → ∀ user : Text,
        (∀ q, SharePath.new (p.text ++ '\\' :: user) = .ok q → Confined q.text) ∧
        ((∃ q, SharePath.new user = .ok q) →
          ∃ q, SharePath.new (p.text ++ '\\' :: user) = .ok q)) := by
  refine ⟨new_isOk_iff, fun p accepted => ?_⟩
  have normal := SharePath.text_of_new accepted
  refine ⟨normal, ?_, fun nonempty user => ⟨fun q _ => ?_, fun accepts => ?_⟩⟩
  · obtain ⟨null, absolute, confined⟩ := new_isOk_iff.mp ⟨p, accepted⟩
    have again : ∃ q, SharePath.new p.text = .ok q := by
      rw [new_isOk_iff, normal, normalize_normalize]
      exact ⟨null, absolute, confined⟩
    obtain ⟨q, accepted'⟩ := again
    have same : q.text = p.text := by
      rw [SharePath.text_of_new accepted', normal, normalize_normalize]
    rw [accepted']
    obtain ⟨text, _, _, _⟩ := p
    obtain ⟨text', _, _, _⟩ := q
    obtain rfl : text' = text := same
    rfl
  · exact escapesShareRoot_eq_false_iff.mp q.confined
  · obtain ⟨null, -, confined⟩ := new_isOk_iff.mp accepts
    obtain ⟨blank, white, joined⟩ := normalize_join accepted nonempty user
    obtain ⟨c, rest, front⟩ := List.exists_cons_of_ne_nil nonempty
    refine new_isOk_iff.mpr ?_
    rw [joined]
    refine ⟨?_, ?_, ?_⟩
    · simp only [List.mem_append, List.mem_cons, not_or]
      refine ⟨p.noNull, by decide, fun member => ?_, null⟩
      exact absurd (white _ member) (by decide)
    · have relative := p.relative
      rw [front] at relative ⊢
      exact relative
    · rw [Confined, components, List.splitOn_append_cons_self]
      exact (escapesShareRoot_eq_false_iff.mp p.confined).append
        (confined.behind white)

/-- A name with a space before it is joined onto a directory. -/
theorem share_paths_stay_inside_joined :
    ∃ p, SharePath.new ['d', ' '] = .ok p ∧
      ∃ q, SharePath.new (p.text ++ '\\' :: [' ', 'f']) = .ok q :=
  ⟨_, rfl, (((share_paths_stay_inside ['d', ' ']).2 _ rfl).2.2 (List.cons_ne_nil _ _) _).2 ⟨_, rfl⟩⟩

end Smb1Client
