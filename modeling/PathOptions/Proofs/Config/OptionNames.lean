import Mathlib.Data.List.TakeWhile
import Mathlib.Order.Basic
import PathOptions.Config.Options
import PathOptions.Proofs.Config.Readers
/-!
Names of options. A text in a list of options gives its option a usable name or is refused; a key
of a mapping becomes a name as it is, so that a key that is a text itself can be an unusable one,
but numbers, truth values and null cannot: they are written without white space.
-/

namespace PathOptions.Config

/-- A name that can be told from the text around it: there is something of it, and it has no white
space at its ends. -/
structure IsUsable (name : Text) : Prop where
  ne_nil : name ≠ []
  head : ∀ c ∈ name.head?, Text.isBlank c = false
  last : ∀ c ∈ name.getLast?, Text.isBlank c = false

/-! ## White space at the ends -/

theorem trim_of_isUsable {name : Text} (h : IsUsable name) : Text.trim name = name := by
  have hfront : name.dropWhile Text.isBlank = name := by
    cases name with
    | nil => rfl
    | cons c cs => simp [h.head c rfl]
  have hback : name.reverse.dropWhile Text.isBlank = name.reverse := by
    cases hname : name.reverse with
    | nil => rfl
    | cons c cs =>
      have hlast : name.getLast? = some c := by
        rw [← List.head?_reverse, hname]
        rfl
      simp [h.last c hlast]
  rw [Text.trim, Text.trimBy, hfront, hback, List.reverse_reverse]

theorem isUsable_trim {t : Text} (h : Text.trim t ≠ []) : IsUsable (Text.trim t) := by
  have hdrop : ∀ s : Text, ∀ c ∈ (s.dropWhile Text.isBlank).head?, Text.isBlank c = false := by
    intro s c hc
    have hhead := List.head?_dropWhile_not Text.isBlank s
    rw [hc] at hhead
    simpa using hhead
  obtain ⟨rest, hrest⟩ : Text.trim t <+: t.dropWhile Text.isBlank := by
    rw [← List.reverse_suffix, Text.trim, Text.trimBy, List.reverse_reverse]
    exact List.dropWhile_suffix _
  refine ⟨h, fun c hc => hdrop t c ?_, fun c hc => ?_⟩
  · rw [← hrest, List.head?_append_of_ne_nil _ h]
    exact hc
  · rw [Text.trim, Text.trimBy, List.getLast?_reverse] at hc
    exact hdrop _ c hc

theorem trim_eq_nil_iff (t : Text) : Text.trim t = [] ↔ ∀ c ∈ t, Text.isBlank c = true := by
  rw [Text.trim, Text.trimBy, List.reverse_eq_nil_iff, List.dropWhile_eq_nil_iff]
  simp only [List.mem_reverse]
  constructor
  · intro h
    by_contra hnot
    rw [← List.dropWhile_eq_nil_iff] at hnot
    have hhead := List.head_dropWhile_not Text.isBlank hnot
    rw [h _ (List.head_mem hnot)] at hhead
    cases hhead
  · exact fun h c hc => h c ((List.dropWhile_suffix _).subset hc)

/-! ## Keys -/

/-- Whether a character leaves a mark and is not beyond ASCII. -/
def isVisible (c : Char) : Bool := 33 ≤ c.toNat && c.toNat ≤ 126

theorem not_isBlank_of_isVisible {c : Char} (h : isVisible c = true) : Text.isBlank c = false := by
  simp only [isVisible, Bool.and_eq_true, decide_eq_true_eq] at h
  simp only [Text.isBlank, Bool.or_eq_false_iff, Bool.and_eq_false_iff, decide_eq_false_iff_not,
    beq_eq_false_iff_ne]
  omega

theorem isUsable_of_all_isVisible {name : Text} (hne : name ≠ []) (h : name.all isVisible = true) :
    IsUsable name := by
  have hblank : ∀ c ∈ name, Text.isBlank c = false := fun c hc =>
    not_isBlank_of_isVisible (List.all_eq_true.1 h c hc)
  exact ⟨hne, fun c hc => hblank c (List.mem_of_mem_head? hc),
    fun c hc => hblank c (List.mem_of_mem_getLast? hc)⟩

theorem all_isVisible_toDigits (n : Nat) : (Nat.toDigits 10 n).all isVisible = true := by
  refine List.all_eq_true.2 fun c hc => ?_
  have hdigit := Nat.isDigit_of_mem_toDigits (by decide) (by decide) hc
  obtain ⟨hlow, hhigh⟩ := Char.isDigit_iff_toNat.1 hdigit
  simp only [isVisible, Bool.and_eq_true, decide_eq_true_eq]
  exact ⟨le_trans (by decide) hlow, le_trans hhigh (by decide)⟩

theorem isUsable_decimal (i : Int) : IsUsable (Text.decimal i) := by
  cases i with
  | ofNat n => exact isUsable_of_all_isVisible Nat.toDigits_ne_nil (all_isVisible_toDigits n)
  | negSucc n =>
    have hdigits := all_isVisible_toDigits (n + 1)
    exact isUsable_of_all_isVisible (List.cons_ne_nil _ _)
      (List.all_cons.trans (Bool.and_eq_true_iff.2 ⟨rfl, hdigits⟩))

theorem arrange_ne_nil (layout : Binary64.Layout) (digits : Text) (place : Int) :
    layout.arrange digits place ≠ [] := by
  simp only [Binary64.Layout.arrange]
  split_ifs <;> simp

/-- Digits laid out as a number stay visible. -/
theorem all_isVisible_arrange (layout : Binary64.Layout) {digits : Text} (place : Int)
    (h : digits.all isVisible = true) : (layout.arrange digits place).all isVisible = true := by
  have hpart : ∀ part : Text, part.Sublist digits → part.all isVisible = true := fun part hpart =>
    List.all_eq_true.2 fun c hc => List.all_eq_true.1 h c (hpart.subset hc)
  have hzeros : ∀ n, (List.replicate n '0').all isVisible = true := fun n =>
    List.all_eq_true.2 fun c hc => List.eq_of_mem_replicate hc ▸ rfl
  have hpointed : ∀ d e rest, digits = d :: e :: rest →
      (d :: '.' :: e :: rest).all isVisible = true := by
    intro d e rest hdigits
    rw [hdigits] at h
    simpa [isVisible] using h
  simp only [Binary64.Layout.arrange]
  split_ifs <;>
    simp only [List.all_append, List.all_cons, List.all_nil, hzeros, all_isVisible_toDigits, h,
      hpart _ (List.take_sublist _ _), hpart _ (List.drop_sublist _ _)]
  · refine Bool.and_eq_true_iff.2 ⟨?_, rfl⟩
    split
    · exact hpointed _ _ _ rfl
    · exact h
  · refine Bool.and_eq_true_iff.2 ⟨?_, rfl⟩
    split
    · exact hpointed _ _ _ rfl
    · exact h
  · rfl
  · rfl
  · rfl

/-- A visible text stays usable with a minus sign in front. -/
theorem isUsable_signed (negative : Bool) {t : Text} (hne : t ≠ [])
    (h : t.all isVisible = true) : IsUsable ((if negative then ['-'] else []) ++ t) := by
  refine isUsable_of_all_isVisible (List.append_ne_nil_of_right_ne_nil _ hne) ?_
  rw [List.all_append, h]
  cases negative <;> rfl

theorem isUsable_real (layout : Binary64.Layout) (x : Binary64) : IsUsable (layout.text x) := by
  cases x with
  | nan => exact isUsable_of_all_isVisible (List.cons_ne_nil _ _) rfl
  | infinite negative => exact isUsable_signed negative (List.cons_ne_nil _ _) rfl
  | finite negative significand exponent =>
    by_cases hzero : significand = 0
    · rw [Binary64.Layout.text, if_pos hzero]
      exact isUsable_signed negative (List.cons_ne_nil _ _) rfl
    · rw [Binary64.Layout.text, if_neg hzero]
      exact isUsable_signed negative (arrange_ne_nil _ _ _)
        (all_isVisible_arrange _ _ (all_isVisible_toDigits _))

/-- The name that a key gives: numbers, truth values and null cannot give an unusable one. -/
theorem isUsable_plain_iff (key : Scalar) :
    IsUsable key.plain ↔
      ∀ t, key = .text t ∨ key = .date t ∨ (∃ value, key = .other value ∧ value.plain = t) →
        IsUsable t := by
  cases key with
  | text t => simp [Scalar.plain]
  | date t => simp [Scalar.plain]
  | other value => simp [Scalar.plain]
  | null => exact iff_of_true (isUsable_of_all_isVisible (List.cons_ne_nil _ _) rfl) (by simp)
  | int i => exact iff_of_true (isUsable_decimal i) (by simp)
  | real x => exact iff_of_true (isUsable_real realLayout x) (by simp)
  | bool b =>
    refine iff_of_true ?_ (by simp)
    cases b
    · exact isUsable_of_all_isVisible (List.cons_ne_nil _ _) rfl
    · exact isUsable_of_all_isVisible (List.cons_ne_nil _ _) rfl

/-! ## Options -/

def keysOf (value : Value) : List Scalar :=
  match value.exposed with
  | .map entries => entries.map Prod.fst
  | _ => []

/-- The keys that become names of options: those of one mapping, or of the mappings in a list. -/
def nameKeys (options : Value) : List Scalar :=
  match options.exposed with
  | .map entries => entries.map Prod.fst
  | .list items => items.flatMap keysOf
  | _ => []

/-- The faults that options are refused for; each of them names the profile. -/
inductive RefusesOptions (profile : Text) : Error → Prop
  | notCollection : RefusesOptions profile (.optionsNotCollection profile)
  | emptyName (entry : Text) : RefusesOptions profile (.emptyOptionName profile entry)
  | invalid (entry : Value) : RefusesOptions profile (.invalidOption profile entry)

/-- The form of an entry in a list of options: a text with more than white space before its first
equals sign, or a mapping with one entry. -/
def IsEntry (entry : Value) : Prop :=
  (∃ t, entry.exposed = .text t ∧ ¬ ∀ c ∈ (Text.cutFirst '=' t).1, Text.isBlank c = true) ∨
    ∃ key value, entry.exposed = .map [(key, value)]

/-- The form of options: none at all, a mapping, or a list of entries. -/
def IsOptions (options : Value) : Prop :=
  options.exposed = .null ∨ (∃ entries, options.exposed = .map entries) ∨
    ∃ items, options.exposed = .list items ∧ ∀ entry ∈ items, IsEntry entry

/-- All that reading an entry of a list can do. -/
theorem readOption_cases (profile : Text) (entry : Value) :
    (∃ t, entry.exposed = .text t ∧ readOption profile entry =
      if Text.trim (Text.cutFirst '=' t).1 = [] then .error (.emptyOptionName profile t)
      else .ok (Text.trim (Text.cutFirst '=' t).1,
        (Text.cutFirst '=' t).2.getD ['y', 'e', 's'])) ∨
    (∃ key value, entry.exposed = .map [(key, value)] ∧
      readOption profile entry = .ok (key.plain, optionText value)) ∨
    ¬ IsEntry entry ∧ readOption profile entry = .error (.invalidOption profile entry) := by
  unfold readOption
  split
  · exact .inl ⟨_, ‹_›, rfl⟩
  · exact .inr (.inl ⟨_, _, ‹_›, rfl⟩)
  · rename_i htext hpair
    refine .inr (.inr ⟨?_, rfl⟩)
    rintro (⟨t, ht, -⟩ | ⟨key, value, hentry⟩)
    · exact htext t ht
    · exact hpair key value hentry

theorem readOption_isOk_iff (profile : Text) (entry : Value) :
    (∃ option, readOption profile entry = .ok option) ↔ IsEntry entry := by
  rcases readOption_cases profile entry with
    ⟨t, hexposed, hread⟩ | ⟨key, value, hexposed, hread⟩ | ⟨hentry, hread⟩
  · simp only [hread, IsEntry, hexposed, ← trim_eq_nil_iff]
    split_ifs with hempty <;> simp [hempty]
  · exact iff_of_true ⟨_, hread⟩ (.inr ⟨key, value, hexposed⟩)
  · exact iff_of_false (by simp [hread]) hentry

/-- The name of an option that is read from a list is usable, unless it is an unusable key. -/
theorem isUsable_of_readOption {profile : Text} {entry : Value} {option : Assignment}
    (h : readOption profile entry = .ok option) :
    IsUsable option.1 ↔ ∀ key ∈ keysOf entry, IsUsable key.plain := by
  unfold keysOf
  rcases readOption_cases profile entry with
    ⟨t, hexposed, hread⟩ | ⟨key, value, hexposed, hread⟩ | ⟨-, hread⟩
  · rw [hread] at h
    split_ifs at h with hempty
    cases h
    simpa [hexposed] using isUsable_trim hempty
  · rw [hread] at h
    cases h
    simp [hexposed]
  · rw [hread] at h
    cases h

theorem refuses_of_readOption {profile : Text} {entry : Value} {fault : Error}
    (h : readOption profile entry = .error fault) : RefusesOptions profile fault := by
  rcases readOption_cases profile entry with
    ⟨t, -, hread⟩ | ⟨key, value, -, hread⟩ | ⟨-, hread⟩
  · rw [hread] at h
    split_ifs at h
    cases h
    exact .emptyName t
  · rw [hread] at h
    cases h
  · rw [hread] at h
    cases h
    exact .invalid entry

theorem readOptions_isOk_iff (profile : Text) (options : Value) :
    (∃ assignments, readOptions profile options = .ok assignments) ↔ IsOptions options := by
  unfold readOptions IsOptions
  split
  · rename_i hnull
    simp [hnull]
  · rename_i entries hmap
    simp [hmap]
  · rename_i items hlist
    simp only [mapM_isOk_iff, readOption_isOk_iff]
    simp [hlist]
  · rename_i hnull hmap hlist
    simp only [reduceCtorEq, exists_false, false_iff, not_or, not_exists]
    exact ⟨hnull, hmap, fun items hitems => hlist items hitems.1⟩

/-- The names that are read are usable if the keys are. -/
theorem isUsable_of_readOptions {profile : Text} {options : Value} {assignments : List Assignment}
    (h : readOptions profile options = .ok assignments) :
    (∀ option ∈ assignments, IsUsable option.1) ↔
      ∀ key ∈ nameKeys options, IsUsable key.plain := by
  unfold readOptions at h
  unfold nameKeys
  split at h
  · rename_i hexposed
    cases h
    simp [hexposed]
  · rename_i entries hexposed
    cases h
    simp only [hexposed, List.forall_mem_map]
  · rename_i items hexposed
    have hread := mapM_eq_ok_iff.1 h
    simp only [hexposed]
    clear h hexposed
    induction hread with
    | nil => simp
    | cons hitem _ ih =>
      rw [List.forall_mem_cons, List.flatMap_cons, List.forall_mem_append]
      exact and_congr (isUsable_of_readOption hitem) ih
  · cases h

theorem refuses_of_readOptions {profile : Text} {options : Value} {fault : Error}
    (h : readOptions profile options = .error fault) : RefusesOptions profile fault := by
  unfold readOptions at h
  split at h
  · cases h
  · cases h
  · obtain ⟨entry, -, hentry⟩ := exists_of_mapM_eq_error h
    exact refuses_of_readOption hentry
  · cases h
    exact .notCollection

/-- Options of the right form are read; their names are usable exactly if every key of a mapping
is usable as it is written, if it is a text, a date or a value of a type that is not asked for.
Other options are refused with a fault that names the profile. -/
theorem option_names_usable_iff (profile : Text) (options : Value) :
    (IsOptions options ∧ ∃ assignments, readOptions profile options = .ok assignments ∧
      ((∀ option ∈ assignments, IsUsable option.1) ↔
        ∀ t, .text t ∈ nameKeys options ∨ .date t ∈ nameKeys options ∨
          (∃ value, .other value ∈ nameKeys options ∧ value.plain = t) → IsUsable t)) ∨
    ¬ IsOptions options ∧
      ∃ fault, readOptions profile options = .error fault ∧ RefusesOptions profile fault := by
  rw [← readOptions_isOk_iff profile options]
  cases hread : readOptions profile options with
  | error fault => exact .inr ⟨by simp, fault, rfl, refuses_of_readOptions hread⟩
  | ok assignments =>
    refine .inl ⟨⟨_, rfl⟩, assignments, rfl, (isUsable_of_readOptions hread).trans ?_⟩
    simp only [isUsable_plain_iff]
    constructor
    · intro h t hkey
      rcases hkey with ht | ht | ⟨value, hvalue, heq⟩
      · exact h _ ht t (.inl rfl)
      · exact h _ ht t (.inr (.inl rfl))
      · exact h _ hvalue t (.inr (.inr ⟨value, rfl, heq⟩))
    · intro h key hkey t ht
      rcases ht with rfl | rfl | ⟨value, rfl, heq⟩
      · exact h t (.inl hkey)
      · exact h t (.inr (.inl hkey))
      · exact h t (.inr (.inr ⟨value, hkey, heq⟩))

/-- A key of a mapping is taken as it is: a name is empty here, and the next one begins with a
space. -/
theorem unusable_names_of_mappings :
    ∃ assignments, readOptions ['p'] (.list [.map [(.text [], .text ['x'])],
        .map [(.text [' ', 'a'], .text ['x'])]]) = .ok assignments ∧
      ∀ option ∈ assignments, ¬ IsUsable option.1 := by
  refine ⟨[([], ['x']), ([' ', 'a'], ['x'])], rfl, ?_⟩
  simp only [List.forall_mem_cons]
  refine ⟨fun h => h.ne_nil rfl, fun h => ?_, by simp⟩
  cases h.head ' ' rfl

end PathOptions.Config
