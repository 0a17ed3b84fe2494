import Mathlib.Data.List.Induction
import PathOptions.Proofs.Config.OptionNames
/-!
The ways to write options. A text with an equals sign, a mapping with one entry and, if no name
comes twice, an entry of one mapping all give the same option, whatever text its value is.
-/

namespace PathOptions.Config

/-- A name that every way of writing options can hold. -/
structure OptionName where
  text : Text
  isUsable : IsUsable text
  no_equals : '=' ∉ text

structure WrittenOption where
  name : OptionName
  value : Text

namespace WrittenOption

def assignment (option : WrittenOption) : Assignment := (option.name.text, option.value)

def entry (option : WrittenOption) : Scalar × Value := (.text option.name.text, .text option.value)

def inText (option : WrittenOption) : Value := .text (option.name.text ++ '=' :: option.value)

def inMapping (option : WrittenOption) : Value := .map [option.entry]

/-- The two ways to write an option in a list. -/
inductive Spells (option : WrittenOption) : Value → Prop
  | text : Spells option option.inText
  | mapping : Spells option option.inMapping

/-- One mapping with all options, made entry by entry. -/
def mappingOf (options : List WrittenOption) : Value :=
  .map (Value.ofEntries Scalar.sameKey (options.map entry))

end WrittenOption

theorem cutFirst_append {sep : Char} {left : Text} (h : sep ∉ left) (right : Text) :
    Text.cutFirst sep (left ++ sep :: right) = (left, some right) := by
  induction left with
  | nil => simp [Text.cutFirst]
  | cons c cs ih =>
    rw [List.mem_cons, not_or] at h
    simp [Text.cutFirst, Ne.symm h.1, ih h.2]

theorem readOption_of_spells (profile : Text) {option : WrittenOption} {item : Value}
    (h : option.Spells item) : readOption profile item = .ok option.assignment := by
  cases h with
  | mapping => rfl
  | text =>
    simp only [WrittenOption.inText, readOption, Value.exposed_scalar,
      cutFirst_append option.name.no_equals, trim_of_isUsable option.name.isUsable,
      if_neg option.name.isUsable.ne_nil]
    rfl

/-! ## Mappings -/

theorem put_of_absent {α : Type} {same : Scalar → Scalar → Bool} {entries : List (Scalar × α)}
    {key : Scalar} (h : ∀ entry ∈ entries, same entry.1 key = false) (value : α) :
    Value.put same entries key value = entries ++ [(key, value)] := by
  induction entries with
  | nil => rfl
  | cons entry rest ih =>
    obtain ⟨hentry, hrest⟩ := List.forall_mem_cons.1 h
    simp [Value.put, hentry, ih hrest]

/-- Entries with different keys are the mapping that arises from them. -/
theorem ofEntries_of_pairwise {same : Scalar → Scalar → Bool} {entries : List (Scalar × Value)}
    (h : entries.Pairwise fun a b => same a.1 b.1 = false) :
    Value.ofEntries same entries = entries := by
  induction entries using List.reverseRecOn with
  | nil => rfl
  | append_singleton entries entry ih =>
    obtain ⟨hentries, -, hlast⟩ := List.pairwise_append.1 h
    have habsent : ∀ other ∈ entries, same other.1 entry.1 = false := fun other hother =>
      hlast other hother entry (.head _)
    rw [Value.ofEntries, List.foldl_append, ← Value.ofEntries, ih hentries]
    exact put_of_absent habsent entry.2

theorem sameKey_text (s t : Text) : Scalar.sameKey (.text s) (.text t) = decide (s = t) := by
  have hreal : (Scalar.text s != .real .nan) = true := by simp
  rw [Scalar.sameKey]
  simp only [Scalar.toInt?, hreal, Bool.and_true]
  rw [Bool.eq_iff_iff, beq_iff_eq, decide_eq_true_eq, Scalar.text.injEq]

theorem readOptions_mappingOf (profile : Text) {options : List WrittenOption}
    (h : (options.map (·.name.text)).Nodup) :
    readOptions profile (WrittenOption.mappingOf options) =
      .ok (options.map WrittenOption.assignment) := by
  have hkeys : (options.map WrittenOption.entry).Pairwise
      fun a b => Scalar.sameKey a.1 b.1 = false := by
    rw [List.Nodup, List.pairwise_map] at h
    rw [List.pairwise_map]
    refine h.imp fun {a b} hne => ?_
    rw [WrittenOption.entry, WrittenOption.entry, sameKey_text]
    exact decide_eq_false hne
  rw [WrittenOption.mappingOf, ofEntries_of_pairwise hkeys]
  simp only [readOptions, Value.exposed_map, List.map_map]
  rfl

/-! ## All ways to write options -/

theorem readOptions_of_forall₂ (profile : Text) {options : List WrittenOption}
    {items : List Value} (h : List.Forall₂ WrittenOption.Spells options items) :
    readOptions profile (.list items) = .ok (options.map WrittenOption.assignment) := by
  refine mapM_eq_ok_iff.2 ?_
  induction h with
  | nil => exact .nil
  | cons hitem _ ih => exact .cons (readOption_of_spells profile hitem) ih

/-- Options are read as they were written, in order and with those that come twice: from a list of
texts, from a list of mappings, from a list in which each is written in one of the two ways, and
from one mapping if no name comes twice. -/
theorem readOptions_of_spellings (profile : Text) (options : List WrittenOption) :
    let assignments := options.map WrittenOption.assignment
    readOptions profile (.list (options.map WrittenOption.inText)) = .ok assignments ∧
    readOptions profile (.list (options.map WrittenOption.inMapping)) = .ok assignments ∧
    (∀ items, List.Forall₂ WrittenOption.Spells options items →
      readOptions profile (.list items) = .ok assignments) ∧
    ((options.map (·.name.text)).Nodup →
      readOptions profile (WrittenOption.mappingOf options) = .ok assignments) := by
  refine ⟨readOptions_of_forall₂ profile ?_, readOptions_of_forall₂ profile ?_,
    fun items hitems => readOptions_of_forall₂ profile hitems, readOptions_mappingOf profile⟩
  · exact List.forall₂_map_right_iff.2 (List.forall₂_same.2 fun option _ => .text)
  · exact List.forall₂_map_right_iff.2 (List.forall₂_same.2 fun option _ => .mapping)

/-- Three options in a list, two of them with one name; and two options in one mapping. The first
value consists of an equals sign and a space. -/
theorem readOptions_of_spellings_mixed :
    readOptions ['p'] (.list [.text ['a', '=', '=', ' '], .map [(.text ['b'], .text [])],
        .text ['a', '=', 'x']]) = .ok [(['a'], ['=', ' ']), (['b'], []), (['a'], ['x'])] ∧
    readOptions ['p'] (.map [(.text ['b'], .text []), (.text ['a'], .text ['x'])]) =
      .ok [(['b'], []), (['a'], ['x'])] := by
  let a : OptionName := ⟨['a'], isUsable_of_all_isVisible (by simp) rfl, by simp⟩
  let b : OptionName := ⟨['b'], isUsable_of_all_isVisible (by simp) rfl, by simp⟩
  have hlist := (readOptions_of_spellings ['p'] [⟨a, ['=', ' ']⟩, ⟨b, []⟩, ⟨a, ['x']⟩]).2.2.1
  have hmapping := (readOptions_of_spellings ['p'] [⟨b, []⟩, ⟨a, ['x']⟩]).2.2.2
  exact ⟨hlist _ (.cons .text (.cons .mapping (.cons .text .nil))), hmapping (by decide)⟩

end PathOptions.Config
