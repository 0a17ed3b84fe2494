import PathOptions.Proofs.Brace.Scanning
import PathOptions.Proofs.Sequence.Expressions
/-!
What well-formed patterns stand for. A word is built from characters, escaped characters, literal
pairs of braces, choices between words and sequences, nested as deeply as one likes; it has a text
and, apart from that, a list of texts for which it stands. Expanding the text gives that list
(`expand_text`): the search for a closing brace finds the one that belongs to the opening one, the
commas that count are those of the group itself, and no list is taken for a sequence.
-/

namespace PathOptions.Brace

/-! ## Words -/

/-- A character without a meaning of its own; inside a group a comma has one. -/
structure IsPlain (inner : Bool) (c : Char) : Prop where
  notSlash : c ≠ '\\'
  notOpen : c ≠ '{'
  notClose : c ≠ '}'
  notComma : inner = true → c ≠ ','

mutual

/-- A well-formed pattern, on its own or as an alternative inside a group. -/
inductive Word : (inner : Bool) → Type where
  | done {inner : Bool} : Word inner
  | plain {inner : Bool} (c : Char) (h : IsPlain inner c) (rest : Word inner) : Word inner
  | escaped {inner : Bool} (c : Char) (rest : Word inner) : Word inner
  | braces {inner : Bool} (rest : Word inner) : Word inner
  | choice {inner : Bool} (alternatives : Alternatives) (rest : Word inner) : Word inner
  | sequence {inner : Bool} (body : Text) (elements : List Text)
      (h : Sequence.generate body = some elements) (rest : Word inner) : Word inner

/-- At least two words between which a group chooses. -/
inductive Alternatives : Type where
  | pair (first second : Word true) : Alternatives
  | more (first : Word true) (others : Alternatives) : Alternatives

end

mutual

def Word.text {inner : Bool} : Word inner → Text
  | .done => []
  | .plain c _ rest => c :: rest.text
  | .escaped c rest => '\\' :: c :: rest.text
  | .braces rest => '{' :: '}' :: rest.text
  | .choice alternatives rest => '{' :: (alternatives.text ++ '}' :: rest.text)
  | .sequence body _ _ rest => '{' :: (body ++ '}' :: rest.text)

def Alternatives.text : Alternatives → Text
  | .pair first second => first.text ++ ',' :: second.text
  | .more first others => first.text ++ ',' :: others.text

end

def Alternatives.texts : Alternatives → List Text
  | .pair first second => [first.text, second.text]
  | .more first others => first.text :: others.texts

/-- All texts of two lists after one another; the first part varies slowest. -/
def product (first second : List Text) : List Text :=
  first.flatMap fun a => second.map fun b => a ++ b

mutual

def Word.denotation {inner : Bool} : Word inner → List Text
  | .done => [[]]
  | .plain c _ rest => product [[c]] rest.denotation
  | .escaped c rest => product [['\\', c]] rest.denotation
  | .braces rest => product [['{', '}']] rest.denotation
  | .choice alternatives rest => product alternatives.denotation rest.denotation
  | .sequence _ elements _ rest => product elements rest.denotation

def Alternatives.denotation : Alternatives → List Text
  | .pair first second => first.denotation ++ second.denotation
  | .more first others => first.denotation ++ others.denotation

end

/-! ## Bodies of sequences -/

def isSequenceChar (c : Char) : Bool := c.isAlpha || c.isDigit || c == '-' || c == '.'

theorem isSequenceChar_of_mem_numeral {numeral : Sequence.Numeral} {c : Char}
    (h : c ∈ numeral.text) : isSequenceChar c = true := by
  rcases Sequence.Numeral.eq_minus_or_isDigit_of_mem_text h with rfl | hdigit
  · rfl
  · simp [isSequenceChar, hdigit]

theorem isSequenceChar_of_mem_firstText {ends : Sequence.Ends} {c : Char}
    (h : c ∈ ends.firstText) : isSequenceChar c = true := by
  cases ends with
  | numbers first last => exact isSequenceChar_of_mem_numeral h
  | letters first last =>
    obtain rfl := List.mem_singleton.1 h
    simp [isSequenceChar, first.isAlpha]

theorem isSequenceChar_of_mem_lastText {ends : Sequence.Ends} {c : Char}
    (h : c ∈ ends.lastText) : isSequenceChar c = true := by
  have hswap : c ∈ ends.swap.firstText := by
    cases ends <;> exact h
  exact isSequenceChar_of_mem_firstText hswap

theorem isSequenceChar_of_mem_text {e : Sequence.Expression} {c : Char} (h : c ∈ e.text) :
    isSequenceChar c = true := by
  have hdots : ∀ t : Text, c ∈ '.' :: '.' :: t → c = '.' ∨ c ∈ t := by
    intro t hmem
    simpa using hmem
  obtain ⟨ends, step⟩ := e
  rcases List.mem_append.1 h with hends | hstep
  · rcases List.mem_append.1 hends with hfirst | hlast
    · exact isSequenceChar_of_mem_firstText hfirst
    · rcases hdots _ hlast with rfl | hlast
      · rfl
      · exact isSequenceChar_of_mem_lastText hlast
  · cases step with
    | none => cases hstep
    | some step =>
      rcases hdots _ hstep with rfl | hstep
      · rfl
      · exact isSequenceChar_of_mem_numeral hstep

/-- A sequence expression holds nothing that has a meaning outside it. -/
theorem isSequenceChar_of_generate {body : Text} {elements : List Text} {c : Char}
    (h : Sequence.generate body = some elements) (hc : c ∈ body) : isSequenceChar c = true := by
  obtain ⟨e, rfl⟩ := Sequence.exists_expression_of_generate h
  exact isSequenceChar_of_mem_text hc

theorem passes_sequence {body : Text} {elements : List Text} {sep : Char} (level : Nat)
    (h : Sequence.generate body = some elements) (hsep : isSequenceChar sep = false) :
    Passes sep level body := by
  have hchars : ∀ c ∈ body, isSequenceChar c = true := fun c hc => isSequenceChar_of_generate h hc
  clear h
  induction body with
  | nil => exact passes_nil
  | cons c cs ih =>
    have hc := hchars c (by simp)
    have hne : ∀ d, isSequenceChar d = false → c ≠ d := by
      rintro d hd rfl
      rw [hc] at hd
      cases hd
    have hfirst : Passes sep level [c] := passes_char (hne _ (by decide)) (hne _ (by decide))
      (hne _ (by decide)) (.inl (hne _ hsep))
    exact hfirst.append (ih fun d hd => hchars d (by simp [hd]))

/-! ## Passing words -/

/-- What a search passes words for: a closing brace, and a comma unless the word stands outside
groups. -/
def IsForeign (inner : Bool) (sep : Char) (level : Nat) : Prop :=
  sep = '}' ∨ sep = ',' ∧ (inner = true ∨ level ≠ 0)

section

variable {inner : Bool} {sep : Char} {level : Nat}

theorem IsForeign.ne_open (h : IsForeign inner sep level) : sep ≠ '{' := by
  rcases h with rfl | ⟨rfl, _⟩ <;> decide

theorem IsForeign.not_sequenceChar (h : IsForeign inner sep level) :
    isSequenceChar sep = false := by
  rcases h with rfl | ⟨rfl, _⟩ <;> decide

/-- Inside braces a comma does not count. -/
theorem IsForeign.enclosed (h : IsForeign inner sep level) : IsForeign false sep (level + 1) :=
  h.imp_right fun h => ⟨h.1, .inr (Nat.succ_ne_zero level)⟩

/-- What is passed outside groups is passed inside. -/
theorem IsForeign.inside (h : IsForeign false sep level) : IsForeign true sep level :=
  h.imp_right fun h => ⟨h.1, .inl rfl⟩

theorem IsPlain.passes {c : Char} (hc : IsPlain inner c) (h : IsForeign inner sep level) :
    Passes sep level [c] := by
  refine passes_char hc.notSlash hc.notOpen hc.notClose ?_
  rcases h with rfl | ⟨rfl, hinner | hlevel⟩
  · exact .inl hc.notClose
  · exact .inl (hc.notComma hinner)
  · exact .inr hlevel

theorem passes_comma (h : IsForeign false sep level) : Passes sep level [','] := by
  refine passes_char (by decide) (by decide) (by decide) ?_
  rcases h with rfl | ⟨rfl, hinner | hlevel⟩
  · exact .inl (by decide)
  · cases hinner
  · exact .inr hlevel

end

mutual

theorem Word.passes {inner : Bool} {sep : Char} {level : Nat} (h : IsForeign inner sep level) :
    (word : Word inner) → Passes sep level word.text
  | .done => passes_nil
  | .plain _ hc rest => (hc.passes h).append (rest.passes h)
  | .escaped c rest => (passes_escaped c).append (rest.passes h)
  | .braces rest => (passes_nil.enclosed h.ne_open).append (rest.passes h)
  | .choice alternatives rest => by
    have hgroup := (alternatives.passes h.enclosed).enclosed h.ne_open
    simpa [Word.text] using hgroup.append (rest.passes h)
  | .sequence _ _ hbody rest => by
    have hgroup := (passes_sequence (level + 1) hbody h.not_sequenceChar).enclosed h.ne_open
    simpa [Word.text] using hgroup.append (rest.passes h)

theorem Alternatives.passes {sep : Char} {level : Nat} (h : IsForeign false sep level) :
    (alternatives : Alternatives) → Passes sep level alternatives.text
  | .pair first second =>
    (first.passes h.inside).append ((passes_comma h).append (second.passes h.inside))
  | .more first others =>
    (first.passes h.inside).append ((passes_comma h).append (others.passes h))

end

/-! ## Groups -/

theorem Word.passes_comma_inside (word : Word true) : Passes ',' 0 word.text :=
  word.passes (.inr ⟨rfl, .inl rfl⟩)

/-- The commas of a group are those between its alternatives. -/
theorem splitAll_alternatives : (alternatives : Alternatives) →
    splitAll ',' alternatives.text = alternatives.texts
  | .pair first second => by
    rw [Alternatives.text, first.passes_comma_inside.splitAll (by decide),
      second.passes_comma_inside.splitAll_end]
    rfl
  | .more first others => by
    rw [Alternatives.text, first.passes_comma_inside.splitAll (by decide),
      splitAll_alternatives others]
    rfl

theorem comma_mem_text (alternatives : Alternatives) : ',' ∈ alternatives.text := by
  cases alternatives <;> simp [Alternatives.text]

theorem readBody_alternatives (alternatives : Alternatives) :
    readBody alternatives.text = some (.items alternatives.texts) := by
  have hcomma := comma_mem_text alternatives
  have hempty : alternatives.text.isEmpty = false := by
    rw [List.isEmpty_eq_false_iff]
    exact List.ne_nil_of_mem hcomma
  have hsequence : Sequence.generate alternatives.text = none := by
    cases h : Sequence.generate alternatives.text with
    | none => rfl
    | some elements => exact absurd (isSequenceChar_of_generate h hcomma) (by decide)
  rw [readBody, hempty, hsequence, splitAll_alternatives]
  cases alternatives with
  | pair first second => rfl
  | more first others => cases others <;> rfl

theorem readBody_sequence {body : Text} {elements : List Text}
    (h : Sequence.generate body = some elements) : readBody body = some (.sequence elements) := by
  have hempty : body.isEmpty = false := by
    rw [List.isEmpty_eq_false_iff]
    rintro rfl
    cases h
  simp [readBody, hempty, h]

/-! ## Expansion -/

theorem map_product_single (lead a : Text) (second : List Text) :
    (product [a] second).map (lead ++ ·) = second.map (lead ++ a ++ ·) := by
  simp [product]

theorem product_single (lead : Text) (texts : List Text) :
    product [lead] texts = texts.map (lead ++ ·) := by
  simp [product]

theorem map_nil_append (texts : List Text) : texts.map ([] ++ ·) = texts := by
  simp

theorem results_group (lead : Text) (choices : List Tree) (tail : Tree) :
    (Tree.group lead choices tail).results =
      (product (Tree.resultsOfAny choices) tail.results).map (lead ++ ·) := by
  simp [Tree.results, product, List.map_flatMap, Function.comp_def]

theorem resultsOfAny_map_text (elements : List Text) :
    Tree.resultsOfAny (elements.map .text) = elements := by
  induction elements with
  | nil => rfl
  | cons t rest ih => simp [Tree.resultsOfAny, Tree.results, ih]

mutual

/-- A word is expanded together with literal text before it. -/
theorem Word.results_parse {inner : Bool} : (word : Word inner) → ∀ lead, Passes '{' 0 lead →
    (parse (lead ++ word.text)).results = word.denotation.map (lead ++ ·)
  | .done, lead, hlead => by
    rw [Word.text, List.append_nil, parse_of_no_open hlead.split_end]
    simp [Tree.results, Word.denotation]
  | .plain c hc rest, lead, hlead => by
    have hchar : Passes '{' 0 [c] :=
      passes_char hc.notSlash hc.notOpen hc.notClose (.inl hc.notOpen)
    have ih := rest.results_parse (lead ++ [c]) (hlead.append hchar)
    rw [Word.denotation, map_product_single, ← ih, Word.text, List.append_assoc]
    rfl
  | .escaped c rest, lead, hlead => by
    have ih := rest.results_parse (lead ++ ['\\', c]) (hlead.append (passes_escaped c))
    rw [Word.denotation, map_product_single, ← ih, Word.text, List.append_assoc]
    rfl
  | .braces rest, lead, hlead => by
    have ih := rest.results_parse [] passes_nil
    rw [List.nil_append, map_nil_append] at ih
    have hbody : closeGroup none ('}' :: rest.text) = some (.empty, rest.text) :=
      closeGroup_of_body passes_nil rfl
    rw [Word.text, parse_of_group (hlead.split (by decide) _) hbody, results_group, ih]
    rfl
  | .choice alternatives rest, lead, hlead => by
    have ih := rest.results_parse [] passes_nil
    rw [List.nil_append, map_nil_append] at ih
    have hbody : closeGroup none (alternatives.text ++ '}' :: rest.text) =
        some (.items alternatives.texts, rest.text) :=
      closeGroup_of_body (alternatives.passes (.inl rfl)) (readBody_alternatives alternatives)
    rw [Word.text, parse_of_group (hlead.split (by decide) _) hbody, results_group,
      Body.trees, alternatives.results_parse, ih]
    rfl
  | .sequence body elements h rest, lead, hlead => by
    have ih := rest.results_parse [] passes_nil
    rw [List.nil_append, map_nil_append] at ih
    have hbody : closeGroup none (body ++ '}' :: rest.text) =
        some (.sequence elements, rest.text) :=
      closeGroup_of_body (passes_sequence 0 h (by decide)) (readBody_sequence h)
    rw [Word.text, parse_of_group (hlead.split (by decide) _) hbody, results_group,
      Body.trees, resultsOfAny_map_text, ih]
    rfl

theorem Alternatives.results_parse : (alternatives : Alternatives) →
    Tree.resultsOfAny (alternatives.texts.map parse) = alternatives.denotation
  | .pair first second => by
    have hfirst := first.results_parse [] passes_nil
    have hsecond := second.results_parse [] passes_nil
    rw [List.nil_append, map_nil_append] at hfirst hsecond
    simp [Alternatives.texts, Tree.resultsOfAny, hfirst, hsecond, Alternatives.denotation]
  | .more first others => by
    have hfirst := first.results_parse [] passes_nil
    rw [List.nil_append, map_nil_append] at hfirst
    simp [Alternatives.texts, Tree.resultsOfAny, hfirst, others.results_parse,
      Alternatives.denotation]

end

/-- A well-formed pattern expands to the texts for which it stands, in order. -/
theorem expand_text {inner : Bool} (word : Word inner) : expand word.text = word.denotation := by
  have h := word.results_parse [] passes_nil
  rwa [List.nil_append, map_nil_append] at h

end PathOptions.Brace
