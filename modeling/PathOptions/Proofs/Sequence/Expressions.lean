import PathOptions.Proofs.Sequence.Numerals
/-!
What sequence expressions are and what they stand for. An expression names two ends, which are both
numerals or both letters, and perhaps a step, with double dots between them. Its points go from the
first end towards the last at equal distances, and each is written as the ends ask for: a letter as
itself, a number canonically or, if an end has a leading zero, filled to the length of the longer
end. The texts of expressions are all that `generate` takes, and it gives their points as written
(`generate_is_progression`).
-/

namespace PathOptions.Sequence

/-! ## Progressions -/

/-- The point `k` steps behind the first one on the way to the last one. -/
def pointAt (first last : Int) (size k : Nat) : Int :=
  if last < first then first - (k * size : Nat) else first + (k * size : Nat)

section

variable {first last : Int} {size k : Nat}

theorem progression_eq_map (first last : Int) (step : Nat) :
    progression first last step =
      (List.range ((last - first).natAbs / max 1 step + 1)).map (pointAt first last (max 1 step)) :=
  rfl

/-- No point is past the last one. -/
theorem pointAt_between (h : k ≤ (last - first).natAbs / size) :
    min first last ≤ pointAt first last size k ∧ pointAt first last size k ≤ max first last := by
  have hle : k * size ≤ (last - first).natAbs := Nat.mul_le_of_le_div size k _ h
  unfold pointAt
  generalize k * size = distance at hle
  split <;> omega

/-- On the way back the points are the same if the last one is met. -/
theorem pointAt_swap {n : Nat} (hn : n * size = (last - first).natAbs) (hk : k ≤ n) :
    pointAt last first size k = pointAt first last size (n - k) := by
  have hsum : k * size + (n - k) * size = (last - first).natAbs := by
    rw [← Nat.add_mul, Nat.add_sub_cancel' hk, hn]
  unfold pointAt
  generalize k * size = there at hsum ⊢
  generalize (n - k) * size = back at hsum ⊢
  split <;> split <;> omega

theorem progression_swap {step : Nat} (h : max 1 step ∣ (last - first).natAbs) :
    progression last first step = (progression first last step).reverse := by
  obtain ⟨n, hn⟩ := h
  have hcount : (last - first).natAbs / max 1 step = n := by
    rw [hn, Nat.mul_div_cancel_left n (by omega)]
  have hback : (first - last).natAbs = (last - first).natAbs := by omega
  rw [progression_eq_map, progression_eq_map, hback, hcount]
  refine List.ext_getElem (by simp) ?_
  intro k hk _
  rw [List.length_map, List.length_range] at hk
  have hle : k ≤ n := Nat.lt_succ_iff.1 hk
  have hswap := pointAt_swap (by rw [hn, Nat.mul_comm]) hle
  simpa using hswap

end

/-! ## Fields -/

theorem fields_ne_nil (t : Text) : fields t ≠ [] := by
  fun_cases fields t <;> simp

/-- The fields with double dots between them make up the text. -/
theorem intercalate_fields (t : Text) : List.intercalate ['.', '.'] (fields t) = t := by
  fun_induction fields t with
  | case1 => rfl
  | case2 rest ih =>
    rw [List.intercalate_cons_of_ne_nil (fields_ne_nil rest), ih]
    rfl
  | case3 c cs _ hnone ih => exact absurd hnone (fields_ne_nil cs)
  | case4 c cs _ field others hsome ih =>
    rw [hsome] at ih
    rw [← ih]
    exact List.intercalate_cons_cons_left

/-- Without double dots a text is one field. -/
theorem fields_of_not_infix {t : Text} (h : ¬ ['.', '.'] <:+: t) : fields t = [t] := by
  fun_induction fields t with
  | case1 => rfl
  | case2 rest ih => exact absurd ⟨[], rest, rfl⟩ h
  | case3 c cs _ hnone ih => exact absurd hnone (fields_ne_nil cs)
  | case4 c cs _ field others hsome ih =>
    have hrest := ih fun hwithin => h (hwithin.trans (List.suffix_cons c cs).isInfix)
    rw [hsome] at hrest
    obtain ⟨rfl, rfl⟩ := List.cons.inj hrest
    rfl

theorem not_infix_of_dot_not_mem {t : Text} (h : '.' ∉ t) : ¬ ['.', '.'] <:+: t := by
  intro hwithin
  exact h (hwithin.subset (.head _))

theorem fields_append {field : Text} (h : '.' ∉ field) (rest : Text) :
    fields (field ++ '.' :: '.' :: rest) = field :: fields rest := by
  induction field with
  | nil => rfl
  | cons c cs ih =>
    have hc : c ≠ '.' := fun heq => h (heq ▸ .head cs)
    rw [List.cons_append, fields, ih fun hmem => h (.tail c hmem)]
    rintro rest rfl
    exact absurd rfl hc

/-- A sequence expression has double dots. -/
theorem infix_of_generate {body : Text} {elements : List Text}
    (h : generate body = some elements) : ['.', '.'] <:+: body := by
  refine Decidable.byContradiction fun hnot => ?_
  rw [generate, fields_of_not_infix hnot] at h
  cases h

/-! ## Expressions -/

structure Letter where
  char : Char
  isAlpha : char.isAlpha = true

theorem isAlpha_iff_toNat {c : Char} :
    c.isAlpha = true ↔ 65 ≤ c.toNat ∧ c.toNat ≤ 90 ∨ 97 ≤ c.toNat ∧ c.toNat ≤ 122 := by
  have halpha : c.isAlpha =
      (decide (65 ≤ c.val ∧ c.val ≤ 90) || decide (97 ≤ c.val) && decide (c.val ≤ 122)) := rfl
  simp [halpha, UInt32.le_iff_toNat_le, ← Char.toNat_val]

theorem isDigit_of_isAlpha {c : Char} (h : c.isAlpha = true) : c.isDigit = false := by
  rw [isAlpha_iff_toNat] at h
  rw [← Bool.not_eq_true, Char.isDigit_iff_toNat]
  have hzero : '0'.toNat = 48 := rfl
  have hnine : '9'.toNat = 57 := rfl
  omega

/-- What a sequence goes between. -/
inductive Ends where
  | numbers (first last : Numeral)
  | letters (first last : Letter)

namespace Ends

def firstText : Ends → Text
  | numbers first _ => first.text
  | letters first _ => [first.char]

def lastText : Ends → Text
  | numbers _ last => last.text
  | letters _ last => [last.char]

def text (ends : Ends) : Text := ends.firstText ++ '.' :: '.' :: ends.lastText

/-- The number of the first end: a letter counts by its code point. -/
def first : Ends → Int
  | numbers first _ => first.value
  | letters first _ => first.char.toNat

def last : Ends → Int
  | numbers _ last => last.value
  | letters _ last => last.char.toNat

def swap : Ends → Ends
  | numbers first last => numbers last first
  | letters first last => letters last first

/-- A text stands for a number between two ends. -/
def Writes : Ends → Int → Text → Prop
  | numbers first last, i, t =>
    Text.readPlainInteger? t = some i ∧
      (first.HasLeadingZero ∨ last.HasLeadingZero →
        t.length = max first.text.length last.text.length) ∧
      (¬ (first.HasLeadingZero ∨ last.HasLeadingZero) → t = Text.decimal i)
  | letters _ _, i, t => ∃ c : Char, t = [c] ∧ (c.toNat : Int) = i

def write : Ends → Int → Text
  | numbers first last => Text.zeroFilled (padWidth first.text last.text)
  | letters _ _ => fun i => [Char.ofNat i.toNat]

theorem first_swap (ends : Ends) : ends.swap.first = ends.last := by
  cases ends <;> rfl

theorem last_swap (ends : Ends) : ends.swap.last = ends.first := by
  cases ends <;> rfl

theorem write_swap (ends : Ends) : ends.swap.write = ends.write := by
  cases ends with
  | numbers first last =>
    have hwidth : padWidth last.text first.text = padWidth first.text last.text := by
      rw [padWidth, padWidth, Bool.or_comm, Nat.max_comm]
    simp only [swap, write, hwidth]
  | letters first last => rfl

/-- What is written for a number between the ends stands for it. -/
theorem writes_write {ends : Ends} {i : Int} (hleast : min ends.first ends.last ≤ i)
    (hgreatest : i ≤ max ends.first ends.last) : ends.Writes i (ends.write i) := by
  cases ends with
  | numbers first last =>
    have hpadded : (hasLeadingZero first.text || hasLeadingZero last.text) = true ↔
        first.HasLeadingZero ∨ last.HasLeadingZero := by
      rw [Bool.or_eq_true, first.hasLeadingZero_text, last.hasLeadingZero_text]
    refine ⟨Text.readPlainInteger?_zeroFilled _ i, ?_, ?_⟩
    · intro hzero
      rw [write, padWidth, if_pos (hpadded.2 hzero)]
      exact Numeral.length_zeroFilled hleast hgreatest
    · intro hzero
      rw [write, padWidth, if_neg (mt hpadded.1 hzero)]
      exact Text.zeroFilled_zero i
  | letters first last =>
    have hfirst := isAlpha_iff_toNat.1 first.isAlpha
    have hlast := isAlpha_iff_toNat.1 last.isAlpha
    simp only [Ends.first, Ends.last] at hleast hgreatest
    -- all code points between two letters are ASCII, so each is a character
    have hvalid : i.toNat.isValidChar := .inl (by omega)
    have hchar : (Char.ofNat i.toNat).toNat = i.toNat := by
      rw [Char.ofNat, dif_pos hvalid]
      rfl
    refine ⟨Char.ofNat i.toNat, rfl, ?_⟩
    rw [hchar]
    omega

theorem dot_not_mem_firstText (ends : Ends) : '.' ∉ ends.firstText := by
  cases ends with
  | numbers first last => exact first.dot_not_mem_text
  | letters first last =>
    intro hmem
    have halpha := first.isAlpha
    rw [← List.mem_singleton.1 hmem] at halpha
    cases halpha

theorem dot_not_mem_lastText (ends : Ends) : '.' ∉ ends.lastText := by
  have h := ends.swap.dot_not_mem_firstText
  cases ends <;> exact h

end Ends

/-- Two ends and perhaps a step. -/
structure Expression where
  ends : Ends
  step : Option Numeral

namespace Expression

def text (e : Expression) : Text :=
  e.ends.text ++ e.step.elim [] fun step => '.' :: '.' :: step.text

/-- The size of a step as it is written. -/
def writtenSize (e : Expression) : Nat := e.step.elim 1 fun step => step.value.natAbs

/-- The distance of two points: a step of 0 counts as one of 1. -/
def size (e : Expression) : Nat := max 1 e.writtenSize

def distance (e : Expression) : Nat := (e.ends.last - e.ends.first).natAbs

def point (e : Expression) (k : Nat) : Int := pointAt e.ends.first e.ends.last e.size k

def elements (e : Expression) : List Text :=
  (progression e.ends.first e.ends.last e.writtenSize).map e.ends.write

def swap (e : Expression) : Expression := { e with ends := e.ends.swap }

theorem length_elements (e : Expression) : e.elements.length = e.distance / e.size + 1 := by
  rw [elements, progression_eq_map, List.length_map, List.length_map, List.length_range]
  rfl

theorem eq_write_of_getElem? {e : Expression} {k : Nat} {t : Text}
    (h : e.elements[k]? = some t) : k ≤ e.distance / e.size ∧ t = e.ends.write (e.point k) := by
  obtain ⟨hk, hget⟩ := List.getElem?_eq_some_iff.1 h
  refine ⟨?_, ?_⟩
  · rw [e.length_elements] at hk
    exact Nat.lt_succ_iff.1 hk
  · rw [← hget]
    simp [elements, progression_eq_map]
    rfl

theorem elements_swap {e : Expression} (h : e.size ∣ e.distance) :
    e.swap.elements = e.elements.reverse := by
  rw [elements, elements, ← List.map_reverse, ← progression_swap h]
  rw [swap, e.ends.first_swap, e.ends.last_swap, e.ends.write_swap]
  rfl

end Expression

/-! ## Recognition -/

theorem letter?_eq_some_iff {t : Text} {c : Char} :
    letter? t = some c ↔ t = [c] ∧ c.isAlpha = true := by
  unfold letter?
  split
  · rename_i d
    constructor
    · intro h
      split at h
      · obtain rfl := Option.some.inj h
        exact ⟨rfl, ‹_›⟩
      · cases h
    · rintro ⟨heq, halpha⟩
      obtain rfl := List.singleton_inj.1 heq
      rw [if_pos halpha]
  · rename_i hlong
    constructor
    · intro h
      cases h
    · rintro ⟨rfl, _⟩
      exact absurd rfl (hlong c)

theorem readPlainInteger?_letter (letter : Letter) :
    Text.readPlainInteger? [letter.char] = none := by
  have hdigit : Text.isDigits [letter.char] = false := by
    simp [Text.isDigits, isDigit_of_isAlpha letter.isAlpha]
  have hminus : letter.char ≠ '-' := by
    intro heq
    have halpha := letter.isAlpha
    rw [heq] at halpha
    cases halpha
  unfold Text.readPlainInteger?
  split
  · rename_i heq
    exact absurd (List.cons.inj heq).1 hminus
  · rw [hdigit]
    rfl

theorem between?_ends (ends : Ends) (step : Nat) :
    between? ends.firstText ends.lastText step =
      some ((progression ends.first ends.last step).map ends.write) := by
  cases ends with
  | numbers first last =>
    simp only [between?, Ends.firstText, Ends.lastText, Numeral.readPlainInteger?_text]
    rfl
  | letters first last =>
    have hfirst := letter?_eq_some_iff.2 ⟨rfl, first.isAlpha⟩
    have hlast := letter?_eq_some_iff.2 ⟨rfl, last.isAlpha⟩
    simp only [between?, Ends.firstText, Ends.lastText, readPlainInteger?_letter, hfirst, hlast]
    rfl

theorem exists_ends_of_between? {first last : Text} {step : Nat} {elements : List Text}
    (h : between? first last step = some elements) :
    ∃ ends : Ends, ends.firstText = first ∧ ends.lastText = last := by
  unfold between? at h
  split at h
  · rename_i hfirst hlast
    obtain ⟨a, rfl, _⟩ := Numeral.readPlainInteger?_eq_some_iff.1 hfirst
    obtain ⟨b, rfl, _⟩ := Numeral.readPlainInteger?_eq_some_iff.1 hlast
    exact ⟨.numbers a b, rfl, rfl⟩
  · split at h
    · rename_i hfirst hlast
      obtain ⟨rfl, ha⟩ := letter?_eq_some_iff.1 hfirst
      obtain ⟨rfl, hb⟩ := letter?_eq_some_iff.1 hlast
      exact ⟨.letters ⟨_, ha⟩ ⟨_, hb⟩, rfl, rfl⟩
    · cases h

/-- Every expression is recognised, and gives its points as they are written. -/
theorem generate_text (e : Expression) : generate e.text = some e.elements := by
  obtain ⟨ends, step⟩ := e
  have hfirst := ends.dot_not_mem_firstText
  have hlast := ends.dot_not_mem_lastText
  cases step with
  | none =>
    have hfields : fields (Expression.text ⟨ends, none⟩) = [ends.firstText, ends.lastText] := by
      rw [Expression.text, Ends.text, Option.elim_none, List.append_nil, fields_append hfirst,
        fields_of_not_infix (not_infix_of_dot_not_mem hlast)]
    rw [generate, hfields]
    exact between?_ends ends 1
  | some step =>
    have hfields : fields (Expression.text ⟨ends, some step⟩) =
        [ends.firstText, ends.lastText, step.text] := by
      rw [Expression.text, Ends.text, Option.elim_some, List.append_assoc, List.cons_append,
        List.cons_append, fields_append hfirst, fields_append hlast,
        fields_of_not_infix (not_infix_of_dot_not_mem step.dot_not_mem_text)]
    rw [generate, hfields]
    dsimp only
    rw [step.readPlainInteger?_text]
    exact between?_ends ends step.value.natAbs

/-- Nothing but expressions is recognised. -/
theorem exists_expression_of_generate {body : Text} {elements : List Text}
    (h : generate body = some elements) : ∃ e : Expression, e.text = body := by
  have hjoined := intercalate_fields body
  unfold generate at h
  split at h
  · rename_i first last hfields
    obtain ⟨ends, rfl, rfl⟩ := exists_ends_of_between? h
    rw [hfields] at hjoined
    refine ⟨⟨ends, none⟩, ?_⟩
    simpa [Expression.text, Ends.text, List.intercalate] using hjoined
  · rename_i first last written hfields
    split at h
    · rename_i hstep
      obtain ⟨step, rfl, _⟩ := Numeral.readPlainInteger?_eq_some_iff.1 hstep
      obtain ⟨ends, rfl, rfl⟩ := exists_ends_of_between? h
      rw [hfields] at hjoined
      refine ⟨⟨ends, some step⟩, ?_⟩
      simpa [Expression.text, Ends.text, List.intercalate] using hjoined
    · cases h
  · cases h

/-- The texts of expressions are what is recognised. The elements are the points from the first end
towards the last, in equal steps and never past the last, each written as the ends ask for; the
sign of the step does not matter, and if the steps meet the last end, the way back has the same
elements in reverse. -/
theorem generate_is_progression :
    (∀ body, generate body ≠ none ↔ ∃ e : Expression, e.text = body) ∧
      ∀ e : Expression, ∃ elements, generate e.text = some elements ∧
        elements.length = e.distance / e.size + 1 ∧
        (∀ k t, elements[k]? = some t →
          min e.ends.first e.ends.last ≤ e.point k ∧ e.point k ≤ max e.ends.first e.ends.last ∧
            e.ends.Writes (e.point k) t) ∧
        (∀ step, e.step = some step →
          generate { e with step := some step.negated }.text = some elements) ∧
        (e.size ∣ e.distance → generate e.swap.text = some elements.reverse) := by
  refine ⟨?_, ?_⟩
  · intro body
    constructor
    · intro h
      obtain ⟨elements, helements⟩ := Option.ne_none_iff_exists'.1 h
      exact exists_expression_of_generate helements
    · rintro ⟨e, rfl⟩
      rw [generate_text]
      exact Option.some_ne_none _
  · intro e
    refine ⟨e.elements, generate_text e, e.length_elements, ?_, ?_, ?_⟩
    · intro k t h
      obtain ⟨hk, rfl⟩ := Expression.eq_write_of_getElem? h
      obtain ⟨hleast, hgreatest⟩ := pointAt_between hk
      exact ⟨hleast, hgreatest, Ends.writes_write hleast hgreatest⟩
    · intro step hstep
      have hsize : step.negated.value.natAbs = step.value.natAbs := by
        rw [Numeral.natAbs_value, Numeral.natAbs_value]
        rfl
      rw [generate_text, Expression.elements, Expression.elements, Expression.writtenSize,
        Expression.writtenSize, hstep]
      dsimp only [Option.elim_some]
      rw [hsize]
    · intro h
      rw [generate_text, Expression.elements_swap h]

/-- The step is negative, and the zero of the last end fills all points to the length of the ends,
the sign included. -/
theorem progression_of_padded_ends :
    let e : Expression :=
      ⟨.numbers ⟨true, ['2'], rfl⟩ ⟨false, ['0', '8'], rfl⟩, some ⟨true, ['5'], rfl⟩⟩
    e.text = "-2..08..-5".toList ∧ e.size ∣ e.distance ∧
      generate e.text = some ["-2".toList, "03".toList, "08".toList] ∧
      generate "08..-2..-5".toList = some ["08".toList, "03".toList, "-2".toList] ∧
      generate "-2..08..5".toList = some ["-2".toList, "03".toList, "08".toList] := by
  intro e
  have hdistance : e.size ∣ e.distance := ⟨2, rfl⟩
  obtain ⟨elements, helements, _, _, hnegated, hswap⟩ := generate_is_progression.2 e
  have hgenerate : generate e.text = some ["-2".toList, "03".toList, "08".toList] := by decide
  obtain rfl := Option.some.inj (helements.symm.trans hgenerate)
  exact ⟨rfl, hdistance, hgenerate, hswap hdistance, hnegated _ rfl⟩

end PathOptions.Sequence
