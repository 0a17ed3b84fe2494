import Mathlib.Algebra.Group.Nat.Defs
import PathOptions.Brace.Sequence
/-!
Integers as sequence expressions write them. A numeral is a run of ASCII digits, with or without a
minus sign before it; the plain reader takes exactly the texts of numerals
(`readPlainInteger?_eq_some_iff`). A number filled with zeros is read back as itself, and a number
between two numerals fits into the width of the longer one, the sign included, so filling it gives
exactly that width (`length_zeroFilled`).
-/

namespace PathOptions

namespace Text

/-! ## Digits -/

theorem isDigits_iff {t : Text} : isDigits t = true ↔ t ≠ [] ∧ ∀ c ∈ t, c.isDigit = true := by
  cases t <;> simp [isDigits]

theorem isDigits_append_toDigits {zeros : Nat} {n : Nat} :
    isDigits (List.replicate zeros '0' ++ Nat.toDigits 10 n) = true := by
  rw [isDigits_iff]
  refine ⟨by simp, ?_⟩
  intro c hc
  rcases List.mem_append.1 hc with hc | hc
  · obtain rfl := List.eq_of_mem_replicate hc
    rfl
  · exact Nat.isDigit_of_mem_toDigits (by decide) (by decide) hc

theorem digitsValue_append_toDigits {zeros : Nat} {n : Nat} :
    digitsValue (List.replicate zeros '0' ++ Nat.toDigits 10 n) = n := by
  have hvalue : ∀ t, digitsValue t = Nat.ofDigitChars 10 t 0 := fun _ => rfl
  rw [hvalue, Nat.ofDigitChars_append, Nat.ofDigitChars_replicate_zero, Nat.mul_zero,
    Nat.ofDigitChars_ten_toDigits]

/-- Digits stand for less than the power of ten that has one digit more. -/
theorem digitsValue_lt {digits : Text} (h : ∀ c ∈ digits, c.isDigit = true) :
    digitsValue digits < 10 ^ digits.length := by
  induction digits with
  | nil => decide
  | cons c cs ih =>
    have hrest := ih fun d hd => h d (List.mem_cons_of_mem c hd)
    have hdigit := (Char.isDigit_iff_toNat.1 (h c (.head cs))).2
    have hvalue : digitsValue (c :: cs) = 10 ^ cs.length * (c.toNat - 48) + digitsValue cs := by
      have hcons : digitsValue (c :: cs) = Nat.ofDigitChars 10 cs (10 * 0 + (c.toNat - 48)) := rfl
      rw [hcons, Nat.ofDigitChars_eq_ofDigitChars_zero, Nat.mul_zero, Nat.zero_add]
      rfl
    have hle : 10 ^ cs.length * (c.toNat - 48) ≤ 10 ^ cs.length * 9 := by
      refine Nat.mul_le_mul_left _ ?_
      have hnine : '9'.toNat = 57 := rfl
      omega
    rw [hvalue, List.length_cons, Nat.pow_succ]
    omega

/-- A number has at most as many digits as any text of digits for a greater one. -/
theorem length_toDigits_le {digits : Text} (h : isDigits digits = true) {n : Nat}
    (hle : n ≤ digitsValue digits) : (Nat.toDigits 10 n).length ≤ digits.length := by
  obtain ⟨hne, hdigits⟩ := isDigits_iff.1 h
  refine (Nat.length_toDigits_le_iff (by decide) (List.length_pos_iff.2 hne)).2 ?_
  exact Nat.lt_of_le_of_lt hle (digitsValue_lt hdigits)

/-! ## Reading and writing -/

theorem readPlainInteger?_minus {digits : Text} (h : isDigits digits = true) :
    readPlainInteger? ('-' :: digits) = some (-(digitsValue digits : Int)) := by
  simp [readPlainInteger?, h]

theorem readPlainInteger?_digits {digits : Text} (h : isDigits digits = true) :
    readPlainInteger? digits = some (digitsValue digits : Int) := by
  unfold readPlainInteger?
  split
  · have hminus := (isDigits_iff.1 h).2 '-' (.head _)
    cases hminus
  · rw [if_pos h]

theorem zeroFilled_of_neg {i : Int} (h : i < 0) (width : Nat) :
    zeroFilled width i =
      '-' :: (List.replicate (width - 1 - (Nat.toDigits 10 i.natAbs).length) '0' ++
        Nat.toDigits 10 i.natAbs) := if_pos h

theorem zeroFilled_of_nonneg {i : Int} (h : 0 ≤ i) (width : Nat) :
    zeroFilled width i =
      List.replicate (width - (Nat.toDigits 10 i.natAbs).length) '0' ++
        Nat.toDigits 10 i.natAbs := if_neg (Int.not_lt.2 h)

/-- A number is read back as itself, to whatever width it was filled. -/
theorem readPlainInteger?_zeroFilled (width : Nat) (i : Int) :
    readPlainInteger? (zeroFilled width i) = some i := by
  by_cases h : i < 0
  · rw [zeroFilled_of_neg h, readPlainInteger?_minus isDigits_append_toDigits,
      digitsValue_append_toDigits]
    exact congrArg some (by omega)
  · have hnonneg : 0 ≤ i := Int.not_lt.1 h
    rw [zeroFilled_of_nonneg hnonneg, readPlainInteger?_digits isDigits_append_toDigits,
      digitsValue_append_toDigits, Int.natAbs_of_nonneg hnonneg]

/-- A width of 0 leaves the canonical text. -/
theorem zeroFilled_zero (i : Int) : zeroFilled 0 i = decimal i := by
  cases i with
  | ofNat n =>
    have hfilled := zeroFilled_of_nonneg (Int.natCast_nonneg n) 0
    rw [Nat.zero_sub] at hfilled
    exact hfilled
  | negSucc n =>
    have hfilled := zeroFilled_of_neg (Int.negSucc_lt_zero n) 0
    rw [Nat.zero_sub] at hfilled
    exact hfilled

end Text

namespace Sequence

/-! ## Numerals -/

/-- A plain integer as it is written: ASCII digits, with or without a minus sign before them. -/
structure Numeral where
  isNegative : Bool
  digits : Text
  isDigits : Text.isDigits digits = true

namespace Numeral

def text (numeral : Numeral) : Text :=
  if numeral.isNegative then '-' :: numeral.digits else numeral.digits

def value (numeral : Numeral) : Int :=
  if numeral.isNegative then -(Text.digitsValue numeral.digits : Int)
  else Text.digitsValue numeral.digits

def negated (numeral : Numeral) : Numeral :=
  { numeral with isNegative := !numeral.isNegative }

def HasLeadingZero (numeral : Numeral) : Prop :=
  ∃ next rest, numeral.digits = '0' :: next :: rest

theorem natAbs_value (numeral : Numeral) :
    numeral.value.natAbs = Text.digitsValue numeral.digits := by
  unfold value
  split <;> simp

theorem readPlainInteger?_text (numeral : Numeral) :
    Text.readPlainInteger? numeral.text = some numeral.value := by
  unfold text value
  split
  · exact Text.readPlainInteger?_minus numeral.isDigits
  · exact Text.readPlainInteger?_digits numeral.isDigits

/-- The plain reader takes the texts of numerals, and nothing else. -/
theorem readPlainInteger?_eq_some_iff {t : Text} {i : Int} :
    Text.readPlainInteger? t = some i ↔
      ∃ numeral : Numeral, numeral.text = t ∧ numeral.value = i := by
  constructor
  · intro h
    unfold Text.readPlainInteger? at h
    split at h
    · split at h
      · rename_i digits hdigits
        exact ⟨⟨true, digits, hdigits⟩, rfl, Option.some.inj h⟩
      · cases h
    · split at h
      · rename_i hdigits
        exact ⟨⟨false, t, hdigits⟩, rfl, Option.some.inj h⟩
      · cases h
  · rintro ⟨numeral, rfl, rfl⟩
    exact numeral.readPlainInteger?_text

theorem eq_minus_or_isDigit_of_mem_text {numeral : Numeral} {c : Char} (h : c ∈ numeral.text) :
    c = '-' ∨ c.isDigit = true := by
  have hdigits := (Text.isDigits_iff.1 numeral.isDigits).2
  unfold text at h
  split at h
  · exact (List.mem_cons.1 h).imp_right (hdigits c)
  · exact .inr (hdigits c h)

theorem dot_not_mem_text (numeral : Numeral) : '.' ∉ numeral.text := by
  intro hmem
  rcases eq_minus_or_isDigit_of_mem_text hmem with heq | hdigit
  · cases heq
  · cases hdigit

theorem hasLeadingZero_text (numeral : Numeral) :
    hasLeadingZero numeral.text = true ↔ numeral.HasLeadingZero := by
  have hdigit := (Text.isDigits_iff.1 numeral.isDigits).2
  have hsecond : ∀ next rest, numeral.digits = '0' :: next :: rest → next.isDigit = true := by
    intro next rest heq
    exact hdigit next (by simp [heq])
  unfold text
  split
  · unfold hasLeadingZero HasLeadingZero
    split <;> simp_all
  · have hminus : ∀ rest, numeral.digits ≠ '-' :: rest := by
      intro rest heq
      have hminus := hdigit '-' (by simp [heq])
      cases hminus
    unfold hasLeadingZero HasLeadingZero
    split <;> simp_all

/-! ## Widths -/

/-- A number from 0 to that of a numeral has no more digits than the numeral is long. -/
theorem length_toDigits_le_of_nonneg {numeral : Numeral} {i : Int} (h : 0 ≤ i)
    (hle : i ≤ numeral.value) : (Nat.toDigits 10 i.natAbs).length ≤ numeral.text.length := by
  have hvalue := numeral.natAbs_value
  have hdigits : (Nat.toDigits 10 i.natAbs).length ≤ numeral.digits.length :=
    Text.length_toDigits_le numeral.isDigits (by omega)
  refine Nat.le_trans hdigits ?_
  unfold text
  split
  · exact Nat.le_succ _
  · exact Nat.le_refl _

/-- A negative number from that of a numeral on has, with its sign, no more characters than the
numeral. -/
theorem length_toDigits_lt_of_neg {numeral : Numeral} {i : Int} (h : i < 0)
    (hle : numeral.value ≤ i) : (Nat.toDigits 10 i.natAbs).length < numeral.text.length := by
  have hvalue := numeral.natAbs_value
  have hdigits : (Nat.toDigits 10 i.natAbs).length ≤ numeral.digits.length :=
    Text.length_toDigits_le numeral.isDigits (by omega)
  cases hsign : numeral.isNegative with
  | true =>
    rw [text, hsign, if_pos rfl, List.length_cons]
    omega
  | false =>
    rw [value, hsign, if_neg Bool.false_ne_true] at hle
    omega

/-- A number between two numerals, filled to the length of the longer one, has that length. -/
theorem length_zeroFilled {first last : Numeral} {i : Int}
    (hleast : min first.value last.value ≤ i) (hgreatest : i ≤ max first.value last.value) :
    (Text.zeroFilled (max first.text.length last.text.length) i).length =
      max first.text.length last.text.length := by
  by_cases h : i < 0
  · have hfits : (Nat.toDigits 10 i.natAbs).length < max first.text.length last.text.length := by
      have hends : first.value ≤ i ∨ last.value ≤ i := by omega
      rcases hends with hfirst | hlast
      · have hlt := length_toDigits_lt_of_neg h hfirst
        omega
      · have hlt := length_toDigits_lt_of_neg h hlast
        omega
    rw [Text.zeroFilled_of_neg h, List.length_cons, List.length_append, List.length_replicate]
    omega
  · have hnonneg : 0 ≤ i := Int.not_lt.1 h
    have hfits : (Nat.toDigits 10 i.natAbs).length ≤ max first.text.length last.text.length := by
      have hends : i ≤ first.value ∨ i ≤ last.value := by omega
      rcases hends with hfirst | hlast
      · have hle := length_toDigits_le_of_nonneg hnonneg hfirst
        omega
      · have hle := length_toDigits_le_of_nonneg hnonneg hlast
        omega
    rw [Text.zeroFilled_of_nonneg hnonneg, List.length_append, List.length_replicate]
    omega

end Numeral

end Sequence

end PathOptions
