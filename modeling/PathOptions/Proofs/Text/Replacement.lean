import PathOptions.Text.Basic
/-!
What replacing one text by another does: an occurrence is replaced where it begins, and what cannot
begin an occurrence stays.
-/

namespace PathOptions.Text

theorem replaceFrom_length (old new skipped rest : Text) :
    replaceFrom old new skipped.length (skipped ++ rest) = replaceFrom old new 0 rest := by
  induction skipped with
  | nil => rfl
  | cons c cs ih => exact ih

theorem replaceAll_occurrence {old : Text} (hold : old ≠ []) (new rest : Text) :
    replaceAll old new (old ++ rest) = new ++ replaceAll old new rest := by
  cases old with
  | nil => exact absurd rfl hold
  | cons c cs =>
    have hbegins : (c :: cs).isPrefixOf (c :: (cs ++ rest)) :=
      List.isPrefixOf_iff_prefix.2 (List.prefix_append (c :: cs) rest)
    rw [replaceAll, List.cons_append, replaceFrom, if_pos hbegins]
    exact congrArg (new ++ ·) (replaceFrom_length (c :: cs) new cs rest)

/-- Where no occurrence begins, a character stays. -/
theorem replaceAll_cons {old t : Text} {c : Char} (h : ¬ old <+: c :: t) (new : Text) :
    replaceAll old new (c :: t) = c :: replaceAll old new t := by
  rw [replaceAll, replaceFrom, if_neg fun hbegins => h (List.isPrefixOf_iff_prefix.1 hbegins)]
  rfl

/-- What lacks the first character of the occurrences stays. -/
theorem replaceAll_append_of_not_mem {c : Char} {t : Text} (h : c ∉ t) (old new rest : Text) :
    replaceAll (c :: old) new (t ++ rest) = t ++ replaceAll (c :: old) new rest := by
  induction t with
  | nil => rfl
  | cons d ds ih =>
    rw [List.mem_cons, not_or] at h
    have hother : ¬ c :: old <+: d :: (ds ++ rest) := by
      intro hbegins
      exact h.1 (List.cons_prefix_cons.1 hbegins).1
    rw [List.cons_append, replaceAll_cons hother, ih h.2, List.cons_append]

/-- A single character is replaced wherever it stands. -/
theorem replaceAll_singleton (c : Char) (new t : Text) :
    replaceAll [c] new t = t.flatMap fun d => if d = c then new else [d] := by
  induction t with
  | nil => rfl
  | cons d ds ih =>
    rw [List.flatMap_cons, ← ih]
    by_cases h : d = c
    · rw [if_pos h, h]
      exact replaceAll_occurrence (List.cons_ne_nil c []) new ds
    · have hother : ¬ [c] <+: d :: ds := by
        intro hbegins
        exact h (List.cons_prefix_cons.1 hbegins).1.symm
      rw [if_neg h, replaceAll_cons hother, List.singleton_append]

end PathOptions.Text
