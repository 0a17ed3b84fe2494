import PathOptions.Brace.Pattern
/-!
How a search for a separator passes over text. A text is passed if the search goes on behind it,
at the level at which it came to it, whatever follows. Passed texts can be put after one another
and between braces, so that whole patterns are passed; the search ends at the first separator
behind them. From this follow the cuts that a pattern is parsed with.
-/

namespace PathOptions.Brace

theorem keepLeft_keepLeft (a b : Text) (cut : Text × Option Text) :
    keepLeft a (keepLeft b cut) = keepLeft (a ++ b) cut := by
  simp [keepLeft]

def Passes (sep : Char) (level : Nat) (t : Text) : Prop :=
  ∀ rest, splitFrom sep level (t ++ rest) = keepLeft t (splitFrom sep level rest)

section

variable {sep : Char} {level : Nat} {a b : Text}

theorem passes_nil : Passes sep level [] := fun _ => rfl

theorem Passes.append (ha : Passes sep level a) (hb : Passes sep level b) :
    Passes sep level (a ++ b) := by
  intro rest
  rw [List.append_assoc, ha, hb, keepLeft_keepLeft]

theorem passes_escaped (c : Char) : Passes sep level ['\\', c] := fun _ => rfl

/-- A character that opens and closes nothing is passed unless it is the separator. -/
theorem passes_char {c : Char} (hslash : c ≠ '\\') (hopen : c ≠ '{') (hclose : c ≠ '}')
    (hsep : c ≠ sep ∨ level ≠ 0) : Passes sep level [c] := by
  intro rest
  have hnot : ¬ (c = sep ∧ level = 0) := by
    intro hcut
    obtain ⟨hc, hl⟩ := hcut
    exact hsep.elim (absurd hc) (absurd hl)
  rw [List.singleton_append, splitFrom.eq_def]
  simp [hslash, hnot, levelAfter, hopen, hclose]

/-- Braces around a text are passed with it, unless the opening one is what is looked for. -/
theorem Passes.enclosed (hsep : sep ≠ '{') (ha : Passes sep (level + 1) a) :
    Passes sep level ('{' :: (a ++ ['}'])) := by
  intro rest
  have hopen : splitFrom sep level ('{' :: (a ++ '}' :: rest)) =
      keepLeft ['{'] (splitFrom sep (level + 1) (a ++ '}' :: rest)) := by
    rw [splitFrom.eq_def]
    simp [Ne.symm hsep, levelAfter]
  have hclose : splitFrom sep (level + 1) ('}' :: rest) =
      keepLeft ['}'] (splitFrom sep level rest) := by
    rw [splitFrom.eq_def]
    simp [levelAfter]
  rw [List.cons_append, List.append_assoc, List.singleton_append, hopen, ha, hclose,
    keepLeft_keepLeft, keepLeft_keepLeft]
  simp

/-- The search ends at the first separator behind what it passed. -/
theorem Passes.split (hsep : sep ≠ '\\') (ha : Passes sep 0 a) (rest : Text) :
    split sep (a ++ sep :: rest) = (a, some rest) := by
  have hstop : splitFrom sep 0 (sep :: rest) = ([], some rest) := by
    rw [splitFrom.eq_def]
    simp [hsep]
  rw [Brace.split, ha, hstop]
  simp [keepLeft]

/-- Without a separator the search ends at the end. -/
theorem Passes.split_end (ha : Passes sep 0 a) : Brace.split sep a = (a, none) := by
  have h := ha []
  rw [List.append_nil] at h
  rw [Brace.split, h]
  simp [splitFrom, keepLeft]

theorem Passes.splitAll (hsep : sep ≠ '\\') (ha : Passes sep 0 a) (rest : Text) :
    splitAll sep (a ++ sep :: rest) = a :: splitAll sep rest :=
  splitAll_of_split_some (ha.split hsep rest)

theorem Passes.splitAll_end (ha : Passes sep 0 a) : Brace.splitAll sep a = [a] :=
  splitAll_of_split_none ha.split_end

end

/-! ## Parsing -/

def Body.trees : Body → List Tree
  | .empty => [.text ['{', '}']]
  | .sequence elements => elements.map .text
  | .items patterns => patterns.map parse

section

variable {pattern lead post after : Text}

theorem parse_of_no_open {whole : Text} (h : split '{' pattern = (whole, none)) :
    parse pattern = .text pattern := by
  rw [parse]
  split <;> simp_all

theorem parse_of_group {body : Body} (h : split '{' pattern = (lead, some post))
    (hclose : closeGroup none post = some (body, after)) :
    parse pattern = .group lead body.trees (parse after) := by
  rw [parse]
  split
  · simp_all
  · cases body <;> split <;> simp_all [Body.trees]

theorem parse_of_unclosed (h : split '{' pattern = (lead, some post))
    (hclose : closeGroup none post = none) :
    parse pattern = .group (lead ++ ['{']) [.text []] (parse post) := by
  rw [parse]
  split
  · simp_all
  · split <;> simp_all

end

/-! ## Closing a group -/

section

variable {rejected : Option Text} {t piece after : Text}

theorem closeGroup_of_exhausted {whole : Text} (h : split '}' t = (whole, none)) :
    closeGroup rejected t = none := by
  rw [closeGroup]
  split <;> simp_all

theorem closeGroup_of_closed {body : Body} (h : split '}' t = (piece, some after))
    (hbody : readBody (widen rejected piece) = some body) :
    closeGroup rejected t = some (body, after) := by
  rw [closeGroup]
  split <;> simp_all

theorem closeGroup_of_widened (h : split '}' t = (piece, some after))
    (hbody : readBody (widen rejected piece) = none) :
    closeGroup rejected t = closeGroup (some (widen rejected piece)) after := by
  rw [closeGroup]
  split <;> simp_all

/-- The first closing brace closes the group if the text before it is a body. -/
theorem closeGroup_of_body {body : Body} (hpiece : Passes '}' 0 piece)
    (hbody : readBody piece = some body) :
    closeGroup none (piece ++ '}' :: after) = some (body, after) :=
  closeGroup_of_closed (hpiece.split (by decide) after) hbody

end

end PathOptions.Brace
