import PathOptions.Text.Basic
/-!
Reading a text under braces and escapes. A backslash protects the character after it and stays in
the text; a brace that is not protected opens or closes a level, and a closing brace at the outer
level changes nothing. A separator counts only where it is not protected and stands at the outer
level.
-/

namespace PathOptions.Brace

def levelAfter (level : Nat) (c : Char) : Nat :=
  if c = '{' then level + 1 else if c = '}' then level - 1 else level

def keepLeft (kept : Text) (cut : Text × Option Text) : Text × Option Text :=
  (kept ++ cut.1, cut.2)

/-- Cuts at the first separator that counts, the text starting at the given level. -/
def splitFrom (sep : Char) (level : Nat) : Text → Text × Option Text
  | [] => ([], none)
  | c :: cs =>
    if c = '\\' then
      match cs with
      | [] => ([c], none)
      | d :: rest => keepLeft [c, d] (splitFrom sep level rest)
    else if c = sep ∧ level = 0 then ([], some cs)
    else keepLeft [c] (splitFrom sep (levelAfter level c) cs)

/-- Cuts at the first separator that counts and drops it; without one, the whole text is left. -/
def split (sep : Char) (t : Text) : Text × Option Text := splitFrom sep 0 t

/-- What a cut leaves is the text itself. -/
theorem splitFrom_none {sep : Char} {level : Nat} {t left : Text}
    (h : splitFrom sep level t = (left, none)) : left = t := by
  fun_induction splitFrom sep level t generalizing left with
  | case1 => simp_all
  | case2 => simp_all
  | case3 level d rest ih =>
    simp only [keepLeft, Prod.mk.injEq] at h
    have kept := ih (Prod.ext rfl h.2)
    simp [← h.1, kept]
  | case4 => simp at h
  | case5 level c cs _ _ ih =>
    simp only [keepLeft, Prod.mk.injEq] at h
    have kept := ih (Prod.ext rfl h.2)
    simp [← h.1, kept]

/-- The separator is put back between the parts of a cut. -/
theorem splitFrom_some {sep : Char} {level : Nat} {t left right : Text}
    (h : splitFrom sep level t = (left, some right)) : t = left ++ sep :: right := by
  fun_induction splitFrom sep level t generalizing left right with
  | case1 => simp at h
  | case2 => simp at h
  | case3 level d rest ih =>
    simp only [keepLeft, Prod.mk.injEq] at h
    have kept := ih (Prod.ext rfl h.2)
    simp [← h.1, ← kept]
  | case4 level c cs _ hc => simp_all
  | case5 level c cs _ _ ih =>
    simp only [keepLeft, Prod.mk.injEq] at h
    have kept := ih (Prod.ext rfl h.2)
    simp [← h.1, ← kept]

/-- A cut with two parts leaves less than the text. -/
theorem split_length {sep : Char} {t left right : Text} (h : split sep t = (left, some right)) :
    left.length + right.length + 1 = t.length := by
  rw [splitFrom_some h]
  simp
  omega

/-- The items between all separators that count; at least one. -/
def splitAll (sep : Char) (t : Text) : List Text :=
  match _h : split sep t with
  | (item, none) => [item]
  | (item, some rest) => item :: splitAll sep rest
termination_by t.length
decreasing_by
  have := split_length _h
  omega

theorem splitAll_of_split_none {sep : Char} {t left : Text} (h : split sep t = (left, none)) :
    splitAll sep t = [t] := by
  obtain rfl := splitFrom_none h
  rw [splitAll]
  split <;> simp_all

theorem splitAll_of_split_some {sep : Char} {t left right : Text}
    (h : split sep t = (left, some right)) : splitAll sep t = left :: splitAll sep right := by
  rw [splitAll]
  split <;> simp_all

theorem splitAll_ne_nil (sep : Char) (t : Text) : splitAll sep t ≠ [] := by
  rw [splitAll]
  split <;> exact List.cons_ne_nil _ _

/-- No item is longer than the text. -/
theorem length_le_of_mem_splitAll {sep : Char} {t item : Text} (h : item ∈ splitAll sep t) :
    item.length ≤ t.length := by
  fun_induction splitAll sep t with
  | case1 t whole hs =>
    rw [List.mem_singleton] at h
    exact Nat.le_of_eq (by rw [h, splitFrom_none hs])
  | case2 t first rest hs ih =>
    have hl := split_length hs
    rcases List.mem_cons.1 h with rfl | h
    · omega
    · have := ih h
      omega

end PathOptions.Brace
