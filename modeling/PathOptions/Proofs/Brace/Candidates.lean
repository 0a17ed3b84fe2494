import PathOptions.Brace.Scan
/-!
One scan of a whole text under braces and escapes. It meets every character that no backslash
protects, at a position and at a level; a separator that it meets at the outer level is a candidate
for a cut. A scan of a text goes on where a scan of its beginning ended (`scan_append`), and behind
a candidate it is at the outer level again. So cutting at the first separator, and searching anew
behind it, finds the candidates of the one scan, one after the other (`splitAll_eq_cutAt`).
-/

namespace PathOptions.Brace

/-- A character that no backslash protects. -/
structure Sighting where
  char : Char
  position : Nat
  /-- The level before the character. -/
  level : Nat
  deriving DecidableEq, Repr

/-- What a scan meets in a text that begins at a position and at a level. -/
def scan (position level : Nat) : Text → List Sighting
  | [] => []
  | c :: cs =>
    if c = '\\' then
      match cs with
      | [] => []
      | _ :: rest => scan (position + 2) level rest
    else ⟨c, position, level⟩ :: scan (position + 1) (levelAfter level c) cs

/-- The level behind a text, unless its last backslash protects what follows. -/
def levelBehind? (level : Nat) : Text → Option Nat
  | [] => some level
  | c :: cs =>
    if c = '\\' then
      match cs with
      | [] => none
      | _ :: rest => levelBehind? level rest
    else levelBehind? (levelAfter level c) cs

def Sighting.isOuter (c : Char) (sighting : Sighting) : Bool :=
  sighting.char == c && sighting.level == 0

/-- The positions of a character at the outer level, in a text that begins at a position. -/
def candidates (c : Char) (position : Nat) (t : Text) : List Nat :=
  ((scan position 0 t).filter (·.isOuter c)).map (·.position)

/-- The pieces of a text that begins at a position, cut at positions of single characters. -/
def cutAt (position : Nat) : List Nat → Text → List Text
  | [], t => [t]
  | cut :: cuts, t =>
    t.take (cut - position) :: cutAt (cut + 1) cuts (t.drop (cut - position + 1))

/-! ## Scanning on -/

theorem scan_escaped (position level : Nat) (c : Char) (rest : Text) :
    scan position level ('\\' :: c :: rest) = scan (position + 2) level rest := rfl

theorem scan_cons {c : Char} (h : c ≠ '\\') (position level : Nat) (rest : Text) :
    scan position level (c :: rest) =
      ⟨c, position, level⟩ :: scan (position + 1) (levelAfter level c) rest := by
  rw [scan.eq_def]
  exact if_neg h

theorem scan_append {level next : Nat} {a : Text} (h : levelBehind? level a = some next)
    (position : Nat) (b : Text) :
    scan position level (a ++ b) = scan position level a ++ scan (position + a.length) next b := by
  fun_induction levelBehind? level a generalizing position with
  | case1 level =>
    obtain rfl := Option.some.inj h
    rfl
  | case2 => cases h
  | case3 level d rest ih =>
    have hposition : position + ('\\' :: d :: rest).length = position + 2 + rest.length := by
      simp only [List.length_cons]
      omega
    rw [List.cons_append, List.cons_append, scan_escaped, scan_escaped, ih h, hposition]
  | case4 level c cs hslash ih =>
    have hposition : position + (c :: cs).length = position + 1 + cs.length := by
      simp only [List.length_cons]
      omega
    rw [List.cons_append, scan_cons hslash, scan_cons hslash, ih h, hposition, List.cons_append]

theorem levelBehind?_cons {c : Char} (h : c ≠ '\\') (level : Nat) (rest : Text) :
    levelBehind? level (c :: rest) = levelBehind? (levelAfter level c) rest := by
  rw [levelBehind?.eq_def]
  exact if_neg h

theorem levelBehind?_append {level next : Nat} {a : Text} (h : levelBehind? level a = some next)
    (b : Text) : levelBehind? level (a ++ b) = levelBehind? next b := by
  fun_induction levelBehind? level a with
  | case1 level =>
    obtain rfl := Option.some.inj h
    rfl
  | case2 => cases h
  | case3 level d rest ih => exact ih h
  | case4 level c cs hslash ih => rw [List.cons_append, levelBehind?_cons hslash, ih h]

/-- What a scan meets is met within the text. -/
theorem position_of_mem_scan {position level : Nat} {t : Text} {sighting : Sighting}
    (h : sighting ∈ scan position level t) :
    position ≤ sighting.position ∧ sighting.position < position + t.length := by
  fun_induction scan position level t with
  | case1 | case2 => cases h
  | case3 position level d rest ih =>
    have hrest := ih h
    simp only [List.length_cons]
    omega
  | case4 position level c cs _ ih =>
    simp only [List.length_cons]
    rcases List.mem_cons.1 h with rfl | h
    · dsimp only
      omega
    · have hrest := ih h
      omega

/-! ## Candidates -/

section

variable {c mark : Char} {position : Nat} {a b : Text}

theorem position_of_mem_candidates {k : Nat} (h : k ∈ candidates c position a) :
    position ≤ k ∧ k < position + a.length := by
  obtain ⟨sighting, hsighting, rfl⟩ := List.mem_map.1 h
  exact position_of_mem_scan (List.mem_filter.1 hsighting).1

theorem candidates_append (h : levelBehind? 0 a = some 0) :
    candidates c position (a ++ b) =
      candidates c position a ++ candidates c (position + a.length) b := by
  rw [candidates, scan_append h, List.filter_append, List.map_append]
  rfl

/-- Separators that leave the level as it is. -/
def IsMark (c : Char) : Prop := c = ',' ∨ c = '}'

theorem IsMark.ne_backslash (h : IsMark mark) : mark ≠ '\\' := by
  rcases h with rfl | rfl <;> decide

theorem IsMark.levelAfter (h : IsMark mark) : levelAfter 0 mark = 0 := by
  rcases h with rfl | rfl <;> rfl

theorem candidates_cons (h : IsMark mark) :
    candidates c position (mark :: b) =
      if mark = c then position :: candidates c (position + 1) b
      else candidates c (position + 1) b := by
  rw [candidates, scan_cons h.ne_backslash, h.levelAfter, List.filter_cons]
  by_cases heq : mark = c <;> simp [Sighting.isOuter, heq, candidates]

end

/-! ## Cuts -/

section

variable {sep : Char} {level : Nat} {t left right : Text}

/-- A search that finds nothing passes over no separator at the outer level. -/
theorem isOuter_of_splitFrom_none (h : splitFrom sep level t = (left, none)) {position : Nat}
    {sighting : Sighting} (hmem : sighting ∈ scan position level t) :
    sighting.isOuter sep = false := by
  fun_induction splitFrom sep level t generalizing left position with
  | case1 | case2 => cases hmem
  | case3 level d rest ih =>
    simp only [keepLeft, Prod.mk.injEq] at h
    exact ih (Prod.ext rfl h.2) hmem
  | case4 => cases h
  | case5 level c cs hslash hnot ih =>
    simp only [keepLeft, Prod.mk.injEq] at h
    rw [scan_cons hslash] at hmem
    rcases List.mem_cons.1 hmem with rfl | hmem
    · simpa [Sighting.isOuter] using hnot
    · exact ih (Prod.ext rfl h.2) hmem

/-- A search stops at the first separator at the outer level. -/
theorem levelBehind?_of_splitFrom (h : splitFrom sep level t = (left, some right)) :
    levelBehind? level left = some 0 ∧
      ∀ position, ∀ sighting ∈ scan position level left, sighting.isOuter sep = false := by
  fun_induction splitFrom sep level t generalizing left right with
  | case1 | case2 => cases h
  | case3 level d rest ih =>
    simp only [keepLeft, Prod.mk.injEq] at h
    obtain ⟨rfl, hright⟩ := h
    obtain ⟨hlevel, hnone⟩ := ih (Prod.ext rfl hright)
    exact ⟨hlevel, fun position => hnone (position + 2)⟩
  | case4 level c cs _ hstop =>
    cases h
    refine ⟨congrArg some hstop.2, ?_⟩
    intro position sighting hmem
    cases hmem
  | case5 level c cs hslash hnot ih =>
    simp only [keepLeft, Prod.mk.injEq] at h
    obtain ⟨rfl, hright⟩ := h
    obtain ⟨hlevel, hnone⟩ := ih (Prod.ext rfl hright)
    refine ⟨?_, ?_⟩
    · rw [List.singleton_append, levelBehind?_cons hslash, hlevel]
    · intro position sighting hmem
      rw [List.singleton_append, scan_cons hslash] at hmem
      rcases List.mem_cons.1 hmem with rfl | hmem
      · simpa [Sighting.isOuter] using hnot
      · exact hnone _ sighting hmem

theorem candidates_eq_nil_iff {position : Nat} :
    candidates sep position t = [] ↔
      ∀ sighting ∈ scan position 0 t, sighting.isOuter sep = false := by
  rw [candidates, List.map_eq_nil_iff, List.filter_eq_nil_iff]
  simp only [Bool.not_eq_true]

theorem candidates_of_split_none (h : split sep t = (left, none)) (position : Nat) :
    candidates sep position t = [] :=
  candidates_eq_nil_iff.2 fun _ hmem => isOuter_of_splitFrom_none h hmem

/-- The first candidate is where a search for a separator cuts, and the others are those of the
text behind the cut. -/
theorem candidates_of_split (hsep : IsMark sep) (h : split sep t = (left, some right))
    (position : Nat) :
    candidates sep position t =
      (position + left.length) :: candidates sep (position + left.length + 1) right := by
  obtain ⟨hlevel, hnone⟩ := levelBehind?_of_splitFrom h
  rw [splitFrom_some h, candidates_append hlevel, candidates_eq_nil_iff.2 (hnone position),
    candidates_cons hsep, if_pos rfl, List.nil_append]

/-- Another separator has its candidates before and behind the cut. -/
theorem candidates_of_split_other {mark : Char} (hsep : IsMark sep) (hmark : sep ≠ mark)
    (h : split sep t = (left, some right)) (position : Nat) :
    candidates mark position t =
      candidates mark position left ++ candidates mark (position + left.length + 1) right := by
  obtain ⟨hlevel, _⟩ := levelBehind?_of_splitFrom h
  rw [splitFrom_some h, candidates_append hlevel, candidates_cons hsep, if_neg hmark]

/-- Items are the pieces between all candidates. -/
theorem splitAll_eq_cutAt (hsep : IsMark sep) (t : Text) (position : Nat) :
    splitAll sep t = cutAt position (candidates sep position t) t := by
  fun_induction splitAll sep t generalizing position with
  | case1 t item h =>
    rw [candidates_of_split_none h, cutAt, splitFrom_none h]
  | case2 t item rest h ih =>
    have htake : t.take (position + item.length - position) = item := by
      rw [splitFrom_some h, Nat.add_sub_cancel_left, List.take_left]
    have hdrop : t.drop (position + item.length - position + 1) = rest := by
      rw [splitFrom_some h, Nat.add_sub_cancel_left, List.drop_append]
      simp
    rw [candidates_of_split hsep h, cutAt, htake, hdrop, ← ih]

end

theorem length_cutAt (position : Nat) (cuts : List Nat) (t : Text) :
    (cutAt position cuts t).length = cuts.length + 1 := by
  induction cuts generalizing position t with
  | nil => rfl
  | cons cut rest ih => rw [cutAt, List.length_cons, ih, List.length_cons]

end PathOptions.Brace
