import PathOptions.Brace.Pattern
/-!
Walking through the results of a tree one at a time, without building those not asked for. A
cursor is a value: it can be kept, copied and advanced independently of any other.
-/

namespace PathOptions.Brace

/-- A result under construction: the text written so far and the trees still to be written. -/
structure Draft where
  written : Text
  remaining : List Tree
  deriving Repr

/-- The drafts still to be finished, the next one first. -/
abbrev Cursor := List Draft

namespace Cursor

def draftWeight (draft : Draft) : Nat :=
  draft.remaining.foldr (fun tree product => tree.weight * product) 1

/-- A bound on the steps left. -/
def weight : Cursor → Nat
  | [] => 0
  | draft :: rest => draftWeight draft + weight rest

def ofTree (tree : Tree) : Cursor := [⟨[], [tree]⟩]

def branch (written lead : Text) (choices : List Tree) (tail : Tree) (rest : List Tree) : Cursor :=
  choices.map fun choice => ⟨written ++ lead, choice :: tail :: rest⟩

theorem weight_branch (written lead : Text) (choices : List Tree) (tail : Tree)
    (rest : List Tree) :
    weight (branch written lead choices tail rest)
      = Tree.weightOfAny choices * (tail.weight * draftWeight ⟨[], rest⟩) := by
  induction choices with
  | nil => simp [branch, weight, Tree.weightOfAny]
  | cons choice others ih =>
    simp only [branch, draftWeight] at ih
    simp [branch, weight, Tree.weightOfAny, draftWeight, Nat.add_mul, ih]

theorem weight_append (a b : Cursor) : weight (a ++ b) = weight a + weight b := by
  induction a with
  | nil => exact (Nat.zero_add _).symm
  | cons draft rest ih => simp only [List.cons_append, weight, ih, Nat.add_assoc]

theorem tree_weight_pos (tree : Tree) : 0 < tree.weight := by
  cases tree <;> simp only [Tree.weight] <;> omega

theorem draftWeight_pos (draft : Draft) : 0 < draftWeight draft := by
  obtain ⟨written, remaining⟩ := draft
  induction remaining with
  | nil => simp [draftWeight]
  | cons tree rest ih =>
    simp only [draftWeight, List.foldr_cons] at ih ⊢
    exact Nat.mul_pos (tree_weight_pos tree) ih

/-- The next result and the cursor behind it; `none` behind the last one. -/
def next : Cursor → Option (Text × Cursor)
  | [] => none
  | ⟨written, []⟩ :: rest => some (written, rest)
  | ⟨written, .text t :: trees⟩ :: rest => next (⟨written ++ t, trees⟩ :: rest)
  | ⟨written, .group lead choices tail :: trees⟩ :: rest =>
    next (branch written lead choices tail trees ++ rest)
termination_by cursor => weight cursor
decreasing_by
  · have hpos := draftWeight_pos ⟨[], trees⟩
    simp only [weight, draftWeight, List.foldr_cons, Tree.weight] at *
    omega
  · rw [weight_append, weight_branch]
    have hpos := draftWeight_pos ⟨[], trees⟩
    simp only [weight, draftWeight, List.foldr_cons, Tree.weight,
      Nat.add_mul, Nat.mul_assoc] at *
    omega

/-- Advancing makes the rest lighter. -/
theorem weight_next {cursor rest : Cursor} {t : Text} (h : next cursor = some (t, rest)) :
    weight rest < weight cursor := by
  fun_induction next cursor with
  | case1 => simp at h
  | case2 written rest' =>
    simp only [Option.some.injEq, Prod.mk.injEq] at h
    simp [weight, draftWeight, h.2]
  | case3 written t' trees rest' ih =>
    refine Nat.lt_trans (ih h) ?_
    have hpos := draftWeight_pos ⟨[], trees⟩
    simp only [weight, draftWeight, List.foldr_cons, Tree.weight] at *
    omega
  | case4 written lead choices tail trees rest' ih =>
    refine Nat.lt_trans (ih h) ?_
    rw [weight_append, weight_branch]
    have hpos := draftWeight_pos ⟨[], trees⟩
    simp only [weight, draftWeight, List.foldr_cons, Tree.weight,
      Nat.add_mul, Nat.mul_assoc] at *
    omega

def take : Nat → Cursor → List Text
  | 0, _ => []
  | n + 1, cursor =>
    match next cursor with
    | none => []
    | some (t, rest) => t :: take n rest

end Cursor

def cursor (pattern : Text) : Cursor := Cursor.ofTree (parse pattern)

end PathOptions.Brace
