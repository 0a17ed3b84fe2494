import PathOptions.Brace.Scan
import PathOptions.Brace.Sequence
import PathOptions.Brace.Tree
/-!
Reading a brace pattern. Braces that enclose neither a sequence nor a list with a comma are kept as
text: a group is closed by the first closing brace that makes its body valid, and an opening brace
without such a partner is literal. No pattern is refused.
-/

namespace PathOptions.Brace

/-- What stands between the braces of a group. -/
inductive Body where
  /-- Nothing: the braces are literal. -/
  | empty
  | sequence (elements : List Text)
  /-- Patterns separated by commas. -/
  | items (patterns : List Text)
  deriving DecidableEq, Repr

/-- The meaning of a body; a single item that is no sequence has none. A sequence comes before a
list. -/
def readBody (body : Text) : Option Body :=
  if body.isEmpty then some .empty
  else
    match Sequence.generate body with
    | some elements => some (.sequence elements)
    | none =>
      match splitAll ',' body with
      | [] | [_] => none
      | patterns => some (.items patterns)

/-- The text that a body has up to its next closing brace, after text that was no body. -/
def widen (rejected : Option Text) (piece : Text) : Text :=
  match rejected with
  | none => piece
  | some t => t ++ '}' :: piece

/-- Looks for the closing brace that makes the text before it a body, and gives the body with the
text after the brace. -/
def closeGroup (rejected : Option Text) (t : Text) : Option (Body × Text) :=
  match _h : split '}' t with
  | (_, none) => none
  | (piece, some after) =>
    match readBody (widen rejected piece) with
    | some body => some (body, after)
    | none => closeGroup (some (widen rejected piece)) after
termination_by t.length
decreasing_by
  have := split_length _h
  omega

/-- The length of text that was no body, with the closing brace after it. -/
def rejectedLength : Option Text → Nat
  | none => 0
  | some t => t.length + 1

theorem length_widen (rejected : Option Text) (piece : Text) :
    (widen rejected piece).length = rejectedLength rejected + piece.length := by
  cases rejected with
  | none => simp [widen, rejectedLength]
  | some t => simp only [widen, rejectedLength, List.length_append, List.length_cons]; omega

/-- What follows a group is shorter than what follows its opening brace. -/
theorem length_after_closeGroup {rejected : Option Text} {t after : Text} {body : Body}
    (h : closeGroup rejected t = some (body, after)) : after.length < t.length := by
  fun_induction closeGroup rejected t with
  | case1 => simp at h
  | case2 rejected t piece rest hs found hb =>
    have := split_length hs
    simp only [Option.some.injEq, Prod.mk.injEq] at h
    rw [← h.2]
    omega
  | case3 rejected t piece rest hs hb ih =>
    have := split_length hs
    have := ih h
    omega

theorem length_le_of_mem_readBody {body item : Text} {patterns : List Text}
    (h : readBody body = some (.items patterns)) (hi : item ∈ patterns) :
    item.length ≤ body.length := by
  simp only [readBody] at h
  split at h
  · simp at h
  · split at h
    · simp at h
    · split at h
      · simp at h
      · simp at h
      · simp only [Option.some.injEq, Body.items.injEq] at h
        exact length_le_of_mem_splitAll (h ▸ hi)

/-- The patterns of a group are shorter than what follows its opening brace. -/
theorem length_of_mem_closeGroup {rejected : Option Text} {t after item : Text}
    {patterns : List Text} (h : closeGroup rejected t = some (.items patterns, after))
    (hi : item ∈ patterns) : item.length < rejectedLength rejected + t.length := by
  fun_induction closeGroup rejected t with
  | case1 => simp at h
  | case2 rejected t piece rest hs found hb =>
    have := split_length hs
    simp only [Option.some.injEq, Prod.mk.injEq] at h
    have hle := length_le_of_mem_readBody (h.1 ▸ hb) hi
    rw [length_widen] at hle
    omega
  | case3 rejected t piece rest hs hb ih =>
    have := split_length hs
    have hlt : item.length < (widen rejected piece).length + 1 + rest.length := ih h
    rw [length_widen] at hlt
    omega

def parse (pattern : Text) : Tree :=
  match _h : split '{' pattern with
  | (_, none) => .text pattern
  | (lead, some post) =>
    match _hc : closeGroup none post with
    | none => .group (lead ++ ['{']) [.text []] (parse post)
    | some (.empty, after) => .group lead [.text ['{', '}']] (parse after)
    | some (.sequence elements, after) => .group lead (elements.map .text) (parse after)
    | some (.items patterns, after) =>
      .group lead (patterns.attach.map fun ⟨item, _⟩ => parse item) (parse after)
termination_by pattern.length
decreasing_by
  all_goals have hl := split_length _h
  · omega
  · have := length_after_closeGroup _hc
    omega
  · have := length_after_closeGroup _hc
    omega
  · rename_i hi
    have := length_of_mem_closeGroup _hc hi
    simp only [rejectedLength] at this
    omega
  · have := length_after_closeGroup _hc
    omega

/-- Every text that a pattern stands for, in order; at least one. -/
def expand (pattern : Text) : List Text := (parse pattern).results

end PathOptions.Brace
