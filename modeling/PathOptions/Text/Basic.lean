/-!
Texts as lists of characters, and the ways of cutting and joining them that paths, patterns and
reports share. Cutting at a separator and joining with it undo each other (`join_pieces`,
`pieces_join`).
-/

namespace PathOptions

/-- A text is the sequence of its Unicode characters. -/
abbrev Text := List Char

instance : LawfulBEq Text := inferInstance

namespace Text

/-- The same text as a string, for messages. -/
def str (t : Text) : String := String.ofList t

/-- Cuts at the first `sep`, which is dropped; nothing comes second if there is none. -/
def cutFirst (sep : Char) : Text → Text × Option Text
  | [] => ([], none)
  | c :: cs =>
    if c = sep then ([], some cs)
    else
      let (left, right) := cutFirst sep cs
      (c :: left, right)

/-- Cuts at the last occurrence of the non-empty text `sep`, which is dropped; `none` if there is
none. -/
def cutLast? (sep : Text) : Text → Option (Text × Text)
  | [] => none
  | c :: cs =>
    match cutLast? sep cs with
    | some (left, right) => some (c :: left, right)
    | none => if sep.isPrefixOf (c :: cs) then some ([], (c :: cs).drop sep.length) else none

/-- The pieces between the separators, at least one, empty pieces included. -/
def pieces (sep : Char) : Text → List Text
  | [] => [[]]
  | c :: cs =>
    if c = sep then [] :: pieces sep cs
    else
      match pieces sep cs with
      | [] => [[c]]
      | piece :: rest => (c :: piece) :: rest

def join (sep : Char) : List Text → Text
  | [] => []
  | [piece] => piece
  | piece :: next :: rest => piece ++ sep :: join sep (next :: rest)

theorem pieces_ne_nil (sep : Char) (t : Text) : pieces sep t ≠ [] := by
  cases t with
  | nil => simp [pieces]
  | cons c cs =>
    simp only [pieces]
    split
    · simp
    · split <;> simp

theorem pieces_of_not_mem {sep : Char} {t : Text} (h : sep ∉ t) : pieces sep t = [t] := by
  induction t with
  | nil => rfl
  | cons c cs ih =>
    simp only [List.mem_cons, not_or] at h
    rw [pieces, if_neg (Ne.symm h.1), ih h.2]

/-- A separator parts the pieces before it from those behind it. -/
theorem pieces_append_cons (sep : Char) (before after : Text) :
    pieces sep (before ++ sep :: after) = pieces sep before ++ pieces sep after := by
  induction before with
  | nil => simp [pieces]
  | cons c cs ih =>
    rw [List.cons_append, pieces, pieces, ih]
    split
    · rfl
    · cases hp : pieces sep cs with
      | nil => exact absurd hp (pieces_ne_nil sep cs)
      | cons piece rest => rfl

theorem pieces_append {sep : Char} {piece : Text} (h : sep ∉ piece) (rest : Text) :
    pieces sep (piece ++ sep :: rest) = piece :: pieces sep rest := by
  rw [pieces_append_cons, pieces_of_not_mem h, List.singleton_append]

theorem not_mem_of_mem_pieces {sep : Char} {t piece : Text} (h : piece ∈ pieces sep t) :
    sep ∉ piece := by
  induction t generalizing piece with
  | nil =>
    obtain rfl := List.mem_singleton.1 h
    exact List.not_mem_nil
  | cons c cs ih =>
    rw [pieces] at h
    split at h
    · rcases List.mem_cons.1 h with rfl | h
      · exact List.not_mem_nil
      · exact ih h
    · rename_i hc
      cases hp : pieces sep cs with
      | nil => exact absurd hp (pieces_ne_nil sep cs)
      | cons first rest =>
        rw [hp] at h ih
        rcases List.mem_cons.1 h with rfl | h
        · have hfirst := ih (.head rest)
          simp [Ne.symm hc, hfirst]
        · exact ih (.tail first h)

/-- Nothing but one text can come before the first separator. -/
theorem eq_of_append_sep {sep : Char} {before piece after rest : Text}
    (h : before ++ sep :: after = piece ++ sep :: rest) (hbefore : sep ∉ before)
    (hpiece : sep ∉ piece) : before = piece ∧ after = rest := by
  have hpieces := congrArg (pieces sep) h
  rw [pieces_append hbefore, pieces_append hpiece] at hpieces
  obtain ⟨rfl, -⟩ := List.cons.inj hpieces
  exact ⟨rfl, (List.cons.inj (List.append_cancel_left h)).2⟩

theorem join_pieces (sep : Char) (t : Text) : join sep (pieces sep t) = t := by
  induction t with
  | nil => rfl
  | cons c cs ih =>
    simp only [pieces]
    split
    · rename_i h
      cases hp : pieces sep cs with
      | nil => exact absurd hp (pieces_ne_nil sep cs)
      | cons piece rest => rw [hp] at ih; simp [join, ih, h]
    · cases hp : pieces sep cs with
      | nil => exact absurd hp (pieces_ne_nil sep cs)
      | cons piece rest =>
        rw [hp] at ih
        cases rest with
        | nil => simpa [join] using ih
        | cons next rest => simpa [join] using ih

theorem join_cons (sep : Char) (piece : Text) {rest : List Text} (h : rest ≠ []) :
    join sep (piece :: rest) = piece ++ sep :: join sep rest := by
  cases rest with
  | nil => exact absurd rfl h
  | cons next others => rfl

theorem join_append {sep : Char} {before after : List Text} (hbefore : before ≠ [])
    (hafter : after ≠ []) :
    join sep (before ++ after) = join sep before ++ sep :: join sep after := by
  induction before with
  | nil => exact absurd rfl hbefore
  | cons piece rest ih =>
    cases rest with
    | nil => exact join_cons sep piece hafter
    | cons next rest =>
      have hrest := ih (List.cons_ne_nil next rest)
      rw [List.cons_append, join_cons sep piece (by simp), hrest,
        join_cons sep piece (List.cons_ne_nil next rest), List.append_assoc, List.cons_append]

/-- Texts without the separator are the pieces of what joins them. -/
theorem pieces_join {sep : Char} {texts : List Text} (hne : texts ≠ [])
    (h : ∀ t ∈ texts, sep ∉ t) : pieces sep (join sep texts) = texts := by
  induction texts with
  | nil => exact absurd rfl hne
  | cons t rest ih =>
    have ht := h t (.head rest)
    cases rest with
    | nil => exact pieces_of_not_mem ht
    | cons next rest =>
      have hrest := ih (List.cons_ne_nil next rest) fun other hother => h other (.tail t hother)
      rw [join, pieces_append ht, hrest]

theorem not_mem_join {mark sep : Char} (hne : mark ≠ sep) {texts : List Text}
    (h : ∀ t ∈ texts, mark ∉ t) : mark ∉ join sep texts := by
  induction texts with
  | nil => exact List.not_mem_nil
  | cons t rest ih =>
    have ht := h t (.head rest)
    cases rest with
    | nil => exact ht
    | cons next rest =>
      have hrest := ih fun other hother => h other (.tail t hother)
      simp [join, ht, hne, hrest]

/-- Drops the characters at the end that occur in `marks`. -/
def trimEnd (marks : Text) (t : Text) : Text :=
  (t.reverse.dropWhile marks.contains).reverse

/-- Replaces from left to right; the first argument counts characters of an occurrence of `old`
that is already replaced. -/
def replaceFrom (old new : Text) : Nat → Text → Text
  | _, [] => []
  | k + 1, _ :: cs => replaceFrom old new k cs
  | 0, c :: cs =>
    if old.isPrefixOf (c :: cs) then new ++ replaceFrom old new (old.length - 1) cs
    else c :: replaceFrom old new 0 cs

/-- Replaces every occurrence of the non-empty text `old`, from left to right. -/
def replaceAll (old new : Text) (t : Text) : Text := replaceFrom old new 0 t

/-- Code point order, character by character; a text comes after its own beginnings. -/
def le : Text → Text → Bool
  | [], _ => true
  | _ :: _, [] => false
  | a :: as, b :: bs => if a = b then le as bs else a.toNat < b.toNat

end Text

end PathOptions
