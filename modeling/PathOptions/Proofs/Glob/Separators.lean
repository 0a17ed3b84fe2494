import PathOptions.Glob.Matcher
import PathOptions.Proofs.Glob.Language
/-!
A match has the separators of its glob. A wildcard never takes one, so without bracket expressions
a glob of the simplified dialect only matches texts with as many separators as the glob has, and a
pathname is matched by a glob with as many slashes whatever else is in it (`count_of_decides`).
-/

namespace PathOptions.Glob

/-! ## The simplified dialect -/

/-- Whether a token outside brackets stands for a character, escaped or not. -/
def Token.standsFor (c : Char) (token : Token) : Bool :=
  token == .literal c || token == .escaped c

@[simp] theorem standsFor_literal (c d : Char) : (Token.literal c).standsFor d = (c == d) := by
  rw [Bool.eq_iff_iff]
  simp [Token.standsFor]

@[simp] theorem standsFor_escaped (c d : Char) : (Token.escaped c).standsFor d = (c == d) := by
  rw [Bool.eq_iff_iff]
  simp [Token.standsFor]

/-- The texts of a language have the separators that its tokens stand for. -/
theorem count_of_language {sep : Char} {tokens : List Token} {t : Text}
    (h : Language sep tokens t) (hplain : .classStart ∉ tokens) :
    t.count sep = tokens.countP (·.standsFor sep) := by
  induction h with
  | done => rfl
  | @literal c rest t _ ih =>
    rw [List.count_cons, List.countP_cons, ih fun hmem => hplain (.tail _ hmem), standsFor_literal]
  | @escaped c rest t _ ih =>
    rw [List.count_cons, List.countP_cons, ih fun hmem => hplain (.tail _ hmem), standsFor_escaped]
  | @anyChar c rest t hc _ ih =>
    rw [List.count_cons_of_ne hc, ih fun hmem => hplain (.tail _ hmem)]
    rfl
  | @anyString run rest t hrun _ ih =>
    rw [List.count_append, List.count_eq_zero.2 hrun, ih fun hmem => hplain (.tail _ hmem),
      Nat.zero_add]
    rfl
  | bracket => exact absurd (.head _) hplain

/-! ## Pathnames -/

theorem length_pieces (sep : Char) (t : Text) :
    (Text.pieces sep t).length = t.count sep + 1 := by
  induction t with
  | nil => rfl
  | cons c cs ih =>
    rw [Text.pieces]
    split
    · rename_i h
      rw [List.length_cons, ih, h, List.count_cons_self]
    · rename_i h
      rw [List.count_cons_of_ne h, ← ih]
      split
      · rename_i hnil
        exact absurd hnil (Text.pieces_ne_nil sep cs)
      · rename_i heq
        rw [heq, List.length_cons, List.length_cons]

theorem length_onFirst (lead : Text) (segments : List Text) :
    (Pathname.onFirst lead segments).length = max 1 segments.length := by
  cases segments with
  | nil => rfl
  | cons first rest =>
    rw [Pathname.onFirst, List.length_cons, List.length_cons]
    omega

/-- A glob is cut at every slash, behind a backslash or not. -/
theorem length_segments (glob : Text) :
    (Pathname.segments glob).length = glob.count '/' + 1 := by
  fun_induction Pathname.segments glob with
  | case1 | case2 => rfl
  | case3 rest ih =>
    rw [List.length_cons, ih, List.count_cons_of_ne (by decide), List.count_cons_self]
  | case4 d rest h ih =>
    rw [length_onFirst, ih, List.count_cons_of_ne (by decide), List.count_cons_of_ne h]
    omega
  | case5 cs _ ih => rw [List.length_cons, ih, List.count_cons_self]
  | case6 c cs _ h ih =>
    rw [length_onFirst, ih, List.count_cons_of_ne h]
    omega

theorem length_of_matchAll {wildcards : Wildcards} {segments names : List Text}
    (h : Pathname.matchAll wildcards segments names = true) :
    segments.length = names.length := by
  fun_induction Pathname.matchAll wildcards segments names with
  | case1 => rfl
  | case2 segment segments name names ih =>
    rw [Bool.and_eq_true] at h
    rw [List.length_cons, List.length_cons, ih h.2]
  | case3 => cases h

theorem count_of_isMatch {wildcards : Wildcards} {glob candidate : Text}
    (h : Pathname.isMatch wildcards glob candidate = true) :
    candidate.count '/' = glob.count '/' := by
  have hlength := length_of_matchAll h
  rw [length_segments, length_pieces] at hlength
  exact (Nat.succ.inj hlength).symm

/-! ## Matchers -/

namespace Matcher

/-- A glob has so many separators, and it has no others in disguise: a slash is one wherever it
stands, and in the simplified dialect there are no bracket expressions. -/
def HasSeparators (matcher : Matcher) (glob : Text) (n : Nat) : Prop :=
  match matcher.dialect with
  | .builtin =>
    .classStart ∉ tokenize glob ∧ (tokenize glob).countP (·.standsFor matcher.sep) = n
  | .posix => glob.count '/' = n

instance (matcher : Matcher) (glob : Text) (n : Nat) : Decidable (matcher.HasSeparators glob n) :=
  match h : matcher.dialect with
  | .builtin => decidable_of_iff _ (by rw [HasSeparators, h])
  | .posix => decidable_of_iff _ (by rw [HasSeparators, h])

/-- The POSIX dialect comes with slashes only. -/
theorem sep_of_select {wildcards : Wildcards} {name sep : Value} {matcher : Matcher}
    (h : select wildcards name sep = .ok matcher) (hposix : matcher.dialect = .posix) :
    matcher.sep = '/' := by
  unfold select at h
  split at h
  · split at h
    · cases hc : separator sep with
      | error e =>
        rw [hc] at h
        cases h
      | ok c =>
        rw [hc] at h
        cases h
        cases hposix
    · split at h
      · split at h
        · cases h
          rfl
        · cases h
      · cases h
  · cases h

theorem count_of_decides {matcher : Matcher} {glob candidate : Text} {n : Nat}
    (hsep : matcher.dialect = .posix → matcher.sep = '/') (hglob : matcher.HasSeparators glob n)
    (h : matcher.decides glob candidate = true) : candidate.count matcher.sep = n := by
  unfold HasSeparators at hglob
  unfold decides at h
  cases hdialect : matcher.dialect with
  | builtin =>
    rw [hdialect] at h hglob
    rw [count_of_language ((isMatch_iff_language _ _ _).1 h) hglob.1, hglob.2]
  | posix =>
    rw [hdialect] at h hglob
    rw [hsep hdialect, count_of_isMatch h, hglob]

end Matcher

end PathOptions.Glob
