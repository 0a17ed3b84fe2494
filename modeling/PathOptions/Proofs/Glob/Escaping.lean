import PathOptions.Proofs.Glob.Agreement
import PathOptions.Proofs.Resolve.Values
/-!
Every text has a description that matches it and nothing else: the text with a backslash before
each character that is no ASCII letter or digit. Descriptions are read twice. As a brace pattern
the escaped text stands for itself alone, backslashes kept; as a glob it has one part for each
character, and that part takes just this character. Both dialects read those parts alike, since an
escaped text is a common glob, and an escaped slash cuts a pathname where the text has its slash.
-/

namespace PathOptions.Glob

def escapeChar (c : Char) : Text := if c.isAlphanum then [c] else ['\\', c]

/-- The text with a backslash before everything but ASCII letters and digits. -/
def escape (t : Text) : Text := t.flatMap escapeChar

theorem ne_of_isAlphanum {c d : Char} (hc : c.isAlphanum = true) (hd : d.isAlphanum = false) :
    c ≠ d := by
  intro heq
  rw [heq, hd] at hc
  cases hc

/-! ## As a brace pattern -/

theorem passes_escape (t : Text) : Brace.Passes '{' 0 (escape t) := by
  induction t with
  | nil => exact Brace.passes_nil
  | cons c cs ih =>
    refine Brace.Passes.append ?_ ih
    unfold escapeChar
    split
    · rename_i hc
      have hopen : c ≠ '{' := ne_of_isAlphanum hc (by decide)
      exact Brace.passes_char (ne_of_isAlphanum hc (by decide)) hopen
        (ne_of_isAlphanum hc (by decide)) (.inl hopen)
    · exact Brace.passes_escaped c

theorem expand_escape (t : Text) : Brace.expand (escape t) = [escape t] := by
  rw [Brace.expand, Brace.parse_of_no_open (passes_escape t).split_end]
  rfl

/-! ## As a glob -/

/-- The part of a glob that takes just one character, protected if it has to be. -/
def CommonPart.ofChar (c : Char) : CommonPart :=
  if h : c.isAlphanum = true then
    .char c (by
      simp only [List.mem_cons, List.not_mem_nil, or_false, not_or]
      exact ⟨ne_of_isAlphanum h (by decide), ne_of_isAlphanum h (by decide),
        ne_of_isAlphanum h (by decide), ne_of_isAlphanum h (by decide)⟩)
  else .escaped c

namespace CommonPart

variable (c : Char)

theorem text_ofChar : (ofChar c).text = escapeChar c := by
  unfold ofChar escapeChar
  split <;> rfl

theorem element_ofChar : (ofChar c).element = .char c := by
  unfold ofChar
  split <;> rfl

theorem slashes_ofChar : (ofChar c).slashes = [c].count '/' := by
  unfold ofChar
  split <;> simp [slashes, isSlash, List.count_singleton]

end CommonPart

theorem text_map_ofChar (t : Text) : CommonGlob.text (t.map .ofChar) = escape t := by
  rw [CommonGlob.text, List.flatMap_map, escape]
  exact congrArg (List.flatMap · t) (funext CommonPart.text_ofChar)

/-- Escaping adds no slash and takes none away. -/
theorem count_escape (t : Text) : (escape t).count '/' = t.count '/' := by
  rw [← text_map_ofChar]
  induction t with
  | nil => rfl
  | cons c cs ih =>
    rw [List.map_cons, CommonGlob.text_cons, List.count_append, ih, CommonPart.count_text,
      CommonPart.slashes_ofChar, ← List.count_append, List.singleton_append]

theorem accepts_only_iff {t candidate : Text} :
    accepts (t.map fun c => .one (.only c)) candidate = true ↔ candidate = t := by
  induction t generalizing candidate with
  | nil => exact List.isEmpty_iff
  | cons c cs ih =>
    rw [List.map_cons, accepts_one_iff]
    constructor
    · intro htaken
      obtain ⟨d, after, rfl, hd, hafter⟩ := htaken
      obtain rfl : d = c := by simpa using hd
      rw [ih.1 hafter]
    · intro heq
      exact ⟨c, cs, heq, by simp, ih.2 rfl⟩

theorem isMatch_escape_iff (sep : Char) {t candidate : Text} :
    isMatch sep (escape t) candidate = true ↔ candidate = t := by
  have hsteps : (elements (escape t)).map (·.step sep) = t.map fun c => .one (.only c) := by
    rw [← text_map_ofChar, elements_text, List.map_map, List.map_map]
    refine List.map_congr_left ?_
    intro c _
    simp only [Function.comp_apply, CommonPart.element_ofChar, Element.step]
  rw [isMatch, decideSteps_eq, hsteps, accepts_only_iff]

theorem pathname_isMatch_escape_iff {wildcards : Wildcards}
    (hread : wildcards.ReadCommonSegments) {t candidate : Text} :
    Pathname.isMatch wildcards (escape t) candidate = true ↔ candidate = t := by
  rw [← text_map_ofChar, isMatch_iff_accepts hread, ← isMatch_text, text_map_ofChar,
    isMatch_escape_iff, count_escape]
  constructor
  · intro h
    exact h.1
  · intro heq
    exact ⟨heq, congrArg (List.count '/') heq⟩

/-- In both dialects, and with any separator, the escaped text as a description matches the text
and nothing else, if the wildcards of segments have their meaning. -/
theorem describes_escape_iff {matcher : Matcher}
    (hread : matcher.dialect = .posix → matcher.wildcards.ReadCommonSegments)
    (t candidate : Text) :
    (matcher.describes (escape t) candidate).value = true ↔ candidate = t := by
  rw [Matcher.value_describes, expand_escape, List.any_cons, List.any_nil, Bool.or_false,
    Matcher.decides]
  cases hdialect : matcher.dialect with
  | builtin => exact isMatch_escape_iff matcher.sep
  | posix => exact pathname_isMatch_escape_iff (hread hdialect)

/-- Braces, a dot pair, a backslash, a slash and an empty segment, with the wildcards that segments
have. -/
theorem describes_escape_iff_of_segments :
    let matcher : Matcher := ⟨.posix, '/', Segment.isMatch⟩
    let t : Text := "\x7b1..2,*\x7d\\/\n//[".toList
    matcher.wildcards.ReadCommonSegments ∧
      ∀ candidate, (matcher.describes (escape t) candidate).value = true ↔ candidate = t := by
  intro matcher t
  have hread : matcher.wildcards.ReadCommonSegments := Segment.readCommonSegments_isMatch
  exact ⟨hread, describes_escape_iff (fun _ => hread) t⟩

end PathOptions.Glob
