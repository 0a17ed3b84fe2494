import PathOptions.Proofs.Glob.CommonSegments
import PathOptions.Proofs.Glob.Separators
import PathOptions.Proofs.Glob.Spelling
/-!
Pathname globs are put together at slashes. The segments of a glob hold no slash, and joined with
slashes they are the glob in which no slash stands behind a backslash. Where a slash follows a glob
that does not protect it, the segments are those before and behind it, and the texts that match are
those of the two parts with a slash between them (`isMatch_append_iff`).
-/

namespace PathOptions.Glob.Pathname

/-! ## Segments -/

section

variable {lead : Text} {first second : List Text}

theorem not_mem_onFirst {c : Char} (hlead : c ∉ lead) (h : ∀ t ∈ first, c ∉ t) :
    ∀ t ∈ onFirst lead first, c ∉ t := by
  cases first with
  | nil => simpa [onFirst] using hlead
  | cons head rest =>
    intro t ht
    rcases List.mem_cons.1 ht with rfl | ht
    · rw [List.mem_append, not_or]
      exact ⟨hlead, h head (.head rest)⟩
    · exact h t (.tail head ht)

theorem join_onFirst (sep : Char) (lead : Text) (texts : List Text) :
    Text.join sep (onFirst lead texts) = lead ++ Text.join sep texts := by
  cases texts with
  | nil => simp [onFirst, Text.join]
  | cons head rest =>
    cases rest with
    | nil => rfl
    | cons next rest => simp [onFirst, Text.join]

theorem onFirst_append (h : first ≠ []) :
    onFirst lead (first ++ second) = onFirst lead first ++ second := by
  cases first with
  | nil => exact absurd rfl h
  | cons head rest => rfl

end

theorem not_mem_segments (glob : Text) : ∀ segment ∈ segments glob, '/' ∉ segment := by
  fun_induction segments glob with
  | case1 | case2 => simp
  | case3 rest ih => simpa using ih
  | case4 d rest h ih => exact not_mem_onFirst (by simp [Ne.symm h]) ih
  | case5 cs _ ih => simpa using ih
  | case6 c cs _ h ih => exact not_mem_onFirst (by simp [Ne.symm h]) ih

/-- The spelling of a slash without a backslash, and every other spelling as it is. -/
def bareSlash (spelling : Text) : Text := if spelling = ['\\', '/'] then ['/'] else spelling

theorem bareSlash_single (c : Char) : bareSlash [c] = [c] := if_neg (by simp)

theorem bareSlash_escaped {c : Char} (h : c ≠ '/') : bareSlash ['\\', c] = ['\\', c] :=
  if_neg (by simpa using h)

theorem join_cons_segments (sep : Char) (glob : Text) :
    Text.join sep ([] :: segments glob) = sep :: Text.join sep (segments glob) :=
  Text.join_cons sep [] (segments_ne_nil glob)

/-- The segments of a glob, joined with slashes, are the glob without the backslashes before
slashes. -/
theorem join_segments (glob : Text) :
    Text.join '/' (segments glob) = (spellings glob).flatMap bareSlash := by
  fun_induction segments glob with
  | case1 | case2 => rfl
  | case3 rest ih =>
    rw [join_cons_segments, ih]
    rfl
  | case4 d rest h ih =>
    rw [join_onFirst, ih, ← bareSlash_escaped h]
    rfl
  | case5 cs _ ih =>
    rw [join_cons_segments, ih, spellings_cons (by decide), List.flatMap_cons, bareSlash_single,
      List.singleton_append]
  | case6 c cs hslash h ih =>
    rw [join_onFirst, ih, spellings_cons hslash, List.flatMap_cons, bareSlash_single]

/-- A slash that nothing protects parts the segments before it from those behind it. -/
theorem segments_append_slash {glob : Text} (h : ['\\'] ∉ spellings glob) (rest : Text) :
    segments (glob ++ '/' :: rest) = segments glob ++ segments rest := by
  fun_induction segments glob with
  | case1 => exact segments_slash rest
  | case2 => exact absurd (.head []) h
  | case3 cs ih => exact congrArg ([] :: ·) (ih fun hmem => h (.tail _ hmem))
  | case4 d cs hd ih =>
    have hrest := ih fun hmem => h (.tail _ hmem)
    rw [List.cons_append, List.cons_append, segments_escaped hd, hrest,
      onFirst_append (segments_ne_nil cs)]
  | case5 cs _ ih =>
    rw [spellings_cons (by decide)] at h
    have hrest := ih fun hmem => h (.tail _ hmem)
    rw [List.cons_append, segments_slash, hrest, List.cons_append]
  | case6 c cs hback hslash ih =>
    rw [spellings_cons hback] at h
    have hrest := ih fun hmem => h (.tail _ hmem)
    rw [List.cons_append, segments_cons hback hslash, hrest, onFirst_append (segments_ne_nil cs)]

/-! ## Matching -/

section

variable {wildcards : Wildcards}

theorem matchAll_cons_iff {segment : Text} {rest names : List Text} :
    matchAll wildcards (segment :: rest) names = true ↔
      ∃ name others, names = name :: others ∧ matchOne wildcards segment name = true ∧
        matchAll wildcards rest others = true := by
  cases names with
  | nil => simp [matchAll]
  | cons name others => simp [matchAll]

/-- Segments match names in two parts if the names fall into two such parts. -/
theorem matchAll_append_iff {first second names : List Text} :
    matchAll wildcards (first ++ second) names = true ↔
      ∃ before after, names = before ++ after ∧ matchAll wildcards first before = true ∧
        matchAll wildcards second after = true := by
  induction first generalizing names with
  | nil =>
    constructor
    · intro h
      exact ⟨[], names, rfl, rfl, h⟩
    · intro h
      obtain ⟨before, after, rfl, hbefore, hafter⟩ := h
      have hlength := length_of_matchAll hbefore
      obtain rfl := List.length_eq_zero_iff.1 hlength.symm
      exact hafter
  | cons segment rest ih =>
    rw [List.cons_append, matchAll_cons_iff]
    constructor
    · intro h
      obtain ⟨name, others, rfl, hname, hothers⟩ := h
      obtain ⟨before, after, rfl, hbefore, hafter⟩ := ih.1 hothers
      exact ⟨name :: before, after, rfl, matchAll_cons_iff.2 ⟨name, before, rfl, hname, hbefore⟩,
        hafter⟩
    · intro h
      obtain ⟨before, after, rfl, hbefore, hafter⟩ := h
      obtain ⟨name, others, rfl, hname, hothers⟩ := matchAll_cons_iff.1 hbefore
      exact ⟨name, others ++ after, rfl, hname, ih.2 ⟨others, after, rfl, hothers, hafter⟩⟩

/-- Only as many names as segments are matched, so there is at least one. -/
theorem ne_nil_of_matchAll {glob : Text} {names : List Text}
    (h : matchAll wildcards (segments glob) names = true) : names ≠ [] := by
  intro hnil
  rw [hnil] at h
  have hlength := length_of_matchAll h
  exact segments_ne_nil glob (List.length_eq_zero_iff.1 hlength)

/-- Names that segments match are those of the text that joins them, if no slash is in them. -/
theorem isMatch_join {glob : Text} {names : List Text} (hfree : ∀ name ∈ names, '/' ∉ name)
    (h : matchAll wildcards (segments glob) names = true) :
    isMatch wildcards glob (Text.join '/' names) = true := by
  rw [isMatch, Text.pieces_join (ne_nil_of_matchAll h) hfree]
  exact h

/-- A glob with a slash between two parts matches what they match, with a slash between. -/
theorem isMatch_append_iff {glob : Text} (h : ['\\'] ∉ spellings glob) {rest candidate : Text} :
    isMatch wildcards (glob ++ '/' :: rest) candidate = true ↔
      ∃ before after, candidate = before ++ '/' :: after ∧ isMatch wildcards glob before = true ∧
        isMatch wildcards rest after = true := by
  rw [isMatch, segments_append_slash h, matchAll_append_iff]
  constructor
  · intro hmatch
    obtain ⟨before, after, heq, hbefore, hafter⟩ := hmatch
    -- the names are pieces of the candidate: without a slash in them, joining can be undone
    have hfree : ∀ name ∈ before ++ after, '/' ∉ name := by
      intro name hname
      exact Text.not_mem_of_mem_pieces (heq ▸ hname)
    refine ⟨Text.join '/' before, Text.join '/' after, ?_, ?_, ?_⟩
    · rw [← Text.join_append (ne_nil_of_matchAll hbefore) (ne_nil_of_matchAll hafter), ← heq,
        Text.join_pieces]
    · exact isMatch_join (fun name hname => hfree name (List.mem_append_left _ hname)) hbefore
    · exact isMatch_join (fun name hname => hfree name (List.mem_append_right _ hname)) hafter
  · intro hmatch
    obtain ⟨before, after, rfl, hbefore, hafter⟩ := hmatch
    exact ⟨_, _, Text.pieces_append_cons '/' before after, hbefore, hafter⟩

end

/-- The segments of a glob hold no slash, there is one more of them than the glob has slashes, and
joined with slashes they are the glob without the backslashes that protect slashes. If the glob does
not end with an odd number of backslashes, it can be continued behind a slash: then what matches is
what it matches, a slash, and what its continuation matches. -/
theorem segments_and_isMatch_compose (wildcards : Wildcards) (glob rest candidate : Text) :
    (∀ segment ∈ segments glob, '/' ∉ segment) ∧
    (segments glob).length = glob.count '/' + 1 ∧
    Text.join '/' (segments glob) = (spellings glob).flatMap bareSlash ∧
    (endBackslashes glob % 2 = 0 →
      (isMatch wildcards (glob ++ '/' :: rest) candidate = true ↔
        ∃ before after, candidate = before ++ '/' :: after ∧ isMatch wildcards glob before = true ∧
          isMatch wildcards rest after = true)) := by
  refine ⟨not_mem_segments glob, length_segments glob, join_segments glob, ?_⟩
  intro heven
  refine isMatch_append_iff fun hlone => ?_
  have hodd := (lone_mem_spellings_iff glob).1 hlone
  omega

/-- A glob that ends with two backslashes, an escaped slash in its continuation, and an empty
segment at the end. -/
theorem segments_and_isMatch_compose_backslashes :
    let glob : Text := ['a', '*', '\\', '\\']
    let rest : Text := ['[', 'b', ']', '\\', '/', '*']
    let candidate : Text := ['a', 'x', '\\', '/', 'b', '/']
    endBackslashes glob % 2 = 0 ∧
      isMatch Segment.isMatch (glob ++ '/' :: rest) candidate = true ∧
      ∃ before after, candidate = before ++ '/' :: after ∧
        isMatch Segment.isMatch glob before = true ∧ isMatch Segment.isMatch rest after = true := by
  intro glob rest candidate
  have heven : endBackslashes glob % 2 = 0 := by decide
  have hmatch : isMatch Segment.isMatch (glob ++ '/' :: rest) candidate = true := by decide +kernel
  obtain ⟨-, -, -, hcompose⟩ := segments_and_isMatch_compose Segment.isMatch glob rest candidate
  exact ⟨heven, hmatch, (hcompose heven).1 hmatch⟩

end PathOptions.Glob.Pathname
