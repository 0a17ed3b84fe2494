import PathOptions.Proofs.Brace.Widening
/-!
What expansion keeps of a pattern. A group is the opening brace, the text that was read as its
body, and the closing brace (`exists_body_of_closeGroup`), however often the body was widened. So
what a pattern stands for is made of its own parts in their order: unless a sequence writes numbers
or letters of its own, every result can be had by leaving characters out
(`sublist_of_mem_expand`). A pattern whose groups have no choice, because they cannot be closed or
hold no comma and no sequence, stands for itself alone (`expand_eq_singleton`).
-/

namespace PathOptions.Brace

/-! ## Unprotected characters -/

/-- The characters of a text that no backslash protects, without the backslashes themselves. -/
def unprotected : Text → List Char
  | [] => []
  | c :: cs =>
    if c = '\\' then
      match cs with
      | [] => []
      | _ :: rest => unprotected rest
    else c :: unprotected cs

section

variable {c sep : Char} {level next : Nat} {a t left right : Text}

theorem unprotected_cons (h : c ≠ '\\') (t : Text) :
    unprotected (c :: t) = c :: unprotected t := by
  rw [unprotected.eq_def]
  exact if_neg h

/-- These are the characters that a scan meets. -/
theorem map_char_scan (position level : Nat) (t : Text) :
    (scan position level t).map (·.char) = unprotected t := by
  fun_induction scan position level t with
  | case1 => rfl
  | case2 => rfl
  | case3 position level d rest ih => exact ih
  | case4 position level c cs hslash ih => rw [List.map_cons, ih, unprotected_cons hslash]

theorem unprotected_append (h : levelBehind? level a = some next) (t : Text) :
    unprotected (a ++ t) = unprotected a ++ unprotected t := by
  rw [← map_char_scan 0 level, scan_append h, List.map_append, map_char_scan, map_char_scan]

theorem unprotected_of_split (hsep : sep ≠ '\\') (h : split sep t = (left, some right)) :
    unprotected t = unprotected left ++ sep :: unprotected right := by
  rw [splitFrom_some h, unprotected_append (levelBehind?_of_splitFrom h).1, unprotected_cons hsep]

end

/-! ## The text of a group -/

theorem widen_append (rejected : Option Text) (a b : Text) :
    widen rejected (a ++ b) = widen rejected a ++ b := by
  cases rejected with
  | none => rfl
  | some t => rw [widen, widen, List.append_assoc, List.cons_append]

/-- A body that was found was read from the text up to its closing brace, together with what had
been rejected before. -/
theorem exists_body_of_closeGroup {rejected : Option Text} {t after : Text} {body : Body}
    (hrejected : ∀ t, rejected = some t → levelBehind? 0 t = some 0)
    (h : closeGroup rejected t = some (body, after)) :
    ∃ text, readBody text = some body ∧ levelBehind? 0 text = some 0 ∧
      widen rejected t = text ++ '}' :: after := by
  fun_induction closeGroup rejected t with
  | case1 => cases h
  | case2 rejected t piece rest hsplit found hbody =>
    cases h
    have hlevel := (levelBehind?_of_splitFrom hsplit).1
    refine ⟨widen rejected piece, hbody, levelBehind?_widen hrejected hlevel, ?_⟩
    rw [splitFrom_some hsplit, widen_append]
  | case3 rejected t piece rest hsplit hbody ih =>
    have hlevel := (levelBehind?_of_splitFrom hsplit).1
    obtain ⟨text, htext, hbehind, hwiden⟩ := ih (by
      intro t ht
      obtain rfl := Option.some.inj ht
      exact levelBehind?_widen hrejected hlevel) h
    refine ⟨text, htext, hbehind, ?_⟩
    rw [← hwiden, splitFrom_some hsplit, widen_append]
    rfl

theorem exists_body {post after : Text} {body : Body}
    (h : closeGroup none post = some (body, after)) :
    ∃ text, readBody text = some body ∧ levelBehind? 0 text = some 0 ∧
      post = text ++ '}' :: after :=
  exists_body_of_closeGroup (by intro t ht; cases ht) h

/-- What a text must be to be read as a body. -/
theorem readBody_cases {text : Text} {body : Body} (h : readBody text = some body) :
    body = .empty ∧ text = [] ∨
      (∃ elements, body = .sequence elements ∧ Sequence.generate text = some elements) ∨
      ∃ patterns, body = .items patterns ∧ splitAll ',' text = patterns ∧ patterns ≠ [text] := by
  unfold readBody at h
  split at h
  · rename_i hempty
    exact .inl ⟨(Option.some.inj h).symm, List.isEmpty_iff.1 hempty⟩
  · split at h
    · rename_i elements hsequence
      exact .inr (.inl ⟨elements, (Option.some.inj h).symm, hsequence⟩)
    · split at h
      · cases h
      · cases h
      · rename_i hmany
        refine .inr (.inr ⟨splitAll ',' text, (Option.some.inj h).symm, rfl, ?_⟩)
        exact fun hone => hmany text hone

theorem infix_of_mem_splitAll {sep : Char} {t item : Text} (h : item ∈ splitAll sep t) :
    item <:+: t := by
  fun_induction splitAll sep t with
  | case1 t whole hsplit =>
    obtain rfl := splitFrom_none hsplit
    obtain rfl := List.mem_singleton.1 h
    exact List.infix_refl _
  | case2 t first rest hsplit ih =>
    have htext := splitFrom_some hsplit
    rcases List.mem_cons.1 h with rfl | h
    · rw [htext]
      exact (List.prefix_append _ _).isInfix
    · rw [htext]
      refine (ih h).trans ?_
      exact ((List.suffix_cons sep rest).trans (List.suffix_append _ _)).isInfix

theorem mem_product_iff {t : Text} {first second : List Text} :
    t ∈ product first second ↔ ∃ a ∈ first, ∃ b ∈ second, a ++ b = t := by
  simp [product]

/-! ## Nothing is invented -/

section

variable {pattern lead post after : Text}

theorem sublist_of_unclosed (hsplit : split '{' pattern = (lead, some post))
    (hclose : closeGroup none post = none) (hpost : ∀ suffix ∈ expand post, suffix.Sublist post) :
    ∀ t ∈ expand pattern, t.Sublist pattern := by
  intro t ht
  rw [expand_of_unclosed hsplit hclose, mem_product_iff] at ht
  obtain ⟨start, hstart, suffix, hsuffix, rfl⟩ := ht
  obtain rfl := List.mem_singleton.1 hstart
  have hpattern : pattern = lead ++ ['{'] ++ post := by rw [splitFrom_some hsplit, List.append_cons]
  rw [hpattern]
  exact (List.Sublist.refl _).append (hpost suffix hsuffix)

/-- It is enough that choices are made of the text of the group and its braces. -/
theorem sublist_of_group {body : Body} (hsplit : split '{' pattern = (lead, some post))
    (hclose : closeGroup none post = some (body, after))
    (hchoices : ∀ text, readBody text = some body → text <:+: pattern →
      ∀ choice ∈ body.choices, choice.Sublist ('{' :: (text ++ ['}'])))
    (hafter : after <:+: pattern → ∀ suffix ∈ expand after, suffix.Sublist after) :
    ∀ t ∈ expand pattern, t.Sublist pattern := by
  obtain ⟨text, htext, _, rfl⟩ := exists_body hclose
  have hpattern : pattern = lead ++ ('{' :: (text ++ ['}']) ++ after) := by
    rw [splitFrom_some hsplit]
    simp
  have hwithin : text <:+: pattern := ⟨lead ++ ['{'], '}' :: after, by rw [hpattern]; simp⟩
  have hsuffix : after <:+: pattern :=
    ⟨lead ++ '{' :: (text ++ ['}']), [], by rw [hpattern]; simp⟩
  intro t ht
  rw [expand_of_group hsplit hclose, mem_product_iff] at ht
  obtain ⟨start, hstart, rest, hrest, rfl⟩ := ht
  obtain rfl := List.mem_singleton.1 hstart
  obtain ⟨choice, hchoice, suffix, hmem, rfl⟩ := mem_product_iff.1 hrest
  rw [hpattern]
  refine (List.Sublist.refl _).append ?_
  exact (hchoices text htext hwithin choice hchoice).append (hafter hsuffix suffix hmem)

end

/-- Without double dots every text that a pattern stands for is the pattern with characters left
out. -/
theorem sublist_of_mem_expand {pattern : Text} (h : ¬ ['.', '.'] <:+: pattern) :
    ∀ t ∈ expand pattern, t.Sublist pattern := by
  induction pattern using parse.induct with
  | case1 pattern whole hsplit =>
    intro t ht
    rw [expand, parse_of_no_open hsplit] at ht
    obtain rfl := List.mem_singleton.1 ht
    exact List.Sublist.refl t
  | case2 pattern lead post hsplit hclose ih =>
    have hpost : post <:+: pattern :=
      ⟨lead ++ ['{'], [], by rw [splitFrom_some hsplit]; simp⟩
    exact sublist_of_unclosed hsplit hclose (ih fun hdots => h (hdots.trans hpost))
  | case3 pattern lead post hsplit after hclose ih =>
    refine sublist_of_group hsplit hclose ?_ fun hafter => ih fun hdots => h (hdots.trans hafter)
    intro text _ _ choice hchoice
    obtain rfl := List.mem_singleton.1 hchoice
    exact (List.sublist_append_right text ['}']).cons_cons '{'
  | case4 pattern lead post hsplit elements after hclose ih =>
    refine sublist_of_group hsplit hclose ?_ fun hafter => ih fun hdots => h (hdots.trans hafter)
    -- a sequence is written with double dots
    intro text htext hwithin
    rcases readBody_cases htext with ⟨hbody, _⟩ | ⟨elements, _, hsequence⟩ | ⟨_, hbody, _⟩
    · cases hbody
    · exact absurd ((Sequence.infix_of_generate hsequence).trans hwithin) h
    · cases hbody
  | case5 pattern lead post hsplit patterns after hclose ihitem ih =>
    refine sublist_of_group hsplit hclose ?_ fun hafter => ih fun hdots => h (hdots.trans hafter)
    intro text htext hwithin choice hchoice
    rcases readBody_cases htext with ⟨hbody, _⟩ | ⟨elements, hbody, _⟩ | ⟨items, hbody, hitems, _⟩
    · cases hbody
    · cases hbody
    · obtain rfl := Body.items.inj hbody
      obtain ⟨item, hitem, hchoice⟩ := List.mem_flatMap.1 hchoice
      have hpart : item <:+: text := infix_of_mem_splitAll (hitems ▸ hitem)
      have hclear : ¬ ['.', '.'] <:+: item := fun hdots => h ((hdots.trans hpart).trans hwithin)
      have hitemSub := ihitem item hitem hclear choice hchoice
      refine (hitemSub.trans hpart.sublist).trans ?_
      exact (List.sublist_append_left text ['}']).cons '{'

/-- A group that is widened over a closing brace, and a brace that is never closed. -/
theorem sublist_of_mem_expand_widened :
    let pattern := "a\x7b1\x7d,2\x7db\x7b".toList
    ¬ ['.', '.'] <:+: pattern ∧ "a1\x7db\x7b".toList ∈ expand pattern ∧
      ∀ t ∈ expand pattern, t.Sublist pattern := by
  intro pattern
  have hdots : ¬ ['.', '.'] <:+: pattern := by decide +kernel
  exact ⟨hdots, by decide +kernel, sublist_of_mem_expand hdots⟩

/-! ## Patterns without a choice -/

/-- No group of a text has a choice: none can be closed, or none holds a comma or a sequence. -/
def NeverChooses (t : Text) : Prop :=
  '}' ∉ unprotected t ∨ ',' ∉ unprotected t ∧ ¬ ['.', '.'] <:+: t

section

variable {c : Char} {level : Nat} {a t after : Text}

theorem NeverChooses.of_append (h : NeverChooses (a ++ c :: t))
    (ha : levelBehind? 0 a = some level) (hc : c ≠ '\\') : NeverChooses t := by
  rw [NeverChooses, unprotected_append ha, unprotected_cons hc] at h
  rcases h with hclose | ⟨hcomma, hdots⟩
  · exact .inl fun hmem => hclose (List.mem_append_right _ (.tail c hmem))
  · refine .inr ⟨fun hmem => hcomma (List.mem_append_right _ (.tail c hmem)), ?_⟩
    intro hwithin
    exact hdots (hwithin.trans ⟨a ++ [c], [], by simp⟩)

theorem NeverChooses.of_split {sep : Char} (h : NeverChooses t) (hsep : sep ≠ '\\')
    (hsplit : split sep t = (a, some after)) : NeverChooses after := by
  rw [splitFrom_some hsplit] at h
  exact h.of_append (levelBehind?_of_splitFrom hsplit).1 hsep

/-- Only literal braces are found. -/
theorem NeverChooses.body_eq {body : Body} (h : NeverChooses t)
    (hclose : closeGroup none t = some (body, after)) : body = .empty ∧ t = '}' :: after := by
  obtain ⟨text, htext, hlevel, rfl⟩ := exists_body hclose
  have hunprotected : unprotected (text ++ '}' :: after) =
      unprotected text ++ '}' :: unprotected after := by
    rw [unprotected_append hlevel, unprotected_cons (by decide)]
  rw [NeverChooses, hunprotected] at h
  rcases h with hclose | ⟨hcomma, hdots⟩
  · exact absurd (List.mem_append_right _ (.head _)) hclose
  · rcases readBody_cases htext with
      ⟨rfl, rfl⟩ | ⟨elements, _, hsequence⟩ | ⟨items, _, hitems, hone⟩
    · exact ⟨rfl, rfl⟩
    · have hwithin : text <:+: text ++ '}' :: after := (List.prefix_append text _).isInfix
      exact absurd ((Sequence.infix_of_generate hsequence).trans hwithin) hdots
    · rcases hsplit : split ',' text with ⟨first, rest⟩
      cases rest with
      | none => exact absurd (hitems.symm.trans (splitAll_of_split_none hsplit)) hone
      | some rest =>
        have hmem : ',' ∈ unprotected text := by
          rw [unprotected_of_split (by decide) hsplit]
          exact List.mem_append_right _ (.head _)
        exact absurd (List.mem_append_left _ hmem) hcomma

end

theorem expand_of_no_open {pattern whole : Text} (h : split '{' pattern = (whole, none)) :
    expand pattern = [pattern] := by
  rw [expand, parse_of_no_open h, Tree.results]

theorem expand_of_neverChooses {pattern : Text} (h : NeverChooses pattern) :
    expand pattern = [pattern] := by
  induction pattern using parse.induct with
  | case1 pattern whole hsplit => exact expand_of_no_open hsplit
  | case2 pattern lead post hsplit hclose ih =>
    have hpost := ih (h.of_split (by decide) hsplit)
    rw [expand_of_unclosed hsplit hclose, hpost, splitFrom_some hsplit]
    simp [product]
  | case3 pattern lead post hsplit after hclose ih =>
    have hnever := h.of_split (by decide) hsplit
    obtain ⟨_, rfl⟩ := hnever.body_eq hclose
    have hafter := ih (hnever.of_append (a := []) rfl (by decide))
    rw [expand_of_group hsplit hclose, hafter, splitFrom_some hsplit]
    rfl
  | case4 pattern lead post hsplit elements after hclose ih =>
    obtain ⟨hbody, _⟩ := (h.of_split (by decide) hsplit).body_eq hclose
    cases hbody
  | case5 pattern lead post hsplit patterns after hclose ihitem ih =>
    obtain ⟨hbody, _⟩ := (h.of_split (by decide) hsplit).body_eq hclose
    cases hbody

/-- A pattern with no opening brace, no closing brace, or neither a comma nor double dots stands
for itself, protected characters not being counted. -/
theorem expand_eq_singleton {pattern : Text}
    (h : '{' ∉ unprotected pattern ∨ '}' ∉ unprotected pattern ∨
      ',' ∉ unprotected pattern ∧ ¬ ['.', '.'] <:+: pattern) : expand pattern = [pattern] := by
  rcases h with hopen | hnever
  · rcases hsplit : split '{' pattern with ⟨lead, behind⟩
    cases behind with
    | none => exact expand_of_no_open hsplit
    | some post =>
      refine absurd ?_ hopen
      rw [unprotected_of_split (by decide) hsplit]
      exact List.mem_append_right _ (.head _)
  · exact expand_of_neverChooses hnever

/-- Literal pairs of braces, nested and unbalanced groups, a comma that is protected and a
backslash at the end. -/
theorem expand_eq_singleton_unbalanced :
    let pattern := "a\x7b\x7d\x7bb\x7bc\x7d\\,\x7d\x7d.\x7b\\".toList
    ('{' ∈ unprotected pattern ∧ '}' ∈ unprotected pattern ∧ ',' ∈ pattern) ∧
      (',' ∉ unprotected pattern ∧ ¬ ['.', '.'] <:+: pattern) ∧ expand pattern = [pattern] := by
  intro pattern
  have hnone : ',' ∉ unprotected pattern ∧ ¬ ['.', '.'] <:+: pattern := by decide +kernel
  exact ⟨by decide +kernel, hnone, expand_eq_singleton (.inr (.inr hnone))⟩

end PathOptions.Brace
