import PathOptions.Proofs.Brace.Candidates
import PathOptions.Proofs.Brace.Denotation
/-!
Which brace closes a group, said by one scan. The search for a closing brace widens the body round
by round: it cuts at the next brace, glues what it had rejected before that, and reads the whole
again. All it does is to try the candidates of a single scan in turn. The first one closes if
nothing or a sequence stands before it, and otherwise the first one that has a comma before it
among the candidates; the commas of the group are the candidates before its closing brace, since
rejected braces leave a scan at the outer level (`closeGroup_eq_group?`). The search ends, because
every round uses up a candidate.
-/

namespace PathOptions.Brace

/-! ## The rule -/

/-- The list between an opening brace and the first closing one that has a comma before it. -/
def list? (post : Text) (closes commas : List Nat) : Option (Body × Text) :=
  (closes.find? fun close => commas.any (· < close)).map fun close =>
    (.items (cutAt 0 (commas.filter (· < close)) (post.take close)), post.drop (close + 1))

/-- The group that one scan of the text behind an opening brace finds, and what follows it. -/
def group? (post : Text) : Option (Body × Text) :=
  match candidates '}' 0 post with
  | [] => none
  | first :: others =>
    if first = 0 then some (.empty, post.drop 1)
    else
      match Sequence.generate (post.take first) with
      | some elements => some (.sequence elements, post.drop (first + 1))
      | none => list? post (first :: others) (candidates ',' 0 post)

def Body.choices : Body → List Text
  | .empty => [['{', '}']]
  | .sequence elements => elements
  | .items patterns => patterns.flatMap expand

/-- The search for a closing brace, round by round, with the number of rounds that it takes. -/
inductive Rounds : Nat → Option Text → Text → Option (Body × Text) → Prop
  | exhausted {rejected : Option Text} {t whole : Text} :
      split '}' t = (whole, none) → Rounds 1 rejected t none
  | closed {rejected : Option Text} {t piece after : Text} {body : Body} :
      split '}' t = (piece, some after) → readBody (widen rejected piece) = some body →
      Rounds 1 rejected t (some (body, after))
  | widened {rejected : Option Text} {t piece after : Text} {n : Nat}
      {found : Option (Body × Text)} :
      split '}' t = (piece, some after) → readBody (widen rejected piece) = none →
      Rounds n (some (widen rejected piece)) after found → Rounds (n + 1) rejected t found

theorem isMark_close : IsMark '}' := .inr rfl

theorem isMark_comma : IsMark ',' := .inl rfl

/-! ## Bodies -/

/-- A text that is neither empty nor a sequence is a body if a comma is met in it. -/
theorem readBody_eq {body : Text} (hne : body ≠ []) (hseq : Sequence.generate body = none) :
    readBody body =
      if candidates ',' 0 body = [] then none
      else some (.items (cutAt 0 (candidates ',' 0 body) body)) := by
  have hempty : body.isEmpty = false := List.isEmpty_eq_false_iff.2 hne
  have hlength := length_cutAt 0 (candidates ',' 0 body) body
  rw [readBody, hempty, hseq, splitAll_eq_cutAt isMark_comma body 0]
  cases hcommas : candidates ',' 0 body with
  | nil => rfl
  | cons comma commas =>
    -- a cut leaves two pieces at least
    rw [hcommas, List.length_cons] at hlength
    generalize cutAt 0 (comma :: commas) body = pieces at hlength
    rcases pieces with _ | ⟨first, _ | ⟨second, rest⟩⟩
    · cases hlength
    · simp at hlength
    · rfl

/-- A body that was widened is no sequence. -/
theorem generate_widened (rejected piece : Text) :
    Sequence.generate (rejected ++ '}' :: piece) = none := by
  cases h : Sequence.generate (rejected ++ '}' :: piece) with
  | none => rfl
  | some elements =>
    have hchar : isSequenceChar '}' = true := isSequenceChar_of_generate h (by simp)
    exact absurd hchar (by decide)

theorem levelBehind?_widen {rejected : Option Text} {piece : Text}
    (hrejected : ∀ t, rejected = some t → levelBehind? 0 t = some 0)
    (hpiece : levelBehind? 0 piece = some 0) : levelBehind? 0 (widen rejected piece) = some 0 := by
  cases rejected with
  | none => exact hpiece
  | some t =>
    rw [widen, levelBehind?_append (hrejected t rfl), levelBehind?_cons isMark_close.ne_backslash,
      isMark_close.levelAfter, hpiece]

/-! ## The search -/

/-- The search ends, after at most one round more than there are candidates. -/
theorem exists_rounds (rejected : Option Text) (t : Text) (position : Nat) :
    ∃ n, n ≤ (candidates '}' position t).length + 1 ∧
      Rounds n rejected t (closeGroup rejected t) := by
  fun_induction closeGroup rejected t generalizing position with
  | case1 rejected t whole h => exact ⟨1, by omega, .exhausted h⟩
  | case2 rejected t piece after h body hbody => exact ⟨1, by omega, .closed h hbody⟩
  | case3 rejected t piece after h hbody ih =>
    obtain ⟨n, hle, hrounds⟩ := ih (position + piece.length + 1)
    refine ⟨n + 1, ?_, .widened h hbody hrounds⟩
    rw [candidates_of_split isMark_close h, List.length_cons]
    omega

/-- The candidate behind a body closes a list if a comma is met in the body; otherwise it does not
matter. -/
theorem list?_cons {body after : Text} {closes commas later : List Nat}
    (hcommas : ∀ k ∈ commas, k < body.length) (hlater : ∀ k ∈ later, body.length ≤ k) :
    list? (body ++ '}' :: after) (body.length :: closes) (commas ++ later) =
      if commas = [] then list? (body ++ '}' :: after) closes later
      else some (.items (cutAt 0 commas body), after) := by
  have hbehind : ∀ k ∈ later, decide (k < body.length) = false := by
    intro k hk
    have hle := hlater k hk
    simpa using hle
  have hbefore : ∀ k ∈ commas, decide (k < body.length) = true := by
    intro k hk
    exact decide_eq_true (hcommas k hk)
  cases commas with
  | nil =>
    have hany : later.any (· < body.length) = false := by
      rw [List.any_eq_false]
      intro k hk
      rw [hbehind k hk]
      decide
    rw [list?, List.nil_append, List.find?_cons, hany]
    rfl
  | cons comma rest =>
    have hany : (comma :: rest ++ later).any (· < body.length) = true := by
      rw [List.cons_append, List.any_cons, hbefore comma (.head _), Bool.true_or]
    have hfilter : (comma :: rest ++ later).filter (· < body.length) = comma :: rest := by
      rw [List.filter_append, List.filter_eq_self.2 hbefore, List.filter_eq_nil_iff.2,
        List.append_nil]
      intro k hk
      rw [hbehind k hk]
      decide
    rw [list?, List.find?_cons, hany, if_neg (List.cons_ne_nil _ _), Option.map_some, hfilter,
      List.take_left]
    simp

/-- One round: a body that is neither empty nor a sequence is a list or is widened. -/
theorem closeGroup_round {rejected : Option Text} {t piece body after : Text}
    (h : split '}' t = (piece, some after)) (hbody : widen rejected piece = body)
    (hne : body ≠ []) (hseq : Sequence.generate body = none)
    (hrest : candidates ',' 0 body = [] → closeGroup (some body) after =
      list? (body ++ '}' :: after) (candidates '}' (body.length + 1) after)
        (candidates ',' (body.length + 1) after)) :
    closeGroup rejected t =
      list? (body ++ '}' :: after) (body.length :: candidates '}' (body.length + 1) after)
        (candidates ',' 0 body ++ candidates ',' (body.length + 1) after) := by
  subst hbody
  have hread := readBody_eq hne hseq
  rw [list?_cons]
  · by_cases hcommas : candidates ',' 0 (widen rejected piece) = []
    · rw [if_pos hcommas] at hread
      rw [if_pos hcommas, closeGroup_of_widened h hread, hrest hcommas]
    · rw [if_neg hcommas] at hread
      rw [if_neg hcommas, closeGroup_of_closed h hread]
  · intro k hk
    have hlt := (position_of_mem_candidates hk).2
    omega
  · intro k hk
    have hle := (position_of_mem_candidates hk).1
    omega

/-- What was rejected is closed later as a list, or not at all. -/
theorem closeGroup_rejected {rejected : Text} (hlevel : levelBehind? 0 rejected = some 0)
    (hcommas : candidates ',' 0 rejected = []) (t : Text) :
    closeGroup (some rejected) t =
      list? (rejected ++ '}' :: t) (candidates '}' (rejected.length + 1) t)
        (candidates ',' (rejected.length + 1) t) := by
  induction hn : t.length using Nat.strongRecOn generalizing rejected t with
  | ind n ih =>
    subst hn
    rcases hsplit : split '}' t with ⟨piece, behind⟩
    cases behind with
    | none =>
      rw [closeGroup_of_exhausted hsplit, candidates_of_split_none hsplit]
      rfl
    | some after =>
      have hlength := split_length hsplit
      have hpiece := (levelBehind?_of_splitFrom hsplit).1
      have htext : rejected ++ '}' :: t = rejected ++ '}' :: piece ++ '}' :: after := by
        rw [splitFrom_some hsplit, List.append_assoc, List.cons_append]
      have hbodyLength :
          rejected.length + 1 + piece.length = (rejected ++ '}' :: piece).length := by
        simp only [List.length_append, List.length_cons]
        omega
      have hbodyCommas : candidates ',' (rejected.length + 1) piece =
          candidates ',' 0 (rejected ++ '}' :: piece) := by
        rw [candidates_append hlevel, hcommas, candidates_cons isMark_close, if_neg (by decide),
          List.nil_append, Nat.zero_add]
      have hbehind : ∀ t, some rejected = some t → levelBehind? 0 t = some 0 := by
        intro t ht
        obtain rfl := Option.some.inj ht
        exact hlevel
      have hbodyLevel : levelBehind? 0 (widen (some rejected) piece) = some 0 :=
        levelBehind?_widen hbehind hpiece
      rw [htext, candidates_of_split isMark_close hsplit,
        candidates_of_split_other isMark_close (by decide) hsplit, hbodyLength, hbodyCommas]
      refine closeGroup_round hsplit rfl (by simp) (generate_widened rejected piece) ?_
      intro hnone
      exact ih after.length (by omega) hbodyLevel hnone after rfl

/-- The search finds the group of the rule. -/
theorem closeGroup_eq_group? (post : Text) : closeGroup none post = group? post := by
  rcases hsplit : split '}' post with ⟨piece, behind⟩
  cases behind with
  | none => rw [closeGroup_of_exhausted hsplit, group?, candidates_of_split_none hsplit]
  | some after =>
    obtain rfl := splitFrom_some hsplit
    have hdrop : (piece ++ '}' :: after).drop (piece.length + 1) = after := by
      rw [List.drop_append]
      simp
    rw [group?, candidates_of_split isMark_close hsplit,
      candidates_of_split_other isMark_close (by decide) hsplit, Nat.zero_add]
    dsimp only
    rw [List.take_left, hdrop]
    by_cases hempty : piece = []
    · subst hempty
      exact closeGroup_of_closed hsplit rfl
    · rw [if_neg (mt List.length_eq_zero_iff.1 hempty)]
      cases hseq : Sequence.generate piece with
      | some elements => exact closeGroup_of_closed hsplit (readBody_sequence hseq)
      | none =>
        refine closeGroup_round hsplit rfl hempty hseq ?_
        intro hnone
        exact closeGroup_rejected (levelBehind?_of_splitFrom hsplit).1 hnone after

/-! ## Expansion -/

/-- Before the first opening brace a scan stays at the outer level. -/
theorem char_ne_open {t : Text} {position level : Nat} (hlevel : level = 0)
    (h : ∀ sighting ∈ scan position level t, sighting.isOuter '{' = false) :
    ∀ sighting ∈ scan position level t, (sighting.char == '{') = false := by
  fun_induction scan position level t with
  | case1 | case2 =>
    intro sighting hmem
    cases hmem
  | case3 position level d rest ih => exact ih hlevel h
  | case4 position level c cs _ ih =>
    subst hlevel
    have hc : (c == '{') = false := by simpa [Sighting.isOuter] using h _ (.head _)
    have hnext : levelAfter 0 c = 0 := by
      rw [levelAfter, if_neg (by simpa using hc)]
      split <;> rfl
    intro sighting hmem
    rcases List.mem_cons.1 hmem with rfl | hmem
    · exact hc
    · exact ih hnext (fun other hother => h other (.tail _ hother)) sighting hmem

theorem find?_open_of_split_none {t whole : Text} (h : split '{' t = (whole, none)) :
    (scan 0 0 t).find? (·.char == '{') = none := by
  rw [List.find?_eq_none]
  intro sighting hmem
  rw [char_ne_open rfl (fun _ hother => isOuter_of_splitFrom_none h hother) sighting hmem]
  decide

theorem find?_open_of_split {t lead post : Text} (h : split '{' t = (lead, some post)) :
    (scan 0 0 t).find? (·.char == '{') = some ⟨'{', lead.length, 0⟩ := by
  obtain ⟨hlevel, hnone⟩ := levelBehind?_of_splitFrom h
  have hlead : (scan 0 0 lead).find? (·.char == '{') = none := by
    rw [List.find?_eq_none]
    intro sighting hmem
    rw [char_ne_open rfl (hnone 0) sighting hmem]
    decide
  rw [splitFrom_some h, scan_append hlevel, List.find?_append, hlead, scan_cons (by decide),
    Nat.zero_add]
  rfl

theorem resultsOfAny_map_parse (patterns : List Text) :
    Tree.resultsOfAny (patterns.map parse) = patterns.flatMap expand := by
  induction patterns with
  | nil => rfl
  | cons pattern rest ih => rw [List.map_cons, Tree.resultsOfAny, ih, List.flatMap_cons, expand]

theorem resultsOfAny_trees (body : Body) : Tree.resultsOfAny body.trees = body.choices := by
  cases body with
  | empty => rfl
  | sequence elements => exact resultsOfAny_map_text elements
  | items patterns => exact resultsOfAny_map_parse patterns

theorem expand_of_unclosed {pattern lead post : Text} (h : split '{' pattern = (lead, some post))
    (hclose : closeGroup none post = none) :
    expand pattern = product [lead ++ ['{']] (expand post) := by
  rw [expand, parse_of_unclosed h hclose, results_group, product_single]
  simp [Tree.resultsOfAny, Tree.results, product, expand]

theorem expand_of_group {pattern lead post after : Text} {body : Body}
    (h : split '{' pattern = (lead, some post))
    (hclose : closeGroup none post = some (body, after)) :
    expand pattern = product [lead] (product body.choices (expand after)) := by
  rw [expand, parse_of_group h hclose, results_group, resultsOfAny_trees, product_single, expand]

/-- A pattern without an opening brace stands for itself. At the first opening brace, what one scan
finds behind it decides: a group, between whose choices the pattern chooses before it goes on
behind the group, or none, and then the brace is literal and the pattern goes on behind the brace.
The search round by round ends, with the same group. -/
theorem expand_eq_one_scan (pattern : Text) :
    match (scan 0 0 pattern).find? (·.char == '{') with
    | none => expand pattern = [pattern]
    | some opening =>
      let lead := pattern.take opening.position
      let post := pattern.drop (opening.position + 1)
      expand pattern =
          (match group? post with
          | none => product [lead ++ ['{']] (expand post)
          | some (body, after) => product [lead] (product body.choices (expand after))) ∧
        ∃ rounds, rounds ≤ (candidates '}' 0 post).length + 1 ∧
          Rounds rounds none post (group? post) := by
  rcases hsplit : split '{' pattern with ⟨lead, behind⟩
  cases behind with
  | none =>
    rw [find?_open_of_split_none hsplit]
    dsimp only
    rw [expand, parse_of_no_open hsplit]
    rfl
  | some post =>
    have htake : pattern.take lead.length = lead := by
      rw [splitFrom_some hsplit, List.take_left]
    have hdrop : pattern.drop (lead.length + 1) = post := by
      rw [splitFrom_some hsplit, List.drop_append]
      simp
    rw [find?_open_of_split hsplit]
    dsimp only
    rw [htake, hdrop, ← closeGroup_eq_group?]
    refine ⟨?_, exists_rounds none post 0⟩
    cases hclose : closeGroup none post with
    | none => exact expand_of_unclosed hsplit hclose
    | some found => exact expand_of_group hsplit hclose

/-- The first closing brace has no comma before it, so the group is widened. -/
example : expand "a\x7b1\x7d,2\x7db".toList = ["a1\x7db".toList, "a2b".toList] := by decide +kernel

end PathOptions.Brace
