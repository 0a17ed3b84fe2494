import PathOptions.Proofs.Glob.CommonSegments
/-!
The two dialects agree on common globs. Matching a whole text falls apart into matching its pieces
between slashes, as long as no bracket expression takes a slash: a wildcard takes none, so every
slash of the glob takes one of the text, and they are all taken if there are as many in both. Of the
wildcards of segments only their meaning in common globs is used.
-/

namespace PathOptions.Glob

/-! ## Slashes in a glob -/

namespace CommonMember

/-- Whether a member is a range that holds the slash. -/
def spansSlash : CommonMember → Bool
  | single _ _ => false
  | range lo hi _ _ => lo.toNat ≤ '/'.toNat && '/'.toNat ≤ hi.toNat

/-- Only a range holds the slash. -/
theorem spansSlash_of_has {member : CommonMember}
    (h : member.members.any (·.has '/') = true) : member.spansSlash = true := by
  cases member with
  | single c hc =>
    obtain rfl : '/' = c := by simpa [Member.has] using h
    exact absurd (by simp) hc
  | range lo hi hlo hhi =>
    simpa [spansSlash] using (has_rangeOf lo hi '/').1 h

end CommonMember

namespace CommonPart

def isComplemented : CommonPart → Bool
  | bracket mark _ _ _ => mark.isSome
  | _ => false

/-- Whether a part is a bracket expression that lists a range that holds the slash. -/
def spansSlash : CommonPart → Bool
  | bracket _ _ first others => (first :: others).any (·.spansSlash)
  | _ => false

def step (part : CommonPart) : Step := part.element.step '/'

def slashes (part : CommonPart) : Nat := if part.isSlash then 1 else 0

theorem count_text (part : CommonPart) : part.text.count '/' = part.slashes := by
  cases part with
  | char c h => simp [text, slashes, isSlash, List.count_singleton]
  | anyString | anyChar => rfl
  | escaped c => simp [text, slashes, isSlash, List.count_cons]
  | bracket mark hmark first others =>
    exact List.count_eq_zero.2 fun h => (plain_of_mem_bracket hmark first others '/' h).2 rfl

end CommonPart

def CommonGlob.steps (glob : CommonGlob) : List Step := glob.map (·.step)

theorem isMatch_text (glob : CommonGlob) (t : Text) :
    isMatch '/' glob.text t = accepts glob.steps t := by
  rw [isMatch, decideSteps_eq, elements_text, List.map_map]
  rfl

theorem CommonGlob.count_text {glob : CommonGlob} (h : ∀ part ∈ glob, part.isSlash = false) :
    glob.text.count '/' = 0 := by
  induction glob with
  | nil => rfl
  | cons part rest ih =>
    have hrest := ih fun other hother => h other (.tail _ hother)
    rw [text_cons, List.count_append, part.count_text, hrest, CommonPart.slashes, h part (.head _)]
    rfl

/-! ## Slashes in a text -/

theorem accepts_append_iff {steps rest : List Step} {t : Text} :
    accepts (steps ++ rest) t = true ↔
      ∃ before after, t = before ++ after ∧ accepts steps before = true ∧
        accepts rest after = true := by
  induction steps generalizing t with
  | nil =>
    constructor
    · intro h
      exact ⟨[], t, rfl, rfl, h⟩
    · intro htaken
      obtain ⟨before, after, rfl, hbefore, h⟩ := htaken
      obtain rfl : before = [] := by simpa [accepts] using hbefore
      exact h
  | cons step steps ih =>
    cases step with
    | one set =>
      rw [List.cons_append, accepts_one_iff]
      constructor
      · intro htaken
        obtain ⟨c, more, rfl, hc, h⟩ := htaken
        obtain ⟨before, after, rfl, hbefore, hafter⟩ := ih.1 h
        exact ⟨c :: before, after, rfl, accepts_one_iff.2 ⟨c, before, rfl, hc, hbefore⟩, hafter⟩
      · intro htaken
        obtain ⟨before, after, rfl, hbefore, hafter⟩ := htaken
        obtain ⟨c, more, rfl, hc, h⟩ := accepts_one_iff.1 hbefore
        exact ⟨c, more ++ after, rfl, hc, ih.2 ⟨more, after, rfl, h, hafter⟩⟩
    | run set =>
      rw [List.cons_append, accepts_run_iff]
      constructor
      · intro htaken
        obtain ⟨run, more, rfl, hrun, h⟩ := htaken
        obtain ⟨before, after, rfl, hbefore, hafter⟩ := ih.1 h
        exact ⟨run ++ before, after, (List.append_assoc _ _ _).symm,
          accepts_run_iff.2 ⟨run, before, rfl, hrun, hbefore⟩, hafter⟩
      · intro htaken
        obtain ⟨before, after, rfl, hbefore, hafter⟩ := htaken
        obtain ⟨run, more, rfl, hrun, h⟩ := accepts_run_iff.1 hbefore
        exact ⟨run, more ++ after, List.append_assoc _ _ _, hrun,
          ih.2 ⟨more, after, rfl, h, hafter⟩⟩

theorem accepts_single_iff {set : CharSet} {t : Text} :
    accepts [.one set] t = true ↔ ∃ c, t = [c] ∧ set.has c = true := by
  rw [accepts_one_iff]
  constructor
  · intro htaken
    obtain ⟨c, after, rfl, hc, hafter⟩ := htaken
    obtain rfl : after = [] := by simpa [accepts] using hafter
    exact ⟨c, rfl, hc⟩
  · intro htaken
    obtain ⟨c, rfl, hc⟩ := htaken
    exact ⟨c, [], rfl, hc, rfl⟩

/-- What a part takes has at least the slashes that the part stands for, and no other if the part
is no bracket expression that can take a slash. -/
theorem slashes_le_count_of_part {part : CommonPart} {t : Text}
    (h : accepts [part.step] t = true) :
    part.slashes ≤ t.count '/' ∧
      (part.isComplemented = false → part.spansSlash = false → t.count '/' = part.slashes) := by
  cases part with
  | char c _ | escaped c =>
    obtain ⟨d, rfl, hd⟩ := accepts_single_iff.1 h
    obtain rfl : d = c := by simpa using hd
    have hcount : [d].count '/' = if d == '/' then 1 else 0 := by simp [List.count_singleton]
    exact ⟨Nat.le_of_eq hcount.symm, fun _ _ => hcount⟩
  | anyString =>
    obtain ⟨run, after, rfl, hrun, hafter⟩ := accepts_run_iff.1 h
    obtain rfl : after = [] := by simpa [accepts] using hafter
    have hcount : (run ++ []).count '/' = 0 := by
      refine List.count_eq_zero.2 fun hmem => ?_
      have := hrun '/' (by simpa using hmem)
      simp at this
    exact ⟨Nat.le_of_eq hcount.symm, fun _ _ => hcount⟩
  | anyChar =>
    obtain ⟨d, rfl, hd⟩ := accepts_single_iff.1 h
    have hcount : [d].count '/' = 0 := by
      refine List.count_eq_zero.2 fun hmem => ?_
      obtain rfl := List.mem_singleton.1 hmem
      simp at hd
    exact ⟨Nat.le_of_eq hcount.symm, fun _ _ => hcount⟩
  | bracket mark hmark first others =>
    refine ⟨Nat.zero_le _, fun hplain hspans => List.count_eq_zero.2 fun hmem => ?_⟩
    obtain ⟨d, rfl, hd⟩ := accepts_single_iff.1 h
    obtain rfl := List.mem_singleton.1 hmem
    -- only a range can take the slash here
    rw [CommonPart.isComplemented] at hplain
    rw [CharSet.has, hplain, Bool.bne_false, List.any_flatMap, List.any_eq_true] at hd
    obtain ⟨member, hmember, hhas⟩ := hd
    have hnot := List.any_eq_false.1 hspans member hmember
    exact hnot (CommonMember.spansSlash_of_has hhas)

/-- What a glob takes has at least as many slashes as the glob has, and no other if no bracket
expression can take one. -/
theorem slashes_le_count {glob : CommonGlob} {t : Text}
    (h : accepts glob.steps t = true) :
    glob.text.count '/' ≤ t.count '/' ∧
      ((∀ part ∈ glob, part.isComplemented = false ∧ part.spansSlash = false) →
        t.count '/' = glob.text.count '/') := by
  induction glob generalizing t with
  | nil =>
    obtain rfl : t = [] := by simpa [CommonGlob.steps, accepts] using h
    exact ⟨Nat.le_refl _, fun _ => rfl⟩
  | cons part rest ih =>
    have hsplit : accepts ([part.step] ++ CommonGlob.steps rest) t = true := h
    obtain ⟨before, after, rfl, hbefore, hafter⟩ := accepts_append_iff.1 hsplit
    have hpart := slashes_le_count_of_part hbefore
    have hrest := ih hafter
    rw [CommonGlob.text_cons, List.count_append, List.count_append, part.count_text]
    refine ⟨Nat.add_le_add hpart.1 hrest.1, fun hno => ?_⟩
    have hfirst := hno part (.head _)
    rw [hpart.2 hfirst.1 hfirst.2, hrest.2 fun other hother => hno other (.tail _ hother)]

/-! ## Segments -/

/-- Between slashes it makes no difference that a wildcard takes none. -/
theorem accepts_segmentStep (part : CommonPart) {t : Text} (h : '/' ∉ t) :
    accepts [part.segmentStep] t = accepts [part.step] t := by
  have hne : ∀ c ∈ t, (CharSet.allBut '/').has c = true := by
    intro c hc
    have hslash : c ≠ '/' := fun heq => h (heq ▸ hc)
    simpa using hslash
  cases part with
  | char c _ | escaped c | bracket mark _ first others => rfl
  | anyChar =>
    rw [Bool.eq_iff_iff]
    refine accepts_single_iff.trans (Iff.trans ?_ accepts_single_iff.symm)
    constructor
    · intro htaken
      obtain ⟨c, rfl, -⟩ := htaken
      exact ⟨c, rfl, hne c (.head _)⟩
    · intro htaken
      obtain ⟨c, rfl, -⟩ := htaken
      exact ⟨c, rfl, CharSet.has_all c⟩
  | anyString =>
    rw [Bool.eq_iff_iff]
    refine accepts_run_iff.trans (Iff.trans ?_ accepts_run_iff.symm)
    constructor
    · intro htaken
      obtain ⟨run, after, rfl, -, hafter⟩ := htaken
      exact ⟨run, after, rfl, fun c hc => hne c (List.mem_append_left _ hc), hafter⟩
    · intro htaken
      obtain ⟨run, after, rfl, -, hafter⟩ := htaken
      exact ⟨run, after, rfl, fun c _ => CharSet.has_all c, hafter⟩

theorem accepts_segmentSteps (glob : CommonGlob) {t : Text} (h : '/' ∉ t) :
    accepts (glob.map (·.segmentStep)) t = accepts glob.steps t := by
  induction glob generalizing t with
  | nil => rfl
  | cons part rest ih =>
    have hsplit : accepts ([part.segmentStep] ++ rest.map (·.segmentStep)) t =
        accepts ([part.step] ++ CommonGlob.steps rest) t := by
      rw [Bool.eq_iff_iff, accepts_append_iff, accepts_append_iff]
      constructor
      · intro htaken
        obtain ⟨before, after, rfl, hbefore, hafter⟩ := htaken
        rw [List.mem_append, not_or] at h
        rw [accepts_segmentStep part h.1] at hbefore
        rw [ih h.2] at hafter
        exact ⟨before, after, rfl, hbefore, hafter⟩
      · intro htaken
        obtain ⟨before, after, rfl, hbefore, hafter⟩ := htaken
        rw [List.mem_append, not_or] at h
        rw [← accepts_segmentStep part h.1] at hbefore
        rw [← ih h.2] at hafter
        exact ⟨before, after, rfl, hbefore, hafter⟩
    exact hsplit

/-- Nothing but asterisks takes nothing. -/
theorem all_asterisk_text (glob : CommonGlob) :
    glob.text.all (· == '*') = accepts glob.steps [] := by
  induction glob with
  | nil => rfl
  | cons part rest ih =>
    rw [CommonGlob.text_cons, List.all_append, ih]
    cases part with
    | char c h =>
      have hc : c ≠ '*' := by
        rintro rfl
        exact h (by simp)
      simp [CommonPart.text, hc, CommonGlob.steps, CommonPart.step, CommonPart.element,
        Element.step, accepts]
    | anyString => rfl
    | anyChar | escaped c | bracket mark hmark first others => rfl

/-- A segment matches the names that the glob matches in the simplified dialect. -/
theorem matchOne_text {wildcards : Wildcards} (hread : wildcards.ReadCommonSegments)
    {glob : CommonGlob} (hglob : ∀ part ∈ glob, part.isSlash = false) {name : Text}
    (h : '/' ∉ name) :
    Pathname.matchOne wildcards glob.text name = accepts glob.steps name := by
  unfold Pathname.matchOne
  split
  · rename_i hempty
    obtain rfl := List.isEmpty_iff.1 hempty
    exact all_asterisk_text glob
  · rename_i hne
    rw [hread glob name hglob (fun hnil => hne (List.isEmpty_iff.2 hnil)) h,
      accepts_segmentSteps glob h]

/-! ## Pathnames -/

/-- A glob has a first part that stands for a slash, or it has none. -/
theorem exists_first_slash (glob : CommonGlob) :
    (∀ part ∈ glob, part.isSlash = false) ∨
      ∃ segment slash rest, glob = segment ++ slash :: rest ∧ slash.isSlash = true ∧
        ∀ part ∈ segment, part.isSlash = false := by
  cases hfind : glob.find? (·.isSlash) with
  | none =>
    refine .inl fun part hpart => ?_
    simpa using List.find?_eq_none.1 hfind part hpart
  | some slash =>
    obtain ⟨hslash, segment, rest, heq, hsegment⟩ := List.find?_eq_some_iff_append.1 hfind
    exact .inr ⟨segment, slash, rest, heq, hslash, by simpa using hsegment⟩

theorem accepts_slash_iff {part : CommonPart} (h : part.isSlash = true) {t : Text} :
    accepts [part.step] t = true ↔ t = ['/'] := by
  have hslash : ∀ c : Char, c = '/' → (accepts [.one (.only c)] t = true ↔ t = ['/']) := by
    rintro c rfl
    rw [accepts_single_iff]
    constructor
    · intro htaken
      obtain ⟨d, rfl, hd⟩ := htaken
      simpa using hd
    · rintro rfl
      exact ⟨'/', rfl, by simp⟩
  cases part with
  | char c _ | escaped c => exact hslash c (beq_iff_eq.1 h)
  | anyString | anyChar | bracket mark hmark first others => cases h

/-- A glob with a slash takes what its segment before the slash takes, a slash, and what the rest
takes. -/
theorem accepts_slash_steps_iff {slash : CommonPart} (h : slash.isSlash = true)
    (segment rest : CommonGlob) {t : Text} :
    accepts (CommonGlob.steps (segment ++ slash :: rest)) t = true ↔
      ∃ before after, t = before ++ '/' :: after ∧ accepts segment.steps before = true ∧
        accepts rest.steps after = true := by
  have hsteps : CommonGlob.steps (segment ++ slash :: rest) =
      segment.steps ++ ([slash.step] ++ rest.steps) := by
    simp [CommonGlob.steps]
  rw [hsteps, accepts_append_iff]
  constructor
  · intro htaken
    obtain ⟨before, more, rfl, hbefore, hmore⟩ := htaken
    obtain ⟨taken, after, rfl, htaken, hafter⟩ := accepts_append_iff.1 hmore
    obtain rfl := (accepts_slash_iff h).1 htaken
    exact ⟨before, after, rfl, hbefore, hafter⟩
  · intro htaken
    obtain ⟨before, after, rfl, hbefore, hafter⟩ := htaken
    exact ⟨before, '/' :: after, rfl, hbefore,
      accepts_append_iff.2 ⟨['/'], after, rfl, (accepts_slash_iff h).2 rfl, hafter⟩⟩

theorem segments_text_of_no_slash {glob : CommonGlob} (h : ∀ part ∈ glob, part.isSlash = false) :
    Pathname.segments glob.text = [glob.text] := by
  have hseg := Pathname.segments_append h []
  rw [List.append_nil] at hseg
  rw [hseg, Pathname.segments, Pathname.onFirst, List.append_nil]

theorem segments_text_of_slash {segment : CommonGlob} (h : ∀ part ∈ segment, part.isSlash = false)
    {slash : CommonPart} (hslash : slash.isSlash = true) (rest : CommonGlob) :
    Pathname.segments (CommonGlob.text (segment ++ slash :: rest)) =
      segment.text :: Pathname.segments rest.text := by
  rw [CommonGlob.text_append, CommonGlob.text_cons, Pathname.segments_append h,
    Pathname.segments_part, if_pos hslash, Pathname.onFirst, List.append_nil]

theorem matchAll_single_of_ne_nil (wildcards : Wildcards) {segment name : Text}
    {names : List Text} (h : names ≠ []) :
    Pathname.matchAll wildcards [segment] (name :: names) = false := by
  cases names with
  | nil => exact absurd rfl h
  | cons next names => simp [Pathname.matchAll]

theorem matchAll_of_ne_nil_single (wildcards : Wildcards) {segment name : Text}
    {segments : List Text} (h : segments ≠ []) :
    Pathname.matchAll wildcards (segment :: segments) [name] = false := by
  cases segments with
  | nil => exact absurd rfl h
  | cons next segments => simp [Pathname.matchAll]

theorem count_text_of_slash {segment : CommonGlob} (h : ∀ part ∈ segment, part.isSlash = false)
    {slash : CommonPart} (hslash : slash.isSlash = true) (rest : CommonGlob) :
    (CommonGlob.text (segment ++ slash :: rest)).count '/' = rest.text.count '/' + 1 := by
  rw [CommonGlob.text_append, CommonGlob.text_cons, List.count_append, List.count_append,
    CommonGlob.count_text h, slash.count_text, CommonPart.slashes, if_pos hslash]
  omega

/-- Matching pathnames is matching whole texts with as many slashes as the glob has. -/
theorem isMatch_iff_accepts {wildcards : Wildcards} (hread : wildcards.ReadCommonSegments)
    (glob : CommonGlob) (candidate : Text) :
    Pathname.isMatch wildcards glob.text candidate = true ↔
      accepts glob.steps candidate = true ∧ candidate.count '/' = glob.text.count '/' := by
  -- a segment takes many parts at once, so the induction is on the length
  induction hn : glob.length using Nat.strongRecOn generalizing glob candidate with
  | ind n ih =>
    subst hn
    unfold Pathname.isMatch
    rcases exists_first_slash glob with hno | ⟨segment, slash, rest, rfl, hslash, hno⟩
    · rw [segments_text_of_no_slash hno, CommonGlob.count_text hno]
      by_cases hmem : '/' ∈ candidate
      · obtain ⟨name, more, rfl, hname⟩ := List.eq_append_cons_of_mem hmem
        rw [Text.pieces_append hname, matchAll_single_of_ne_nil _ (Text.pieces_ne_nil _ _)]
        simp
      · rw [Text.pieces_of_not_mem hmem, ← matchOne_text hread hno hmem]
        simp [Pathname.matchAll, List.count_eq_zero.2 hmem]
    · rw [segments_text_of_slash hno hslash, count_text_of_slash hno hslash]
      by_cases hmem : '/' ∈ candidate
      · obtain ⟨name, more, rfl, hname⟩ := List.eq_append_cons_of_mem hmem
        have hshorter : List.length rest < (segment ++ slash :: rest).length := by
          simp only [List.length_append, List.length_cons]
          omega
        have hrest := ih _ hshorter rest more rfl
        have hname0 : name.count '/' = 0 := List.count_eq_zero.2 hname
        rw [Pathname.isMatch] at hrest
        rw [Text.pieces_append hname, Pathname.matchAll, Bool.and_eq_true,
          matchOne_text hread hno hname, hrest, accepts_slash_steps_iff hslash, List.count_append,
          List.count_cons_self, hname0]
        constructor
        · intro hmatch
          obtain ⟨hsegment, hmore, hcount⟩ := hmatch
          exact ⟨⟨name, more, rfl, hsegment, hmore⟩, by omega⟩
        · intro hmatch
          obtain ⟨⟨before, after, heq, hsegment, hafter⟩, hcount⟩ := hmatch
          -- the rest takes all the slashes behind the first one, so none is left for the segment
          have hbehind := (slashes_le_count hafter).1
          have hcounts := congrArg (List.count '/') heq
          simp only [List.count_append, List.count_cons_self] at hcounts
          have hbefore : '/' ∉ before := List.count_eq_zero.1 (by omega)
          obtain ⟨rfl, rfl⟩ := Text.eq_of_append_sep heq.symm hbefore hname
          exact ⟨hsegment, hafter, by omega⟩
      · rw [Text.pieces_of_not_mem hmem, matchAll_of_ne_nil_single _ (Pathname.segments_ne_nil _)]
        simp [List.count_eq_zero.2 hmem]

/-- The dialects agree on a common glob as far as texts with as many slashes as the glob are
concerned, and on all texts if no bracket expression of the glob can take a slash. -/
theorem pathname_isMatch_iff {wildcards : Wildcards} (hread : wildcards.ReadCommonSegments)
    (glob : CommonGlob) (candidate : Text) :
    (Pathname.isMatch wildcards glob.text candidate = true ↔
      isMatch '/' glob.text candidate = true ∧ candidate.count '/' = glob.text.count '/') ∧
    ((∀ part ∈ glob, part.isComplemented = false ∧ part.spansSlash = false) →
      Pathname.isMatch wildcards glob.text candidate = isMatch '/' glob.text candidate) := by
  rw [isMatch_text, isMatch_iff_accepts hread]
  refine ⟨Iff.rfl, fun hno => ?_⟩
  rw [Bool.eq_iff_iff, isMatch_iff_accepts hread]
  exact ⟨fun h => h.1, fun h => ⟨h, (slashes_le_count h).2 hno⟩⟩

/-- A range, a wildcard and a slash behind a backslash: both dialects match. -/
theorem pathname_isMatch_plain_range :
    let glob : CommonGlob :=
      [.char 'a' (by decide), .anyString, .escaped '/',
        .bracket none (fun _ h => nomatch h) (.range 'b' 'd' (by decide) (by decide))
          [.single '?' (by decide)]]
    glob.text = "a*\\/[b-d?]".toList ∧ Wildcards.ReadCommonSegments Segment.isMatch ∧
      (∀ part ∈ glob, part.isComplemented = false ∧ part.spansSlash = false) ∧
      Pathname.isMatch Segment.isMatch glob.text "abc/c".toList =
        isMatch '/' glob.text "abc/c".toList ∧
      isMatch '/' glob.text "abc/c".toList = true := by
  intro glob
  have hread := Segment.readCommonSegments_isMatch
  have hplain : ∀ part ∈ glob, part.isComplemented = false ∧ part.spansSlash = false := by decide
  exact ⟨rfl, hread, hplain, (pathname_isMatch_iff hread glob _).2 hplain, by decide⟩

/-- It is not enough that no bracket expression is complemented: a range can take a slash. -/
theorem pathname_isMatch_range_over_slash :
    let glob : CommonGlob :=
      [.bracket none (fun _ h => nomatch h) (.range '.' '0' (by decide) (by decide)) []]
    glob.text = "[.-0]".toList ∧ (∀ part ∈ glob, part.isComplemented = false) ∧
      isMatch '/' glob.text ['/'] = true ∧
      ∀ wildcards, Pathname.isMatch wildcards glob.text ['/'] = false :=
  ⟨rfl, by decide, by decide, fun _ => rfl⟩

end PathOptions.Glob
