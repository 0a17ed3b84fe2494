import Mathlib.Data.List.Nodup
import PathOptions.Proofs.Glob.Separators
import PathOptions.Proofs.Resolve.Values
/-!
A description of fixed depth applies at most once to a file. The steps towards a file have 0, 1,
2, … separators, and a match has the separators of its glob, so a description all of whose globs
have the same number of them matches at no other step than the one with that number
(`fixed_depth_applies_once`).
-/

namespace PathOptions

/-! ## Steps -/

namespace Path

/-- The steps towards a path have 0, 1, 2, … separators. -/
theorem map_count_steps (sep : Char) (path : Text) :
    (steps [sep] path).map (·.count sep) = List.range (path.count sep + 1) := by
  induction path with
  | nil => rfl
  | cons c cs ih =>
    have hlonger : ((steps [sep] cs).map (c :: ·)).map (·.count sep) =
        (List.range (cs.count sep + 1)).map (· + if c == sep then 1 else 0) := by
      rw [← ih, List.map_map, List.map_map]
      exact List.map_congr_left fun step _ => List.count_cons
    rw [steps]
    by_cases h : c = sep
    · subst h
      rw [if_pos (by simp), List.map_cons, hlonger, List.count_cons_self, beq_self_eq_true,
        if_pos rfl, List.range_succ_eq_map (n := cs.count c + 1)]
      rfl
    · rw [if_neg (by simpa using Ne.symm h), hlonger, List.count_cons_of_ne h]
      simp [h]

theorem count_of_getElem?_steps {sep : Char} {path step : Text} {position : Nat}
    (h : (steps [sep] path)[position]? = some step) : step.count sep = position := by
  have hcount : ((steps [sep] path).map (·.count sep))[position]? = some (step.count sep) := by
    rw [List.getElem?_map, h]
    rfl
  rw [map_count_steps] at hcount
  obtain ⟨hlt, heq⟩ := List.getElem?_eq_some_iff.1 hcount
  rw [← heq, List.getElem_range]

/-- Of the steps towards a path, at most one has so many separators. -/
theorem countP_steps_le_one (sep : Char) (path : Text) (depth : Nat) :
    (steps [sep] path).countP (·.count sep == depth) ≤ 1 := by
  have hcount : ((steps [sep] path).map (·.count sep)).countP (· == depth) =
      (steps [sep] path).countP (·.count sep == depth) := List.countP_map
  rw [← hcount, map_count_steps]
  exact List.nodup_iff_count_le_one.1 List.nodup_range depth

end Path

/-! ## Sub-profiles -/

theorem count_flatMap_le_countP {α β : Type} [BEq β] {f : α → List β} {test : α → Bool} {b : β}
    (h : ∀ a, (f a).count b ≤ if test a then 1 else 0) (items : List α) :
    (items.flatMap f).count b ≤ items.countP test := by
  induction items with
  | nil => exact Nat.le_refl 0
  | cons a rest ih =>
    rw [List.flatMap_cons, List.count_append, List.countP_cons, Nat.add_comm]
    exact Nat.add_le_add ih (h a)

namespace Context

/-- A profile whose globs have the same number of separators fits no step with another number. -/
theorem count_of_fits {ctx : Context} {profile : Profile} {step : Text} {depth : Nat}
    (hsep : ctx.matcher.dialect = .posix → ctx.matcher.sep = '/')
    (hdepth : ∀ description ∈ profile.description, ∀ glob ∈ Brace.expand description,
      ctx.matcher.HasSeparators glob depth)
    (h : ctx.fits step profile = true) : step.count ctx.matcher.sep = depth := by
  obtain ⟨description, hdescription, hany⟩ := (Option.any_eq_true _ _).1 h
  obtain ⟨glob, hglob, hdecides⟩ := List.any_eq_true.1 hany
  exact Glob.Matcher.count_of_decides hsep (hdepth description hdescription glob hglob) hdecides

/-- A step calls for profiles of different names. -/
theorem nodup_matching {ctx : Context} (hnames : (ctx.profiles.map (·.name)).Nodup)
    (parent : Profile) (step : Text) :
    ((ctx.matching parent step).value.map (·.name)).Nodup := by
  rw [value_matching]
  exact hnames.sublist ((List.filter_sublist.trans List.filter_sublist).map _)

/-- Names being different, the name of a sub-profile only stands for that sub-profile. -/
theorem mem_matching_of_name {ctx : Context} (hnames : (ctx.profiles.map (·.name)).Nodup)
    {parent profile : Profile} {step : Text} (hprofile : profile ∈ ctx.subprofiles parent)
    (h : profile.name ∈ (ctx.matching parent step).value.map (·.name)) :
    profile ∈ (ctx.matching parent step).value := by
  obtain ⟨other, hother, hname⟩ := List.mem_map.1 h
  have hsub : other ∈ ctx.subprofiles parent := by
    rw [value_matching] at hother
    exact (List.mem_filter.1 hother).1
  have heq : other = profile :=
    List.inj_on_of_nodup_map hnames (List.mem_filter.1 hsub).1 (List.mem_filter.1 hprofile).1 hname
  rwa [← heq]

theorem name_ne_of_mem_subprofiles {ctx : Context} {parent profile : Profile}
    (h : profile ∈ ctx.subprofiles parent) : parent.name ≠ profile.name := by
  intro heq
  have hprefix := List.isPrefixOf_iff_prefix.1 (List.mem_filter.1 h).2
  rw [← heq] at hprefix
  have hlength := hprefix.length_le
  rw [List.length_append, List.length_singleton] at hlength
  omega

/-- A sub-profile whose description has a fixed depth is applied at most once to a file, and only
at the step with so many separators; so its name is among those applied at most once. -/
theorem fixed_depth_applies_once {ctx : Context} {wildcards : Glob.Wildcards} {name sep : Value}
    (hmatcher : Glob.Matcher.select wildcards name sep = .ok ctx.matcher)
    (hnames : (ctx.profiles.map (·.name)).Nodup) {parent profile : Profile} {depth : Nat}
    (hprofile : profile ∈ ctx.subprofiles parent)
    (hdepth : ∀ description ∈ profile.description, ∀ glob ∈ Brace.expand description,
      ctx.matcher.HasSeparators glob depth)
    (child : Text) (properties : List Assignment) :
    let steps := Path.steps ctx.sep child
    let selected := fun step => (ctx.matching parent step).value
    let applied := (ctx.applyProfiles parent child properties).value.applied
    applied = parent.name :: (steps.flatMap selected).map (·.name) ∧
      (∀ position step, steps[position]? = some step → profile ∈ selected step →
        position = depth ∧ step.count ctx.matcher.sep = depth) ∧
      (steps.flatMap selected).count profile ≤ 1 ∧
      applied.count profile.name ≤ 1 := by
  intro steps selected applied
  have hcount : ∀ step, profile ∈ selected step → step.count ctx.matcher.sep = depth := by
    intro step hmem
    unfold selected at hmem
    rw [value_matching] at hmem
    exact count_of_fits (Glob.Matcher.sep_of_select hmatcher) hdepth (List.mem_filter.1 hmem).2
  have happlied : applied = parent.name :: (steps.flatMap selected).map (·.name) := by
    unfold applied
    rw [value_applyProfiles]
    rfl
  -- no step has the name twice, and a step that has it is the one with so many separators
  have hname : ((steps.flatMap selected).map (·.name)).count profile.name ≤ 1 := by
    rw [List.map_flatMap]
    refine Nat.le_trans (count_flatMap_le_countP (fun step => ?_) steps)
      (Path.countP_steps_le_one ctx.matcher.sep child depth)
    by_cases hmem : profile.name ∈ (selected step).map (·.name)
    · rw [hcount step (mem_matching_of_name hnames hprofile hmem), beq_self_eq_true, if_pos rfl]
      exact List.nodup_iff_count_le_one.1 (nodup_matching hnames parent step) profile.name
    · rw [List.count_eq_zero.2 hmem]
      exact Nat.zero_le _
  refine ⟨happlied, fun position step hstep hmem => ?_, ?_, ?_⟩
  · exact ⟨(Path.count_of_getElem?_steps hstep).symm.trans (hcount step hmem), hcount step hmem⟩
  · exact Nat.le_trans List.count_le_count_map hname
  · rw [happlied, List.count_cons_of_ne (name_ne_of_mem_subprofiles hprofile)]
    exact hname

/-- Both globs of the description have one slash, one of them behind a backslash, and the slash
that is doubled in the path is a step of its own. -/
theorem fixed_depth_applies_once_doubled :
    let parent : Profile := ⟨"t".toList, some "tree:/m".toList, []⟩
    let profile : Profile := ⟨"t/s".toList, some "\x7b?*\\/,a/\x7d*".toList, []⟩
    let ctx : Context := bare [parent, profile]
    let applied := (ctx.applyProfiles parent "a//b".toList []).value.applied
    (∀ description ∈ profile.description, ∀ glob ∈ Brace.expand description,
        ctx.matcher.HasSeparators glob 1) ∧
      applied.count profile.name ≤ 1 ∧ applied = [parent.name, profile.name] := by
  intro parent profile ctx applied
  have hdepth : ∀ description ∈ profile.description, ∀ glob ∈ Brace.expand description,
      ctx.matcher.HasSeparators glob 1 := by
    decide +kernel
  have hmatcher : Glob.Matcher.select ctx.matcher.wildcards (.text "builtin".toList)
      (.text "/".toList) = .ok ctx.matcher := rfl
  have hprofile : profile ∈ ctx.subprofiles parent := by decide
  have honce := fixed_depth_applies_once hmatcher (by decide) hprofile hdepth "a//b".toList []
  exact ⟨hdepth, honce.2.2.2, by decide +kernel⟩

end Context

end PathOptions
