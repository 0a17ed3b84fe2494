import PathOptions.Proofs.Resolve.Trees
/-!
A profile that has nothing to do with a file does not matter for it. Profiles are looked up in
three ways: as the parent, by a tree that holds the file; as a sub-profile, by the beginning of the
name; as an included profile, by the whole name. A profile that none of these finds can stand
anywhere among the others (`resolve_unrelated`).
-/

namespace PathOptions

section

variable (ctx : Context) {before after : List Profile} {extra : Profile}

/-! ## Inclusion -/

namespace Profile

/-- A name that the profile does not have is looked up as without it. -/
theorem find?_of_name_ne {name : Text} (h : name ≠ extra.name) :
    find? (before ++ extra :: after) name = find? (before ++ after) name := by
  have hextra : (extra.name == name) = false := beq_eq_false_iff_ne.2 h.symm
  rw [find?, List.find?_append, List.find?_cons, hextra, find?, List.find?_append]

theorem eq_of_include {option : Assignment} {name : Text}
    (h : Instruction.ofOption option = .include name) : option = ("profile".toList, name) := by
  unfold Instruction.ofOption at h
  split at h
  · rename_i hkey
    obtain rfl := Instruction.include.inj h
    exact Prod.ext hkey rfl
  · split at h <;> cases h

/-- At every depth profiles include what they include without a profile that none of them names. -/
theorem assignments_unrelated (properties : List Assignment)
    (hincluded : ∀ profile ∈ before ++ after, ("profile".toList, extra.name) ∉ profile.options)
    (levels : Nat) {profile : Profile} (hprofile : profile ∈ before ++ after) :
    assignments { ctx with profiles := before ++ extra :: after } properties levels profile =
      assignments { ctx with profiles := before ++ after } properties levels profile := by
  induction levels generalizing profile with
  | zero => rfl
  | succ levels ih =>
    rw [assignments_succ, assignments_succ]
    refine List.flatMap_congr ?_
    intro option hoption
    cases hinstruction : Instruction.ofOption option with
    | assign key value => simp only [settings, hinstruction]
    | «include» name =>
      have hname : name ≠ extra.name := by
        intro heq
        rw [eq_of_include hinstruction, heq] at hoption
        exact hincluded profile hprofile hoption
      simp only [settings, hinstruction, find?_of_name_ne hname]
      cases hfound : find? (before ++ after) name with
      | none => rfl
      | some included => exact ih (List.mem_of_find?_eq_some hfound)

end Profile

/-! ## The parent -/

namespace Lineage

theorem find_unrelated {path : Text} (h : ctx.childOf? path extra = none) :
    (find { ctx with profiles := before ++ extra :: after } path).value =
      (find { ctx with profiles := before ++ after } path).value := by
  have hextra : candidate? ctx path extra = none := by rw [candidate?, h, Option.map_none]
  have hcandidates : (before ++ extra :: after).filterMap (candidate? ctx path) =
      (before ++ after).filterMap (candidate? ctx path) := by
    rw [List.filterMap_append, List.filterMap_cons, hextra, List.filterMap_append]
  rw [value_find, value_find]
  exact congrArg (List.argmin fun lineage => lineage.child.length) hcandidates

theorem parent_mem_of_find {path : Text} {lineage : Lineage}
    (h : (find ctx path).value = some lineage) : lineage.parent ∈ ctx.profiles := by
  obtain ⟨before, after, hprofiles, _⟩ := exists_append_of_find h
  rw [hprofiles]
  exact List.mem_append_right _ (.head _)

end Lineage

/-! ## Resolutions -/

namespace Context

theorem subprofiles_unrelated {parent : Profile} (h : parent.isSubOf extra = false) :
    { ctx with profiles := before ++ extra :: after }.subprofiles parent =
      { ctx with profiles := before ++ after }.subprofiles parent := by
  simp [subprofiles, h]

theorem selection_unrelated {parent : Profile} (h : parent.isSubOf extra = false)
    (child : Text) :
    { ctx with profiles := before ++ extra :: after }.selection parent child =
      { ctx with profiles := before ++ after }.selection parent child := by
  simp only [selection, value_matching, subprofiles_unrelated ctx h]
  rfl

/-- What is selected for a file are its parent and other profiles of the context. -/
theorem mem_profiles_of_selection {parent profile : Profile} {child : Text}
    (hparent : parent ∈ ctx.profiles) (h : profile ∈ ctx.selection parent child) :
    profile ∈ ctx.profiles := by
  rcases List.mem_cons.1 h with rfl | h
  · exact hparent
  · obtain ⟨step, _, hstep⟩ := List.mem_flatMap.1 h
    rw [value_matching] at hstep
    exact (List.mem_filter.1 (List.mem_filter.1 hstep).1).1

theorem find_of_lineageOf {full : Text} {lineage : Lineage}
    (h : ctx.lineageOf full = some lineage) :
    (Lineage.find ctx full).value = some lineage := by
  unfold lineageOf at h
  split at h
  · cases h
  · exact (Option.filter_eq_some_iff.1 h).1

theorem lineageOf_unrelated {full : Text} (h : ctx.childOf? full extra = none) :
    { ctx with profiles := before ++ extra :: after }.lineageOf full =
      { ctx with profiles := before ++ after }.lineageOf full := by
  unfold lineageOf
  rw [Lineage.find_unrelated ctx h]
  rfl

theorem applyProfiles_unrelated {parent : Profile} (hparent : parent ∈ before ++ after)
    (hsub : parent.isSubOf extra = false)
    (hincluded : ∀ profile ∈ before ++ after, ("profile".toList, extra.name) ∉ profile.options)
    (child : Text) (properties : List Assignment) :
    ({ ctx with profiles := before ++ extra :: after }.applyProfiles parent child
        properties).value =
      ({ ctx with profiles := before ++ after }.applyProfiles parent child properties).value := by
  rw [value_applyProfiles, value_applyProfiles, selection_unrelated ctx hsub]
  congr 1
  refine List.flatMap_congr ?_
  intro profile hprofile
  have hmem := mem_profiles_of_selection { ctx with profiles := before ++ after } hparent hprofile
  exact congrArg (Resolution.entriesOf profile.name)
    (Profile.assignments_unrelated ctx properties hincluded _ hmem)

/-- A profile does not matter for a file if no tree of its own holds the file, if it is no
sub-profile of the parent of the file, and if no other profile includes it. -/
theorem resolve_unrelated {path workingDirectory : Text}
    (htree : ctx.childOf? (Path.join ctx.sep workingDirectory path) extra = none)
    (hsub : ∀ lineage, (Lineage.find { ctx with profiles := before ++ after }
        (Path.join ctx.sep workingDirectory path)).value = some lineage →
      lineage.parent.isSubOf extra = false)
    (hincluded : ∀ profile ∈ before ++ after,
      ("profile".toList, extra.name) ∉ profile.options) :
    ({ ctx with profiles := before ++ extra :: after }.resolve path workingDirectory).value =
      ({ ctx with profiles := before ++ after }.resolve path workingDirectory).value := by
  have hresolve : ∀ profiles,
      ({ ctx with profiles := profiles }.resolve path workingDirectory).value =
        Option.map
          (fun lineage : Lineage =>
            ({ ctx with profiles := profiles }.applyProfiles lineage.parent lineage.child
              (Property.ofChild ctx.sep lineage.parent.name lineage.child)).value)
          ({ ctx with profiles := profiles }.lineageOf
            (Path.join ctx.sep workingDirectory path)) := by
    intro profiles
    exact value_resolve { ctx with profiles := profiles } path workingDirectory
  rw [hresolve, hresolve, lineageOf_unrelated ctx htree]
  refine Option.map_congr ?_
  intro lineage h
  have hfind := find_of_lineageOf _ h
  exact applyProfiles_unrelated ctx (Lineage.parent_mem_of_find _ hfind) (hsub lineage hfind)
    hincluded _ _

/-- The profile in the middle has a tree beside the file and a name that begins like that of the
parent, and it bears the name of another profile, which is a sub-profile of none. -/
theorem resolve_unrelated_namesake :
    let parent : Profile := ⟨"a".toList, some "tree:/m".toList,
      [("profile".toList, "c".toList), ("sid".toList, "1".toList)]⟩
    let sub : Profile := ⟨"a/s".toList, some "*".toList, [("vol".toList, "5".toList)]⟩
    let included : Profile := ⟨"c".toList, none, [("alang".toList, "en".toList)]⟩
    let other : Profile := ⟨"ab/s".toList, none, [("sid".toList, "3".toList)]⟩
    let extra : Profile := ⟨"ab/s".toList, some "tree:/mm".toList,
      [("profile".toList, "ab/s".toList), ("vol".toList, "9".toList)]⟩
    let ctx : Context := Context.bare []
    let resolved := fun profiles =>
      ({ ctx with profiles := profiles }.resolve "f".toList "/m".toList).value
    resolved ([parent, sub] ++ extra :: [other, included]) =
        resolved ([parent, sub] ++ [other, included]) ∧
      (resolved ([parent, sub] ++ [other, included])).map (·.options) =
        some [("alang".toList, "en".toList), ("sid".toList, "1".toList),
          ("vol".toList, "5".toList)] := by
  intro parent sub included other extra ctx resolved
  have hfind : (Lineage.find { ctx with profiles := [parent, sub] ++ [other, included] }
      (Path.join ctx.sep "/m".toList "f".toList)).value = some ⟨parent, "f".toList⟩ := by
    decide
  refine ⟨resolve_unrelated ctx (by decide) ?_ (by decide), by decide +kernel⟩
  intro lineage hlineage
  obtain rfl := Option.some.inj (hfind.symm.trans hlineage)
  decide

end Context

end

end PathOptions
