import PathOptions.Glob.Segment
import PathOptions.Proofs.Brace.Iteration
import PathOptions.Resolve.File
/-!
What each part of a resolution comes to, apart from what it tells. An option comes to assignments,
a profile to those of its options, a description to the question whether one of its texts matches,
and a resolution to the profiles that are selected for a file, with the assignments of each
(`value_applyProfiles`). Whatever is proved of resolutions starts from these equations.
-/

namespace PathOptions

namespace Logged

theorem value_foldlM {α β : Type} (f : β → α → Logged β) (start : β) (items : List α) :
    (items.foldlM f start).value = items.foldl (fun b a => (f b a).value) start := by
  induction items generalizing start with
  | nil => rfl
  | cons a rest ih =>
    rw [List.foldlM_cons, value_bind, ih]
    rfl

theorem value_filterM {α : Type} (test : α → Logged Bool) (items : List α) :
    (items.filterM test).value = items.filter fun a => (test a).value := by
  -- what is kept is collected in reverse
  have haux : ∀ kept, (items.filterAuxM test kept).value =
      (items.filter fun a => (test a).value).reverse ++ kept := by
    induction items with
    | nil => exact fun _ => rfl
    | cons a rest ih =>
      intro kept
      rw [List.filterAuxM, value_bind, ih, List.filter_cons]
      cases (test a).value <;> simp
  rw [List.filterM, value_bind, haux]
  simp

end Logged

/-! ## Profiles -/

namespace Profile

/-- What an option comes to: an assignment or none if it is locked, or what the profile that it
includes comes to. -/
def settings (ctx : Context) (properties : List Assignment)
    (included : Profile → List Assignment) (option : Assignment) : List Assignment :=
  match Instruction.ofOption option with
  | .include name => (Profile.find? ctx.profiles name).elim [] included
  | .assign key value =>
    if key ∈ ctx.locked then [] else [(key, Property.substitute properties value)]

theorem settings_include (ctx : Context) (properties : List Assignment)
    (included : Profile → List Assignment) {option : Assignment} {name : Text}
    (h : Instruction.ofOption option = .include name) :
    settings ctx properties included option =
      (Profile.find? ctx.profiles name).elim [] included := by
  unfold settings
  rw [h]

theorem value_assignmentsOf (ctx : Context) (properties : List Assignment)
    (included : Profile → Logged (List Assignment)) (options : List Assignment) :
    (assignmentsOf ctx properties included options).value =
      options.flatMap (settings ctx properties fun profile => (included profile).value) := by
  induction options with
  | nil => rfl
  | cons option rest ih =>
    rw [assignmentsOf, List.flatMap_cons, ← ih, settings]
    cases Instruction.ofOption option with
    | «include» name =>
      dsimp only
      cases Profile.find? ctx.profiles name <;> rfl
    | assign key value =>
      simp only [assign, Logged.value_bind]
      split <;> rfl

/-- What a profile comes to when so many levels of inclusion are left. -/
def assignments (ctx : Context) (properties : List Assignment) (levels : Nat)
    (profile : Profile) : List Assignment :=
  (applyLevels ctx properties levels profile).value

theorem assignments_succ (ctx : Context) (properties : List Assignment) (levels : Nat)
    (profile : Profile) :
    assignments ctx properties (levels + 1) profile =
      profile.options.flatMap (settings ctx properties (assignments ctx properties levels)) :=
  value_assignmentsOf ctx properties _ profile.options

end Profile

/-! ## Descriptions -/

namespace Glob.Matcher

theorem value_test (matcher : Matcher) (glob candidate : Text) :
    (matcher.test glob candidate).value = matcher.decides glob candidate := by
  unfold test
  split <;> rfl

theorem value_testAny (matcher : Matcher) (candidate : Text) (cursor : Brace.Cursor) :
    (matcher.testAny candidate cursor).value =
      cursor.results.any fun glob => matcher.decides glob candidate := by
  fun_induction testAny matcher candidate cursor with
  | case1 cursor hnext =>
    rw [cursor.results_eq_of_next, hnext]
    rfl
  | case2 cursor glob rest hnext ih =>
    have hresults : cursor.results = glob :: rest.results := by
      rw [cursor.results_eq_of_next, hnext]
      rfl
    rw [hresults, List.any_cons, Logged.value_bind, value_test, ← ih]
    cases matcher.decides glob candidate <;> rfl

/-- A description matches if one of the globs that it stands for does. -/
theorem value_describes (matcher : Matcher) (description candidate : Text) :
    (matcher.describes description candidate).value =
      (Brace.expand description).any fun glob => matcher.decides glob candidate := by
  rw [describes, value_testAny, Brace.results_cursor]

end Glob.Matcher

/-! ## Resolutions -/

namespace Resolution

def entriesOf (profile : Text) (assignments : List Assignment) : List Entry :=
  assignments.map fun (key, value) => ⟨profile, key, value⟩

/-- Profiles are added one after the other. -/
theorem foldl_add (assignments : Profile → List Assignment) (resolution : Resolution)
    (profiles : List Profile) :
    profiles.foldl (fun r profile => r.add profile.name (assignments profile)) resolution =
      { resolution with
        applied := resolution.applied ++ profiles.map (·.name)
        entries := resolution.entries ++
          profiles.flatMap fun profile => entriesOf profile.name (assignments profile) } := by
  induction profiles generalizing resolution with
  | nil => simp
  | cons profile rest ih =>
    rw [List.foldl_cons, ih]
    simp [add, entriesOf]

end Resolution

namespace Context

/-- Profiles in surroundings that have nothing else: no files, no home, nothing locked. -/
def bare (profiles : List Profile) : Context where
  profiles
  home := none
  matcher := ⟨.builtin, '/', Glob.Segment.isMatch⟩
  locked := []
  useFileConfiguration := false
  configurationDirectories := []
  maxDepth := defaultMaxDepth
  realPath := none
  pathExists := fun _ => false
  isDirectory := fun _ => false

def fits (ctx : Context) (step : Text) (profile : Profile) : Bool :=
  profile.description.any fun description =>
    (Brace.expand description).any fun glob => ctx.matcher.decides glob step

theorem value_calls (ctx : Context) (step : Text) (profile : Profile) :
    (ctx.calls step profile).value = ctx.fits step profile := by
  unfold calls fits
  cases profile.description with
  | none => rfl
  | some description => exact Glob.Matcher.value_describes ctx.matcher description step

theorem value_matching (ctx : Context) (parent : Profile) (step : Text) :
    (ctx.matching parent step).value = (ctx.subprofiles parent).filter (ctx.fits step) := by
  rw [matching, Logged.value_filterM]
  exact List.filter_congr fun profile _ => ctx.value_calls step profile

def addProfile (ctx : Context) (properties : List Assignment) (resolution : Resolution)
    (profile : Profile) : Resolution :=
  resolution.add profile.name (profile.apply ctx properties 0).value

theorem value_applyStep (ctx : Context) (parent : Profile) (properties : List Assignment)
    (resolution : Resolution) (step : Text) :
    (ctx.applyStep parent properties resolution step).value =
      (ctx.matching parent step).value.foldl (ctx.addProfile properties) resolution := by
  rw [value_matching, List.foldl_filter, applyStep, Logged.value_bind, Logged.value_foldlM]
  congr
  funext resolution profile
  rw [Logged.value_bind, value_calls]
  cases ctx.fits step profile <;> rfl

/-- The profiles that are applied to a file: the parent and, step by step, the sub-profiles whose
descriptions match. -/
def selection (ctx : Context) (parent : Profile) (child : Text) : List Profile :=
  parent :: (Path.steps ctx.sep child).flatMap fun step => (ctx.matching parent step).value

/-- A resolution names the profiles selected and lists the assignments of each. -/
theorem value_applyProfiles (ctx : Context) (parent : Profile) (child : Text)
    (properties : List Assignment) :
    (ctx.applyProfiles parent child properties).value =
      { parent := parent.name
        child
        properties
        applied := (ctx.selection parent child).map (·.name)
        entries := (ctx.selection parent child).flatMap fun profile =>
          Resolution.entriesOf profile.name (profile.apply ctx properties 0).value } := by
  have hsteps : (ctx.applyProfiles parent child properties).value =
      ((Path.steps ctx.sep child).foldlM (ctx.applyStep parent properties)
        (ctx.addProfile properties (.start parent.name child properties) parent)).value := rfl
  have hprofiles : (ctx.applyProfiles parent child properties).value =
      (ctx.selection parent child).foldl (ctx.addProfile properties)
        (.start parent.name child properties) := by
    simp only [hsteps, Logged.value_foldlM, value_applyStep, selection, List.foldl_cons,
      List.foldl_flatMap]
  rw [hprofiles]
  exact Resolution.foldl_add _ _ _

/-- The parent of a file that profiles have options for: there is none for a directory, outside
every tree and, on demand, for a file with a configuration file of its own. -/
def lineageOf (ctx : Context) (full : Text) : Option Lineage :=
  if ctx.isDirectory full then none
  else
    (Lineage.find ctx full).value.filter fun _ =>
      !(ctx.useFileConfiguration && (ctx.hasOwnConfiguration full).value)

theorem value_resolve (ctx : Context) (path workingDirectory : Text) :
    (ctx.resolve path workingDirectory).value =
      (ctx.lineageOf (Path.join ctx.sep workingDirectory path)).map fun lineage =>
        (ctx.applyProfiles lineage.parent lineage.child
          (Property.ofChild ctx.sep lineage.parent.name lineage.child)).value := by
  unfold resolve lineageOf
  dsimp only
  split
  · rfl
  · rw [Logged.value_bind]
    cases (Lineage.find ctx _).value with
    | none => rfl
    | some lineage =>
      cases ctx.useFileConfiguration with
      | false => rfl
      | true =>
        dsimp only [Bool.true_and]
        rw [if_pos rfl, Logged.value_bind, Option.filter_some]
        cases (ctx.hasOwnConfiguration _).value <;> rfl

end Context

end PathOptions
