import PathOptions.Proofs.Resolve.Values
/-!
Locked options only filter. The same profiles are selected for a file whatever is locked, they
include the same profiles at every depth, and what they come to is what they come to with nothing
locked, less the assignments to locked options. So a locked option is never assigned, and every
other one keeps its assignments, their order and its final value (`resolve_locked`).
-/

namespace PathOptions

def Assignment.without (names : List Text) (assignments : List Assignment) : List Assignment :=
  assignments.filter fun assignment => assignment.1 ∉ names

def Resolution.without (names : List Text) (resolution : Resolution) : Resolution :=
  { resolution with entries := resolution.entries.filter fun entry => entry.key ∉ names }

/-! ## Final values -/

namespace Assignment

variable (names : List Text)

theorem without_put (table : List Assignment) (key value : Text) :
    without names (put table key value) =
      if key ∈ names then without names table else put (without names table) key value := by
  induction table with
  | nil =>
    by_cases h : key ∈ names <;> simp [without, put, h]
  | cons first rest ih =>
    obtain ⟨k, v⟩ := first
    unfold without at ih ⊢
    by_cases hkey : k = key
    · subst hkey
      by_cases h : k ∈ names <;> simp [put, h]
    · by_cases h : key ∈ names <;> by_cases hk : k ∈ names <;>
        simp [put, hkey, h, hk] at ih ⊢ <;> exact ih

theorem foldl_put_without (assignments table : List Assignment) :
    (without names assignments).foldl (fun table (key, value) => put table key value)
        (without names table) =
      without names
        (assignments.foldl (fun table (key, value) => put table key value) table) := by
  induction assignments generalizing table with
  | nil => rfl
  | cons first rest ih =>
    obtain ⟨key, value⟩ := first
    rw [List.foldl_cons, ← ih, without_put]
    by_cases h : key ∈ names <;> simp [without, h]

/-- An option that is not left out has the final value that it has with all the others. -/
theorem effective_without (assignments : List Assignment) :
    effective (without names assignments) = without names (effective assignments) :=
  foldl_put_without names assignments []

end Assignment

/-! ## Profiles -/

namespace Profile

variable (ctx : Context) (names : List Text) (properties : List Assignment)

/-- What is locked does not matter for what is included. -/
theorem settings_locked (included : Profile → List Assignment) (option : Assignment) :
    settings { ctx with locked := names } properties
        (fun profile => Assignment.without names (included profile)) option =
      Assignment.without names
        (settings { ctx with locked := [] } properties included option) := by
  unfold settings
  cases Instruction.ofOption option with
  | «include» name =>
    dsimp only
    cases Profile.find? ctx.profiles name <;> rfl
  | assign key value =>
    by_cases h : key ∈ names <;> simp [Assignment.without, h]

theorem assignments_locked (levels : Nat) (profile : Profile) :
    assignments { ctx with locked := names } properties levels profile =
      Assignment.without names
        (assignments { ctx with locked := [] } properties levels profile) := by
  induction levels generalizing profile with
  | zero => rfl
  | succ levels ih =>
    have hincluded : assignments { ctx with locked := names } properties levels =
        fun profile => Assignment.without names
          (assignments { ctx with locked := [] } properties levels profile) := funext ih
    rw [assignments_succ, assignments_succ, hincluded, Assignment.without, List.filter_flatMap]
    exact congrArg (List.flatMap · profile.options)
      (funext (settings_locked ctx names properties _))

end Profile

/-! ## Resolutions -/

namespace Resolution

theorem entriesOf_without (names : List Text) (profile : Text) (assignments : List Assignment) :
    entriesOf profile (Assignment.without names assignments) =
      (entriesOf profile assignments).filter fun entry => entry.key ∉ names := by
  rw [entriesOf, entriesOf, List.filter_map]
  rfl

theorem effective_without (names : List Text) (resolution : Resolution) :
    (resolution.without names).effective = Assignment.without names resolution.effective := by
  rw [effective, effective, ← Assignment.effective_without]
  refine congrArg Assignment.effective ?_
  rw [options, options, without, Assignment.without, List.filter_map]
  rfl

end Resolution

namespace Context

theorem applyProfiles_locked (ctx : Context) (names : List Text) (parent : Profile)
    (child : Text) (properties : List Assignment) :
    ({ ctx with locked := names }.applyProfiles parent child properties).value =
      ({ ctx with locked := [] }.applyProfiles parent child properties).value.without names := by
  rw [value_applyProfiles, value_applyProfiles, Resolution.without, List.filter_flatMap]
  have hassignments : ∀ profile : Profile,
      (profile.apply { ctx with locked := names } properties 0).value =
        Assignment.without names
          (profile.apply { ctx with locked := [] } properties 0).value :=
    fun profile => Profile.assignments_locked ctx names properties _ profile
  simp only [hassignments, Resolution.entriesOf_without]
  rfl

/-- Locking options leaves out their entries and changes nothing else: the same files have options,
with the same parent, properties and profiles applied. No entry is for a locked option, and every
other option has the final value that it has with nothing locked. -/
theorem resolve_locked (ctx : Context) (names : List Text) (path workingDirectory : Text) :
    let free := ({ ctx with locked := [] }.resolve path workingDirectory).value
    let locked := ({ ctx with locked := names }.resolve path workingDirectory).value
    locked = free.map (·.without names) ∧
      (∀ resolution ∈ locked, ∀ entry ∈ resolution.entries, entry.key ∉ names) ∧
      locked.map (·.effective) = free.map (Assignment.without names ·.effective) := by
  intro free locked
  have hlocked : locked = free.map (·.without names) := by
    unfold locked free
    rw [value_resolve, value_resolve, Option.map_map]
    exact congrArg
      (Option.map · (ctx.lineageOf (Path.join ctx.sep workingDirectory path)))
      (funext fun lineage => applyProfiles_locked ctx names lineage.parent lineage.child _)
  refine ⟨hlocked, fun resolution hmem entry hentry => ?_, ?_⟩
  · rw [hlocked] at hmem
    obtain ⟨full, _, rfl⟩ := Option.map_eq_some_iff.1 hmem
    simpa using (List.mem_filter.1 hentry).2
  · rw [hlocked, Option.map_map]
    exact congrArg (free.map ·) (funext fun r => r.effective_without names)

/-- Of two profiles that include each other, one locked option is written with a negation and one
comes with an inclusion. -/
theorem resolve_locked_cycle :
    let first : Profile := ⟨"a".toList, some "tree:/m".toList,
      [("sid".toList, "2".toList), ("no-sub".toList, []), ("profile".toList, "b".toList),
        ("vol".toList, "5".toList)]⟩
    let second : Profile := ⟨"b".toList, none,
      [("profile".toList, "a".toList), ("sub".toList, "yes".toList), ("alang".toList, "en".toList)]⟩
    let ctx : Context := { bare [first, second] with maxDepth := 1 }
    let names := ["sid".toList, "sub".toList]
    let free := ({ ctx with locked := [] }.resolve "/m/f".toList []).value
    let locked := ({ ctx with locked := names }.resolve "/m/f".toList []).value
    free.map (·.entries.length) = some 5 ∧
      ∃ resolution ∈ locked, (∀ entry ∈ resolution.entries, entry.key ∉ names) ∧
        resolution.entries =
          [⟨"a".toList, "alang".toList, "en".toList⟩, ⟨"a".toList, "vol".toList, "5".toList⟩] := by
  intro first second ctx names free locked
  have hlocked : locked.map (·.entries) =
      some [⟨"a".toList, "alang".toList, "en".toList⟩, ⟨"a".toList, "vol".toList, "5".toList⟩] := by
    decide +kernel
  obtain ⟨resolution, hresolution, hentries⟩ := Option.map_eq_some_iff.1 hlocked
  have hkeys := (resolve_locked ctx names "/m/f".toList []).2.1 resolution hresolution
  exact ⟨by decide +kernel, resolution, hresolution, hkeys, hentries⟩

end Context

end PathOptions
