import PathOptions.Proofs.Resolve.Values
/-!
Inclusion of profiles is the unfolding of a graph, cut off at a depth. Profiles are the nodes, and
an option that includes a profile is an edge, so a chain of inclusions is given by the positions of
its options. A profile comes to the assignments at the ends of all chains within the limit, each
once, in the order in which one meets them by going into every included profile at its place
(`apply_unfolds`). A larger limit only adds to that, and it adds nothing once no chain is longer
than the limit: then the options of included profiles might as well be written in the place of
those that include them.
-/

namespace PathOptions.Profile

/-! ## The graph -/

/-- A chain of inclusions, given by the positions of its options, leads from a profile to
another. A name stands for the first profile of that name. -/
inductive Leads (profiles : List Profile) : Profile → List Nat → Profile → Prop
  | here {profile : Profile} : Leads profiles profile [] profile
  | through {profile included target : Profile} {position : Nat} {option : Assignment}
      {name : Text} {chain : List Nat} :
      profile.options[position]? = some option → Instruction.ofOption option = .include name →
      Profile.find? profiles name = some included → Leads profiles included chain target →
      Leads profiles profile (position :: chain) target

/-- The unfolding of a profile, cut off at a limit, has an assignment at a place: a chain of
inclusions within the limit leads to a profile that makes the assignment. The place is the chain
with the position of the option that assigns. -/
def AssignsAt (ctx : Context) (properties : List Assignment) (limit : Nat) (profile : Profile)
    (place : List Nat) (assignment : Assignment) : Prop :=
  ∃ chain target position option key value,
    Leads ctx.profiles profile chain target ∧ chain.length ≤ limit ∧
      place = chain ++ [position] ∧ target.options[position]? = some option ∧
      Instruction.ofOption option = .assign key value ∧ key ∉ ctx.locked ∧
      assignment = (key, Property.substitute properties value)

/-- Options with those of included profiles in the place of the options that include them. -/
inductive Inlines (profiles : List Profile) : List Assignment → List Assignment → Prop
  | done : Inlines profiles [] []
  | keep {option : Assignment} {options inlined : List Assignment} {key value : Text} :
      Instruction.ofOption option = .assign key value → Inlines profiles options inlined →
      Inlines profiles (option :: options) (option :: inlined)
  | drop {option : Assignment} {options inlined : List Assignment} {name : Text} :
      Instruction.ofOption option = .include name → Profile.find? profiles name = none →
      Inlines profiles options inlined → Inlines profiles (option :: options) inlined
  | replace {option : Assignment} {options inlined : List Assignment} {name : Text}
      {included : Profile} :
      Instruction.ofOption option = .include name → Profile.find? profiles name = some included →
      Inlines profiles (included.options ++ options) inlined →
      Inlines profiles (option :: options) inlined

/-! ## Places -/

section

variable (ctx : Context) (properties : List Assignment)

/-- The assignments of an option with their places, seen from the option. -/
def optionSites (included : Profile → List (List Nat × Assignment)) (option : Assignment) :
    List (List Nat × Assignment) :=
  match Instruction.ofOption option with
  | .include name => (Profile.find? ctx.profiles name).elim [] included
  | .assign key value =>
    if key ∈ ctx.locked then [] else [([], (key, Property.substitute properties value))]

def sites : Nat → Profile → List (List Nat × Assignment)
  | 0, _ => []
  | levels + 1, profile =>
    profile.options.zipIdx.flatMap fun (option, position) =>
      (optionSites ctx properties (sites levels) option).map fun (place, assignment) =>
        (position :: place, assignment)

/-- Without their places, the assignments are what the profile comes to. -/
theorem map_snd_sites (levels : Nat) (profile : Profile) :
    (sites ctx properties levels profile).map (·.2) =
      assignments ctx properties levels profile := by
  induction levels generalizing profile with
  | zero => rfl
  | succ levels ih =>
    have hoption : ∀ option : Assignment,
        (optionSites ctx properties (sites ctx properties levels) option).map (·.2) =
          settings ctx properties (assignments ctx properties levels) option := by
      intro option
      unfold optionSites settings
      cases Instruction.ofOption option with
      | «include» name =>
        dsimp only
        cases Profile.find? ctx.profiles name with
        | none => rfl
        | some included => exact ih included
      | assign key value =>
        dsimp only
        split <;> rfl
    calc (sites ctx properties (levels + 1) profile).map (·.2)
        = profile.options.zipIdx.flatMap fun entry =>
            settings ctx properties (assignments ctx properties levels) entry.1 := by
          rw [sites, List.map_flatMap]
          refine congrArg (List.flatMap · _) (funext fun entry => ?_)
          rw [List.map_map, ← hoption]
          rfl
      _ = (profile.options.zipIdx.map (·.1)).flatMap
            (settings ctx properties (assignments ctx properties levels)) := by
          rw [List.flatMap_map]
      _ = assignments ctx properties (levels + 1) profile := by
          rw [List.zipIdx_map_fst, assignments_succ]

theorem mem_optionSites {included : Profile → List (List Nat × Assignment)}
    {option : Assignment} {place : List Nat} {assignment : Assignment} :
    (place, assignment) ∈ optionSites ctx properties included option ↔
      (place = [] ∧ ∃ key value, Instruction.ofOption option = .assign key value ∧
        key ∉ ctx.locked ∧ assignment = (key, Property.substitute properties value)) ∨
      ∃ name profile, Instruction.ofOption option = .include name ∧
        Profile.find? ctx.profiles name = some profile ∧
          (place, assignment) ∈ included profile := by
  unfold optionSites
  cases Instruction.ofOption option with
  | «include» name => cases hfind : Profile.find? ctx.profiles name <;> simp [hfind]
  | assign key value =>
    by_cases h : key ∈ ctx.locked
    · simp [h]
    · simp [h, and_assoc]

theorem mem_sites_succ {levels : Nat} {profile : Profile} {place : List Nat}
    {assignment : Assignment} :
    (place, assignment) ∈ sites ctx properties (levels + 1) profile ↔
      ∃ position option rest, profile.options[position]? = some option ∧
        place = position :: rest ∧
        (rest, assignment) ∈ optionSites ctx properties (sites ctx properties levels) option := by
  rw [sites, List.mem_flatMap]
  constructor
  · intro h
    obtain ⟨⟨option, position⟩, hoption, hsite⟩ := h
    obtain ⟨⟨rest, _⟩, hrest, heq⟩ := List.mem_map.1 hsite
    cases heq
    exact ⟨position, option, rest, List.mem_zipIdx_iff_getElem?.1 hoption, rfl, hrest⟩
  · intro h
    obtain ⟨position, option, rest, hoption, rfl, hrest⟩ := h
    exact ⟨(option, position), List.mem_zipIdx_iff_getElem?.2 hoption,
      List.mem_map.2 ⟨(rest, assignment), hrest, rfl⟩⟩

/-- An assignment is made by the profile itself, or by a profile that it includes. -/
theorem assignsAt_iff {limit : Nat} {profile : Profile} {place : List Nat}
    {assignment : Assignment} :
    AssignsAt ctx properties limit profile place assignment ↔
      ∃ position option rest, profile.options[position]? = some option ∧
        place = position :: rest ∧
        ((rest = [] ∧ ∃ key value, Instruction.ofOption option = .assign key value ∧
          key ∉ ctx.locked ∧ assignment = (key, Property.substitute properties value)) ∨
        ∃ name included smaller, Instruction.ofOption option = .include name ∧
          Profile.find? ctx.profiles name = some included ∧ limit = smaller + 1 ∧
          AssignsAt ctx properties smaller included rest assignment) := by
  constructor
  · intro h
    obtain ⟨chain, target, position, option, key, value, hchain, hlength, rfl, hoption,
      hassign⟩ := h
    cases hchain with
    | here => exact ⟨position, option, [], hoption, rfl, .inl ⟨rfl, key, value, hassign⟩⟩
    | @through _ included _ first including name chain hfirst hinclude hfind hrest =>
      rw [List.length_cons] at hlength
      refine ⟨first, including, chain ++ [position], hfirst, rfl, .inr ?_⟩
      exact ⟨name, included, limit - 1, hinclude, hfind, by omega, chain, target, position,
        option, key, value, hrest, by omega, rfl, hoption, hassign⟩
  · intro h
    obtain ⟨position, option, rest, hoption, rfl, hcases⟩ := h
    rcases hcases with ⟨rfl, key, value, hassign⟩ |
      ⟨name, included, smaller, hinclude, hfind, rfl, hrest⟩
    · exact ⟨[], profile, position, option, key, value, .here, Nat.zero_le _, rfl, hoption, hassign⟩
    · obtain ⟨chain, target, last, other, key, value, hchain, hlength, rfl, hother⟩ := hrest
      exact ⟨position :: chain, target, last, other, key, value,
        .through hoption hinclude hfind hchain, Nat.succ_le_succ hlength, rfl, hother⟩

/-- The places of a profile are those of its unfolding. -/
theorem mem_sites_iff {limit : Nat} {profile : Profile} {place : List Nat}
    {assignment : Assignment} :
    (place, assignment) ∈ sites ctx properties (limit + 1) profile ↔
      AssignsAt ctx properties limit profile place assignment := by
  induction limit generalizing profile place with
  | zero =>
    rw [mem_sites_succ, assignsAt_iff]
    simp [mem_optionSites, sites]
  | succ limit ih =>
    rw [mem_sites_succ, assignsAt_iff]
    simp [mem_optionSites, ih]

/-- Places come in the order of depth-first search, each once. -/
theorem pairwise_sites (levels : Nat) (profile : Profile) :
    (sites ctx properties levels profile).Pairwise fun a b => List.Lex (· < ·) a.1 b.1 := by
  induction levels generalizing profile with
  | zero => exact .nil
  | succ levels ih =>
    rw [sites, List.pairwise_flatMap]
    constructor
    · -- behind one option
      intro entry _
      rw [List.pairwise_map]
      have hoption : (optionSites ctx properties (sites ctx properties levels) entry.1).Pairwise
          fun a b => List.Lex (· < ·) a.1 b.1 := by
        unfold optionSites
        cases Instruction.ofOption entry.1 with
        | «include» name =>
          dsimp only
          cases Profile.find? ctx.profiles name with
          | none => exact .nil
          | some included => exact ih included
        | assign key value =>
          dsimp only
          split
          · exact .nil
          · exact List.pairwise_singleton _ _
      exact hoption.imp .cons
    · -- an option and a later one
      have hpositions : profile.options.zipIdx.Pairwise fun a b => a.2 < b.2 := by
        have hrange := List.pairwise_lt_range' 1 (s := 0) (n := profile.options.length)
        rw [← List.zipIdx_map_snd] at hrange
        exact List.pairwise_map.1 hrange
      refine hpositions.imp fun hlt a ha b hb => ?_
      obtain ⟨_, _, rfl⟩ := List.mem_map.1 ha
      obtain ⟨_, _, rfl⟩ := List.mem_map.1 hb
      exact .rel hlt

end

/-! ## Limits -/

section

variable (ctx : Context) (properties : List Assignment)

theorem settings_assign (included other : Profile → List Assignment) {option : Assignment}
    {key value : Text} (h : Instruction.ofOption option = .assign key value) :
    settings ctx properties included option = settings ctx properties other option := by
  unfold settings
  rw [h]

theorem flatMap_sublist {α β : Type} {f g : α → List β} (h : ∀ a, (f a).Sublist (g a)) :
    ∀ items : List α, (items.flatMap f).Sublist (items.flatMap g)
  | [] => .slnil
  | a :: rest => (h a).append (flatMap_sublist h rest)

/-- One level more only adds assignments. -/
theorem assignments_sublist_succ (levels : Nat) (profile : Profile) :
    (assignments ctx properties levels profile).Sublist
      (assignments ctx properties (levels + 1) profile) := by
  induction levels generalizing profile with
  | zero => exact List.nil_sublist _
  | succ levels ih =>
    rw [assignments_succ, assignments_succ]
    refine flatMap_sublist (fun option => ?_) profile.options
    cases hoption : Instruction.ofOption option with
    | «include» name =>
      rw [settings_include ctx properties _ hoption, settings_include ctx properties _ hoption]
      cases Profile.find? ctx.profiles name with
      | none => exact List.nil_sublist _
      | some included => exact ih included
    | assign key value =>
      have hsame := settings_assign ctx properties (assignments ctx properties levels)
        (assignments ctx properties (levels + 1)) hoption
      exact hsame ▸ .refl _

theorem Inlines.append {profiles : List Profile} {first second a b : List Assignment}
    (hfirst : Inlines profiles first a) (hsecond : Inlines profiles second b) :
    Inlines profiles (first ++ second) (a ++ b) := by
  induction hfirst with
  | done => exact hsecond
  | keep hoption _ ih => exact .keep hoption ih
  | drop hoption hfind _ ih => exact .drop hoption hfind ih
  | replace hoption hfind _ ih =>
    rw [List.append_assoc] at ih
    exact .replace hoption hfind ih

/-- Options can be inlined if those of every profile that they include can be. -/
theorem exists_inlines (levels : Nat) (options : List Assignment)
    (h : ∀ option ∈ options, ∀ name included, Instruction.ofOption option = .include name →
      Profile.find? ctx.profiles name = some included →
      ∃ inlined, Inlines ctx.profiles included.options inlined ∧
        ∀ larger, levels ≤ larger → assignments ctx properties larger included =
          inlined.flatMap (settings ctx properties fun _ => [])) :
    ∃ inlined, Inlines ctx.profiles options inlined ∧
      ∀ larger, levels ≤ larger →
        options.flatMap (settings ctx properties (assignments ctx properties larger)) =
          inlined.flatMap (settings ctx properties fun _ => []) := by
  induction options with
  | nil => exact ⟨[], .done, fun _ _ => rfl⟩
  | cons option rest ih =>
    obtain ⟨others, hothers, hrest⟩ := ih fun other hother => h other (.tail _ hother)
    cases hoption : Instruction.ofOption option with
    | assign key value =>
      refine ⟨option :: others, .keep hoption hothers, fun larger hle => ?_⟩
      rw [List.flatMap_cons, List.flatMap_cons, hrest larger hle,
        settings_assign ctx properties _ _ hoption]
    | «include» name =>
      cases hfind : Profile.find? ctx.profiles name with
      | none =>
        refine ⟨others, .drop hoption hfind hothers, fun larger hle => ?_⟩
        rw [List.flatMap_cons, hrest larger hle, settings_include ctx properties _ hoption, hfind]
        rfl
      | some included =>
        obtain ⟨inner, hinner, hincluded⟩ := h option (.head _) name included hoption hfind
        refine ⟨inner ++ others, .replace hoption hfind (hinner.append hothers),
          fun larger hle => ?_⟩
        rw [List.flatMap_cons, List.flatMap_append, hrest larger hle,
          settings_include ctx properties _ hoption, hfind, Option.elim_some, hincluded larger hle]

/-- If no chain is longer than a limit, the options can be inlined, and every larger limit gives
what they come to then. -/
theorem exists_inlines_of_chains {limit : Nat} {profile : Profile}
    (h : ∀ chain target, Leads ctx.profiles profile chain target → chain.length ≤ limit) :
    ∃ inlined, Inlines ctx.profiles profile.options inlined ∧
      ∀ larger, limit ≤ larger → assignments ctx properties (larger + 1) profile =
        inlined.flatMap (settings ctx properties fun _ => []) := by
  induction limit generalizing profile with
  | zero =>
    -- an option that includes a known profile would be a chain of its own
    obtain ⟨inlined, hinlined, heq⟩ := exists_inlines ctx properties 0 profile.options
      fun option hmem name included hoption hfind => by
        obtain ⟨position, hposition⟩ := List.getElem?_of_mem hmem
        exact absurd (h [position] included (.through hposition hoption hfind .here)) (by simp)
    exact ⟨inlined, hinlined, fun larger hle => by rw [assignments_succ, heq larger hle]⟩
  | succ limit ih =>
    obtain ⟨inlined, hinlined, heq⟩ := exists_inlines ctx properties (limit + 1)
      profile.options fun option hmem name included hoption hfind => by
        obtain ⟨position, hposition⟩ := List.getElem?_of_mem hmem
        obtain ⟨inner, hinner, hincluded⟩ := ih fun chain target hchain =>
          Nat.le_of_succ_le_succ
            (h (position :: chain) target (.through hposition hoption hfind hchain))
        refine ⟨inner, hinner, fun larger hle => ?_⟩
        cases larger with
        | zero => omega
        | succ larger => exact hincluded larger (Nat.le_of_succ_le_succ hle)
    exact ⟨inlined, hinlined, fun larger hle => by rw [assignments_succ, heq larger hle]⟩

/-- The limit only says how many levels there are. -/
theorem value_apply (limit : Nat) (profile : Profile) :
    (profile.apply { ctx with maxDepth := limit } properties 0).value =
      assignments ctx properties (limit + 1) profile := by
  have hlevels : ∀ levels, assignments { ctx with maxDepth := limit } properties levels =
      assignments ctx properties levels := by
    intro levels
    induction levels with
    | zero => rfl
    | succ levels ih =>
      funext profile
      rw [assignments_succ, assignments_succ, ih]
      rfl
  have hlimit : ((limit : Int) + 1 - 0).toNat = limit + 1 := by omega
  rw [← hlevels, ← hlimit]
  rfl

end

/-- A profile comes to the assignments that its unfolding has within the limit, in depth-first
order and each once. A larger limit adds to them, unless no chain of inclusions is longer than the
limit: then every larger one gives the same, and the profile comes to what its options come to once
the included ones are written in their places. -/
theorem apply_unfolds (ctx : Context) (properties : List Assignment) (profile : Profile)
    (limit : Nat) :
    let result := fun (limit : Nat) (profile : Profile) =>
      (profile.apply { ctx with maxDepth := limit } properties 0).value
    (∃ sites : List (List Nat × Assignment),
      sites.Pairwise (fun a b => List.Lex (· < ·) a.1 b.1) ∧
      (∀ place assignment, (place, assignment) ∈ sites ↔
        AssignsAt ctx properties limit profile place assignment) ∧
      result limit profile = sites.map (·.2)) ∧
    (result limit profile).Sublist (result (limit + 1) profile) ∧
    ((∀ chain target, Leads ctx.profiles profile chain target → chain.length ≤ limit) →
      (∀ larger, limit ≤ larger → result larger profile = result limit profile) ∧
      ∃ inlined, Inlines ctx.profiles profile.options inlined ∧
        result limit profile = result 0 { profile with options := inlined }) := by
  simp only [value_apply]
  refine ⟨⟨sites ctx properties (limit + 1) profile, ?_, ?_, ?_⟩, ?_, fun hchains => ?_⟩
  · exact pairwise_sites ctx properties (limit + 1) profile
  · exact fun place assignment => mem_sites_iff ctx properties
  · exact (map_snd_sites ctx properties (limit + 1) profile).symm
  · exact assignments_sublist_succ ctx properties (limit + 1) profile
  · obtain ⟨inlined, hinlined, heq⟩ := exists_inlines_of_chains ctx properties hchains
    refine ⟨fun larger hle => ?_, inlined, hinlined, ?_⟩
    · rw [heq larger hle, heq limit (Nat.le_refl limit)]
    · rw [heq limit (Nat.le_refl limit), assignments_succ]
      rfl

/-! ## Chains that end -/

def inclusions (profiles : List Profile) (profile : Profile) : List Profile :=
  profile.options.filterMap fun option =>
    match Instruction.ofOption option with
    | .include name => Profile.find? profiles name
    | .assign _ _ => none

/-- If included profiles are of a lower rank, no chain is longer than the rank where it begins. -/
theorem length_le_rank {profiles : List Profile} (rank : Profile → Nat)
    (h : ∀ profile ∈ profiles, ∀ included ∈ inclusions profiles profile,
      rank included < rank profile)
    {profile target : Profile} {chain : List Nat} (hmem : profile ∈ profiles)
    (hchain : Leads profiles profile chain target) : chain.length ≤ rank profile := by
  induction hchain with
  | here => exact Nat.zero_le _
  | @through profile included _ _ option name _ hoption hinclude hfind _ ih =>
    have hincluded : included ∈ inclusions profiles profile :=
      List.mem_filterMap.2 ⟨option, List.mem_of_getElem? hoption, by rw [hinclude, ← hfind]⟩
    have hlt := h profile hmem included hincluded
    have hle := ih (List.mem_of_find?_eq_some hfind)
    exact Nat.succ_le_of_lt (Nat.lt_of_le_of_lt hle hlt)

/-- Two profiles include a third one, so that it counts twice; a name is unknown, and another one
is given to two profiles. -/
theorem apply_unfolds_diamond :
    let shared : Profile := ⟨"d".toList, none, [("vol".toList, "5".toList)]⟩
    let left : Profile := ⟨"l".toList, none, [("profile".toList, "d".toList)]⟩
    let right : Profile := ⟨"r".toList, none,
      [("no-sub".toList, []), ("profile".toList, "d".toList), ("sid".toList, "2".toList)]⟩
    let top : Profile := ⟨"t".toList, none,
      [("profile".toList, "l".toList), ("profile".toList, "none".toList),
        ("sid".toList, "1".toList), ("profile".toList, "r".toList)]⟩
    let profiles := [top, left, right, shared, { top with name := "r".toList }]
    let ctx : Context := { Context.bare profiles with locked := ["sid".toList] }
    let result := fun (limit : Nat) (profile : Profile) =>
      (profile.apply { ctx with maxDepth := limit } [] 0).value
    (∀ chain target, Leads ctx.profiles top chain target → chain.length ≤ 2) ∧
      (∀ larger, 2 ≤ larger → result larger top = result 2 top) ∧
      result 2 top = [("vol".toList, "5".toList), ("sub".toList, "no".toList),
        ("vol".toList, "5".toList)] := by
  intro shared left right top profiles ctx result
  have hchains : ∀ chain target, Leads ctx.profiles top chain target → chain.length ≤ 2 :=
    fun chain target => length_le_rank
      (fun profile => if profile = shared then 0 else if profile ∈ [left, right] then 1 else 2)
      (by decide) (by decide)
  exact ⟨hchains, ((apply_unfolds ctx [] top 2).2.2 hchains).1, by decide⟩

end PathOptions.Profile
