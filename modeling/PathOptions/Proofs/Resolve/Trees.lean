import Mathlib.Data.List.MinMax
import PathOptions.Proofs.Path.Below
import PathOptions.Proofs.Resolve.Values
/-!
The deepest tree around a file wins. The search for a parent never compares directories: of the
trees that hold the file it takes the first one below which the path of the file is shortest
(`value_find`). Behind every directory that holds a path, the directory, one separator and the rest
make up the same path, so the shortest rest belongs to the longest directory (`find_deepest`).
-/

namespace PathOptions

/-! ## First minima -/

/-- What comes before the first minimum is greater, and what comes behind it is not smaller. -/
theorem exists_append_of_argmin {α : Type} {f : α → Nat} {items : List α} {least : α}
    (h : items.argmin f = some least) :
    ∃ before after, items = before ++ least :: after ∧ (∀ a ∈ before, f least < f a) ∧
      ∀ a ∈ after, f least ≤ f a := by
  induction items generalizing least with
  | nil => cases h
  | cons a rest ih =>
    rw [List.argmin_cons] at h
    cases hrest : rest.argmin f with
    | none =>
      rw [hrest] at h
      obtain rfl : a = least := Option.some.inj h
      obtain rfl : rest = [] := List.argmin_eq_none.1 hrest
      exact ⟨[], [], rfl, by simp, by simp⟩
    | some other =>
      obtain ⟨before, after, hsplit, hbefore, hafter⟩ := ih hrest
      rw [hrest] at h
      dsimp only at h
      split at h
      · rename_i hlt
        obtain rfl : other = least := Option.some.inj h
        refine ⟨a :: before, after, by rw [hsplit, List.cons_append], ?_, hafter⟩
        intro b hb
        rcases List.mem_cons.1 hb with rfl | hb
        · exact hlt
        · exact hbefore b hb
      · rename_i hnot
        obtain rfl : a = least := Option.some.inj h
        refine ⟨[], rest, rfl, by simp, ?_⟩
        intro b hb
        have hle : f other ≤ f b := List.le_of_mem_argmin hb hrest
        omega

/-! ## Trees that hold a path -/

namespace Context

/-- A path as the context compares it, if it can be resolved. -/
def actual? (ctx : Context) (path : Text) : Option Text :=
  match ctx.realPath with
  | none => some path
  | some realPath => realPath path

def tree? (ctx : Context) (profile : Profile) : Option Text :=
  profile.treeDirectory?.bind fun written =>
    ctx.actual? (Path.expandHome ctx.sep ctx.home written).value

/-- The path of a file below the tree of a profile, if the profile has a tree that holds it. -/
def childOf? (ctx : Context) (path : Text) (profile : Profile) : Option Text :=
  profile.treeDirectory?.bind fun written =>
    ctx.below? path (Path.expandHome ctx.sep ctx.home written).value

theorem childOf?_eq {ctx : Context} {path full : Text} (h : ctx.actual? path = some full)
    (profile : Profile) :
    ctx.childOf? path profile = (ctx.tree? profile).bind (Path.below? ctx.sep full) := by
  unfold childOf? tree? below? actual? at *
  cases profile.treeDirectory? with
  | none => rfl
  | some written =>
    cases hreal : ctx.realPath with
    | none =>
      rw [hreal] at h
      obtain rfl : path = full := Option.some.inj h
      rfl
    | some realPath =>
      rw [hreal] at h
      dsimp only at h
      simp only [Option.bind_some, Path.resolvedBelow?, h]
      cases realPath (Path.expandHome ctx.sep ctx.home written).value <;> rfl

/-- The directory of the tree of a profile holds a path: without the separators at its end it is
the base behind which one separator and the rest of the path come. -/
def Holds (ctx : Context) (full : Text) (profile : Profile) (base rest : Text) : Prop :=
  ∃ tree, ctx.tree? profile = some tree ∧ base = Text.trimEnd ctx.sep tree ∧
    full = base ++ ctx.sep ++ rest

/-- The tree of a profile holds a path, and no profile has a deeper tree that holds it. -/
def IsDeepest (ctx : Context) (full : Text) (profile : Profile) : Prop :=
  ∃ base rest, ctx.Holds full profile base rest ∧
    ∀ other ∈ ctx.profiles, ∀ base' rest', ctx.Holds full other base' rest' →
      base'.length ≤ base.length

theorem Holds.length {ctx : Context} {full base rest : Text} {profile : Profile}
    (h : ctx.Holds full profile base rest) : full.length = base.length + 1 + rest.length := by
  obtain ⟨tree, _, _, heq⟩ := h
  rw [heq, List.length_append, List.length_append]
  rfl

theorem childOf?_iff_holds {ctx : Context} {path full : Text}
    (hfull : ctx.actual? path = some full) {profile : Profile}
    (hne : ∀ tree, ctx.tree? profile = some tree → ¬ Path.Names ctx.sep full tree)
    {rest : Text} :
    ctx.childOf? path profile = some rest ↔ ∃ base, ctx.Holds full profile base rest := by
  have hshape : ∀ base,
      full = base ++ ctx.sep ++ rest ↔ full = base ++ ctx.matcher.sep :: rest := by
    intro base
    simp [Context.sep]
  unfold Holds
  simp only [hshape]
  rw [childOf?_eq hfull]
  cases htree : ctx.tree? profile with
  | none => simp
  | some tree =>
    rw [Option.bind_some]
    constructor
    · intro h
      exact ⟨_, tree, rfl, rfl, (Path.below?_eq_some_iff (hne tree htree)).1 h⟩
    · rintro ⟨_, other, hother, rfl, hpath⟩
      obtain rfl := Option.some.inj hother
      exact (Path.below?_eq_some_iff (hne tree htree)).2 hpath

end Context

namespace Lineage

variable (ctx : Context) (path : Text)

def candidate? (profile : Profile) : Option Lineage :=
  (ctx.childOf? path profile).map (Lineage.mk profile)

theorem value_consider (best : Option Lineage) (profile : Profile) :
    (consider ctx path best profile).value =
      (candidate? ctx path profile).elim best fun lineage =>
        if isBetter best lineage.child then some lineage else best := by
  unfold consider candidate? Context.childOf?
  cases profile.treeDirectory? with
  | none => rfl
  | some written =>
    dsimp only [Option.bind_some]
    rw [Logged.value_bind, Logged.value_bind]
    cases ctx.below? path _ with
    | none => rfl
    | some child =>
      dsimp only [Option.map_some, Option.elim_some]
      rw [Logged.value_bind]
      split <;> rfl

/-- The parent is the first profile below whose tree the path of the file is shortest. -/
theorem value_find :
    (find ctx path).value =
      (ctx.profiles.filterMap (candidate? ctx path)).argmin fun lineage =>
        lineage.child.length := by
  have hfold : ∀ best : Option Lineage,
      ctx.profiles.foldl (fun best profile => (consider ctx path best profile).value) best =
        (ctx.profiles.filterMap (candidate? ctx path)).foldl
          (List.argAux fun a b : Lineage => a.child.length < b.child.length) best := by
    induction ctx.profiles with
    | nil => exact fun _ => rfl
    | cons profile rest ih =>
      intro best
      rw [List.foldl_cons, ih, value_consider, List.filterMap_cons]
      cases candidate? ctx path profile with
      | none => rfl
      | some lineage =>
        rw [List.foldl_cons]
        congr 1
        cases best with
        | none => rfl
        | some other => simp [isBetter, List.argAux]
  rw [find, Logged.value_bind, Logged.value_foldlM, hfold]
  rfl

variable {ctx path}

theorem value_find_eq_none_iff :
    (find ctx path).value = none ↔
      ∀ profile ∈ ctx.profiles, candidate? ctx path profile = none := by
  rw [value_find, List.argmin_eq_none, List.filterMap_eq_nil_iff]

theorem parent_of_candidate? {profile : Profile} {lineage : Lineage}
    (h : candidate? ctx path profile = some lineage) : lineage.parent = profile := by
  obtain ⟨child, _, rfl⟩ := Option.map_eq_some_iff.1 h
  rfl

/-- Every candidate before the parent has a longer path, and none has a shorter one. -/
theorem exists_append_of_find {lineage : Lineage} (h : (find ctx path).value = some lineage) :
    ∃ before after, ctx.profiles = before ++ lineage.parent :: after ∧
      candidate? ctx path lineage.parent = some lineage ∧
      (∀ other ∈ before, ∀ found, candidate? ctx path other = some found →
        lineage.child.length < found.child.length) ∧
      ∀ other ∈ ctx.profiles, ∀ found, candidate? ctx path other = some found →
        lineage.child.length ≤ found.child.length := by
  rw [value_find] at h
  obtain ⟨longer, others, hsplit, hlonger, _⟩ := exists_append_of_argmin h
  obtain ⟨before, rest, hprofiles, rfl, hrest⟩ := List.filterMap_eq_append_iff.1 hsplit
  obtain ⟨skipped, parent, after, rfl, hskipped, hparent, _⟩ := List.filterMap_eq_cons_iff.1 hrest
  obtain rfl := parent_of_candidate? hparent
  refine ⟨before ++ skipped, after, by rw [hprofiles, List.append_assoc], hparent, ?_, ?_⟩
  · intro other hother found hfound
    rcases List.mem_append.1 hother with hother | hother
    · exact hlonger found (List.mem_filterMap.2 ⟨other, hother, hfound⟩)
    · rw [hskipped other hother] at hfound
      cases hfound
  · intro other hother found hfound
    have hmem := List.mem_filterMap.2 ⟨other, hother, hfound⟩
    exact List.le_of_mem_argmin (f := fun lineage => lineage.child.length) hmem h

theorem candidate?_iff_holds {full : Text} (hfull : ctx.actual? path = some full)
    {profile : Profile}
    (hne : ∀ tree, ctx.tree? profile = some tree →
      full ≠ tree ∧ full ≠ Text.trimEnd ctx.sep tree) {lineage : Lineage} :
    candidate? ctx path profile = some lineage ↔
      lineage.parent = profile ∧ ∃ base, ctx.Holds full profile base lineage.child := by
  have hnot : ∀ tree, ctx.tree? profile = some tree → ¬ Path.Names ctx.sep full tree := by
    rintro tree htree (h | ⟨_, h⟩)
    · exact (hne tree htree).1 h
    · exact (hne tree htree).2 h
  rw [candidate?, Option.map_eq_some_iff]
  constructor
  · intro h
    obtain ⟨rest, hrest, rfl⟩ := h
    exact ⟨rfl, (Context.childOf?_iff_holds hfull hnot).1 hrest⟩
  · intro h
    obtain ⟨rfl, hholds⟩ := h
    exact ⟨lineage.child, (Context.childOf?_iff_holds hfull hnot).2 hholds, rfl⟩

/-- A file that is not itself the directory of a tree has no parent if no tree holds it; otherwise
its parent is the first of the profiles with the deepest tree that does, and its path is what comes
behind the directory and one separator. -/
theorem find_deepest {full : Text} (hfull : ctx.actual? path = some full)
    (hne : ∀ profile ∈ ctx.profiles, ∀ tree, ctx.tree? profile = some tree →
      full ≠ tree ∧ full ≠ Text.trimEnd ctx.sep tree) :
    ((find ctx path).value = none ↔
      ∀ profile ∈ ctx.profiles, ∀ base rest, ¬ ctx.Holds full profile base rest) ∧
    ∀ lineage, (find ctx path).value = some lineage →
      ∃ before after base, ctx.profiles = before ++ lineage.parent :: after ∧
        ctx.IsDeepest full lineage.parent ∧ (∀ other ∈ before, ¬ ctx.IsDeepest full other) ∧
        ctx.Holds full lineage.parent base lineage.child := by
  have hcandidate : ∀ profile ∈ ctx.profiles, ∀ {base rest}, ctx.Holds full profile base rest →
      candidate? ctx path profile = some ⟨profile, rest⟩ := by
    intro profile hprofile base rest hholds
    exact (candidate?_iff_holds hfull (hne profile hprofile)).2 ⟨rfl, base, hholds⟩
  constructor
  · rw [value_find, List.argmin_eq_none, List.filterMap_eq_nil_iff]
    constructor
    · intro hnone profile hprofile base rest hholds
      have hsome := hcandidate profile hprofile hholds
      rw [hnone profile hprofile] at hsome
      cases hsome
    · intro hnot profile hprofile
      rw [Option.eq_none_iff_forall_ne_some]
      intro lineage h
      obtain ⟨_, base, hholds⟩ := (candidate?_iff_holds hfull (hne profile hprofile)).1 h
      exact hnot profile hprofile base lineage.child hholds
  · intro lineage h
    obtain ⟨before, after, hprofiles, hparent, hbefore, hleast⟩ := exists_append_of_find h
    have hmem : ∀ other ∈ before ++ lineage.parent :: after, other ∈ ctx.profiles := by
      rw [hprofiles]
      exact fun _ h => h
    obtain ⟨_, base, hholds⟩ :=
      (candidate?_iff_holds hfull (hne lineage.parent (hmem _ (by simp)))).1 hparent
    have hlength := hholds.length
    refine ⟨before, after, base, hprofiles, ⟨base, lineage.child, hholds, ?_⟩, ?_, hholds⟩
    · intro other hother base' rest' hother'
      have hle := hleast other hother _ (hcandidate other hother hother')
      have hlength' := hother'.length
      dsimp only at hle
      omega
    · -- a deepest tree leaves no longer path than that of the parent
      intro other hother hdeepest
      obtain ⟨base', rest', hother', hlongest⟩ := hdeepest
      have hlt := hbefore other hother _
        (hcandidate other (hmem other (List.mem_append_left _ hother)) hother')
      have hle := hlongest lineage.parent (hmem _ (by simp)) base lineage.child hholds
      have hlength' := hother'.length
      dsimp only at hlt
      omega

/-- The second and the third profile are for one directory, written with a tilde and a separator at
its end, and reached through a link; a fourth one is for a directory of which the name only begins
with that. -/
theorem find_deepest_of_same_tree :
    let outer : Profile := ⟨"o".toList, some "tree:/m".toList, []⟩
    let first : Profile := ⟨"a".toList, some "tree:~/b/".toList, []⟩
    let second : Profile := ⟨"c".toList, some "tree:/l".toList, []⟩
    let sibling : Profile := ⟨"s".toList, some "tree:/m/b/c".toList, []⟩
    let ctx : Context :=
      { Context.bare [outer, first, second, sibling] with
        home := some "/m".toList
        realPath := some fun path => some (if path = "/l".toList then "/m/b".toList else path) }
    let full := "/m/b/cd/f".toList
    ctx.actual? full = some full ∧
      (∀ profile ∈ ctx.profiles, ∀ tree, ctx.tree? profile = some tree →
        full ≠ tree ∧ full ≠ Text.trimEnd ctx.sep tree) ∧
      (find ctx full).value = some ⟨first, "cd/f".toList⟩ ∧
      ∃ before after base, ctx.profiles = before ++ first :: after ∧
        ctx.IsDeepest full first ∧ (∀ other ∈ before, ¬ ctx.IsDeepest full other) ∧
        ctx.Holds full first base "cd/f".toList := by
  intro outer first second sibling ctx full
  have hne : ∀ profile ∈ ctx.profiles, ∀ tree, ctx.tree? profile = some tree →
      full ≠ tree ∧ full ≠ Text.trimEnd ctx.sep tree := by
    decide
  have hfind : (find ctx full).value = some ⟨first, "cd/f".toList⟩ := by decide
  exact ⟨rfl, hne, hfind, (find_deepest rfl hne).2 _ hfind⟩

end Lineage

end PathOptions
