import PathOptions.Proofs.Resolve.Trees
/-!
Whether the order of the profiles matters for the parent of a file. The search takes a profile
below whose tree the path of the file is shortest, and the order decides between several of these
(`parent_independent_iff_unique`). If no two trees have the same directory, the paths are as
different in length as the directories, with one exception: the directory of a tree, seen from
itself, is called `.`, which is as long as any name of one character. So for the directory of a
tree that has such a name and lies directly in another tree, the order decides between the two; for
all other paths it does not matter, and the parent is the profile of the deepest tree
(`parent_independent_of_order_iff`).
-/

namespace PathOptions

namespace Context

/-! ## Trees around a path -/

/-- The directory of the tree of a profile without the separators at its end. -/
def base? (ctx : Context) (profile : Profile) : Option Text :=
  (ctx.tree? profile).map (Text.trimEnd ctx.sep)

/-- No two profiles have trees with the same directory; one profile may be listed repeatedly. -/
def HasDistinctTrees (ctx : Context) : Prop :=
  ∀ a ∈ ctx.profiles, ∀ b ∈ ctx.profiles, ∀ base, ctx.base? a = some base →
    ctx.base? b = some base → a = b

/-- A path is the directory of the tree of a profile, with the separators at its end or without. -/
def IsTree (ctx : Context) (full : Text) (profile : Profile) : Prop :=
  ∃ tree, ctx.tree? profile = some tree ∧
    (full = tree ∨ Text.trimEnd ctx.sep tree ≠ [] ∧ full = Text.trimEnd ctx.sep tree)

/-- The directory of the tree of a profile, without the separators at its end, is a path or holds
it. -/
def Contains (ctx : Context) (path : Text) (profile : Profile) (base : Text) : Prop :=
  ∃ full, ctx.actual? path = some full ∧ ctx.base? profile = some base ∧
    (ctx.IsTree full profile ∨ ∃ rest, full = base ++ ctx.sep ++ rest)

/-- No directory of a tree that contains a path is longer than that of a profile. -/
def IsInnermost (ctx : Context) (path : Text) (profile : Profile) : Prop :=
  profile ∈ ctx.profiles ∧ ∃ base, ctx.Contains path profile base ∧
    ∀ other ∈ ctx.profiles, ∀ base', ctx.Contains path other base' → base'.length ≤ base.length

/-- Below no tree that contains a path is the path shorter than below that of a profile. -/
def IsNearest (ctx : Context) (path : Text) (profile : Profile) : Prop :=
  profile ∈ ctx.profiles ∧ ∃ child, ctx.childOf? path profile = some child ∧
    ∀ other ∈ ctx.profiles, ∀ child', ctx.childOf? path other = some child' →
      child.length ≤ child'.length

/-- A path is the directory of a tree and has a name of one character in the directory of another
tree. -/
def IsAmbiguous (ctx : Context) (path : Text) : Prop :=
  ∃ full, ctx.actual? path = some full ∧ ∃ itself ∈ ctx.profiles, ∃ outer ∈ ctx.profiles,
    itself ≠ outer ∧ ctx.IsTree full itself ∧ ∃ base c, ctx.Holds full outer base [c]

section

variable {ctx : Context} {path full base rest : Text} {profile : Profile}

theorem holds_iff : ctx.Holds full profile base rest ↔
    ctx.base? profile = some base ∧ full = base ++ ctx.sep ++ rest := by
  rw [base?, Option.map_eq_some_iff]
  constructor
  · rintro ⟨tree, htree, rfl, hfull⟩
    exact ⟨⟨tree, htree, rfl⟩, hfull⟩
  · rintro ⟨⟨tree, htree, rfl⟩, hfull⟩
    exact ⟨tree, htree, rfl, hfull⟩

theorem trimEnd_of_base? (h : ctx.base? profile = some base) :
    Text.trimEnd ctx.sep base = base := by
  obtain ⟨tree, _, rfl⟩ := Option.map_eq_some_iff.1 h
  exact Text.trimEnd_trimEnd _ tree

theorem IsTree.base?_eq (h : ctx.IsTree full profile) :
    ctx.base? profile = some (Text.trimEnd ctx.sep full) := by
  obtain ⟨tree, htree, rfl | ⟨_, rfl⟩⟩ := h
  · rw [base?, htree, Option.map_some]
  · rw [base?, htree, Option.map_some, Text.trimEnd_trimEnd]

theorem Holds.prefix_trimEnd (h : ctx.Holds full profile base rest) :
    base <+: Text.trimEnd ctx.sep full := by
  obtain ⟨hbase, rfl⟩ := holds_iff.1 h
  rw [List.append_assoc]
  exact Text.prefix_trimEnd_append (trimEnd_of_base? hbase) _

/-- Only the separator itself follows: then the path is the directory with a separator behind it. -/
theorem Holds.trimEnd_eq (h : ctx.Holds full profile base []) :
    Text.trimEnd ctx.sep full = base := by
  obtain ⟨hbase, rfl⟩ := holds_iff.1 h
  rw [List.append_nil]
  exact Text.trimEnd_append_mark (trimEnd_of_base? hbase) (.head _)

/-- A path that cannot be resolved is below no tree. -/
theorem childOf?_of_unresolved (h : ctx.actual? path = none) (profile : Profile) :
    ctx.childOf? path profile = none := by
  unfold actual? at h
  cases hreal : ctx.realPath with
  | none =>
    rw [hreal] at h
    cases h
  | some realPath =>
    rw [hreal] at h
    rw [childOf?, Option.bind_eq_none_iff]
    intro written _
    simp only [below?, hreal, Path.resolvedBelow?, h]

/-- Below a tree a path is `.` if it is the directory itself, and otherwise the rest behind it. -/
theorem childOf?_eq_some_iff (hfull : ctx.actual? path = some full) :
    ctx.childOf? path profile = some rest ↔
      ctx.IsTree full profile ∧ rest = Path.here ∨
        ¬ ctx.IsTree full profile ∧ ∃ base, ctx.Holds full profile base rest := by
  by_cases hitself : ctx.IsTree full profile
  · obtain ⟨tree, htree, hsame⟩ := id hitself
    have hchild : ctx.childOf? path profile = some Path.here := by
      rw [childOf?_eq hfull, htree, Option.bind_some]
      exact Path.below?_of_names hsame
    rw [hchild]
    constructor
    · intro h
      exact .inl ⟨hitself, (Option.some.inj h).symm⟩
    · rintro (⟨_, rfl⟩ | ⟨hnot, _⟩)
      · rfl
      · exact absurd hitself hnot
  · have hne : ∀ tree, ctx.tree? profile = some tree → ¬ Path.Names ctx.sep full tree := by
      intro tree htree hsame
      exact hitself ⟨tree, htree, hsame⟩
    rw [childOf?_iff_holds hfull hne]
    constructor
    · intro hholds
      exact .inr ⟨hitself, hholds⟩
    · rintro (⟨hyes, _⟩ | ⟨_, hholds⟩)
      · exact absurd hyes hitself
      · exact hholds

theorem exists_contains (hfull : ctx.actual? path = some full)
    (h : ctx.childOf? path profile = some rest) : ∃ base, ctx.Contains path profile base := by
  rcases (childOf?_eq_some_iff hfull).1 h with ⟨htree, _⟩ | ⟨_, base, hholds⟩
  · exact ⟨_, full, hfull, htree.base?_eq, .inl htree⟩
  · obtain ⟨hbase, heq⟩ := holds_iff.1 hholds
    exact ⟨base, full, hfull, hbase, .inr ⟨rest, heq⟩⟩

theorem exists_child (hfull : ctx.actual? path = some full)
    (h : ctx.Contains path profile base) : ∃ child, ctx.childOf? path profile = some child := by
  obtain ⟨full', hfull', hbase, hcontains⟩ := h
  obtain rfl := Option.some.inj (hfull.symm.trans hfull')
  by_cases htree : ctx.IsTree full profile
  · exact ⟨_, (childOf?_eq_some_iff hfull).2 (.inl ⟨htree, rfl⟩)⟩
  · obtain ⟨rest, heq⟩ := hcontains.resolve_left htree
    exact ⟨rest, (childOf?_eq_some_iff hfull).2 (.inr ⟨htree, base, holds_iff.2 ⟨hbase, heq⟩⟩)⟩

/-- Directories that contain a path are beginnings of it. -/
theorem Contains.prefix_trimEnd (hfull : ctx.actual? path = some full)
    (h : ctx.Contains path profile base) : base <+: Text.trimEnd ctx.sep full := by
  obtain ⟨full', hfull', hbase, htree | ⟨rest, heq⟩⟩ := h
  · obtain rfl := Option.some.inj (hfull.symm.trans hfull')
    obtain rfl := Option.some.inj (hbase.symm.trans htree.base?_eq)
    exact List.prefix_refl _
  · obtain rfl := Option.some.inj (hfull.symm.trans hfull')
    exact Holds.prefix_trimEnd (holds_iff.2 ⟨hbase, heq⟩)

end

/-! ## Distinct trees -/

section

variable {ctx : Context} {path full base base' rest child child' : Text}
  {profile other itself outer : Profile}

/-- A path that is the directory of a tree lies behind shorter directories only, and more than a
separator follows them. -/
theorem outer_of_isTree (hdistinct : ctx.HasDistinctTrees) (hitself : itself ∈ ctx.profiles)
    (houter : outer ∈ ctx.profiles) (hne : itself ≠ outer) (htree : ctx.IsTree full itself)
    (hholds : ctx.Holds full outer base rest) :
    base.length < (Text.trimEnd ctx.sep full).length ∧ rest ≠ [] := by
  obtain ⟨hbase, _⟩ := holds_iff.1 hholds
  have hdiffer : base ≠ Text.trimEnd ctx.sep full := by
    rintro rfl
    exact hne (hdistinct itself hitself outer houter _ htree.base?_eq hbase)
  have hbegins := hholds.prefix_trimEnd
  refine ⟨?_, ?_⟩
  · refine Nat.lt_of_le_of_ne hbegins.length_le fun hlength => ?_
    exact hdiffer (hbegins.eq_of_length hlength)
  · rintro rfl
    exact hdiffer hholds.trimEnd_eq.symm

/-- Unless a path is ambiguous, it is the shorter the longer the directory. -/
theorem length_child_le_iff (hfull : ctx.actual? path = some full)
    (hdistinct : ctx.HasDistinctTrees) (hclear : ¬ ctx.IsAmbiguous path)
    (hprofile : profile ∈ ctx.profiles) (hother : other ∈ ctx.profiles)
    (hbase : ctx.base? profile = some base) (hbase' : ctx.base? other = some base')
    (hchild : ctx.childOf? path profile = some child)
    (hchild' : ctx.childOf? path other = some child') :
    child.length ≤ child'.length ↔ base'.length ≤ base.length := by
  by_cases hsame : profile = other
  · subst hsame
    obtain rfl := Option.some.inj (hbase.symm.trans hbase')
    obtain rfl := Option.some.inj (hchild.symm.trans hchild')
    exact ⟨fun _ => Nat.le_refl _, fun _ => Nat.le_refl _⟩
  rcases (childOf?_eq_some_iff hfull).1 hchild with ⟨htree, rfl⟩ | ⟨_, base₁, hholds⟩
  · obtain rfl := Option.some.inj (hbase.symm.trans htree.base?_eq)
    rcases (childOf?_eq_some_iff hfull).1 hchild' with ⟨htree', rfl⟩ | ⟨_, base₂, hholds'⟩
    · obtain rfl := Option.some.inj (hbase'.symm.trans htree'.base?_eq)
      exact absurd (hdistinct profile hprofile other hother _ hbase hbase') hsame
    · obtain rfl := Option.some.inj (hbase'.symm.trans (holds_iff.1 hholds').1)
      obtain ⟨hlt, hne⟩ := outer_of_isTree hdistinct hprofile hother hsame htree hholds'
      have hpos := List.length_pos_iff.2 hne
      exact ⟨fun _ => Nat.le_of_lt hlt, fun _ => hpos⟩
  · obtain rfl := Option.some.inj (hbase.symm.trans (holds_iff.1 hholds).1)
    rcases (childOf?_eq_some_iff hfull).1 hchild' with ⟨htree', rfl⟩ | ⟨_, base₂, hholds'⟩
    · obtain rfl := Option.some.inj (hbase'.symm.trans htree'.base?_eq)
      obtain ⟨hlt, hne⟩ := outer_of_isTree hdistinct hother hprofile (Ne.symm hsame) htree' hholds
      have hpos := List.length_pos_iff.2 hne
      -- a name of one character would make the path ambiguous
      have hlong : child.length ≠ 1 := by
        intro hone
        obtain ⟨c, rfl⟩ := List.length_eq_one_iff.1 hone
        exact hclear ⟨full, hfull, other, hother, profile, hprofile, Ne.symm hsame, htree', _, c,
          hholds⟩
      have hhere : Path.here.length = 1 := rfl
      omega
    · obtain rfl := Option.some.inj (hbase'.symm.trans (holds_iff.1 hholds').1)
      have hlength := hholds.length
      have hlength' := hholds'.length
      omega

theorem isNearest_iff_isInnermost (hfull : ctx.actual? path = some full)
    (hdistinct : ctx.HasDistinctTrees) (hclear : ¬ ctx.IsAmbiguous path) :
    ctx.IsNearest path profile ↔ ctx.IsInnermost path profile := by
  constructor
  · rintro ⟨hprofile, child, hchild, hleast⟩
    obtain ⟨base, hbase⟩ := exists_contains hfull hchild
    refine ⟨hprofile, base, hbase, ?_⟩
    intro other hother base' hbase'
    obtain ⟨child', hchild'⟩ := exists_child hfull hbase'
    obtain ⟨_, _, hsome, _⟩ := hbase
    obtain ⟨_, _, hsome', _⟩ := hbase'
    exact (length_child_le_iff hfull hdistinct hclear hprofile hother hsome hsome' hchild
      hchild').1 (hleast other hother child' hchild')
  · rintro ⟨hprofile, base, hbase, hlongest⟩
    obtain ⟨child, hchild⟩ := exists_child hfull hbase
    refine ⟨hprofile, child, hchild, ?_⟩
    intro other hother child' hchild'
    obtain ⟨base', hbase'⟩ := exists_contains hfull hchild'
    have hle := hlongest other hother base' hbase'
    obtain ⟨_, _, hsome, _⟩ := hbase
    obtain ⟨_, _, hsome', _⟩ := hbase'
    exact (length_child_le_iff hfull hdistinct hclear hprofile hother hsome hsome' hchild
      hchild').2 hle

theorem IsInnermost.eq (hfull : ctx.actual? path = some full) (hdistinct : ctx.HasDistinctTrees)
    (h : ctx.IsInnermost path profile) (h' : ctx.IsInnermost path other) : profile = other := by
  obtain ⟨hprofile, base, hbase, hlongest⟩ := h
  obtain ⟨hother, base', hbase', hlongest'⟩ := h'
  have hlength : base.length = base'.length :=
    Nat.le_antisymm (hlongest' profile hprofile base hbase) (hlongest other hother base' hbase')
  have hbegins := List.prefix_of_prefix_length_le (hbase.prefix_trimEnd hfull)
    (hbase'.prefix_trimEnd hfull) (Nat.le_of_eq hlength)
  obtain rfl := hbegins.eq_of_length hlength
  obtain ⟨_, _, hsome, _⟩ := hbase
  obtain ⟨_, _, hsome', _⟩ := hbase'
  exact hdistinct profile hprofile other hother base hsome hsome'

/-- Both trees of an ambiguous path are nearest to it. -/
theorem IsAmbiguous.not_unique (hdistinct : ctx.HasDistinctTrees) (h : ctx.IsAmbiguous path) :
    ∃ itself outer, itself ≠ outer ∧ ctx.IsNearest path itself ∧ ctx.IsNearest path outer := by
  obtain ⟨full, hfull, itself, hitself, outer, houter, hne, htree, base, c, hholds⟩ := h
  have hleast : ∀ other ∈ ctx.profiles, ∀ child, ctx.childOf? path other = some child →
      1 ≤ child.length := by
    intro other hother child hchild
    rcases (childOf?_eq_some_iff hfull).1 hchild with ⟨_, rfl⟩ | ⟨hnot, base', hholds'⟩
    · exact Nat.le_refl 1
    · have hother' : itself ≠ other := by
        rintro rfl
        exact hnot htree
      exact List.length_pos_iff.2
        (outer_of_isTree hdistinct hitself hother hother' htree hholds').2
  have houterTree : ¬ ctx.IsTree full outer := by
    intro htree'
    have hbase := htree.base?_eq
    exact hne (hdistinct itself hitself outer houter _ hbase htree'.base?_eq)
  refine ⟨itself, outer, hne, ⟨hitself, Path.here, ?_, hleast⟩, ⟨houter, [c], ?_, hleast⟩⟩
  · exact (childOf?_eq_some_iff hfull).2 (.inl ⟨htree, rfl⟩)
  · exact (childOf?_eq_some_iff hfull).2 (.inr ⟨houterTree, base, hholds⟩)

end

end Context

/-! ## Orders of the profiles -/

namespace Lineage

def parent? (ctx : Context) (path : Text) : Option Profile :=
  (find ctx path).value.map (·.parent)

section

variable {ctx : Context} {path full : Text} {profile : Profile} {rest : List Profile}

theorem childOf?_of_candidate? {lineage : Lineage}
    (h : candidate? ctx path profile = some lineage) :
    ctx.childOf? path profile = some lineage.child := by
  obtain ⟨child, hchild, rfl⟩ := Option.map_eq_some_iff.1 h
  exact hchild

theorem candidate?_of_childOf? {child : Text} (h : ctx.childOf? path profile = some child) :
    candidate? ctx path profile = some ⟨profile, child⟩ := by
  rw [candidate?, h, Option.map_some]

theorem isNearest_of_parent? (h : parent? ctx path = some profile) :
    ctx.IsNearest path profile := by
  obtain ⟨lineage, hfind, rfl⟩ := Option.map_eq_some_iff.1 h
  obtain ⟨before, after, hprofiles, hparent, _, hleast⟩ := exists_append_of_find hfind
  refine ⟨by rw [hprofiles]; simp, lineage.child, childOf?_of_candidate? hparent, ?_⟩
  intro other hother child hchild
  exact hleast other hother ⟨other, child⟩ (candidate?_of_childOf? hchild)

theorem exists_parent? (h : ctx.IsNearest path profile) :
    ∃ parent, parent? ctx path = some parent := by
  obtain ⟨hprofile, child, hchild, _⟩ := h
  cases hfind : (find ctx path).value with
  | some lineage => exact ⟨lineage.parent, by rw [parent?, hfind, Option.map_some]⟩
  | none =>
    have hnone := value_find_eq_none_iff.1 hfind profile hprofile
    rw [candidate?_of_childOf? hchild] at hnone
    cases hnone

/-- A nearest profile that is listed first is the parent. -/
theorem parent?_of_head (hprofiles : ctx.profiles = profile :: rest)
    (h : ctx.IsNearest path profile) : parent? ctx path = some profile := by
  obtain ⟨parent, hparent⟩ := exists_parent? h
  obtain ⟨lineage, hfind, rfl⟩ := Option.map_eq_some_iff.1 hparent
  obtain ⟨before, after, hsplit, hcandidate, hbefore, _⟩ := exists_append_of_find hfind
  obtain ⟨_, child, hchild, hleast⟩ := h
  rw [hparent]
  cases before with
  | nil =>
    rw [hprofiles] at hsplit
    exact congrArg some (List.cons.inj hsplit).1.symm
  | cons first others =>
    -- otherwise the parent has a shorter path than what is nearest
    have hfirst : profile = first := by
      rw [hprofiles] at hsplit
      exact (List.cons.inj hsplit).1
    have hlt := hbefore profile (hfirst ▸ .head others) _ (candidate?_of_childOf? hchild)
    have hle := hleast lineage.parent (by rw [hsplit]; simp) lineage.child
      (childOf?_of_candidate? hcandidate)
    dsimp only at hlt
    omega

theorem isNearest_perm {profiles : List Profile} (h : profiles.Perm ctx.profiles) :
    { ctx with profiles := profiles }.IsNearest path profile ↔ ctx.IsNearest path profile := by
  unfold Context.IsNearest
  simp only [h.mem_iff]
  rfl

end

/-- The order of the profiles does not matter for a path if no more than one is nearest. -/
theorem parent_independent_iff_unique (ctx : Context) (path : Text) :
    (∀ profiles, profiles.Perm ctx.profiles →
        parent? { ctx with profiles := profiles } path = parent? ctx path) ↔
      ∀ a b, ctx.IsNearest path a → ctx.IsNearest path b → a = b := by
  constructor
  · intro hindependent
    have hparent : ∀ profile, ctx.IsNearest path profile → parent? ctx path = some profile := by
      intro profile hprofile
      have hperm := (List.perm_cons_erase hprofile.1).symm
      rw [← hindependent _ hperm]
      exact parent?_of_head rfl ((isNearest_perm hperm).2 hprofile)
    intro a b ha hb
    exact Option.some.inj ((hparent a ha).symm.trans (hparent b hb))
  · intro hunique profiles hperm
    cases hparent : parent? ctx path with
    | some parent =>
      have hnearest := isNearest_of_parent? hparent
      obtain ⟨other, hother⟩ := exists_parent? ((isNearest_perm hperm).2 hnearest)
      rw [hother]
      have hnearest' := (isNearest_perm hperm).1 (isNearest_of_parent? hother)
      rw [hunique other parent hnearest' hnearest]
    | none =>
      cases hother : parent? { ctx with profiles := profiles } path with
      | none => rfl
      | some other =>
        have hnearest := (isNearest_perm hperm).1 (isNearest_of_parent? hother)
        obtain ⟨parent, hsome⟩ := exists_parent? hnearest
        rw [hparent] at hsome
        cases hsome

/-- If no two trees have the same directory, the order of the profiles matters for a path only if
the path is the directory of a tree and has a name of one character in the directory of another
one; otherwise its parent is the profile of the deepest tree that contains it. -/
theorem parent_independent_of_order_iff {ctx : Context} (hdistinct : ctx.HasDistinctTrees)
    (path : Text) :
    ((∀ profiles, profiles.Perm ctx.profiles →
        parent? { ctx with profiles := profiles } path = parent? ctx path) ↔
      ¬ ctx.IsAmbiguous path) ∧
    (¬ ctx.IsAmbiguous path → ∀ profile,
      parent? ctx path = some profile ↔ ctx.IsInnermost path profile) := by
  rw [parent_independent_iff_unique]
  cases hactual : ctx.actual? path with
  | none =>
    have hnearest : ∀ profile, ¬ ctx.IsNearest path profile := by
      rintro profile ⟨_, child, hchild, _⟩
      rw [Context.childOf?_of_unresolved hactual] at hchild
      cases hchild
    refine ⟨⟨?_, fun _ a _ ha => absurd ha (hnearest a)⟩, ?_⟩
    · rintro _ ⟨full, hfull, _⟩
      rw [hactual] at hfull
      cases hfull
    · intro _ profile
      constructor
      · intro hparent
        exact absurd (isNearest_of_parent? hparent) (hnearest profile)
      · rintro ⟨_, _, ⟨full, hfull, _⟩, _⟩
        rw [hactual] at hfull
        cases hfull
  | some full =>
    have hclear : ¬ ctx.IsAmbiguous path → ∀ a b, ctx.IsNearest path a → ctx.IsNearest path b →
        a = b := by
      intro hclear a b ha hb
      rw [Context.isNearest_iff_isInnermost hactual hdistinct hclear] at ha hb
      exact ha.eq hactual hdistinct hb
    refine ⟨⟨?_, hclear⟩, ?_⟩
    · intro hunique hambiguous
      obtain ⟨itself, outer, hne, hitself, houter⟩ := hambiguous.not_unique hdistinct
      exact hne (hunique itself outer hitself houter)
    · intro hnot profile
      rw [← Context.isNearest_iff_isInnermost hactual hdistinct hnot]
      constructor
      · exact isNearest_of_parent?
      · intro hnearest
        obtain ⟨parent, hparent⟩ := exists_parent? hnearest
        rw [hparent, hclear hnot parent profile (isNearest_of_parent? hparent) hnearest]

/-- The path is the directory of the second tree and has a name of two characters in that of the
first one. The directory of the third tree is only the beginning of that name. -/
theorem parent_independent_of_order_short_name :
    let outer : Profile := ⟨"o".toList, some "tree:/m".toList, []⟩
    let inner : Profile := ⟨"i".toList, some "tree:~/ab/".toList, []⟩
    let sibling : Profile := ⟨"s".toList, some "tree:/m/a".toList, []⟩
    let ctx : Context :=
      { Context.bare [outer, inner, sibling] with home := some "/m".toList }
    ctx.HasDistinctTrees ∧ parent? ctx "/m/ab".toList = some inner ∧
      ¬ ctx.IsAmbiguous "/m/ab".toList ∧ ctx.IsInnermost "/m/ab".toList inner ∧
      ∀ profiles, profiles.Perm ctx.profiles →
        parent? { ctx with profiles := profiles } "/m/ab".toList =
          parent? ctx "/m/ab".toList := by
  intro outer inner sibling ctx
  have hdistinct : ctx.HasDistinctTrees := by
    unfold Context.HasDistinctTrees
    decide
  have hparent : parent? ctx "/m/ab".toList = some inner := by decide
  have hclear : ¬ ctx.IsAmbiguous "/m/ab".toList := by
    rintro ⟨full, hfull, _, _, profile, hprofile, _, _, base, c, hholds⟩
    obtain rfl := Option.some.inj hfull
    -- the base of a name of one character would have three
    have hthree : base.length = 3 := Nat.add_right_cancel (m := 2) hholds.length.symm
    have hbases : ∀ profile ∈ ctx.profiles, ∀ base, ctx.base? profile = some base →
        base.length ≠ 3 := by
      decide
    exact hbases profile hprofile base (Context.holds_iff.1 hholds).1 hthree
  obtain ⟨hiff, hinnermost⟩ := parent_independent_of_order_iff hdistinct "/m/ab".toList
  exact ⟨hdistinct, hparent, hclear, (hinnermost hclear inner).1 hparent, hiff.2 hclear⟩

/-- The name of the inner directory has one character: in each order the first profile wins. -/
theorem parent_depends_on_order :
    let outer : Profile := ⟨"outer".toList, some "tree:/m".toList, []⟩
    let inner : Profile := ⟨"inner".toList, some "tree:/m/a".toList, []⟩
    let path := "/m/a".toList
    (Context.bare [outer, inner]).HasDistinctTrees ∧ [inner, outer].Perm [outer, inner] ∧
      (Context.bare [outer, inner]).IsInnermost path inner ∧
      parent? (Context.bare [outer, inner]) path = some outer ∧
      parent? (Context.bare [inner, outer]) path = some inner := by
  intro outer inner path
  have hdistinct : (Context.bare [outer, inner]).HasDistinctTrees := by
    unfold Context.HasDistinctTrees
    decide
  have hcontains : (Context.bare [outer, inner]).Contains path inner path :=
    ⟨path, rfl, rfl, .inl ⟨path, rfl, .inl rfl⟩⟩
  refine ⟨hdistinct, .swap outer inner [], ⟨by decide, path, hcontains, ?_⟩, by decide, by decide⟩
  rintro other hother base ⟨_, _, hbase, _⟩
  have hbases : ∀ other ∈ [outer, inner], ∀ base,
      (Context.bare [outer, inner]).base? other = some base → base.length ≤ path.length := by
    decide
  exact hbases other hother base hbase

end Lineage

end PathOptions
