import PathOptions.Proofs.Path.Folder
import PathOptions.Proofs.Resolve.Values
/-!
Files with a configuration file of their own. If configuration files are asked for, a file in a tree
has no options exactly if there is such a file in its folder or, under its name, in a configuration
directory (`resolve_eq_none_iff`). A file directly in the root is an exception: its configuration
files are looked for in the working directory.
-/

namespace PathOptions

namespace Context

variable {ctx : Context}

theorem value_hasOwnConfiguration (ctx : Context) (path : Text) :
    (ctx.hasOwnConfiguration path).value =
      (ctx.pathExists (ctx.directoryConfiguration path) ||
        (ctx.fileConfigurations path).any ctx.pathExists) := by
  unfold hasOwnConfiguration
  cases ctx.pathExists (ctx.directoryConfiguration path) with
  | true => rfl
  | false => cases (ctx.fileConfigurations path).any ctx.pathExists <;> rfl

/-- There is a configuration file in a folder, for all files there or for one file name, or in a
configuration directory for the file name. -/
def Configured (ctx : Context) (folder name : Text) : Prop :=
  ctx.pathExists (folder ++ "mpv.conf".toList) ∨
    ctx.pathExists (folder ++ name ++ ".conf".toList) ∨
    ∃ place ∈ ctx.configurationDirectories,
      ctx.pathExists (Path.join ctx.sep place (name ++ ".conf".toList))

theorem hasOwnConfiguration_iff {full : Text} (hsep : ctx.matcher.sep = '/')
    (hsingle : ¬ ['/', '/'] <:+: full) :
    (ctx.hasOwnConfiguration full).value ↔
      ctx.Configured (Path.searchedFolder '/' full) (Path.fileName '/' full) := by
  have hbeside : ∀ name : Text, name.head? ≠ some '/' →
      Path.join ctx.sep (Path.splitLast ctx.sep full).1 name =
        Path.searchedFolder '/' full ++ name := by
    intro name hname
    rw [sep, hsep]
    exact Path.join_splitLast hsingle hname
  have hname : (Path.splitLast ctx.sep full).2 = Path.fileName '/' full := by
    rw [sep, hsep, Path.splitLast_eq]
  have hrelative : (Path.fileName '/' full ++ ".conf".toList).head? ≠ some '/' := by
    have hnot := Path.not_mem_fileName '/' full
    cases hcase : Path.fileName '/' full with
    | nil => decide
    | cons c cs =>
      rw [hcase] at hnot
      intro hc
      exact hnot (Option.some.inj hc ▸ .head cs)
  rw [value_hasOwnConfiguration, Bool.or_eq_true, directoryConfiguration,
    hbeside _ (by decide), fileConfigurations]
  dsimp only
  rw [hname, List.map_cons, hbeside _ hrelative, List.any_cons, Bool.or_eq_true, List.any_map,
    List.any_eq_true, ← List.append_assoc]
  rfl

/-- Of a file in a tree, a configuration file of its own is all that keeps profiles away. -/
theorem value_resolve_eq_none_iff {path workingDirectory full : Text}
    (hfull : Path.join ctx.sep workingDirectory path = full)
    (huse : ctx.useFileConfiguration = true) (hfile : ctx.isDirectory full = false)
    (htree : (Lineage.find ctx full).value ≠ none) :
    (ctx.resolve path workingDirectory).value = none ↔
      (ctx.hasOwnConfiguration full).value := by
  obtain ⟨lineage, hlineage⟩ := Option.ne_none_iff_exists'.1 htree
  rw [value_resolve, Option.map_eq_none_iff, hfull, lineageOf, hfile, hlineage, huse,
    Option.filter_some]
  cases (ctx.hasOwnConfiguration full).value <;> simp

/-- If configuration files are asked for, a file in a tree has no options exactly if there is a
configuration file in its folder or for it in a configuration directory; for a file in the root, the
working directory takes the place of the folder. -/
theorem resolve_eq_none_iff {path workingDirectory full : Text} (hsep : ctx.matcher.sep = '/')
    (hfull : Path.join ctx.sep workingDirectory path = full)
    (huse : ctx.useFileConfiguration = true) (hsingle : ¬ ['/', '/'] <:+: full)
    (hfile : ctx.isDirectory full = false) (htree : (Lineage.find ctx full).value ≠ none) :
    (Path.folder '/' full ≠ ['/'] →
      ((ctx.resolve path workingDirectory).value = none ↔
        ctx.Configured (Path.folder '/' full) (Path.fileName '/' full))) ∧
    (Path.folder '/' full = ['/'] →
      ((ctx.resolve path workingDirectory).value = none ↔
        ctx.Configured [] (Path.fileName '/' full))) := by
  have hiff := (value_resolve_eq_none_iff hfull huse hfile htree).trans
    (hasOwnConfiguration_iff hsep hsingle)
  constructor
  · intro hfolder
    rwa [Path.searchedFolder, if_neg hfolder] at hiff
  · intro hfolder
    rwa [Path.searchedFolder, if_pos hfolder] at hiff

/-- A configuration file in a configuration directory, for a file that is seen from a working
directory and lies two levels below the root. -/
theorem resolve_eq_none_below_root :
    let profile : Profile := ⟨"m".toList, some "tree:/m".toList, []⟩
    let ctx : Context :=
      { Context.bare [profile] with
        useFileConfiguration := true
        configurationDirectories := ["/c/".toList]
        pathExists := fun path => path = "/c/x.mkv.conf".toList }
    let full := "/m/a/x.mkv".toList
    Path.join ctx.sep "/m/a".toList "x.mkv".toList = full ∧ ¬ ['/', '/'] <:+: full ∧
      (Lineage.find ctx full).value ≠ none ∧ Path.folder '/' full = "/m/a/".toList ∧
      ctx.Configured "/m/a/".toList "x.mkv".toList ∧
      (ctx.resolve "x.mkv".toList "/m/a".toList).value = none := by
  intro profile ctx full
  have hsingle : ¬ ['/', '/'] <:+: full := by simp [full, List.infix_cons_iff]
  have htree : (Lineage.find ctx full).value ≠ none := by decide
  have hconfigured : ctx.Configured "/m/a/".toList "x.mkv".toList :=
    .inr (.inr ⟨_, .head [], rfl⟩)
  have hjoin : Path.join ctx.sep "/m/a".toList "x.mkv".toList = full := rfl
  obtain ⟨hbelow, _⟩ := resolve_eq_none_iff rfl hjoin rfl hsingle rfl htree
  exact ⟨hjoin, hsingle, htree, rfl, hconfigured, (hbelow (by decide)).2 hconfigured⟩

/-- The configuration file in the root is not seen by a file in the root. -/
theorem resolve_misses_configuration_in_root :
    let profile : Profile := ⟨"m".toList, some "tree:/".toList, []⟩
    let ctx : Context :=
      { Context.bare [profile] with
        useFileConfiguration := true
        pathExists := fun path => path = "/mpv.conf".toList }
    let full := "/x.mkv".toList
    ¬ ['/', '/'] <:+: full ∧ (Lineage.find ctx full).value ≠ none ∧
      ctx.Configured (Path.folder '/' full) (Path.fileName '/' full) ∧
      (ctx.resolve full []).value ≠ none := by
  intro profile ctx full
  have htree : (Lineage.find ctx full).value ≠ none := by decide
  have hjoin : Path.join ctx.sep [] full = full := rfl
  refine ⟨by simp [full, List.infix_cons_iff], htree, .inl rfl, ?_⟩
  intro hnone
  have hown := (value_resolve_eq_none_iff hjoin rfl rfl htree).1 hnone
  exact absurd hown (by decide)

end Context

end PathOptions
