import PathOptions.Proofs.Resolve.Trees
/-!
Trees in the home directory. The home directory takes the place of a tilde as it is written, while
joining a name to it drops the separators at its end. So the tree that is written with a tilde holds
the files of its directory exactly if the home directory is written without a separator at its end
(`find_in_home`); in the root as a home directory no tree is found.
-/

namespace PathOptions

namespace Path

/-- A path to be joined to a directory: it names something and does not begin with a separator. -/
def IsRelative (s : Char) (path : Text) : Prop := path ≠ [] ∧ path.head? ≠ some s

section

variable {s : Char} {home directory rest path : Text}

theorem IsRelative.exists_cons (h : IsRelative s path) : ∃ c cs, path = c :: cs ∧ c ≠ s := by
  obtain ⟨hne, hhead⟩ := h
  cases path with
  | nil => exact absurd rfl hne
  | cons c cs => exact ⟨c, cs, rfl, fun hc => hhead (congrArg some hc)⟩

theorem value_expandHome (hhome : home ≠ []) (rest : Text) :
    (expandHome [s] (some home) ('~' :: s :: rest)).value = home ++ s :: rest := by
  simp [expandHome, Option.filter_some, hhome]

/-- One more separator behind a directory that ends with one: then there are two or more. -/
theorem prefix_append_of_getLast? (hlast : home.getLast? = some s) :
    Text.trimEnd [s] home ++ [s] ++ [s] <+: home ++ [s] := by
  obtain ⟨front, rfl⟩ := List.getLast?_eq_some_iff.1 hlast
  have hdrop : Text.trimEnd [s] (front ++ [s]) = Text.trimEnd [s] front :=
    List.rdropWhile_concat_pos _ front s (by simp)
  obtain ⟨tail, htail, hmarks⟩ := Text.exists_eq_trimEnd_append [s] front
  have hseparators : tail = List.replicate tail.length s :=
    List.eq_replicate_of_mem fun c hc => List.mem_singleton.1 (hmarks c hc)
  have hcommute : [s] ++ [s] ++ tail = tail ++ [s] ++ [s] := by
    rw [hseparators]
    simp [← List.replicate_succ, ← List.replicate_succ']
  rw [hdrop]
  refine ⟨tail, ?_⟩
  calc Text.trimEnd [s] front ++ [s] ++ [s] ++ tail
      = Text.trimEnd [s] front ++ ([s] ++ [s] ++ tail) := by simp
    _ = Text.trimEnd [s] front ++ tail ++ [s] ++ [s] := by rw [hcommute]; simp
    _ = front ++ [s] ++ [s] := by rw [← htail]

/-- A name behind a separator keeps the separator from being taken away. -/
theorem prefix_trimEnd_of_name {c : Char} (hc : c ≠ s) (before cs : Text) :
    before ++ [s] ++ [c] <+: Text.trimEnd [s] (before ++ s :: c :: cs) := by
  have hends : Text.trimEnd [s] (before ++ [s] ++ [c]) = before ++ [s] ++ [c] :=
    Text.trimEnd_append_other (fun h => hc (List.mem_singleton.1 h)) _
  have hsplit : before ++ s :: c :: cs = before ++ [s] ++ [c] ++ cs := by simp
  rw [hsplit]
  exact Text.prefix_trimEnd_append hends cs

/-- With a separator at the end of the home directory, the directory of the tree has one more of
them than the path. -/
theorem below?_home_of_getLast? (hhome : home ≠ []) (hlast : home.getLast? = some s)
    (hdirectory : IsRelative s directory) (hrest : IsRelative s rest) :
    below? [s] (join [s] (join [s] home directory) rest) (home ++ s :: directory) = none := by
  rw [join_of_relative hhome hdirectory.2, join_of_relative (by simp) hrest.2]
  obtain ⟨c, cs, rfl, hc⟩ := hdirectory.exists_cons
  -- behind the home directory and one separator: a name there, a second separator here
  have hpath := prefix_trimEnd_of_name hc (Text.trimEnd [s] home) cs
  have hbase : Text.trimEnd [s] home ++ [s] ++ [s] <+: Text.trimEnd [s] (home ++ s :: c :: cs) :=
    (prefix_append_of_getLast? hlast).trans
      ((List.prefix_append _ [c]).trans (prefix_trimEnd_of_name hc home cs))
  exact below?_of_parting hc (hpath.trans (List.prefix_append _ _)) hbase

theorem below?_home (hhome : home ≠ []) (hlast : home.getLast? ≠ some s)
    (hdirectory : IsRelative s directory) (hrest : IsRelative s rest) :
    below? [s] (join [s] (join [s] home directory) rest) (home ++ s :: directory) = some rest := by
  have hjoin : join [s] home directory = home ++ s :: directory := by
    rw [join_of_relative hhome hdirectory.2, Text.trimEnd_of_getLast?_ne hlast]
  rw [hjoin]
  exact below?_join (by simp) hrest.1 hrest.2

end

end Path

theorem Profile.treeDirectory?_of_description {profile : Profile} {directory : Text}
    (h : profile.description = some (treeMark ++ directory)) :
    profile.treeDirectory? = some directory := by
  have hmark : treeMark.isPrefixOf (treeMark ++ directory) :=
    List.isPrefixOf_iff_prefix.2 (List.prefix_append _ _)
  simp only [treeDirectory?, h, if_pos hmark, List.drop_left]

namespace Lineage

variable {ctx : Context} {path : Text} {profile : Profile}

theorem treeDirectory?_of_candidate? {lineage : Lineage}
    (h : candidate? ctx path profile = some lineage) : profile.treeDirectory?.isSome := by
  obtain ⟨child, hchild, _⟩ := Option.map_eq_some_iff.1 h
  obtain ⟨written, hwritten, _⟩ := Option.bind_eq_some_iff.1 hchild
  exact Option.isSome_of_eq_some hwritten

/-- If there is one tree only, nothing is compared. -/
theorem value_find_of_only_tree (hprofile : profile ∈ ctx.profiles)
    (honly : ∀ other ∈ ctx.profiles, other.treeDirectory?.isSome → other = profile) :
    (find ctx path).value = candidate? ctx path profile := by
  cases hfind : (find ctx path).value with
  | none => exact (value_find_eq_none_iff.1 hfind profile hprofile).symm
  | some lineage =>
    obtain ⟨before, after, hprofiles, hcandidate, _⟩ := exists_append_of_find hfind
    have hparent : lineage.parent = profile := by
      refine honly lineage.parent ?_ (treeDirectory?_of_candidate? hcandidate)
      rw [hprofiles]
      exact List.mem_append_right before (.head after)
    rw [hparent] at hcandidate
    exact hcandidate.symm

/-- The only tree is written with a tilde. A file that is joined to its directory in the home
directory is found there if the home directory is written without a separator at its end, and is
not found otherwise. -/
theorem find_in_home {home directory rest : Text} (hreal : ctx.realPath = none)
    (hhome : ctx.home = some home) (hne : home ≠ [])
    (hdirectory : Path.IsRelative ctx.matcher.sep directory)
    (hrest : Path.IsRelative ctx.matcher.sep rest) (hprofile : profile ∈ ctx.profiles)
    (hdescription : profile.description = some (treeMark ++ '~' :: ctx.matcher.sep :: directory))
    (honly : ∀ other ∈ ctx.profiles, other.treeDirectory?.isSome → other = profile) :
    (find ctx (Path.join ctx.sep (Path.join ctx.sep home directory) rest)).value =
      if home.getLast? = some ctx.matcher.sep then none else some ⟨profile, rest⟩ := by
  have hchild : ∀ path, ctx.childOf? path profile =
      Path.below? ctx.sep path (home ++ ctx.matcher.sep :: directory) := by
    intro path
    rw [Context.childOf?, Profile.treeDirectory?_of_description hdescription, Option.bind_some,
      Context.below?, hreal, hhome, Context.sep, Path.value_expandHome hne]
  rw [value_find_of_only_tree hprofile honly, candidate?, hchild]
  split
  · rename_i hlast
    rw [Context.sep, Path.below?_home_of_getLast? hne hlast hdirectory hrest, Option.map_none]
  · rename_i hlast
    rw [Context.sep, Path.below?_home hne hlast hdirectory hrest, Option.map_some]

/-- Both the directory and the file have separators of their own in them, and another profile is
for no tree. -/
theorem find_in_home_nested :
    let other : Profile := ⟨"o".toList, some "~/m".toList, []⟩
    let profile : Profile := ⟨"p".toList, some "tree:~/m//a/".toList, []⟩
    let ctx : Context := { Context.bare [other, profile] with home := some "/home/me".toList }
    let path := Path.join ctx.sep (Path.join ctx.sep "/home/me".toList "m//a/".toList)
      "b/f/".toList
    path = "/home/me/m//a/b/f/".toList ∧
      (find ctx path).value = some ⟨profile, "b/f/".toList⟩ := by
  intro other profile ctx path
  have honly : ∀ other ∈ ctx.profiles, other.treeDirectory?.isSome → other = profile := by
    decide
  have hdirectory : Path.IsRelative '/' "m//a/".toList := ⟨by decide, by decide⟩
  have hrest : Path.IsRelative '/' "b/f/".toList := ⟨by decide, by decide⟩
  have hhome : "/home/me".toList ≠ [] := by decide
  exact ⟨rfl, find_in_home rfl rfl hhome hdirectory hrest (by decide) rfl honly⟩

/-- The root as a home directory: the tree is looked for behind two separators. -/
theorem not_found_in_root_home :
    let profile : Profile := ⟨"mine".toList, some "tree:~/d".toList, []⟩
    let ctx : Context := { Context.bare [profile] with home := some "/".toList }
    let path := Path.join ctx.sep (Path.join ctx.sep "/".toList "d".toList) "r".toList
    path = "/d/r".toList ∧ (find ctx path).value = none ∧
      (find ctx "//d/r".toList).value = some ⟨profile, "r".toList⟩ := by
  decide

end Lineage

end PathOptions
