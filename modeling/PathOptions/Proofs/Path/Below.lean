import Mathlib.Data.List.DropRight
import PathOptions.Path
/-!
Paths below a directory. Seen from a directory, a path that names it is `.`; every other path below
it is the directory without the separators at its end, one separator and the rest, and the rest is
how it is seen (`below?_eq_some_iff`). A name that only begins like that of the directory is not
below it. Unless the rest begins with a separator, joining it to the directory and seeing the path
from the directory undo each other (`below?_join`, `join_below?`).
-/

namespace PathOptions

namespace Text

/-! ## Marks at the end -/

variable {marks base rest t : Text}

theorem trimEnd_trimEnd (marks t : Text) : trimEnd marks (trimEnd marks t) = trimEnd marks t :=
  List.rdropWhile_idempotent _ t

theorem trimEnd_append_mark {c : Char} (hbase : trimEnd marks base = base) (hc : c ∈ marks) :
    trimEnd marks (base ++ [c]) = base :=
  (List.rdropWhile_concat_pos _ base c (by simpa using hc)).trans hbase

theorem trimEnd_append_other {c : Char} (hc : c ∉ marks) (t : Text) :
    trimEnd marks (t ++ [c]) = t ++ [c] :=
  List.rdropWhile_concat_neg _ t c (by simpa using hc)

theorem trimEnd_of_getLast?_ne {s : Char} (h : t.getLast? ≠ some s) : trimEnd [s] t = t := by
  induction t using List.reverseRecOn with
  | nil => rfl
  | append_singleton t c _ =>
    refine trimEnd_append_other ?_ t
    intro hc
    exact h (List.mem_singleton.1 hc ▸ List.getLast?_concat)

/-- What has no marks at its end stays when more follows. -/
theorem prefix_trimEnd_append (hbase : trimEnd marks base = base) (rest : Text) :
    base <+: trimEnd marks (base ++ rest) := by
  induction rest using List.reverseRecOn with
  | nil => exact ⟨[], by rw [List.append_nil, hbase]⟩
  | append_singleton rest c ih =>
    rw [← List.append_assoc]
    by_cases hc : c ∈ marks
    · have hdrop : trimEnd marks (base ++ rest ++ [c]) = trimEnd marks (base ++ rest) :=
        List.rdropWhile_concat_pos _ _ c (by simpa using hc)
      rw [hdrop]
      exact ih
    · rw [trimEnd_append_other hc, List.append_assoc]
      exact List.prefix_append _ _

/-- Nothing but marks is taken away. -/
theorem exists_eq_trimEnd_append (marks t : Text) :
    ∃ tail, t = trimEnd marks t ++ tail ∧ ∀ c ∈ tail, c ∈ marks := by
  refine ⟨t.rtakeWhile marks.contains, List.rdropWhile_append_rtakeWhile.symm, ?_⟩
  intro c hc
  simpa using List.mem_rtakeWhile_imp hc

end Text

namespace Path

/-- A path names a directory: it is the directory as it is written or, unless nothing is left of
it, without the separators at its end. -/
def Names (sep path directory : Text) : Prop :=
  path = directory ∨ Text.trimEnd sep directory ≠ [] ∧ path = Text.trimEnd sep directory

section

variable {s : Char} {path directory base rest : Text}

/-! ## Seen from a directory -/

theorem below?_of_names {sep : Text} (h : Names sep path directory) :
    below? sep path directory = some here :=
  if_pos h

theorem below?_eq_some_iff (h : ¬ Names [s] path directory) :
    below? [s] path directory = some rest ↔
      path = Text.trimEnd [s] directory ++ s :: rest := by
  have hbelow : below? [s] path directory =
      if (Text.trimEnd [s] directory ++ [s]).isPrefixOf path then
        some (path.drop ((Text.trimEnd [s] directory).length + 1))
      else none := if_neg h
  rw [hbelow]
  constructor
  · intro hsome
    split at hsome
    · rename_i hbegins
      obtain ⟨after, rfl⟩ := List.isPrefixOf_iff_prefix.1 hbegins
      obtain rfl := Option.some.inj hsome
      simp
    · cases hsome
  · rintro rfl
    have hbegins : Text.trimEnd [s] directory ++ [s] <+:
        Text.trimEnd [s] directory ++ s :: rest := ⟨rest, by simp⟩
    rw [if_pos (List.isPrefixOf_iff_prefix.2 hbegins)]
    simp

theorem below?_eq_none_iff :
    below? [s] path directory = none ↔
      ¬ Names [s] path directory ∧ ∀ rest, path ≠ Text.trimEnd [s] directory ++ s :: rest := by
  by_cases h : Names [s] path directory
  · simp [below?_of_names h, h]
  · rw [Option.eq_none_iff_forall_ne_some]
    constructor
    · intro hnone
      exact ⟨h, fun rest hpath => hnone rest ((below?_eq_some_iff h).2 hpath)⟩
    · intro hnot rest hsome
      exact hnot.2 rest ((below?_eq_some_iff h).1 hsome)

/-- A path that goes on behind a directory with a separator names the directory only if it is
written with more separators. -/
theorem Names.of_append (h : Names [s] (Text.trimEnd [s] directory ++ s :: rest) directory) :
    Text.trimEnd [s] directory ++ s :: rest = directory ∧ ∀ c ∈ rest, c = s := by
  have hsame : Text.trimEnd [s] directory ++ s :: rest = directory := by
    rcases h with h | ⟨_, h⟩
    · exact h
    · simp at h
  obtain ⟨tail, htail, hmarks⟩ := Text.exists_eq_trimEnd_append [s] directory
  obtain rfl : s :: rest = tail := List.append_cancel_left (hsame.trans htail)
  refine ⟨hsame, ?_⟩
  intro c hc
  exact List.mem_singleton.1 (hmarks c (List.mem_cons_of_mem s hc))

/-- Where a path and a directory part, the path is not below the directory. -/
theorem below?_of_parting {common : Text} {a b : Char} (hne : a ≠ b)
    (hpath : common ++ [a] <+: path) (hbase : common ++ [b] <+: Text.trimEnd [s] directory) :
    below? [s] path directory = none := by
  have hapart : ∀ t : Text, common ++ [b] <+: t → t ≠ path := by
    rintro _ ⟨after, rfl⟩ rfl
    obtain ⟨others, hothers⟩ := hpath
    rw [List.append_assoc, List.append_assoc] at hothers
    exact hne (List.cons.inj (List.append_cancel_left hothers)).1
  refine below?_eq_none_iff.2 ⟨?_, ?_⟩
  · rintro (h | ⟨_, h⟩)
    · exact hapart directory (hbase.trans (List.rdropWhile_prefix _ _)) h.symm
    · exact hapart _ hbase h.symm
  · intro rest h
    exact hapart _ (hbase.trans (List.prefix_append _ _)) h.symm

/-- A name that goes on where that of the directory ends. -/
theorem below?_of_longer_name {c : Char} (hc : c ≠ s) (rest : Text) :
    below? [s] (Text.trimEnd [s] directory ++ c :: rest) directory = none := by
  refine below?_eq_none_iff.2 ⟨?_, ?_⟩
  · rintro (h | ⟨_, h⟩)
    · -- only separators are missing from the directory
      obtain ⟨tail, htail, hmarks⟩ := Text.exists_eq_trimEnd_append [s] directory
      obtain rfl : c :: rest = tail := List.append_cancel_left (h.trans htail)
      exact hc (List.mem_singleton.1 (hmarks c (.head rest)))
    · simp at h
  · intro other h
    exact hc (List.cons.inj (List.append_cancel_left h)).1

/-! ## Joined to a directory -/

theorem join_of_relative (hbase : base ≠ []) (hrest : rest.head? ≠ some s) :
    join [s] base rest = Text.trimEnd [s] base ++ s :: rest := by
  have hrelative : ¬ [s].isPrefixOf rest := by
    cases rest with
    | nil => simp
    | cons c cs =>
      rw [List.head?_cons, ne_eq, Option.some.injEq] at hrest
      simpa using Ne.symm hrest
  simp [join, hbase, hrelative]

/-- What is joined to a directory is seen from there as it was. -/
theorem below?_join (hbase : base ≠ []) (hne : rest ≠ []) (hrest : rest.head? ≠ some s) :
    below? [s] (join [s] base rest) base = some rest := by
  rw [join_of_relative hbase hrest]
  have hnot : ¬ Names [s] (Text.trimEnd [s] base ++ s :: rest) base := by
    intro h
    cases rest with
    | nil => exact hne rfl
    | cons c cs => exact hrest (congrArg some (h.of_append.2 c (.head cs)))
  exact (below?_eq_some_iff hnot).2 rfl

/-- What is seen from a directory gives the path again when it is joined to the directory. -/
theorem join_below? (hbase : base ≠ []) (hne : path ≠ base) (hrest : rest.head? ≠ some s)
    (hpath : path = Text.trimEnd [s] base ++ s :: rest) :
    (below? [s] path base).map (join [s] base) = some path := by
  have hnot : ¬ Names [s] path base := by
    intro h
    rw [hpath] at h
    exact hne (hpath.trans h.of_append.1)
  rw [(below?_eq_some_iff hnot).2 hpath, Option.map_some, join_of_relative hbase hrest, hpath]

end

/-- How a path is seen from a base: as `.` if it names the base, otherwise as what follows the base
and one separator, and else not at all, a longer name included. Joining a relative path to the base
and seeing a path from the base undo each other. -/
theorem below?_and_join (s : Char) (base path : Text) :
    (Names [s] path base → below? [s] path base = some here) ∧
      (¬ Names [s] path base → ∀ rest, below? [s] path base = some rest ↔
        path = Text.trimEnd [s] base ++ s :: rest) ∧
      (below? [s] path base = none ↔
        ¬ Names [s] path base ∧ ∀ rest, path ≠ Text.trimEnd [s] base ++ s :: rest) ∧
      (∀ c rest, c ≠ s → below? [s] (Text.trimEnd [s] base ++ c :: rest) base = none) ∧
      (∀ rest, base ≠ [] → rest ≠ [] → rest.head? ≠ some s →
        below? [s] (join [s] base rest) base = some rest) ∧
      ∀ rest, base ≠ [] → path ≠ base → rest.head? ≠ some s →
        path = Text.trimEnd [s] base ++ s :: rest →
          (below? [s] path base).map (join [s] base) = some path := by
  refine ⟨below?_of_names, ?_, below?_eq_none_iff, ?_, ?_, ?_⟩
  · intro hnot rest
    exact below?_eq_some_iff hnot
  · intro c rest hc
    exact below?_of_longer_name hc rest
  · intro rest hbase hne hrest
    exact below?_join hbase hne hrest
  · intro rest hbase hne hrest hpath
    exact join_below? hbase hne hrest hpath

/-- The base is the root, written with two separators, and the path is a directory directly in it,
written with one. -/
theorem below?_and_join_root :
    let base := "//".toList
    let path := "/m/".toList
    ¬ Names ['/'] path base ∧ Text.trimEnd ['/'] base = [] ∧
      below? ['/'] path base = some "m/".toList ∧
      below? ['/'] (join ['/'] base "m/".toList) base = some "m/".toList ∧
      (below? ['/'] path base).map (join ['/'] base) = some path ∧
      below? ['/'] "m/".toList base = none ∧ below? ['/'] "//".toList base = some here := by
  intro base path
  obtain ⟨_, hseen, _, hlonger, hjoin, hback⟩ := below?_and_join '/' base path
  have hnot : ¬ Names ['/'] path base := by
    unfold Names
    decide
  refine ⟨hnot, rfl, (hseen hnot _).2 rfl, ?_, ?_, hlonger 'm' ['/'] (by decide), ?_⟩
  · exact hjoin _ (by decide) (by decide) (by decide)
  · exact hback "m/".toList (by decide) (by decide) (by decide) rfl
  · exact (below?_and_join '/' base base).1 (.inl rfl)

end Path

end PathOptions
