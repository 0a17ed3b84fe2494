import PathOptions.Proofs.Brace.Candidates
import PathOptions.Proofs.Brace.Scanning
/-!
Cutting at every separator and joining with it are inverse to each other. Texts are the items of
what joins them exactly if one scan of an item meets no separator at the outer level, and behind
every item but the last the scan is at the outer level, where it meets the separator that follows
(`splitAll_eq_iff`).
-/

namespace PathOptions.Brace

/-! ## What a search passes -/

section

variable {sep : Char} {position level next : Nat} {a t : Text}

/-- A search passes over a text in which a scan meets no separator at the outer level, and goes on
behind it at the level behind it. -/
theorem splitFrom_append (hnone : ∀ sighting ∈ scan position level a, sighting.isOuter sep = false)
    (hlevel : levelBehind? level a = some next) (rest : Text) :
    splitFrom sep level (a ++ rest) = keepLeft a (splitFrom sep next rest) := by
  fun_induction levelBehind? level a generalizing position with
  | case1 level =>
    obtain rfl := Option.some.inj hlevel
    rfl
  | case2 => cases hlevel
  | case3 level d cs ih =>
    have hrest := ih hnone hlevel
    simp [splitFrom, hrest, keepLeft_keepLeft]
  | case4 level c cs hslash ih =>
    rw [scan_cons hslash] at hnone
    have hrest := ih (fun sighting h => hnone sighting (.tail _ h)) hlevel
    have hcut : ¬ (c = sep ∧ level = 0) := by
      simpa [Sighting.isOuter] using hnone _ (.head _)
    rw [List.cons_append, splitFrom.eq_def]
    simp [hslash, hcut, hrest, keepLeft_keepLeft]

/-- A search finds nothing where a scan meets no separator at the outer level. -/
theorem splitFrom_eq_none
    (hnone : ∀ sighting ∈ scan position level t, sighting.isOuter sep = false) :
    splitFrom sep level t = (t, none) := by
  fun_induction splitFrom sep level t generalizing position with
  | case1 | case2 => rfl
  | case3 level d rest ih =>
    rw [ih hnone]
    rfl
  | case4 level c cs hslash hstop =>
    rw [scan_cons hslash] at hnone
    have hfirst := hnone _ (.head _)
    simp [Sighting.isOuter, hstop] at hfirst
  | case5 level c cs hslash hnot ih =>
    rw [scan_cons hslash] at hnone
    rw [ih fun sighting h => hnone sighting (.tail _ h)]
    rfl

end

/-! ## Items -/

/-- Texts that are separated only where they meet: there is at least one, none has a separator at
its outer level, and behind each but the last a scan is at the outer level and protects nothing. -/
structure AreItems (sep : Char) (items : List Text) : Prop where
  ne_nil : items ≠ []
  uncut : ∀ item ∈ items, candidates sep 0 item = []
  closed : ∀ item ∈ items.dropLast, levelBehind? 0 item = some 0

section

variable {sep : Char} {item : Text} {items : List Text}

theorem areItems_single : AreItems sep [item] ↔ candidates sep 0 item = [] := by
  constructor
  · intro h
    exact h.uncut item (.head [])
  · intro h
    exact ⟨List.cons_ne_nil item [], by simpa using h, by simp⟩

theorem areItems_cons (hne : items ≠ []) :
    AreItems sep (item :: items) ↔
      candidates sep 0 item = [] ∧ levelBehind? 0 item = some 0 ∧ AreItems sep items := by
  have hlast : (item :: items).dropLast = item :: items.dropLast :=
    List.dropLast_cons_of_ne_nil hne
  constructor
  · intro h
    have huncut := List.forall_mem_cons.1 h.uncut
    have hclosed := List.forall_mem_cons.1 (hlast ▸ h.closed)
    exact ⟨huncut.1, hclosed.1, hne, huncut.2, hclosed.2⟩
  · intro h
    obtain ⟨huncut, hclosed, hitems⟩ := h
    exact ⟨List.cons_ne_nil item items, List.forall_mem_cons.2 ⟨huncut, hitems.uncut⟩,
      hlast ▸ List.forall_mem_cons.2 ⟨hclosed, hitems.closed⟩⟩

/-- What cutting at every separator gives are items, and joining them gives the text back. -/
theorem areItems_splitAll (sep : Char) (t : Text) :
    AreItems sep (splitAll sep t) ∧ Text.join sep (splitAll sep t) = t := by
  fun_induction splitAll sep t with
  | case1 t item h =>
    obtain rfl := splitFrom_none h
    exact ⟨areItems_single.2 (candidates_of_split_none h 0), rfl⟩
  | case2 t item rest h ih =>
    obtain ⟨hitems, hjoin⟩ := ih
    obtain ⟨hlevel, hnone⟩ := levelBehind?_of_splitFrom h
    have hne := splitAll_ne_nil sep rest
    have huncut : candidates sep 0 item = [] := candidates_eq_nil_iff.2 (hnone 0)
    refine ⟨(areItems_cons hne).2 ⟨huncut, hlevel, hitems⟩, ?_⟩
    rw [splitFrom_some h, Text.join_cons sep item hne, hjoin]

/-- Items are what cutting at every separator makes of the text that joins them. -/
theorem splitAll_join (hsep : sep ≠ '\\') (h : AreItems sep items) :
    splitAll sep (Text.join sep items) = items := by
  induction items with
  | nil => exact absurd rfl h.ne_nil
  | cons item rest ih =>
    cases rest with
    | nil =>
      have hcut : split sep item = (item, none) :=
        splitFrom_eq_none (candidates_eq_nil_iff.1 (areItems_single.1 h))
      rw [Text.join, splitAll_of_split_none hcut]
    | cons next others =>
      obtain ⟨huncut, hlevel, hitems⟩ := (areItems_cons (List.cons_ne_nil next others)).1 h
      -- the search passes the item whatever follows it, and so stops at the separator behind it
      have hpass : Passes sep 0 item :=
        splitFrom_append (candidates_eq_nil_iff.1 huncut) hlevel
      rw [Text.join, hpass.splitAll hsep, ih hitems]

/-- Cutting at every separator gives certain texts exactly if these are items and the text joins
them. -/
theorem splitAll_eq_iff (hsep : sep ≠ '\\') {t : Text} :
    splitAll sep t = items ↔ AreItems sep items ∧ Text.join sep items = t := by
  constructor
  · intro h
    rw [← h]
    exact areItems_splitAll sep t
  · intro h
    obtain ⟨hitems, hjoin⟩ := h
    rw [← hjoin]
    exact splitAll_join hsep hitems

end

/-- The closing brace as a separator: a stray one, one behind an opening brace, and one behind a
backslash; and a backslash at the end of the text. -/
theorem splitAll_eq_of_braces :
    let items := [[], "\x7ba\x7db".toList, "\\\x7dc\\".toList]
    AreItems '\x7d' items ∧
      splitAll '\x7d' "\x7d\x7ba\x7db\x7d\\\x7dc\\".toList = items := by
  intro items
  have hitems : AreItems '\x7d' items := ⟨by decide, by decide, by decide⟩
  exact ⟨hitems, (splitAll_eq_iff (by decide)).2 ⟨hitems, rfl⟩⟩

end PathOptions.Brace
