import PathOptions.Proofs.Path.Below
/-!
The folder of a path, which ends with its last separator, and the file name behind it. Cutting a
path drops that separator (`splitLast_eq`), and joining a name to what comes before it puts the name
into the folder again, except that a name joined to nothing stays alone: beside a path directly in
the root it is a name in the working directory (`join_splitLast`).
-/

namespace PathOptions

namespace Text

variable {s : Char} {name : Text}

theorem cutLast?_of_not_mem (h : s ∉ name) : cutLast? [s] name = none := by
  induction name with
  | nil => rfl
  | cons c cs ih =>
    rw [List.mem_cons, not_or] at h
    simp [cutLast?, ih h.2, h.1]

theorem cutLast?_append (h : s ∉ name) (dir : Text) :
    cutLast? [s] (dir ++ s :: name) = some (dir, name) := by
  induction dir with
  | nil => simp [cutLast?, cutLast?_of_not_mem h]
  | cons c cs ih => rw [List.cons_append, cutLast?, ih]

theorem prefix_of_cutLast? {sep path left right : Text}
    (h : cutLast? sep path = some (left, right)) : left <+: path := by
  induction path generalizing left with
  | nil => cases h
  | cons c cs ih =>
    rw [cutLast?] at h
    split at h
    · rename_i front back hcut
      obtain ⟨rfl, rfl⟩ := Prod.mk.inj (Option.some.inj h)
      exact List.cons_prefix_cons.2 ⟨rfl, ih hcut⟩
    · split at h
      · obtain ⟨rfl, -⟩ := Prod.mk.inj (Option.some.inj h)
        exact List.nil_prefix
      · cases h

end Text

namespace Path

/-- The part of a path up to its last separator, this one included. -/
def folder (s : Char) (path : Text) : Text := path.rdropWhile (· ≠ s)

/-- The part of a path behind its last separator. -/
def fileName (s : Char) (path : Text) : Text := path.rtakeWhile (· ≠ s)

/-- Where the configuration files beside a path are looked for. -/
def searchedFolder (s : Char) (path : Text) : Text :=
  if folder s path = [s] then [] else folder s path

section

variable {s : Char} {path name : Text}

theorem folder_append_fileName (s : Char) (path : Text) :
    folder s path ++ fileName s path = path :=
  List.rdropWhile_append_rtakeWhile

theorem not_mem_fileName (s : Char) (path : Text) : s ∉ fileName s path := by
  intro h
  simpa using List.mem_rtakeWhile_imp h

theorem folder_eq_nil_or (s : Char) (path : Text) :
    folder s path = [] ∨ ∃ dir, folder s path = dir ++ [s] := by
  by_cases h : folder s path = []
  · exact .inl h
  · right
    have hlast : ¬ decide ((folder s path).getLast h ≠ s) = true :=
      List.rdropWhile_last_not _ path h
    have hs : (folder s path).getLast h = s := by simpa using hlast
    exact List.getLast?_eq_some_iff.1 (by rw [List.getLast?_eq_some_getLast h, hs])

theorem splitLast_eq (s : Char) (path : Text) :
    splitLast [s] path = ((folder s path).dropLast, fileName s path) := by
  have hname := not_mem_fileName s path
  have hcut : Text.cutLast? [s] path = Text.cutLast? [s] (folder s path ++ fileName s path) := by
    rw [folder_append_fileName]
  rcases folder_eq_nil_or s path with h | ⟨dir, h⟩
  · have hwhole : fileName s path = path := by
      have := folder_append_fileName s path
      rwa [h] at this
    rw [splitLast, hcut, h, List.nil_append, Text.cutLast?_of_not_mem hname, hwhole]
    rfl
  · rw [splitLast, hcut, h, List.append_assoc, List.singleton_append, Text.cutLast?_append hname,
      List.dropLast_concat]
    rfl

/-- A file beside a path: in the folder of the path unless that is the root. -/
theorem join_splitLast (hsingle : ¬ [s, s] <:+: path) (hname : name.head? ≠ some s) :
    join [s] (splitLast [s] path).1 name = searchedFolder s path ++ name := by
  rw [splitLast_eq]
  dsimp only
  rcases folder_eq_nil_or s path with h | ⟨dir, h⟩
  · rw [searchedFolder, h]
    simp [join]
  · rw [searchedFolder, h, List.dropLast_concat]
    by_cases hdir : dir = []
    · simp [join, hdir]
    · have hends : Text.trimEnd [s] dir = dir := by
        refine Text.trimEnd_of_getLast?_ne ?_
        intro hlast
        obtain ⟨front, rfl⟩ := List.getLast?_eq_some_iff.1 hlast
        -- the folder would end with two separators
        apply hsingle
        have hpath := folder_append_fileName s path
        rw [h] at hpath
        exact ⟨front, fileName s path, by simpa using hpath⟩
      have hroot : dir ++ [s] ≠ [s] := by simpa using hdir
      rw [join_of_relative hdir hname, hends, if_neg hroot, List.append_assoc,
        List.singleton_append]

/-- The directory of a path consists of characters of the path, or it is `.`. -/
theorem mem_directory {sep : Text} {c : Char} (h : c ∈ directory sep path) :
    c ∈ path ∨ c = '.' := by
  have hhere : c ∈ here → c ∈ path ∨ c = '.' := fun hc => .inr (List.mem_singleton.1 hc)
  unfold directory at h
  split at h
  · exact hhere h
  · rename_i dir _ hcut
    dsimp only at h
    split at h
    · exact hhere h
    · have hdir : c ∈ dir := (List.rdropWhile_prefix _ dir).subset h
      exact .inl ((Text.prefix_of_cutLast? hcut).subset hdir)

end

end Path

end PathOptions
