import PathOptions.Journal
/-!
Paths as texts with a separator: joining, the part of a path below a directory, the steps that
lead to a path, and the home directory. The separator is a text, mostly of one character; at the
end of a directory every character of it is idle. Nothing here looks at a file system.
-/

namespace PathOptions.Path

/-- A path seen from a base directory; a path that begins with the separator stays as it is. -/
def join (sep base path : Text) : Text :=
  if base = [] ∨ sep.isPrefixOf path then path
  else Text.trimEnd sep base ++ sep ++ path

/-- What a path itself is called, seen from itself. -/
def here : Text := ['.']

/-- The rest of a path behind a directory and one character of the separator, and `.` for the
directory itself; `none` if the path is not located there. -/
def below? (sep path directory : Text) : Option Text :=
  let base := Text.trimEnd sep directory
  if path = directory ∨ (base ≠ [] ∧ path = base) then some here
  else if (base ++ sep).isPrefixOf path then some (path.drop (base.length + 1))
  else none

/-- As `below?`, both paths being resolved first; what cannot be resolved is nowhere. -/
def resolvedBelow? (sep : Text) (realPath : Text → Option Text) (path directory : Text) :
    Option Text :=
  match realPath path, realPath directory with
  | some p, some d => below? sep p d
  | _, _ => none

/-- The beginnings of a path that end before a separator, shortest first, and the path. -/
def steps (sep : Text) : Text → List Text
  | [] => if sep = [] then [[], []] else [[]]
  | c :: cs =>
    let longer := (steps sep cs).map (c :: ·)
    if sep.isPrefixOf (c :: cs) then [] :: longer else longer

/-- The directory of a path without the separators at its end, and `.` if nothing is left. -/
def directory (sep path : Text) : Text :=
  match Text.cutLast? sep path with
  | none => here
  | some (dir, _) =>
    let trimmed := Text.trimEnd sep dir
    if trimmed = [] then here else trimmed

/-- The directory and the file name of a path; the directory is empty if there is no separator. -/
def splitLast (sep path : Text) : Text × Text := (Text.cutLast? sep path).getD ([], path)

/-- The home directory that an environment gives: the first of two variables that is not empty. -/
def home? (lookup : Text → Option Text) : Option Text :=
  let given := fun name => (lookup name).filter (· ≠ [])
  given "HOME".toList <|> given "USERPROFILE".toList

/-- Puts the home directory for a tilde before a separator. An unknown home is reported and leaves
the path as it is. -/
def expandHome (sep : Text) (home : Option Text) (path : Text) : Logged Text :=
  match path with
  | '~' :: rest =>
    if sep.isPrefixOf rest then
      match home.filter (· ≠ []) with
      | some dir => pure (dir ++ rest)
      | none => do
        Logged.tell .homeUnknown
        return path
    else pure path
  | _ => pure path

end PathOptions.Path
