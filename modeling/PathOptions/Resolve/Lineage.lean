import PathOptions.Context
/-!
The parent of a file: the profile of a directory tree that holds the file. A description names a
tree by the mark `tree:`; of several trees around a file the deepest one counts, and of several
profiles of that tree the first.
-/

namespace PathOptions

/-- The mark before the directory in the description of a tree. -/
def treeMark : Text := ['t', 'r', 'e', 'e', ':']

/-- The directory of a tree, as the description writes it. -/
def Profile.treeDirectory? (profile : Profile) : Option Text :=
  match profile.description with
  | none => none
  | some description =>
    if treeMark.isPrefixOf description then some (description.drop treeMark.length) else none

/-- A parent profile and the path of the file below its tree. -/
structure Lineage where
  parent : Profile
  child : Text
  deriving DecidableEq, Repr

namespace Lineage

/-- Whether a path below a tree is shorter than that of the best parent so far. -/
def isBetter (best : Option Lineage) (child : Text) : Bool :=
  match best with
  | none => true
  | some lineage => child.length < lineage.child.length

/-- The better of the best parent so far and one more profile. -/
def consider (ctx : Context) (path : Text) (best : Option Lineage) (profile : Profile) :
    Logged (Option Lineage) := do
  match profile.treeDirectory? with
  | none => return best
  | some written =>
    let directory ← Path.expandHome ctx.sep ctx.home written
    Logged.tell (.treeTried profile.name directory)
    match ctx.below? path directory with
    | none => return best
    | some child =>
      Logged.tell .treeMatched
      if isBetter best child then return some ⟨profile, child⟩
      Logged.tell .treeNotBetter
      return best

/-- The parent of a path, if a tree holds it. -/
def find (ctx : Context) (path : Text) : Logged (Option Lineage) := do
  Logged.tell (.parentSearched path)
  ctx.profiles.foldlM (consider ctx path) none

end Lineage

end PathOptions
