import PathOptions.Text.Basic
/-!
Profiles: named lists of option assignments with an optional description of the files they are
meant for.
-/

namespace PathOptions

abbrev Assignment := Text × Text

namespace Assignment

/-- Puts an assignment into a table: a key that is there keeps its place and gets the new value. -/
def put (table : List Assignment) (key value : Text) : List Assignment :=
  match table with
  | [] => [(key, value)]
  | (k, v) :: rest => if k = key then (k, value) :: rest else (k, v) :: put rest key value

/-- The last value of each key, in the order of the first assignments. -/
def effective (assignments : List Assignment) : List Assignment :=
  assignments.foldl (fun table (key, value) => put table key value) []

end Assignment

structure Profile where
  name : Text
  description : Option Text
  options : List Assignment
  deriving DecidableEq, Repr

def Profile.find? (profiles : List Profile) (name : Text) : Option Profile :=
  List.find? (fun profile => profile.name == name) profiles

end PathOptions
