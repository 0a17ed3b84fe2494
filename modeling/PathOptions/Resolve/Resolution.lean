import PathOptions.Profile
import PathOptions.Table
/-!
The outcome for one file: which profiles were applied and every assignment that they made.
-/

namespace PathOptions

structure Entry where
  profile : Text
  key : Text
  value : Text
  deriving DecidableEq, Repr

/-- The profiles applied to a file and their assignments, in order. -/
structure Resolution where
  parent : Text
  child : Text
  properties : List Assignment
  applied : List Text
  entries : List Entry
  deriving DecidableEq, Repr

namespace Resolution

def start (parent child : Text) (properties : List Assignment) : Resolution :=
  ⟨parent, child, properties, [], []⟩

def add (resolution : Resolution) (profile : Text) (assignments : List Assignment) : Resolution :=
  { resolution with
    applied := resolution.applied ++ [profile]
    entries := resolution.entries ++ assignments.map fun (key, value) => ⟨profile, key, value⟩ }

def options (resolution : Resolution) : List Assignment :=
  resolution.entries.map fun entry => (entry.key, entry.value)

/-- The final value of each option. -/
def effective (resolution : Resolution) : List Assignment :=
  Assignment.effective resolution.options

def table (resolution : Resolution) : Table :=
  { columns := [.text "profile".toList, .text "option".toList, .text "value".toList]
    rows := resolution.entries.map fun entry =>
      [.text entry.profile, .text entry.key, .text entry.value] }

end Resolution

end PathOptions
