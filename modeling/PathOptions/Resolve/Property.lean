import PathOptions.Context
/-!
Properties of the file at hand that option values may refer to.
-/

namespace PathOptions.Property

def reference (name : Text) : Text :=
  ['$', '\x7b', 't', 'r', 'e', 'e', '-', 'p', 'r', 'o', 'f', 'i', 'l', 'e', 's', '-'] ++ name
    ++ ['\x7d']

/-- Replaces the references to properties, one property after the other. -/
def substitute (properties : List Assignment) (value : Text) : Text :=
  properties.foldl (fun t (name, text) => Text.replaceAll (reference name) text t) value

/-- The properties of a file: its parent, its path below the tree and the directory of that. -/
def ofChild (sep parent child : Text) : List Assignment :=
  [("parent".toList, parent), ("path".toList, child),
   ("directory".toList, Path.directory sep child)]

end PathOptions.Property
