import PathOptions.Binary64.Shortest
import PathOptions.Text.Quoted
import PathOptions.Value.Basic
/-!
The written forms of values. A value by itself is written plainly; inside a list, a mapping or a
message it is written quoted, so that texts are told from other values.
-/

namespace PathOptions

/-- Exponents from -4 to 15 are written with zeros; other exponents have two digits at least. -/
def realLayout : Binary64.Layout := ⟨-4, 15, 2⟩

namespace Scalar

/-- The written form of a scalar by itself. -/
def plain : Scalar → Text
  | .null => ['N', 'o', 'n', 'e']
  | .bool b => if b then ['T', 'r', 'u', 'e'] else ['F', 'a', 'l', 's', 'e']
  | .int i => Text.decimal i
  | .real x => realLayout.text x
  | .text t => t
  | .date t => t
  | .other value => value.plain

/-- A date by its parts, without leading zeros. -/
def quotedDate (t : Text) : Text :=
  let number := fun piece => Text.decimal (Text.digitsValue piece)
  "datetime.date(".toList ++ (", ".toList.intercalate ((Text.pieces '-' t).map number)) ++ [')']

/-- The written form of a scalar inside other text. -/
def quoted : Scalar → Text
  | .text t => Text.quoted t
  | .date t => quotedDate t
  | .other value => value.quoted
  | s => s.plain

end Scalar

namespace Value

mutual

/-- The written form inside other text. -/
def quoted : Value → Text
  | .scalar s => s.quoted
  | .list items => '[' :: quotedItems items ++ [']']
  | .map entries => '{' :: quotedEntries entries ++ ['}']
  | .cyclic written _ => written

def quotedItems : List Value → Text
  | [] => []
  | [item] => quoted item
  | item :: next :: rest => quoted item ++ ',' :: ' ' :: quotedItems (next :: rest)

def quotedEntries : List (Scalar × Value) → Text
  | [] => []
  | [(key, value)] => key.quoted ++ ':' :: ' ' :: quoted value
  | (key, value) :: next :: rest =>
    key.quoted ++ ':' :: ' ' :: quoted value ++ ',' :: ' ' :: quotedEntries (next :: rest)

end

/-- The written form of a value by itself: a text as it is, anything else as inside other text. -/
def plain : Value → Text
  | .scalar s => s.plain
  | other => other.quoted

end Value

end PathOptions
