import PathOptions.Config.Error
import PathOptions.Profile
import PathOptions.Text.Blank
/-!
The three ways to write the options of a profile: a list of texts `key=value`, a list of mappings
with one entry each, or one mapping. They can be mixed in a list.
-/

namespace PathOptions.Config

/-- The text of an option's value: truth values as `yes` and `no`, null as the empty text. -/
def optionText : Value → Text
  | .scalar (.bool true) => ['y', 'e', 's']
  | .scalar (.bool false) => ['n', 'o']
  | .scalar .null => []
  | value => value.plain

/-- Reads one entry of a list of options. A text without an equals sign means `yes`. -/
def readOption (profile : Text) (entry : Value) : Except Error Assignment :=
  match entry.exposed with
  | .scalar (.text t) =>
    let (left, right) := Text.cutFirst '=' t
    let key := Text.trim left
    if key = [] then .error (.emptyOptionName profile t)
    else .ok (key, right.getD ['y', 'e', 's'])
  | .map [(key, value)] => .ok (key.plain, optionText value)
  | _ => .error (.invalidOption profile entry)

def readOptions (profile : Text) (options : Value) : Except Error (List Assignment) :=
  match options.exposed with
  | .scalar .null => .ok []
  | .map entries => .ok (entries.map fun (key, value) => (key.plain, optionText value))
  | .list items => items.mapM (readOption profile)
  | _ => .error (.optionsNotCollection profile)

end PathOptions.Config
