import PathOptions.Config.Options
/-!
The profiles of a configuration, in the order in which they are written.
-/

namespace PathOptions.Config

def profilesKey : Text := "profiles".toList

def descriptionKey : Text := "profile-desc".toList

def optionsKey : Text := "options".toList

def readProfileEntries (name : Text) (entries : List (Scalar × Value)) :
    Except Error Profile := do
  refuseUnknown [descriptionKey, optionsKey] (.unknownProfileKeys name) entries
  let description ← match (Value.lookup entries descriptionKey).getD .null with
    | .scalar .null => Except.ok none
    | .scalar (.text t) => Except.ok (some t)
    | _ => throw (.descriptionNotText name)
  let options ← readOptions name ((Value.lookup entries optionsKey).getD .null)
  return ⟨name, description, options⟩

/-- Reads a profile; null is a profile without description and options. -/
def readProfile (key : Scalar) (body : Value) : Except Error Profile :=
  match body.exposed with
  | .scalar .null => readProfileEntries key.plain []
  | .map entries => readProfileEntries key.plain entries
  | _ => .error (.profileNotMapping key.plain)

/-- Reads the profiles of a configuration; there are none if the key is missing or null. -/
def readProfiles (configuration : List (Scalar × Value)) : Except Error (List Profile) :=
  match ((Value.lookup configuration profilesKey).getD (.map [])).exposed with
  | .scalar .null => .ok []
  | .map entries => entries.mapM fun (key, body) => readProfile key body
  | _ => .error .profilesNotMapping

end PathOptions.Config
