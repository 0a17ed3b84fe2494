import PathOptions.Value.Written
/-!
What can be wrong with the contents of a configuration file.
-/

namespace PathOptions.Config

inductive Error where
  | notMapping (path : Text)
  | profilesNotMapping
  | profileNotMapping (profile : Text)
  | unknownProfileKeys (profile : Text) (keys : List Scalar)
  | descriptionNotText (profile : Text)
  | optionsNotCollection (profile : Text)
  | emptyOptionName (profile entry : Text)
  | invalidOption (profile : Text) (entry : Value)
  | settingsNotMapping
  | unknownSettings (keys : List Scalar)
  /-- Two unknown keys of different kinds, so that the unknown keys cannot be put in order. -/
  | incomparableKeys (one other : Scalar)
  | separatorNotSingle (given : Text)
  | notFlag (key : Text) (given : Value)
  | notList (key : Text)
  deriving Repr

/-- Whether reading does not expect the fault, so that it does not refuse the contents but breaks
off. -/
def Error.isUnforeseen : Error → Bool
  | .incomparableKeys .. => true
  | _ => false

def quotedKeys (keys : List Scalar) : String :=
  Text.str (Value.list (keys.map Value.scalar)).quoted

def Error.message : Error → String
  | .notMapping path => "'" ++ Text.str path ++ "' must contain a mapping at top level"
  | .profilesNotMapping => "'profiles' must be a mapping of name -> profile"
  | .profileNotMapping profile => "profile '" ++ Text.str profile ++ "' must be a mapping"
  | .unknownProfileKeys profile keys =>
    "profile '" ++ Text.str profile ++ "': unknown keys " ++ quotedKeys keys
  | .descriptionNotText profile =>
    "profile '" ++ Text.str profile ++ "': 'profile-desc' must be a string"
  | .optionsNotCollection profile =>
    "profile '" ++ Text.str profile ++ "': 'options' must be a list or a mapping"
  | .emptyOptionName profile entry =>
    "profile '" ++ Text.str profile ++ "': empty option name in " ++ Text.str (Text.quoted entry)
  | .invalidOption profile entry =>
    "profile '" ++ Text.str profile ++ "': invalid option entry " ++ Text.str entry.quoted
  | .settingsNotMapping => "'settings' must be a mapping"
  | .unknownSettings keys => "unknown settings " ++ quotedKeys keys
  | .incomparableKeys one other =>
    "'<' not supported between instances of '" ++ (Value.scalar other).typeName ++ "' and '"
      ++ (Value.scalar one).typeName ++ "'"
  | .separatorNotSingle given =>
    "'separator' must be a single character, got " ++ Text.str (Text.quoted given)
  | .notFlag key given =>
    "'" ++ Text.str key ++ "' must be yes/no or true/false, got " ++ Text.str given.quoted
  | .notList key => "'" ++ Text.str key ++ "' must be a list"

/-- The order of keys in messages: texts by code points, numbers by value. -/
def keyLe (a b : Scalar) : Bool :=
  match a, b with
  | .text s, .text t => Text.le s t
  | .date s, .date t => Text.le s t
  | .other x, .other y => Text.le x.rank y.rank
  | .real x, .real y => x.le y
  | .real x, other => x.leInt ((other.toInt?).getD 0)
  | other, .real y => y.geInt ((other.toInt?).getD 0)
  | a, b => (a.toInt?).getD 0 ≤ (b.toInt?).getD 0

/-- The kinds of keys. Only keys of one kind can be compared. -/
inductive KeyKind where
  | null
  | number
  | text
  | date
  | other (typeName : String)
  deriving DecidableEq, Repr

def keyKind : Scalar → KeyKind
  | .null => .null
  | .bool _ | .int _ | .real _ => .number
  | .text _ => .text
  | .date _ => .date
  | .other value => .other value.typeName

def unknownKeys (known : List Text) (entries : List (Scalar × Value)) : List Scalar :=
  (entries.map Prod.fst).filter fun key => !known.any fun t => key == .text t

/-- Refuses a mapping with unknown keys. The fault lists them in order, for which they must be of
one kind. -/
def refuseUnknown (known : List Text) (fault : List Scalar → Error)
    (entries : List (Scalar × Value)) : Except Error Unit :=
  match unknownKeys known entries with
  | [] => .ok ()
  | key :: rest =>
    match rest.find? fun other => keyKind other ≠ keyKind key with
    | some other => .error (.incomparableKeys key other)
    | none => .error (fault ((key :: rest).mergeSort keyLe))

end PathOptions.Config
