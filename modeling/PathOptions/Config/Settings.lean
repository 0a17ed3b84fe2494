import PathOptions.Config.Error
/-!
The settings of a configuration, checked one by one. A setting that is not written stays unset.
-/

namespace PathOptions.Config

structure Settings where
  matcher : Option Text := none
  sep : Option Char := none
  useFileConfiguration : Option Bool := none
  home : Option Text := none
  locked : Option (List Text) := none
  configurationDirectories : Option (List Text) := none
  deriving DecidableEq, Repr

namespace Settings

def sectionKey : Text := "settings".toList

def matcherKey : Text := "matcher".toList

def separatorKey : Text := "separator".toList

def fileConfigurationKey : Text := "use-filedir-conf".toList

def homeKey : Text := "home".toList

def lockedKey : Text := "locked".toList

def directoriesKey : Text := "config-dirs".toList

def knownKeys : List Text :=
  [matcherKey, separatorKey, fileConfigurationKey, lockedKey, homeKey, directoriesKey]

/-- Reads a truth value, or one of four words for it in any case. -/
def readFlag (key : Text) (value : Value) : Except Error Bool :=
  match value with
  | .scalar (.bool b) => .ok b
  | .scalar (.text t) =>
    let word := t.map Char.toLower
    if word = "yes".toList || word = "true".toList then .ok true
    else if word = "no".toList || word = "false".toList then .ok false
    else .error (.notFlag key value)
  | _ => .error (.notFlag key value)

/-- Reads a separator, which must be one character as text. -/
def readSeparator (value : Value) : Except Error Char :=
  match value.plain with
  | [c] => .ok c
  | t => .error (.separatorNotSingle t)

/-- Reads a list of texts; a value that says nothing is the empty list. -/
def readTexts (key : Text) (value : Value) : Except Error (List Text) :=
  if value.isBlank then .ok []
  else
    match value.exposed with
    | .list items => .ok (items.map Value.plain)
    | _ => .error (.notList key)

def ofEntries (entries : List (Scalar × Value)) : Except Error Settings := do
  refuseUnknown knownKeys .unknownSettings entries
  let entry := Value.lookup entries
  return {
    matcher := (entry matcherKey).map Value.plain
    sep := ← (entry separatorKey).mapM readSeparator
    useFileConfiguration := ← (entry fileConfigurationKey).mapM (readFlag fileConfigurationKey)
    home := (entry homeKey).map Value.plain
    locked := ← (entry lockedKey).mapM (readTexts lockedKey)
    configurationDirectories := ← (entry directoriesKey).mapM (readTexts directoriesKey) }

/-- Reads the settings of a configuration; a section that says nothing is empty. -/
def read (configuration : List (Scalar × Value)) : Except Error Settings :=
  let value := (Value.lookup configuration sectionKey).getD .null
  if value.isBlank then .ok {}
  else
    match value.exposed with
    | .map entries => ofEntries entries
    | _ => .error .settingsNotMapping

end Settings

end PathOptions.Config
