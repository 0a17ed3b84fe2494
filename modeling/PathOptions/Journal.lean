import PathOptions.Text.Quoted
import PathOptions.Text.Numeral
/-!
The journal: what the program tells about its work, as events. A computation that keeps a journal
is a value with the events that led to it, in order; the journal never influences the value
(`value_bind`).
-/

namespace PathOptions

/-- How much an event matters, from least to most. -/
inductive Level where
  | debug
  | info
  | warning
  | error
  deriving DecidableEq, Repr

namespace Level

def rank : Level → Nat
  | .debug => 0
  | .info => 1
  | .warning => 2
  | .error => 3

def name : Level → String
  | .debug => "DEBUG"
  | .info => "INFO"
  | .warning => "WARNING"
  | .error => "ERROR"

end Level

inductive Source where
  | globs
  | loader
  | lineage
  deriving DecidableEq, Repr

def Source.name : Source → String
  | .globs => "globs"
  | .loader => "loader"
  | .lineage => "lineage"

inductive Event where
  | globConverted (glob regex : Text)
  | configurationLoaded (path : Text)
  | homeUnknown
  | parentSearched (path : Text)
  | treeTried (profile directory : Text)
  | treeMatched
  | treeNotBetter
  | inclusionTooDeep
  | profileEntered (profile : Text) (depth : Int)
  | profileUnknown (profile : Text)
  | profileIncluded (profile : Text)
  | optionLocked (key : Text)
  | optionSet (key value : Text)
  | descriptionTested (profile description : Text)
  | descriptionMissing (profile : Text)
  | stepChecked (step : Text)
  | profileApplied (profile : Text)
  | directoryConfigured
  | fileConfigured
  | directorySkipped
  | parentMissing
  deriving DecidableEq, Repr

namespace Event

def source : Event → Source
  | .globConverted .. => .globs
  | .configurationLoaded .. => .loader
  | _ => .lineage

def level : Event → Level
  | .inclusionTooDeep | .profileUnknown _ => .error
  | .homeUnknown | .descriptionMissing _ => .warning
  | .parentSearched _ | .optionLocked _ | .profileApplied _ | .directoryConfigured
  | .fileConfigured | .directorySkipped | .parentMissing => .info
  | _ => .debug

def message : Event → String
  | .globConverted glob regex =>
    "Converted wildcard pattern " ++ Text.str (Text.quoted glob) ++ " into regex "
      ++ Text.str (Text.quoted regex)
  | .configurationLoaded path => "Loaded profile configuration from " ++ Text.str path
  | .homeUnknown => "Failed to get home directory -- neither $HOME nor $USERPROFILE is set"
  | .parentSearched path => "Searching for parent profile of " ++ Text.str path
  | .treeTried profile directory =>
    "Trying " ++ Text.str profile ++ " (" ++ Text.str directory ++ ")"
  | .treeMatched => "Profile matches as a parent"
  | .treeNotBetter => "Match is not better than previous candidate"
  | .inclusionTooDeep => "Profile inclusion too deep."
  | .profileEntered profile depth =>
    "Locally applying profile " ++ Text.str (Text.quoted profile) ++ " (depth "
      ++ Text.str (Text.decimal depth) ++ ")"
  | .profileUnknown profile => "Unknown profile " ++ Text.str (Text.quoted profile) ++ "."
  | .profileIncluded profile => "Locally including profile " ++ Text.str (Text.quoted profile)
  | .optionLocked key =>
    "Option " ++ Text.str key ++ " was set on command-line -- leaving it as-is"
  | .optionSet key value =>
    "Locally setting " ++ Text.str key ++ " = " ++ Text.str (Text.quoted value)
  | .descriptionTested profile description =>
    "Testing against " ++ Text.str profile ++ " (" ++ Text.str (Text.quoted description) ++ ")"
  | .descriptionMissing profile =>
    "Profile " ++ Text.str profile ++ " is lacking profile-desc -- skipping"
  | .stepChecked step => "Checking for profiles matching " ++ Text.str (Text.quoted step)
  | .profileApplied profile => "Applying profile " ++ Text.str profile
  | .directoryConfigured => "directory-specific configuration file found -- quitting"
  | .fileConfigured => "file-specific configuration file found -- quitting"
  | .directorySkipped => "This is a directory -- skipping"
  | .parentMissing => "No parent profile found -- exiting"

/-- Whether an event is at least as important as a level. -/
def reaches (event : Event) (least : Level) : Bool := least.rank ≤ event.level.rank

end Event

/-- A value with the events that led to it, in order. -/
structure Logged (α : Type) where
  value : α
  events : List Event

namespace Logged

instance : Monad Logged where
  pure a := ⟨a, []⟩
  bind x f := ⟨(f x.value).value, x.events ++ (f x.value).events⟩

def tell (event : Event) : Logged Unit := ⟨(), [event]⟩

@[simp] theorem value_pure {α : Type} (a : α) : (pure a : Logged α).value = a := rfl

@[simp] theorem value_bind {α β : Type} (x : Logged α) (f : α → Logged β) :
    (x >>= f).value = (f x.value).value := rfl

@[simp] theorem events_pure {α : Type} (a : α) : (pure a : Logged α).events = [] := rfl

@[simp] theorem events_bind {α β : Type} (x : Logged α) (f : α → Logged β) :
    (x >>= f).events = x.events ++ (f x.value).events := rfl

instance : LawfulMonad Logged :=
  LawfulMonad.mk' Logged
    (fun x => by
      change (⟨x.value, x.events ++ []⟩ : Logged _) = x
      rw [List.append_nil])
    (fun _ _ => rfl)
    (fun x f g => by
      change (⟨_, (x.events ++ _) ++ _⟩ : Logged _) = ⟨_, x.events ++ (_ ++ _)⟩
      rw [List.append_assoc]
      rfl)

end Logged

end PathOptions
