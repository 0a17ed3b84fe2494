import PathOptions.Config.Error
import PathOptions.Config.Reader
import PathOptions.FileSystem.Basic
import PathOptions.Glob.Matcher
/-!
Reading configuration files, and a cache for what was read. How documents are read is left open. The
cache knows a file by its location and believes in it as long as the file bears the stamp that it
had when it was read; what cannot be read leaves the cache alone.
-/

namespace PathOptions.Config

abbrev Configuration := List (Scalar × Value)

inductive Failure where
  | unreachable (path : Text) (error : FileSystem.Error)
  | isDirectory (path : Text)
  | document (path : Text) (fault : DocumentFault)
  | content (error : Error)
  | matcher (error : Glob.Matcher.Error)

def Failure.message : Failure → String
  | .unreachable path .notFound =>
    "[Errno 2] No such file or directory: " ++ Text.str (Text.quoted path)
  | .unreachable path .notDirectory =>
    "[Errno 20] Not a directory: " ++ Text.str (Text.quoted path)
  | .unreachable path .tooManyLinks =>
    "[Errno 40] Too many levels of symbolic links: " ++ Text.str (Text.quoted path)
  | .unreachable _ .nullCharacter => "embedded null byte"
  | .unreachable path (.refused refusal) =>
    "[Errno " ++ toString refusal.number ++ "] " ++ refusal.words ++ ": "
      ++ Text.str (Text.quoted path)
  | .isDirectory path => "[Errno 21] Is a directory: " ++ Text.str (Text.quoted path)
  | .document path fault => fault.message path
  | .content error => error.message
  | .matcher error => error.message

/-- Reads the bytes of the configuration file with a path; an empty document is an empty
configuration. -/
def readBytes (reader : Reader) (path : Text) (bytes : List UInt8) :
    Except Failure Configuration :=
  match reader bytes with
  | .error fault => .error (.document path fault)
  | .ok value =>
    match value.exposed with
    | .scalar .null => .ok []
    | .map entries => .ok entries
    | _ => .error (.content (.notMapping path))

def readItem (reader : Reader) (path : Text) : Item → Except Failure Configuration
  | .file bytes _ => readBytes reader path bytes
  | .sealed refusal _ => .error (.unreachable path (.refused refusal))
  | .directory _ | .closed _ _ => .error (.isDirectory path)
  | .link _ => .error (.unreachable path .notFound)

def stampOf : Item → Int
  | .file _ stamp | .directory stamp | .sealed _ stamp | .closed _ stamp => stamp
  | .link _ => 0

/-- A configuration with its place, and whether it was read for this answer. -/
structure Loaded where
  configuration : Configuration
  location : Location
  fresh : Bool
  deriving Repr

/-- The configurations read so far, with the stamp that the file at the location had. -/
structure Cache where
  entries : List (Location × Int × Configuration)
  deriving Repr

namespace Cache

def empty : Cache := ⟨[]⟩

/-- The configuration of a location if it was read under a stamp. -/
def find? (cache : Cache) (location : Location) (stamp : Int) : Option Configuration :=
  match cache.entries.find? (·.1 == location) with
  | some (_, known, configuration) => if known = stamp then some configuration else none
  | none => none

def put (cache : Cache) (location : Location) (stamp : Int) (configuration : Configuration) :
    Cache :=
  ⟨(location, stamp, configuration) :: cache.entries.filter (·.1 != location)⟩

/-- The configuration that a path leads to, and the cache afterwards. -/
def load (cache : Cache) (reader : Reader) (fs : FileSystem) (path : Text) :
    Except Failure Loaded × Cache :=
  let written := FileSystem.normalForm path
  match fs.locate written with
  | .error e => (.error (.unreachable written e), cache)
  | .ok location =>
    match fs.item? location with
    | none => (.error (.unreachable written .notFound), cache)
    | some item =>
      match cache.find? location (stampOf item) with
      | some configuration => (.ok ⟨configuration, location, false⟩, cache)
      | none =>
        match readItem reader written item with
        | .error e => (.error e, cache)
        | .ok configuration =>
          (.ok ⟨configuration, location, true⟩, cache.put location (stampOf item) configuration)

end Cache

end PathOptions.Config
