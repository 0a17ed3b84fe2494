import PathOptions.FileSystem.Basic
/-!
Changes of a file system. A change gets a stamp that is later than those of earlier changes, unless
it brings its own; a directory changes when a name is added to it or taken from it. Changes are made
by others, whom the system refuses nothing.
-/

namespace PathOptions.FileSystem

def replace (fs : FileSystem) (location : Location) (item : Item) : FileSystem :=
  { fs with items := (location, item) :: fs.items.filter (·.1 != location) }

/-- Gives what is at a location a stamp, if it bears one. -/
def stamp (fs : FileSystem) (location : Location) (stamp : Int) : FileSystem :=
  match fs.item? location with
  | some (.file bytes _) => fs.replace location (.file bytes stamp)
  | some (.directory _) => fs.replace location (.directory stamp)
  | some (.sealed refusal _) => fs.replace location (.sealed refusal stamp)
  | some (.closed refusal _) => fs.replace location (.closed refusal stamp)
  | some (.link _) | none => fs

def stampDirectory (fs : FileSystem) (location : Location) : FileSystem :=
  if fs.holdsDirectory location then fs.stamp location fs.now else fs

/-- Puts an item at a location, which changes the directory if the name is new there. -/
def put (fs : FileSystem) (location : Location) (item : Item) : FileSystem :=
  let known := (fs.item? location).isSome
  let changed := fs.replace location item
  if known then changed else changed.stampDirectory location.dropLast

def walkFreely (fs : FileSystem) : Location → List Text → Except Error Location :=
  fs.walk (fun _ _ => none) linkBound

/-- Makes the directories that are missing along names and gives the location of the last one. -/
def makeDirectories (fs : FileSystem) (location : Location) : List Text → FileSystem × Location
  | [] => (fs, location)
  | name :: rest =>
    match fs.walkFreely location [name] with
    | .ok next => makeDirectories fs next rest
    | .error _ =>
      let next := location ++ [name]
      makeDirectories (fs.put next (.directory fs.now)) next rest

/-- The location that a path used at a location ends in, if the directory of that is there. A link
in the last place is not followed. -/
def place? (fs : FileSystem) (location : Location) (path : Text) : Option Location :=
  let names := Text.pieces '/' path
  let directory := fs.walkFreely (origin path location) names.dropLast
  directory.toOption.map (· ++ names.getLast?.toList)

/-- As `place?` at the working directory, but missing directories are made. -/
def prepare (fs : FileSystem) (path : Text) : FileSystem × Location :=
  let names := Text.pieces '/' path
  let (fs, directory) := fs.makeDirectories (origin path fs.workingDirectory) names.dropLast
  (fs, directory ++ names.getLast?.toList)

/-- The location that a text at a location is written to: links are followed even if nothing is
behind them yet. -/
def destination (fs : FileSystem) : (links : Nat) → Location → Location
  | 0, location => location
  | links + 1, location =>
    match fs.item? location with
    | some (.link target) =>
      match fs.place? location.dropLast target with
      | some next => destination fs links next
      | none => location
    | _ => location

def remove (fs : FileSystem) (location : Location) : FileSystem :=
  let kept := fs.items.filter fun (other, _) => !location.isPrefixOf other
  { fs with items := kept }.stampDirectory location.dropLast

inductive Change where
  /-- Writes a whole file; without a stamp it gets that of the change. A file that is sealed stays
  so. -/
  | write (path : Text) (bytes : List UInt8) (stamp : Option Int)
  | touch (path : Text) (stamp : Int)
  | makeDirectory (path : Text)
  | delete (path : Text)
  | link (path target : Text)
  deriving DecidableEq, Repr

/-- Makes a change; where a path leads nowhere, nothing is touched or deleted. -/
def perform (fs : FileSystem) : Change → FileSystem
  | .write path bytes stamp =>
    let (fs, location) := fs.prepare path
    let destination := fs.destination linkBound location
    match fs.item? destination with
    | some (.sealed _ _) => fs.stamp destination (stamp.getD fs.now)
    | _ => fs.put destination (.file bytes (stamp.getD fs.now))
  | .touch path stamp =>
    if path = [] then fs
    else
      match fs.walkFreely (origin path fs.workingDirectory) (Text.pieces '/' path) with
      | .error _ => fs
      | .ok location => fs.stamp location stamp
  | .makeDirectory path =>
    (fs.makeDirectories (origin path fs.workingDirectory) (Text.pieces '/' path)).1
  | .delete path =>
    match fs.place? fs.workingDirectory path with
    | some location => fs.remove location
    | none => fs
  | .link path target =>
    let (fs, location) := fs.prepare path
    fs.put location (.link target)

/-- Makes a change and lets time pass. -/
def apply (fs : FileSystem) (change : Change) : FileSystem :=
  { fs.perform change with now := fs.now + 1 }

end PathOptions.FileSystem
