import PathOptions.Text.Basic
/-!
File systems as far as configuration depends on them: directories, files with a stamp that tells
when they last changed, and symbolic links. A path is walked name by name from the root or the
working directory; names are looked up in directories only, and links are followed on the way. The
system may refuse to look a name up in a directory, or to open a file.
-/

namespace PathOptions

/-- A place in a file system: the names that lead there from the root, without any link. -/
abbrev Location := List Text

def Location.path (location : Location) : Text := '/' :: Text.join '/' location

namespace FileSystem

/-- What the system says when it refuses something. -/
structure Refusal where
  number : Nat
  words : String
  deriving DecidableEq, Repr

namespace Refusal

def nameTooLong : Refusal := ⟨36, "File name too long"⟩

/-- Whether the system says that nothing is there. -/
def saysMissing (refusal : Refusal) : Bool := refusal.number == 2

end Refusal

end FileSystem

inductive Item where
  | file (bytes : List UInt8) (stamp : Int)
  | directory (stamp : Int)
  | link (target : Text)
  /-- A file that the system does not open. -/
  | sealed (refusal : FileSystem.Refusal) (stamp : Int)
  /-- A directory in which the system looks nothing up. -/
  | closed (refusal : FileSystem.Refusal) (stamp : Int)
  deriving DecidableEq, Repr

/-- A file system seen from a working directory. -/
structure FileSystem where
  items : List (Location × Item)
  workingDirectory : Location
  /-- The stamp that the next change gives. -/
  now : Int
  deriving Repr

namespace FileSystem

inductive Error where
  | notFound
  | notDirectory
  | tooManyLinks
  /-- The path holds the null character, which no name can. -/
  | nullCharacter
  | refused (refusal : Refusal)
  deriving DecidableEq, Repr

/-- What is at a location; the root is always a directory. -/
def item? (fs : FileSystem) (location : Location) : Option Item :=
  if location = [] then some (.directory 0)
  else (fs.items.find? (·.1 == location)).map (·.2)

def holdsDirectory (fs : FileSystem) (location : Location) : Bool :=
  match fs.item? location with
  | some (.directory _) | some (.closed _ _) => true
  | _ => false

/-- Where a path begins that is used at a location. -/
def origin (path : Text) (location : Location) : Location :=
  if path.head? = some '/' then [] else location

/-- The number of bytes that a text takes. -/
def size (t : Text) : Nat := t.foldr (fun c n => c.utf8Size + n) 0

/-- No name takes more bytes. -/
def nameBound : Nat := 255

/-- Every path takes fewer bytes. -/
def pathBound : Nat := 4096

/-- What the system says in place of looking a name up in a directory. -/
def refusal? (fs : FileSystem) (location : Location) (name : Text) : Option Refusal :=
  match fs.item? location with
  | some (.closed refusal _) => some refusal
  | _ => if nameBound < size name then some .nameTooLong else none

/-- Walks names from a location on, with the refusals that are met. At a link, `follow` gets the
location and the names that the link stands for, with those that are left. -/
def walkNames (fs : FileSystem) (refuse : Location → Text → Option Refusal)
    (follow : Location → List Text → Except Error Location) :
    Location → List Text → Except Error Location
  | location, [] => .ok location
  | location, name :: rest =>
    if !fs.holdsDirectory location then .error .notDirectory
    else if name = [] then fs.walkNames refuse follow location rest
    else
      match refuse location name with
      | some refusal => .error (.refused refusal)
      | none =>
        if name = ['.'] then fs.walkNames refuse follow location rest
        else if name = ['.', '.'] then fs.walkNames refuse follow location.dropLast rest
        else
          match fs.item? (location ++ [name]) with
          | none => .error .notFound
          | some (.link target) => follow (origin target location) (Text.pieces '/' target ++ rest)
          | some _ => fs.walkNames refuse follow (location ++ [name]) rest

/-- Walks names from a location on and follows less than a number of links. -/
def walk (fs : FileSystem) (refuse : Location → Text → Option Refusal) :
    (links : Nat) → Location → List Text → Except Error Location
  | 0 => fun _ _ => .error .tooManyLinks
  | links + 1 => fs.walkNames refuse (fs.walk refuse links)

/-- Links are followed below this number. -/
def linkBound : Nat := 41

/-- The location that a path leads to; the empty path leads nowhere. -/
def locate (fs : FileSystem) (path : Text) : Except Error Location :=
  if path.contains '\x00' then .error .nullCharacter
  else if path = [] then .error .notFound
  else if pathBound ≤ size path then .error (.refused .nameTooLong)
  else fs.walk fs.refusal? linkBound (origin path fs.workingDirectory) (Text.pieces '/' path)

def pathExists (fs : FileSystem) (path : Text) : Bool := (fs.locate path).toOption.isSome

def isDirectory (fs : FileSystem) (path : Text) : Bool :=
  (fs.locate path).toOption.any fs.holdsDirectory

/-- A path without idle parts: single slashes, none at the end and no names `.`, but exactly two
slashes at the beginning stay. -/
def normalForm (path : Text) : Text :=
  let names := (Text.pieces '/' path).filter fun name => name ≠ [] && name ≠ ['.']
  let root :=
    match (path.takeWhile (· == '/')).length with
    | 0 => []
    | 2 => ['/', '/']
    | _ => ['/']
  let written := root ++ Text.join '/' names
  if written = [] then ['.'] else written

end FileSystem

end PathOptions
