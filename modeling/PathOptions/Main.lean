import PathOptions.CommandLine.Run
import PathOptions.FileSystem.Change
import PathOptions.Glob.Segment
import PathOptions.Yaml.Document
/-!
The program. It looks at the configuration file and at the few paths that the answer depends on,
and leaves the rest to `CommandLine.run`.
-/

namespace PathOptions.Main

def locationOf (path : String) : Location := (Text.pieces '/' path.toList).filter (· ≠ [])

/-- What the system says, if it refuses something that is there. -/
def refusalOf? : IO.Error → Option FileSystem.Refusal
  | .permissionDenied _ number words => some ⟨number.toNat, words⟩
  | _ => none

/-- What is at a resolved path, without the contents of a file unless they are wanted. -/
def itemAt (contents : Bool) (path : String) : IO Item := do
  let place ← IO.FS.realPath path
  let changed := (← place.metadata).modified
  let stamp := changed.sec * 1000000000 + changed.nsec.toNat
  if ← place.isDir then return .directory stamp
  if !contents then return .file [] stamp
  try
    return .file (← IO.FS.readBinFile place).data.toList stamp
  catch e =>
    match refusalOf? e with
    | some refusal => return .sealed refusal stamp
    | none => throw e

/-- The resolved path of a path that leads somewhere; otherwise the refusal that is in the way, if
there is one. -/
def resolved (path : Text) : IO (Except (Option FileSystem.Refusal) String) := do
  try
    return .ok (← IO.FS.realPath (Text.str path)).toString
  catch e => return .error (refusalOf? e)

/-- Adds what is found along a path, as far as the path leads. -/
def observe (contents : Bool) (fs : FileSystem) (path : Text) : IO FileSystem := do
  let mut fs := fs
  let mut location := FileSystem.origin path fs.workingDirectory
  for beginning in (Path.steps ['/'] path).filter (· ≠ []) do
    match ← resolved beginning with
    | .error none => return fs
    | .error (some refusal) => return fs.replace location (.closed refusal 0)
    | .ok place =>
      let next := locationOf place
      let name := (Path.splitLast ['/'] beginning).2
      let isName := name ≠ [] && name ≠ ['.'] && name ≠ ['.', '.']
      if isName && next ≠ location ++ [name] then
        fs := fs.replace (location ++ [name]) (.link place.toList)
      fs := (fs.makeDirectories [] next).1.replace next (← itemAt contents place)
      location := next
  return fs

/-- The host as far as a request depends on it. -/
def observeFor (request : CommandLine.Request) (environment : Text → Option Text) :
    IO CommandLine.Host := do
  let workingDirectory := locationOf (← IO.currentDir).toString
  let empty : FileSystem := ⟨[], workingDirectory, 0⟩
  let mut fs := (empty.makeDirectories [] workingDirectory).1
  if let some configuration := request.configuration then
    fs ← observe true fs (FileSystem.normalForm configuration)
  let host : CommandLine.Host := ⟨fs, environment, .all, Yaml.read, Glob.Segment.isMatch⟩
  for path in request.consulted host do
    fs ← observe false fs path
  return { host with files := fs }

def finish : CommandLine.Outcome → IO UInt32
  | .reported report journal => do
    IO.eprint (Text.str journal)
    IO.print (Text.str report.output)
    return report.status.toUInt32
  | .refused .helpWanted => do
    IO.println (Text.str CommandLine.usage)
    return 0
  | .refused .badUsage => do
    IO.eprintln (Text.str CommandLine.usage)
    return 2
  | .aborted reason output => do
    IO.print (Text.str output)
    IO.eprintln reason.message
    return 1

end PathOptions.Main

open PathOptions in
def main (arguments : List String) : IO UInt32 := do
  let words := arguments.map String.toList
  let home ← IO.getEnv "HOME"
  let profile ← IO.getEnv "USERPROFILE"
  let environment := fun (name : Text) =>
    if name = "HOME".toList then home.map String.toList
    else if name = "USERPROFILE".toList then profile.map String.toList
    else none
  match CommandLine.Request.read words with
  | .error refusal => Main.finish (.refused refusal)
  | .ok request =>
    Main.finish (request.perform (← Main.observeFor request environment))
