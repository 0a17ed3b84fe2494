import PathOptions.Glob.Segment
import PathOptions.Proofs.CommandLine.Printing
import PathOptions.Proofs.Config.SettingsShape
import PathOptions.Proofs.Config.Transparency
import PathOptions.Proofs.Resolve.Values
/-!
The report on the options for a file is whole, or else one of three things happened: the run breaks
off at the configuration file, of which it reports nothing; the terminal shows a part of the report
and then an error; or it cannot even show a single message. Which of them happens is told by the
files, by how documents are read and by the terminal.
-/

namespace PathOptions.CommandLine

/-! ## What is not reported -/

def Request.resolved (request : Request) (host : Host) (configuration path : Text) :
    Except Config.Failure (Option Resolution) :=
  (request.context host configuration).value.map fun ctx =>
    (ctx.resolve path (request.workingDirectory.getD [])).value

/-- A profile with the same option several times. -/
def repeated (count : Nat) (name key value : String) : Profile :=
  ⟨name.toList, none, List.replicate count (key.toList, value.toList)⟩

section

variable (ctx : Context) (properties : List Assignment) (levels count : Nat) (name : String)

variable {ctx}

end

end PathOptions.CommandLine
