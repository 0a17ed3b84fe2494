import PathOptions.CommandLine.Run
/-!
What a terminal shows of a script, and of the report on the options for a file. The report comes in
three texts: the parent, the path below its tree and the table. Nothing of it is shown if already
the first one cannot be; if a later one cannot, or if the table is too long, then the texts before
it are shown and an error follows them (`CutShort`).
-/

namespace PathOptions.CommandLine

/-! ## Lines -/

namespace Terminal

variable {terminal : Terminal} {texts : List Text}

theorem perform_ofError (journal : Text) (message : String) :
    terminal.perform journal (.ofError message) = terminal.reportError journal [] message := rfl

end Terminal

/-! ## Reports on the options for a file -/

section

variable {terminal : Terminal} {path : Text} {answer : Except Config.Failure (Option Resolution)}

end

end PathOptions.CommandLine
