import PathOptions.Arguments
import PathOptions.CommandLine.Request
import PathOptions.Config.Context
import PathOptions.Resolve.File
/-!
What a command line does: expand a pattern, convert a glob, test a pattern or report the options
for a file, in this order if several are asked for. An action prints texts one after the other, and
the terminal may be unable to show one of them. A run is a function of the command line and of what
hosts it; it gives the exit status, what is printed and the journal.
-/

namespace PathOptions.CommandLine

structure Report where
  status : Nat
  output : Text
  deriving DecidableEq, Repr

inductive AbortReason where
  | configuration (failure : Config.Failure)
  | operand (error : Arguments.Error)
  /-- Not even the error could be shown. -/
  | unshown (fault : String)

def AbortReason.message : AbortReason → String
  | configuration failure => failure.message
  | operand error => error.message
  | unshown fault => fault

inductive Outcome where
  /-- With a report, and the journal as far as it is wanted. -/
  | reported (report : Report) (journal : Text)
  | refused (refusal : Refusal)
  /-- The run breaks off with what it has printed so far. -/
  | aborted (reason : AbortReason) (output : Text)

def unlines (lines : List Text) : Text := lines.flatMap (· ++ ['\n'])

/-! ## Printing -/

/-- What an action prints: texts, and in the end the exit status or an error. -/
structure Script where
  texts : List Text
  ending : Except String Nat

def Script.ofError (message : String) : Script := ⟨[], .error message⟩

structure Terminal where
  /-- What is wrong with a text that cannot be shown. -/
  fault? : Text → Option String

def errorLine (message : String) : Text := "Error: ".toList ++ message.toList

namespace Terminal

def all : Terminal := ⟨fun _ => none⟩

/-- The texts up to the first that cannot be shown, and what is wrong with that one. -/
def print (terminal : Terminal) : List Text → List Text × Option String
  | [] => ([], none)
  | t :: rest =>
    match terminal.fault? t with
    | some fault => ([], some fault)
    | none =>
      let (shown, fault?) := terminal.print rest
      (t :: shown, fault?)

/-- Reports an error after what is shown already. -/
def reportError (terminal : Terminal) (journal : Text) (shown : List Text) (message : String) :
    Outcome :=
  match terminal.fault? (errorLine message) with
  | none => .reported ⟨1, unlines (shown ++ [errorLine message])⟩ journal
  | some fault => .aborted (.unshown fault) (unlines shown)

/-- Prints the texts of a script. The first error ends it and is reported, and what is shown already
stays. -/
def perform (terminal : Terminal) (journal : Text) (script : Script) : Outcome :=
  match terminal.print script.texts, script.ending with
  | (shown, some fault), _ => terminal.reportError journal shown fault
  | (shown, none), .error message => terminal.reportError journal shown message
  | (shown, none), .ok status => .reported ⟨status, unlines shown⟩ journal

end Terminal

/-! ## The host -/

/-- What a run depends on apart from the command line. -/
structure Host where
  files : FileSystem
  environment : Text → Option Text
  terminal : Terminal
  reader : Config.Reader
  wildcards : Glob.Wildcards

/-- What is printed if nothing is asked for. -/
def usage : Text := "usage: treeprofiles".toList

/-! ## Actions -/

/-- The greatest limit; the least one that is read as a number of results is its negative less
one. -/
def maxLimit : Int := 9223372036854775807

/-- Why an expansion cannot end at a limit other than zero, if it cannot. The number before zero is
taken for a limit that is out of reach. -/
def limitFault? (limit : Int) : Option String :=
  let range := "must be None or an integer: 0 <= x <= sys.maxsize."
  if 0 ≤ limit ∧ limit ≤ maxLimit then none
  else if -maxLimit - 1 ≤ limit ∧ limit < -1 then some ("Indices for islice() " ++ range)
  else some ("Stop argument for islice() " ++ range)

/-- The script of an expansion, which ends at the limit if that is not zero. -/
def expansionScript (limit : Int) (pattern : Text) : Script :=
  if limit = 0 then ⟨Brace.expand pattern, .ok 0⟩
  else
    match limitFault? limit with
    | none => ⟨Brace.Cursor.take limit.toNat (Brace.cursor pattern), .ok 0⟩
    | some message => .ofError message

namespace Request

def sep? (request : Request) : Option Text := request.sep.bind nonEmpty?

def sepValue (request : Request) : Value := .text (request.sep?.getD Config.defaultSeparator)

/-- What is asked for in place of settings. -/
def overrides (request : Request) : Config.Overrides :=
  { matcher := request.dialect.map (.text ·.name), sep := request.sep?.map .text }

/-- The script of a conversion; a separator that is none is reported, a glob that is none breaks off
the run. -/
def regexScript (request : Request) (glob : Operand) : Except Arguments.Error Script :=
  match Arguments.translate request.sepValue glob.value with
  | .ok regex => .ok ⟨[regex], .ok 0⟩
  | .error (.matcher e) => .ok (.ofError e.message)
  | .error e => .error e

def matchScript (request : Request) (wildcards : Glob.Wildcards) (pattern candidate : Text) :
    Logged Script :=
  let name := Value.text (request.dialect.getD .builtin).name
  match Glob.Matcher.select wildcards name request.sepValue with
  | .error e => pure (.ofError e.message)
  | .ok matcher => do
    if ← matcher.describes pattern candidate then return ⟨["match".toList], .ok 0⟩
    return ⟨["no match".toList], .ok 1⟩

end Request

/-- The lines before the table of a resolution: the parent, and the path below its tree. -/
def headLines (resolution : Resolution) : List Text :=
  ["parent: ".toList ++ resolution.parent, "path: ".toList ++ resolution.child]

/-- The script of the options for a file. The table is made when the lines before it are printed. -/
def resolutionScript (path : Text) : Option Resolution → Script
  | none => ⟨["No profile applies to: ".toList ++ path], .ok 1⟩
  | some resolution =>
    match resolution.table.format with
    | .ok table => ⟨headLines resolution ++ [table], .ok 0⟩
    | .error e => ⟨headLines resolution, .error e.message⟩

/-- Whether a failure is reported; others break off the run. -/
def isReported : Config.Failure → Bool
  | .isDirectory _ | .unreachable _ .notDirectory | .unreachable _ .tooManyLinks => false
  | .unreachable _ (.refused refusal) => refusal.saysMissing
  | .document _ fault => !fault.isUnforeseen
  | .content fault => !fault.isUnforeseen
  | _ => true

def Request.context (request : Request) (host : Host) (configuration : Text) :
    Logged (Except Config.Failure Context) := do
  match (Config.Cache.empty.load host.reader host.files configuration).1 with
  | .error e => return .error e
  | .ok loaded =>
    Logged.tell (.configurationLoaded loaded.location.path)
    return Config.context host.wildcards host.files host.environment request.overrides
      loaded.configuration

/-- The paths of which the run depends on what is there, apart from the configuration file. -/
def Request.consulted (request : Request) (host : Host) : List Text :=
  match request.resolve, request.configuration with
  | some path, some configuration =>
    match (request.context host configuration).value with
    | .ok ctx => ctx.consulted path (request.workingDirectory.getD [])
    | .error _ => []
  | _, _ => []

/-- The script of the options for the file at a path, by a configuration file. -/
def Request.optionsScript (request : Request) (host : Host) (configuration path : Text) :
    Logged (Except Config.Failure Script) := do
  match ← request.context host configuration with
  | .error e => return .error e
  | .ok ctx =>
    let resolution ← ctx.resolve path (request.workingDirectory.getD [])
    return .ok (resolutionScript path resolution)

/-! ## The journal -/

def Request.leastLevel (request : Request) : Level :=
  match request.verbosity with
  | 0 => .warning
  | 1 => .info
  | _ => .debug

def journalLine (event : Event) : Text :=
  ("[treeprofiles." ++ event.source.name ++ "] " ++ event.level.name ++ ": "
    ++ event.message).toList

def Request.journal (request : Request) (events : List Event) : Text :=
  unlines ((events.filter (·.reaches request.leastLevel)).map journalLine)

/-! ## The run -/

inductive Action where
  | expand (pattern : Operand)
  | convert (glob : Operand)
  | test (pattern candidate : Text)
  | resolve (path : Text)
  deriving DecidableEq, Repr

/-- What is done for a request: the first action that is asked for. -/
def Request.action? (request : Request) : Option Action :=
  request.expand.map .expand
    <|> request.regex.map .convert
    <|> request.candidate.map (fun (pattern, candidate) => .test pattern candidate)
    <|> (request.resolve.bind nonEmpty?).map .resolve

def Request.perform (request : Request) (host : Host) : Outcome :=
  match request.action? with
  | none => .reported ⟨1, usage⟩ []
  | some (.expand pattern) =>
    match Arguments.text "pattern" pattern.value with
    | .ok t => host.terminal.perform [] (expansionScript request.limit t)
    | .error e => .aborted (.operand e) []
  | some (.convert glob) =>
    match request.regexScript glob with
    | .ok script => host.terminal.perform [] script
    | .error e => .aborted (.operand e) []
  | some (.test pattern candidate) =>
    let script := request.matchScript host.wildcards pattern candidate
    host.terminal.perform (request.journal script.events) script.value
  | some (.resolve path) =>
    match request.configuration.bind nonEmpty? with
    | none => .refused .badUsage
    | some configuration =>
      let script := request.optionsScript host configuration path
      let journal := request.journal script.events
      match script.value with
      | .ok found => host.terminal.perform journal found
      | .error e =>
        if isReported e then host.terminal.perform journal (.ofError e.message)
        else .aborted (.configuration e) []

def run (host : Host) (arguments : List Text) : Outcome :=
  match Request.read arguments with
  | .error refusal => .refused refusal
  | .ok request => request.perform host

end PathOptions.CommandLine
