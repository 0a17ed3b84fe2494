import PathOptions.Glob.Matcher
import PathOptions.Text.Numeral
/-!
The options of the command line. An option has a long name, which may be cut short where it stays
unambiguous, and mostly a short one; short names can be written together, and an argument may be
written together with its option. What is no option and no argument of one is refused. Two dashes
that are written together with an option take the place of an argument and are none.
-/

namespace PathOptions.CommandLine

/-- What an option is about. -/
inductive Operand where
  | text (t : Text)
  /-- The option was given without an argument. -/
  | missing
  deriving DecidableEq, Repr

/-- An operand as a value; a missing one is the empty list of arguments. -/
def Operand.value : Operand → Value
  | text t => .text t
  | missing => .list []

structure Request where
  expand : Option Operand := none
  /-- How many expansions are printed; zero is no limit. -/
  limit : Int := 0
  regex : Option Operand := none
  /-- A pattern and a candidate for it. -/
  candidate : Option (Text × Text) := none
  resolve : Option Text := none
  configuration : Option Text := none
  workingDirectory : Option Text := none
  dialect : Option Glob.Dialect := none
  sep : Option Text := none
  verbosity : Nat := 0
  deriving DecidableEq, Repr

inductive Refusal where
  | badUsage
  | helpWanted
  deriving DecidableEq, Repr

inductive Switch where
  | help
  | expand
  | limit
  | regex
  | candidate
  | resolve
  | configuration
  | workingDirectory
  | matcher
  | separator
  | verbose
  deriving DecidableEq, Repr

namespace Switch

def all : List Switch :=
  [help, expand, limit, regex, candidate, resolve, configuration, workingDirectory, matcher,
    separator, verbose]

/-- The long name of an option, without dashes. -/
def longName : Switch → Text
  | help => "help".toList
  | expand => "expand".toList
  | limit => "limit".toList
  | regex => "regex".toList
  | candidate => "match".toList
  | resolve => "resolve".toList
  | configuration => "config".toList
  | workingDirectory => "cwd".toList
  | matcher => "matcher".toList
  | separator => "sep".toList
  | verbose => "verbose".toList

def shortName? : Switch → Option Char
  | help => some 'h'
  | expand => some 'e'
  | regex => some 'r'
  | candidate => some 'm'
  | configuration => some 'c'
  | verbose => some 'v'
  | _ => none

def arity : Switch → Nat
  | help | verbose => 0
  | candidate => 2
  | _ => 1

def ofShort? (name : Char) : Option Switch := all.find? fun switch => switch.shortName? = some name

/-- The options whose long name is, or begins with, a text. -/
def ofLong (name : Text) : List Switch :=
  match all.find? fun switch => switch.longName = name with
  | some switch => [switch]
  | none => all.filter fun switch => name.isPrefixOf switch.longName

end Switch

/-! ## Words -/

inductive Word where
  /-- A text that can be the argument of an option. -/
  | value (text : Text)
  /-- An option, and what is written together with it. -/
  | long (switch : Switch) (attached : Option Text)
  | short (switch : Switch) (attached : Option Text)
  | unknown
  deriving DecidableEq, Repr

def nonEmpty? (t : Text) : Option Text := if t = [] then none else some t

def withoutNewline (t : Text) : Text := if t.getLast? = some '\n' then t.dropLast else t

/-- Whether a text behind a dash makes a negative number, which a newline may end. -/
def isNumber (t : Text) : Bool :=
  let isDigit := fun c => (Text.digitOf? c).isSome
  let (whole, fraction) := Text.cutFirst '.' (withoutNewline t)
  match fraction with
  | none => !whole.isEmpty && whole.all isDigit
  | some digits => whole.all isDigit && !digits.isEmpty && digits.all isDigit

/-- A word that is no option: negative numbers and texts with a space can still be arguments. -/
def otherWord (t : Text) : Word :=
  if isNumber (t.drop 1) || t.contains ' ' then .value t else .unknown

def readWord (t : Text) : Except Refusal Word :=
  match t with
  | '-' :: '-' :: rest =>
    let (name, attached) := Text.cutFirst '=' rest
    match Switch.ofLong name with
    | [] => .ok (otherWord t)
    | [switch] => .ok (.long switch attached)
    | _ => .error .badUsage
  | '-' :: name :: rest =>
    match Switch.ofShort? name, rest with
    | none, _ => .ok (otherWord t)
    | some switch, '=' :: attached => .ok (.short switch (some attached))
    | some switch, rest => .ok (.short switch (nonEmpty? rest))
  | t => .ok (.value t)

def divider : Text := ['-', '-']

/-- Reads the words of a command line; a divider and what follows it belong to no option. -/
def readWords : List Text → Except Refusal (List Word)
  | [] => .ok []
  | t :: rest =>
    if t = divider then .ok [.unknown]
    else do
      let word ← readWord t
      return word :: (← readWords rest)

/-! ## Options -/

/-- Options without arguments that are written together with a last one, and what is attached to
that. -/
structure Cluster where
  flags : List Switch
  last : Switch
  attached : Option Text
  deriving DecidableEq, Repr

/-- Splits what is attached to a short option into further options, as long as these take no
argument. -/
def openCluster : Switch → Text → Except Refusal Cluster
  | switch, [] => .ok ⟨[], switch, none⟩
  | switch, c :: cs =>
    match switch.arity with
    | 0 =>
      match Switch.ofShort? c with
      | none => .error .badUsage
      | some next =>
        (openCluster next cs).map fun cluster =>
          { cluster with flags := switch :: cluster.flags }
    | 1 => .ok ⟨[], switch, some (c :: cs)⟩
    | _ => .error .badUsage

def clusterOf? : Word → Option (Except Refusal Cluster)
  | .long switch none | .short switch none => some (.ok ⟨[], switch, none⟩)
  | .long switch (some attached) =>
    some (if switch.arity = 1 then .ok ⟨[], switch, some attached⟩ else .error .badUsage)
  | .short switch (some []) =>
    some (if switch.arity = 1 then .ok ⟨[], switch, some []⟩ else .error .badUsage)
  | .short switch (some attached) => some (openCluster switch attached)
  | .value _ | .unknown => none

def dialect? (name : Text) : Option Glob.Dialect :=
  [Glob.Dialect.builtin, .posix].find? fun dialect => dialect.name = name

/-- Adds an option with its arguments to a request. An option that is left without its argument
counts as not given; only an expansion and a conversion stay asked for. -/
def Request.add (request : Request) : Switch → List Text → Except Refusal Request
  | .help, [] => .error .helpWanted
  | .verbose, [] => .ok { request with verbosity := request.verbosity + 1 }
  | .expand, [] => .ok { request with expand := some .missing }
  | .regex, [] => .ok { request with regex := some .missing }
  | .limit, [] => .ok { request with limit := 0 }
  | .resolve, [] => .ok { request with resolve := none }
  | .configuration, [] => .ok { request with configuration := none }
  | .workingDirectory, [] => .ok { request with workingDirectory := none }
  | .matcher, [] => .ok { request with dialect := none }
  | .separator, [] => .ok { request with sep := none }
  | .expand, [t] => .ok { request with expand := some (.text t) }
  | .regex, [t] => .ok { request with regex := some (.text t) }
  | .resolve, [t] => .ok { request with resolve := some t }
  | .configuration, [t] => .ok { request with configuration := some t }
  | .workingDirectory, [t] => .ok { request with workingDirectory := some t }
  | .separator, [t] => .ok { request with sep := some t }
  | .candidate, [pattern, t] => .ok { request with candidate := some (pattern, t) }
  | .limit, [t] =>
    match Text.readInteger? t with
    | some n => .ok { request with limit := n }
    | none => .error .badUsage
  | .matcher, [t] =>
    match dialect? t with
    | some dialect => .ok { request with dialect := some dialect }
    | none => .error .badUsage
  | _, _ => .error .badUsage

def Request.addAll (request : Request) (cluster : Cluster) (arguments : List Text) :
    Except Refusal Request := do
  let request ← cluster.flags.foldlM (fun request flag => request.add flag []) request
  request.add cluster.last arguments

/-- Reads options one after the other; words that belong to none are refused in the end. -/
def readOptions (request : Request) (surplus : Bool) : List Word → Except Refusal Request
  | [] => if surplus then .error .badUsage else .ok request
  | word :: rest =>
    match clusterOf? word with
    | none => readOptions request true rest
    | some (.error refusal) => .error refusal
    | some (.ok cluster) =>
      match cluster.attached with
      | some t => do
        let arguments := if t = divider then [] else [t]
        readOptions (← request.addAll cluster arguments) surplus rest
      | none =>
        match cluster.last.arity, rest with
        | 0, rest => do readOptions (← request.addAll cluster []) surplus rest
        | 1, .value t :: rest => do readOptions (← request.addAll cluster [t]) surplus rest
        | 2, .value s :: .value t :: rest => do
          readOptions (← request.addAll cluster [s, t]) surplus rest
        | _, _ => .error .badUsage

def Request.read (arguments : List Text) : Except Refusal Request := do
  readOptions {} false (← readWords arguments)

end PathOptions.CommandLine
