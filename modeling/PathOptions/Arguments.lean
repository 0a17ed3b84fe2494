import PathOptions.Glob.Matcher
import PathOptions.Resolve.Property
/-!
The operations on arguments that nothing has checked, most of them values of any type. Every
argument is checked before it is used, in a fixed order, so that of two faults the first in that
order is reported.
-/

namespace PathOptions.Arguments

inductive Error where
  | notText (role : String) (typeName : String)
  | matcher (error : Glob.Matcher.Error)
  | emptySeparator
  deriving Repr

def Error.message : Error → String
  | .notText role typeName => role ++ " must be a str, not " ++ typeName
  | .matcher error => error.message
  | .emptySeparator => "empty separator"

def text (role : String) : Value → Except Error Text
  | .scalar (.text t) => .ok t
  | value => .error (.notText role value.typeName)

/-- The character that a separator stands for; other values separate nothing. -/
def separator? : Value → Option Char
  | .scalar (.text [c]) => some c
  | _ => none

/-- Cuts a text at the first separator that counts. -/
def split (value sep : Value) : Except Error (Text × Option Text) := do
  let t ← text "text" value
  match separator? sep with
  | some c => return Brace.split c t
  | none => return (t, none)

/-- Cuts a text at all separators that count; null has no items. -/
def splitAll (value sep : Value) : Except Error (List Text) :=
  match value with
  | .scalar .null => .ok []
  | value => do
    let t ← text "text" value
    match separator? sep with
    | some c => return Brace.splitAll c t
    | none => return [t]

def generate (body : Value) : Except Error (Option (List Text)) :=
  (text "body" body).map Sequence.generate

def parse (pattern : Value) : Except Error Brace.Tree :=
  (text "pattern" pattern).map Brace.parse

def expand (pattern : Value) : Except Error (List Text) :=
  (text "pattern" pattern).map Brace.expand

def cursor (pattern : Value) : Except Error Brace.Cursor :=
  (text "pattern" pattern).map Brace.cursor

def tokenize (glob : Value) : Except Error (List Glob.Token) :=
  (text "glob" glob).map Glob.tokenize

def wildcardSeparator (sep : Value) : Except Error Char :=
  (Glob.Matcher.separator sep).mapError .matcher

/-- The regular expression of a glob; the separator is checked first. -/
def translate (sep glob : Value) : Except Error Text := do
  let c ← wildcardSeparator sep
  return Glob.translate c (← text "glob" glob)

/-- Whether a glob matches a candidate; the candidate is checked first, then the separator. -/
def globMatch (sep glob candidate : Value) : Except Error Bool := do
  let name ← text "candidate" candidate
  let c ← wildcardSeparator sep
  return Glob.isMatch c (← text "glob" glob) name

/-- Whether a glob matches a pathname; the glob is checked first. -/
def pathnameMatch (wildcards : Glob.Wildcards) (glob candidate : Value) : Except Error Bool := do
  let pattern ← text "glob" glob
  return Glob.Pathname.isMatch wildcards pattern (← text "candidate" candidate)

def matcherMatch (matcher : Glob.Matcher) (glob candidate : Value) : Except Error Bool :=
  match matcher.dialect with
  | .builtin => globMatch (.text [matcher.sep]) glob candidate
  | .posix => pathnameMatch matcher.wildcards glob candidate

/-- The properties of a file; its directory cannot be told without a separator. -/
def properties (sep parent child : Text) : Except Error (List Assignment) :=
  if sep = [] then .error .emptySeparator else .ok (Property.ofChild sep parent child)

end PathOptions.Arguments
