import PathOptions.Brace.Cursor
import PathOptions.Glob.Element
import PathOptions.Glob.Pathname
import PathOptions.Journal
import PathOptions.Value.Written
/-!
The two dialects of globs behind one matcher, and the descriptions that it decides: a description
is a brace pattern, and it matches if one of the globs that it stands for does. Globs are tried in
order and none after the first that matches.
-/

namespace PathOptions.Glob

inductive Dialect where
  /-- Bracket expressions of the simplified kind, with any separator. -/
  | builtin
  /-- Pathname matching of the POSIX kind, with slashes only. -/
  | posix
  deriving DecidableEq, Repr

def Dialect.name : Dialect → Text
  | .builtin => ['b', 'u', 'i', 'l', 't', 'i', 'n']
  | .posix => ['p', 'o', 's', 'i', 'x']

/-- A dialect with the separator that its wildcards leave alone. -/
structure Matcher where
  dialect : Dialect
  sep : Char
  /-- The wildcards in the segments of pathnames. -/
  wildcards : Wildcards

namespace Matcher

inductive Error where
  | separatorNotSingle (given : Value)
  | separatorNotSlash (given : Value)
  | unknownDialect (given : Value)
  deriving Repr

def Error.message : Error → String
  | .separatorNotSingle given =>
    "separator must be a single character, got " ++ Text.str given.quoted
  | .separatorNotSlash given =>
    "posix matcher only supports '/' as separator, got " ++ Text.str given.quoted
  | .unknownDialect given =>
    "unknown matcher " ++ Text.str given.quoted ++ ", expected one of "
      ++ Text.str Dialect.builtin.name ++ ", " ++ Text.str Dialect.posix.name

def separator : Value → Except Error Char
  | .scalar (.text [c]) => .ok c
  | given => .error (.separatorNotSingle given)

def select (wildcards : Wildcards) (name sep : Value) : Except Error Matcher :=
  match name with
  | .scalar (.text t) =>
    if t = Dialect.builtin.name then (separator sep).map (⟨.builtin, ·, wildcards⟩)
    else if t = Dialect.posix.name then
      match sep with
      | .scalar (.text ['/']) => .ok ⟨.posix, '/', wildcards⟩
      | given => .error (.separatorNotSlash given)
    else .error (.unknownDialect name)
  | given => .error (.unknownDialect given)

def decides (matcher : Matcher) (glob candidate : Text) : Bool :=
  match matcher.dialect with
  | .builtin => isMatch matcher.sep glob candidate
  | .posix => Pathname.isMatch matcher.wildcards glob candidate

/-- Decides a glob and reports how it was converted, if it was. -/
def test (matcher : Matcher) (glob candidate : Text) : Logged Bool := do
  if matcher.dialect = .builtin then
    Logged.tell (.globConverted glob (translate matcher.sep glob))
  return matcher.decides glob candidate

/-- Tries the globs of a cursor in order, up to the first that matches. -/
def testAny (matcher : Matcher) (candidate : Text) (cursor : Brace.Cursor) : Logged Bool :=
  match _h : cursor.next with
  | none => pure false
  | some (glob, rest) => do
    if ← matcher.test glob candidate then return true
    testAny matcher candidate rest
termination_by cursor.weight
decreasing_by exact Brace.Cursor.weight_next _h

def describes (matcher : Matcher) (description candidate : Text) : Logged Bool :=
  matcher.testAny candidate (Brace.cursor description)

end Matcher

end PathOptions.Glob
