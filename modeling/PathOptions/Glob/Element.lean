import PathOptions.Glob.Step
import PathOptions.Glob.Token
/-!
The parts of a glob: what each one matches, as a step, and how it is written as part of a regular
expression. Wildcards never take the separator; a bracket expression takes whatever it lists.
-/

namespace PathOptions.Glob

inductive Element where
  | char (c : Char)
  | anyChar
  | anyString
  | bracket (set : CharSet)
  deriving DecidableEq, Repr

def Token.bracketItem : Token → Option BracketItem
  | .literal c => some ⟨c, false, true⟩
  | .escaped c => some ⟨c, false, false⟩
  | .dash => some ⟨'-', true, true⟩
  | _ => none

/-- A bracket expression that is still open: its items so far, the last one first. -/
structure OpenBracket where
  complement : Bool
  reversed : List BracketItem
  deriving DecidableEq, Repr

def OpenBracket.close (bracket : OpenBracket) : Element :=
  .bracket ⟨bracket.complement, membersOf bracket.reversed.reverse⟩

/-- The elements of a stream of tokens, a bracket expression being open or not. -/
def elementsFrom : Option OpenBracket → List Token → List Element
  | _, [] => []
  | some bracket, token :: rest =>
    match token with
    | .classEnd => bracket.close :: elementsFrom none rest
    | .complement => elementsFrom (some { bracket with complement := true }) rest
    | token =>
      let items := token.bracketItem.toList ++ bracket.reversed
      elementsFrom (some { bracket with reversed := items }) rest
  | none, token :: rest =>
    match token with
    | .classStart => elementsFrom (some ⟨false, []⟩) rest
    | .anyChar => .anyChar :: elementsFrom none rest
    | .anyString => .anyString :: elementsFrom none rest
    | .literal c | .escaped c => .char c :: elementsFrom none rest
    | .complement | .dash | .classEnd => elementsFrom none rest

def elements (glob : Text) : List Element := elementsFrom none (tokenize glob)

def Element.step (sep : Char) : Element → Step
  | .char c => .one (.only c)
  | .anyChar => .one (.allBut sep)
  | .anyString => .run (.allBut sep)
  | .bracket set => .one set

def isMatch (sep : Char) (glob candidate : Text) : Bool :=
  decideSteps ((elements glob).map (·.step sep)) candidate

/-- A character in a regular expression: letters, digits, the low line and the space stand for
themselves, all others follow a backslash. -/
def regexChar (c : Char) : Text :=
  if c.isAlphanum || c = '_' || c = ' ' then [c] else ['\\', c]

/-- The separator in a regular expression: only the characters that can have a meaning there follow
a backslash. -/
def regexSeparator (sep : Char) : Text :=
  if "()[]\x7b\x7d?*+-|^$\\.&~# \t\n\r\x0b\x0c".toList.contains sep then ['\\', sep] else [sep]

def Member.regex : Member → Text
  | .single c => regexChar c
  | .range lo hi => regexChar lo ++ '-' :: regexChar hi

/-- A set in a regular expression; the one without characters and the one with all of them have
forms of their own. -/
def CharSet.regex (set : CharSet) : Text :=
  if set.members.isEmpty then
    if set.complement then "(?s:.)".toList else "(?!)".toList
  else
    '[' :: (if set.complement then ['^'] else []) ++ set.members.flatMap Member.regex ++ [']']

def Element.regex (sep : Char) : Element → Text
  | .char c => regexChar c
  | .anyChar => '[' :: '^' :: regexSeparator sep ++ [']']
  | .anyString => '[' :: '^' :: regexSeparator sep ++ [']', '*']
  | .bracket set => set.regex

/-- The regular expression of a glob, anchored at both ends. -/
def translate (sep : Char) (glob : Text) : Text :=
  '^' :: (elements glob).flatMap (·.regex sep) ++ ['$']

end PathOptions.Glob
