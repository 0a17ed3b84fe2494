import PathOptions.Text.Basic
/-!
The tokens of a glob. A backslash protects the character after it, an ASCII letter or digit apart,
from which it is only dropped; an opening bracket begins a bracket expression only if an
unprotected closing bracket follows somewhere.
-/

namespace PathOptions.Glob

/-- A character of a glob after its escapes are resolved. -/
structure Symbol where
  char : Char
  escaped : Bool
  deriving DecidableEq, Repr

/-- Resolves backslashes; one at the very end is an ordinary character. -/
def symbols : Text → List Symbol
  | [] => []
  | c :: cs =>
    if c = '\\' then
      match cs with
      | [] => [⟨c, false⟩]
      | d :: rest => ⟨d, !d.isAlphanum⟩ :: symbols rest
    else ⟨c, false⟩ :: symbols cs

theorem symbols_cons {c : Char} (h : c ≠ '\\') (rest : Text) :
    symbols (c :: rest) = ⟨c, false⟩ :: symbols rest := by
  cases rest <;> simp [symbols, h]

theorem symbols_backslash (c : Char) (rest : Text) :
    symbols ('\\' :: c :: rest) = ⟨c, !c.isAlphanum⟩ :: symbols rest := by
  simp [symbols]

def Symbol.isClose (s : Symbol) : Bool := s.char == ']' && !s.escaped

inductive Token where
  | literal (c : Char)
  | escaped (c : Char)
  | anyChar
  | anyString
  | classStart
  | complement
  | dash
  | classEnd
  deriving DecidableEq, Repr

/-- The token of a symbol outside brackets that begins no bracket expression. -/
def Symbol.outsideToken (s : Symbol) : Token :=
  if s.escaped then .escaped s.char
  else if s.char = '*' then .anyString
  else if s.char = '?' then .anyChar
  else .literal s.char

/-- The token of a symbol between brackets; wildcards stand for themselves there. -/
def Symbol.insideToken (s : Symbol) (first : Bool) : Token :=
  if s.escaped || s.char = '?' || s.char = '*' then .escaped s.char
  else if first && (s.char = '!' || s.char = '^') then .complement
  else if s.char = '-' then .dash
  else .literal s.char

inductive Position where
  | outside
  /-- Right after an opening bracket. -/
  | first
  | inside
  deriving DecidableEq, Repr

def tokensFrom : Position → List Symbol → List Token
  | _, [] => []
  | .outside, s :: rest =>
    if s.char = '[' && !s.escaped && rest.any Symbol.isClose then
      .classStart :: tokensFrom .first rest
    else s.outsideToken :: tokensFrom .outside rest
  | .first, s :: rest =>
    if s.isClose then .classEnd :: tokensFrom .outside rest
    else s.insideToken true :: tokensFrom .inside rest
  | .inside, s :: rest =>
    if s.isClose then .classEnd :: tokensFrom .outside rest
    else s.insideToken false :: tokensFrom .inside rest

def tokenize (glob : Text) : List Token := tokensFrom .outside (symbols glob)

end PathOptions.Glob
