import PathOptions.Text.Basic
/-!
A place in a document: what is left of the text, and the line and column that its indentation is
judged by.
-/

namespace PathOptions.Yaml

def isBreak (c : Char) : Bool :=
  c == '\n' || c == '\r' || c.toNat == 0x85 || c.toNat == 0x2028 || c.toNat == 0x2029

def isSpaceOrBreak (c : Char) : Bool := c == ' ' || c == '\t' || isBreak c

structure Input where
  rest : Text
  index : Nat
  line : Nat
  column : Nat
  deriving Repr

namespace Input

def start (document : Text) : Input := ⟨document, 0, 0, 0⟩

def head? (input : Input) : Option Char := input.rest.head?

def peek? (input : Input) (distance : Nat) : Option Char := input.rest[distance]?

/-- One character further. A byte order mark takes no column. -/
def next (input : Input) : Input :=
  match input.rest with
  | [] => input
  | c :: rest =>
    if isBreak c && !(c == '\r' && rest.head? == some '\n') then
      ⟨rest, input.index + 1, input.line + 1, 0⟩
    else
      let width := if c.toNat == 0xFEFF then 0 else 1
      ⟨rest, input.index + 1, input.line, input.column + width⟩

def advance (input : Input) : Nat → Input
  | 0 => input
  | n + 1 => (advance input n).next

def skipWhile (input : Input) (p : Char → Bool) : Input :=
  input.advance (input.rest.takeWhile p).length

/-- Passes over a line end and gives what it stands for in a text: nothing if there is none. -/
def takeBreak (input : Input) : Text × Input :=
  match input.rest with
  | '\r' :: '\n' :: _ => (['\n'], input.advance 2)
  | c :: _ =>
    if !isBreak c then ([], input)
    else if c.toNat == 0x2028 || c.toNat == 0x2029 then ([c], input.next)
    else (['\n'], input.next)
  | [] => ([], input)

/-- Whether the document ends here or a character of a class follows. -/
def endsOr (p : Char → Bool) : Option Char → Bool
  | none => true
  | some c => p c

/-- Whether the document or a word ends at a distance. -/
def blankAt (input : Input) (distance : Nat) : Bool :=
  endsOr isSpaceOrBreak (input.peek? distance)

def atLineEnd (input : Input) : Bool := endsOr isBreak input.head?

/-- Whether three equal marks and then a blank follow. -/
def atMarks (input : Input) (mark : Char) : Bool :=
  [mark, mark, mark].isPrefixOf input.rest && input.blankAt 3

/-- Whether a line that separates documents follows. -/
def atSeparator (input : Input) : Bool := input.atMarks '-' || input.atMarks '.'

/-- A number above the number of characters left. -/
def bound (input : Input) : Nat := input.rest.length + 1

end Input

end PathOptions.Yaml
