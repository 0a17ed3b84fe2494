import PathOptions.Text.Numeral
import PathOptions.Text.Quoted
/-!
Sequence expressions such as `1..5`, `08..11`, `a..e..2`: from one end to the other in equal steps.
The ends give the direction and only the size of the step counts, a step of 0 being one of 1.
-/

namespace PathOptions.Sequence

inductive Error where
  | notInteger (t : Text)
  | notCharacter (length : Nat)
  deriving DecidableEq, Repr

/-- The number of characters of a quoted text that an error shows at most. -/
def shownLength : Nat := 200

def Error.message : Error → String
  | .notInteger t =>
    "invalid literal for int() with base 10: " ++ Text.str ((Text.quoted t).take shownLength)
  | .notCharacter length =>
    "ord() expected a character, but string of length " ++ toString length ++ " found"

/-- The integers from `first` towards `last`, never past it, at distances of `max 1 step`. -/
def progression (first last : Int) (step : Nat) : List Int :=
  let size := max 1 step
  let count := (last - first).natAbs / size + 1
  (List.range count).map fun k =>
    if last < first then first - (k * size : Nat) else first + (k * size : Nat)

/-- A zero before another digit, after an optional minus sign. -/
def hasLeadingZero : Text → Bool
  | '-' :: '0' :: c :: _ => c.isDigit
  | '0' :: c :: _ => c.isDigit
  | _ => false

/-- The width to which numbers are filled with zeros: that of the longer end if one of the ends
has a leading zero, and 0 otherwise. -/
def padWidth (first last : Text) : Nat :=
  if hasLeadingZero first || hasLeadingZero last then max first.length last.length else 0

def numbers (width : Nat) (first last : Int) (step : Nat) : List Text :=
  (progression first last step).map (Text.zeroFilled width)

def characters (first last : Char) (step : Nat) : List Text :=
  (progression first.toNat last.toNat step).map fun i => [Char.ofNat i.toNat]

/-- The size of a step in any integer notation; 1 if none is given. -/
def readStep : Option Text → Except Error Nat
  | none => .ok 1
  | some t =>
    match Text.readInteger? t with
    | some i => .ok i.natAbs
    | none => .error (.notInteger t)

/-- The sequence between two texts that must be integers in any notation. -/
def ofIntegers (first last : Text) (step : Option Text) : Except Error (List Text) := do
  let read := fun t => match Text.readInteger? t with
    | some i => Except.ok i
    | none => Except.error (Error.notInteger t)
  let a ← read first
  let b ← read last
  let size ← readStep step
  return numbers (padWidth first last) a b size

/-- The sequence between two texts that must be single characters. -/
def ofCharacters (first last : Text) (step : Option Text) : Except Error (List Text) := do
  let read := fun (t : Text) => match t with
    | [c] => Except.ok c
    | _ => Except.error (Error.notCharacter t.length)
  let a ← read first
  let b ← read last
  let size ← readStep step
  return characters a b size

def fields : Text → List Text
  | [] => [[]]
  | c :: cs =>
    match c, cs with
    | '.', '.' :: rest => [] :: fields rest
    | c, cs =>
      match fields cs with
      | [] => [[c]]
      | field :: rest => (c :: field) :: rest

def letter? : Text → Option Char
  | [c] => if c.isAlpha then some c else none
  | _ => none

/-- The sequence between two fields: plain integers, or ASCII letters. -/
def between? (first last : Text) (step : Nat) : Option (List Text) :=
  match Text.readPlainInteger? first, Text.readPlainInteger? last with
  | some a, some b => some (numbers (padWidth first last) a b step)
  | _, _ =>
    match letter? first, letter? last with
    | some a, some b => some (characters a b step)
    | _, _ => none

/-- The elements of a sequence expression; `none` if the text is not one. -/
def generate (body : Text) : Option (List Text) :=
  match fields body with
  | [first, last] => between? first last 1
  | [first, last, step] =>
    match Text.readPlainInteger? step with
    | some size => between? first last size.natAbs
    | none => none
  | _ => none

end PathOptions.Sequence
