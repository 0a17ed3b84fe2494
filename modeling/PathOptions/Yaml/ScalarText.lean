import PathOptions.Yaml.Error
import PathOptions.Yaml.Input
/-!
The texts of scalars in their four notations: quoted once, quoted twice, plain, and as a block of
lines. Every reader gives the text and the place behind it.
-/

namespace PathOptions.Yaml

/-! ## Quoted scalars -/

/-- The character that a letter after a backslash stands for. -/
def escapedChar? (c : Char) : Option Char :=
  ([('0', '\x00'), ('a', '\x07'), ('b', '\x08'), ('t', '\t'), ('\t', '\t'), ('n', '\n'),
    ('v', '\x0b'), ('f', '\x0c'), ('r', '\r'), ('e', '\x1b'), (' ', ' '), ('\x22', '\x22'),
    ('\\', '\\'), ('/', '/'), ('N', Char.ofNat 0x85), ('_', Char.ofNat 0xA0),
    ('L', Char.ofNat 0x2028), ('P', Char.ofNat 0x2029)].find? (·.1 == c)).map Prod.snd

/-- The number of hexadecimal digits that a letter after a backslash asks for. -/
def escapeLength? (c : Char) : Option Nat :=
  if c = 'x' then some 2 else if c = 'u' then some 4 else if c = 'U' then some 8 else none

def hexDigit? (c : Char) : Option Nat :=
  if c.isDigit then some (c.toNat - 48)
  else if 'a' ≤ c && c ≤ 'f' then some (c.toNat - 87)
  else if 'A' ≤ c && c ≤ 'F' then some (c.toNat - 55)
  else none

def charOfHex (digits : Text) : Except Error Char := do
  let add := fun (n : Nat) c => match hexDigit? c with
    | some d => Except.ok (16 * n + d)
    | none => throw Error.badEscape
  let n ← digits.foldlM add 0
  if 0x7FFFFFFF < n then throw .codePointTooLarge
  if 0x10FFFF < n then throw .codePointOutOfRange
  if n.isValidChar then return Char.ofNat n else throw .badEscape

/-- The line ends after a line end, with the blanks that begin their lines left out. -/
def readBreaks : (fuel : Nat) → Input → Except Error (Text × Input)
  | 0, input => .ok ([], input)
  | fuel + 1, input => do
    if input.atSeparator then throw .separatorInQuotes
    let input := input.skipWhile fun c => c == ' ' || c == '\t'
    match input.takeBreak with
    | ([], _) => return ([], input)
    | (mark, input) =>
      let (others, input) ← readBreaks fuel input
      return (mark ++ others, input)

/-- Characters up to a blank, a line end or the closing quote, escapes resolved. -/
def readUnbroken (double : Bool) : (fuel : Nat) → Input → Except Error (Text × Input)
  | 0, input => .ok ([], input)
  | fuel + 1, input => do
    let keep := fun (t : Text) (input : Input) => do
      let (others, input) ← readUnbroken double fuel input
      return (t ++ others, input)
    match input.rest with
    | [] => return ([], input)
    | c :: rest =>
      if isSpaceOrBreak c then return ([], input)
      else if c = '\x27' && !double then
        if rest.head? = some '\x27' then keep ['\x27'] (input.advance 2) else return ([], input)
      else if c = '\x22' && double then return ([], input)
      else if c = '\\' && double then
        match rest with
        | [] => throw .badEscape
        | d :: digits =>
          match escapedChar? d, escapeLength? d with
          | some e, _ => keep [e] (input.advance 2)
          | none, some size =>
            if (digits.take size).length < size then throw .badEscape
            let e ← charOfHex (digits.take size)
            keep [e] (input.advance (2 + size))
          | none, none =>
            if isBreak d then
              let (breaks, input) ← readBreaks input.bound (input.next.takeBreak.2)
              keep breaks input
            else throw .badEscape
      else keep [c] input.next

/-- Blanks inside a line, or what line ends inside a quoted text stand for. -/
def readGap (input : Input) : Except Error (Text × Input) := do
  let blanks := input.rest.takeWhile fun c => c == ' ' || c == '\t'
  let input := input.advance blanks.length
  if input.rest.isEmpty then throw .unclosedQuote
  match input.takeBreak with
  | ([], input) => return (blanks, input)
  | (mark, input) =>
    let (breaks, input) ← readBreaks input.bound input
    let folded := if mark ≠ ['\n'] then mark else if breaks.isEmpty then [' '] else []
    return (folded ++ breaks, input)

def readQuotedParts (double : Bool) : (fuel : Nat) → Input → Except Error (Text × Input)
  | 0, _ => .error .unclosedQuote
  | fuel + 1, input => do
    let (unbroken, input) ← readUnbroken double input.bound input
    if input.head? = some (if double then '\x22' else '\x27') then return (unbroken, input.next)
    let (gap, input) ← readGap input
    let (others, input) ← readQuotedParts double fuel input
    return (unbroken ++ gap ++ others, input)

def readQuoted (double : Bool) (input : Input) : Except Error (Text × Input) :=
  readQuotedParts double input.bound input.next

/-! ## Plain scalars -/

/-- The characters that end a plain text inside flow collections. -/
def isFlowMark (c : Char) : Bool := c == ',' || c == '[' || c == ']' || c == '\x7b' || c == '\x7d'

def plainLength (inFlow : Bool) : Text → Nat
  | [] => 0
  | c :: cs =>
    if isSpaceOrBreak c then 0
    else if c = ':' && Input.endsOr (fun d => isSpaceOrBreak d || (inFlow && isFlowMark d)) cs.head?
    then 0
    else if inFlow && (isFlowMark c || c = '?') then 0
    else plainLength inFlow cs + 1

/-- The line ends after a line end, with the spaces that begin their lines left out; `none` if a
line that separates documents follows. -/
def readPlainBreaks : (fuel : Nat) → Input → Option Text × Input
  | 0, input => (some [], input)
  | fuel + 1, input =>
    match input.rest with
    | ' ' :: _ => readPlainBreaks fuel input.next
    | _ =>
      match input.takeBreak with
      | ([], _) => (some [], input)
      | (mark, input) =>
        if input.atSeparator then (none, input)
        else
          let (others, input) := readPlainBreaks fuel input
          (others.map (mark ++ ·), input)

/-- A gap in a plain text: what it stands for, nothing if the text ends there, and whether a line
ended in it. -/
def readPlainGap (input : Input) : Text × Bool × Input :=
  let spaces := input.rest.takeWhile (· == ' ')
  let input := input.advance spaces.length
  match input.takeBreak with
  | ([], input) => (spaces, false, input)
  | (mark, input) =>
    if input.atSeparator then ([], true, input)
    else
      match readPlainBreaks input.bound input with
      | (none, input) => ([], true, input)
      | (some breaks, input) =>
        let folded := if mark ≠ ['\n'] then mark else if breaks.isEmpty then [' '] else []
        (folded ++ breaks, true, input)

/-- A plain text that continues after a gap, on lines indented by `indent` at least. The truth
value says whether a line ended after the last character. -/
def readPlainParts (inFlow : Bool) (indent : Int) (gap : Text) (lineEnded : Bool) :
    (fuel : Nat) → Input → Text × Bool × Input
  | 0, input => ([], lineEnded, input)
  | fuel + 1, input =>
    if input.head? = some '#' then ([], lineEnded, input)
    else
      match plainLength inFlow input.rest with
      | 0 => ([], lineEnded, input)
      | size =>
        let part := gap ++ input.rest.take size
        match readPlainGap (input.advance size) with
        | ([], ended, input) => (part, ended, input)
        | (next, ended, input) =>
          if input.head? = some '#' || (!inFlow && (input.column : Int) < indent) then
            (part, ended, input)
          else
            let (others, ended, input) := readPlainParts inFlow indent next ended fuel input
            (part ++ others, ended, input)

def readPlain (inFlow : Bool) (indent : Int) (input : Input) : Text × Bool × Input :=
  readPlainParts inFlow indent [] false input.bound input

/-! ## Block scalars -/

/-- What becomes of the line ends behind a block. -/
inductive Chomping where
  | strip
  | clip
  | keep
  deriving DecidableEq, Repr

def chomping? : Option Char → Option Chomping
  | some '+' => some .keep
  | some '-' => some .strip
  | _ => none

/-- The indentation that a digit asks for; zero is refused. -/
def indentation? : Option Char → Except Error (Option Nat)
  | some c =>
    if c = '0' then .error .badBlockHeader
    else .ok (if c.isDigit then some (c.toNat - 48) else none)
  | none => .ok none

/-- The signs after the mark of a block, in either order. -/
def readIndicators (input : Input) : Except Error (Chomping × Option Nat × Input) := do
  let (chomping, indentation, input) ← match chomping? input.head? with
    | some chomping => do
      let input := input.next
      match ← indentation? input.head? with
      | some n => pure (chomping, some n, input.next)
      | none => pure (chomping, none, input)
    | none => do
      match ← indentation? input.head? with
      | none => pure (Chomping.clip, none, input)
      | some n =>
        let input := input.next
        match chomping? input.head? with
        | some chomping => pure (chomping, some n, input.next)
        | none => pure (Chomping.clip, some n, input)
  if Input.endsOr (fun c => c == ' ' || isBreak c) input.head? then
    return (chomping, indentation, input)
  else throw .badBlockHeader

/-- Passes over the rest of a line that may hold a comment. -/
def skipLine (fault : Error) (input : Input) : Except Error Input := do
  let input := input.skipWhile (· == ' ')
  let input := if input.head? = some '#' then input.skipWhile (!isBreak ·) else input
  if input.atLineEnd then return input.takeBreak.2 else throw fault

/-- The empty lines before a block, the widest indentation seen, and the place behind. -/
def readLeadingBreaks : (fuel : Nat) → (widest : Nat) → Input → Text × Nat × Input
  | 0, widest, input => ([], widest, input)
  | fuel + 1, widest, input =>
    match input.rest with
    | ' ' :: _ =>
      let input := input.next
      readLeadingBreaks fuel (max widest input.column) input
    | _ =>
      match input.takeBreak with
      | ([], _) => ([], widest, input)
      | (mark, input) =>
        let (others, widest, input) := readLeadingBreaks fuel widest input
        (mark ++ others, widest, input)

/-- Passes over the spaces up to a column. -/
def skipIndent (indent : Nat) (input : Input) : Input :=
  input.advance (min (indent - input.column) (input.rest.takeWhile (· == ' ')).length)

/-- The empty lines before a line of a block. -/
def readBlockBreaks (indent : Nat) : (fuel : Nat) → Input → Text × Input
  | 0, input => ([], input)
  | fuel + 1, input =>
    let input := skipIndent indent input
    match input.takeBreak with
    | ([], _) => ([], input)
    | (mark, input) =>
      let (others, input) := readBlockBreaks indent fuel input
      (mark ++ others, input)

def startsBlank (input : Input) : Bool := input.head? = some ' ' || input.head? = some '\t'

/-- The lines of a block, given the empty lines before the next one: the text, and the last line
end with the empty lines after it. -/
def readBlockLines (folded : Bool) (indent : Nat) (breaks lastBreak : Text) :
    (fuel : Nat) → Input → Text × (Text × Text) × Input
  | 0, input => ([], (lastBreak, breaks), input)
  | fuel + 1, input =>
    if input.column = indent && !input.rest.isEmpty then
      let blank := startsBlank input
      let line := input.rest.takeWhile (!isBreak ·)
      let (mark, input) := (input.advance line.length).takeBreak
      let (next, input) := readBlockBreaks indent input.bound input
      let ends := input.column ≠ indent || input.rest.isEmpty
      let joint :=
        if ends then []
        else if folded && mark = ['\n'] && !blank && !startsBlank input then
          (if next.isEmpty then [' '] else [])
        else mark
      let (others, closing, input) := readBlockLines folded indent next mark fuel input
      (breaks ++ line ++ joint ++ others, closing, input)
    else ([], (lastBreak, breaks), input)

/-- A block, from its mark on; `indent` is the indentation of the collection around it. -/
def readBlock (folded : Bool) (indent : Int) (input : Input) : Except Error (Text × Input) := do
  let (chomping, indentation, input) ← readIndicators input.next
  let input ← skipLine .badBlockHeader input
  let least := (max 1 (indent + 1)).toNat
  let (breaks, column, input) :=
    match indentation with
    | none =>
      let (breaks, widest, input) := readLeadingBreaks input.bound 0 input
      (breaks, max least widest, input)
    | some n =>
      let column := least + n - 1
      let (breaks, input) := readBlockBreaks column input.bound input
      (breaks, column, input)
  let (t, (lastBreak, trailing), input) :=
    readBlockLines folded column breaks [] input.bound input
  let tail :=
    match chomping with
    | .strip => []
    | .clip => lastBreak
    | .keep => lastBreak ++ trailing
  return (t ++ tail, input)

end PathOptions.Yaml
