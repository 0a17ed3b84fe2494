import PathOptions.Yaml.ScalarText
import PathOptions.Yaml.Token
/-!
Cutting a document into tokens. A key is recognised only by the colon after it, so whatever may be
a key is remembered, and the key token is put before it when the colon comes. Indentation opens and
closes blocks, which get tokens as if they had brackets. A fault ends the tokens, and counts only
if all tokens before it are in order.
-/

namespace PathOptions.Yaml

/-- Something that is a key if a colon follows on the same line. -/
structure PossibleKey where
  /-- The flow level at which it stands. -/
  level : Nat
  /-- The number of the token before which the key token would be put. -/
  number : Nat
  /-- Whether a colon must follow because nothing else can stand here. -/
  required : Bool
  index : Nat
  line : Nat
  column : Nat
  deriving Repr

/-- The work of cutting a document, between two tokens. -/
structure Lexer where
  input : Input
  tokens : Array Token
  flowLevel : Nat
  /-- The indentation of the innermost block; -1 outside all blocks. -/
  indent : Int
  outerIndents : List Int
  /-- Whether a key may begin here. -/
  keyAllowed : Bool
  keys : List PossibleKey
  finished : Bool
  deriving Repr

namespace Lexer

def start (document : Text) : Lexer := ⟨Input.start document, #[], 0, -1, [], true, [], false⟩

def inFlow (lexer : Lexer) : Bool := lexer.flowLevel ≠ 0

def emit (lexer : Lexer) (token : Token) : Lexer :=
  { lexer with tokens := lexer.tokens.push token }

/-- Adds a token that takes so many characters. -/
def emitMark (lexer : Lexer) (size : Nat) (token : Token) : Lexer :=
  { lexer.emit token with input := lexer.input.advance size }

/-! ## Blocks and possible keys -/

/-- Closes the blocks that are indented by more than a column. -/
def closeBlocks (lexer : Lexer) (column : Int) : Lexer :=
  if lexer.inFlow then lexer
  else
    let rec close (indent : Int) (tokens : Array Token) : List Int → Int × List Int × Array Token
      | [] => (indent, [], tokens)
      | outer :: others =>
        if indent > column then close outer (tokens.push .blockEnd) others
        else (indent, outer :: others, tokens)
    let (indent, outerIndents, tokens) := close lexer.indent lexer.tokens lexer.outerIndents
    { lexer with indent, outerIndents, tokens }

/-- Opens a block at a column if that is further in than the innermost one. -/
def openBlock? (lexer : Lexer) (column : Nat) : Option Lexer :=
  if lexer.indent < column then
    some { lexer with indent := column, outerIndents := lexer.indent :: lexer.outerIndents }
  else none

/-- Opens a block at the place of the lexer, with a token for it. -/
def openBlockHere (lexer : Lexer) (token : Token) : Lexer :=
  match lexer.openBlock? lexer.input.column with
  | some opened => opened.emit token
  | none => lexer

/-- Whether a possible key is on another line or too far back. -/
def isStale (lexer : Lexer) (key : PossibleKey) : Bool :=
  key.line ≠ lexer.input.line || lexer.input.index - key.index > 1024

def dropStaleKeys (lexer : Lexer) : Except Error Lexer := do
  if lexer.keys.any fun key => lexer.isStale key && key.required then throw .missingColon
  return { lexer with keys := lexer.keys.filter (!lexer.isStale ·) }

/-- The tokens in front of which no other token can be put any more: those before the first
possible key. -/
def settledTokens (lexer : Lexer) : List Token :=
  let numbers := (lexer.keys.filter (!lexer.isStale ·)).map (·.number)
  lexer.tokens.toList.take (numbers.foldl min lexer.tokens.size)

/-- Forgets the possible key at the present flow level. -/
def dropKey (lexer : Lexer) : Except Error Lexer := do
  let here := fun (key : PossibleKey) => key.level == lexer.flowLevel
  if lexer.keys.any fun key => here key && key.required then throw .missingColon
  return { lexer with keys := lexer.keys.filter (!here ·) }

/-- Remembers that what follows may be a key. -/
def saveKey (lexer : Lexer) : Except Error Lexer := do
  if !lexer.keyAllowed then return lexer
  let required := !lexer.inFlow && lexer.indent = (lexer.input.column : Int)
  let lexer ← lexer.dropKey
  let key : PossibleKey := ⟨lexer.flowLevel, lexer.tokens.size, required, lexer.input.index,
    lexer.input.line, lexer.input.column⟩
  return { lexer with keys := key :: lexer.keys }

/-! ## Blanks and comments -/

/-- Passes over blanks, comments and line ends; after a line end outside flow collections a key may
begin. -/
def skipBlanks : (fuel : Nat) → Lexer → Lexer
  | 0, lexer => lexer
  | fuel + 1, lexer =>
    let input := lexer.input.skipWhile (· == ' ')
    let input := if input.head? = some '#' then input.skipWhile (!isBreak ·) else input
    match input.takeBreak with
    | ([], _) => { lexer with input }
    | (_, input) =>
      skipBlanks fuel { lexer with input, keyAllowed := lexer.keyAllowed || !lexer.inFlow }

def skipByteOrderMark (lexer : Lexer) : Lexer :=
  if lexer.input.index = 0 && lexer.input.head? = some (Char.ofNat 0xFEFF) then
    { lexer with input := lexer.input.next }
  else lexer

/-! ## Directives, anchors, tags -/

def isWordChar (c : Char) : Bool := c.isAlphanum || c == '-' || c == '_'

/-- Whether the document, a line or a word ends here, tabs apart. -/
def atWordEnd (input : Input) : Bool := Input.endsOr (fun c => c == ' ' || isBreak c) input.head?

def isTagChar (c : Char) : Bool :=
  c.isAlphanum || "-;/?:@&=+$,_.!~*\x27()[]%".toList.contains c

/-- The characters that octets written with percent signs stand for. -/
def decodeOctets (octets : List UInt8) : Except Error Text :=
  match String.fromUTF8? ⟨octets.toArray⟩ with
  | some s => .ok s.toList
  | none => .error .badTag

/-- Resolves percent signs in a tag text. -/
def resolvePercent : (pending : List UInt8) → Text → Except Error Text
  | pending, [] => decodeOctets pending
  | pending, c :: cs =>
    match c, cs with
    | '%', a :: b :: rest =>
      match hexDigit? a, hexDigit? b with
      | some m, some n => resolvePercent (pending ++ [(16 * m + n).toUInt8]) rest
      | _, _ => .error .badTag
    | '%', _ => .error .badTag
    | c, cs => do
      let before ← decodeOctets pending
      let others ← resolvePercent [] cs
      return before ++ c :: others

/-- A tag text, which must not be empty. -/
def readTagText (input : Input) : Except Error (Text × Input) := do
  let written := input.rest.takeWhile isTagChar
  if written.isEmpty then throw .badTag
  return (← resolvePercent [] written, input.advance written.length)

/-- A tag handle, from its exclamation mark on: one mark before a space, or a word between two. -/
def readHandle (fault : Error) (input : Input) : Except Error (Text × Input) :=
  match input.rest with
  | '!' :: rest =>
    let word := rest.takeWhile isWordChar
    if rest.head? = some ' ' then .ok (['!'], input.next)
    else if (rest.drop word.length).head? = some '!' then
      .ok ('!' :: word ++ ['!'], input.advance (word.length + 2))
    else .error fault
  | _ => .error fault

def readTag (input : Input) : Except Error (Token × Input) := do
  let (token, input) ← match input.peek? 1 with
    | some '<' => do
      let (suffix, input) ← readTagText (input.advance 2)
      if input.head? ≠ some '>' then throw .badTag
      pure (Token.tag none suffix, input.next)
    | next =>
      if Input.endsOr isSpaceOrBreak next then pure (Token.tag none ['!'], input.next)
      else do
        let word := (input.rest.drop 1).takeWhile fun c => !(c == ' ' || isBreak c)
        let (handle, input) ←
          if word.contains '!' then readHandle .badTag input else pure (['!'], input.next)
        let (suffix, input) ← readTagText input
        pure (Token.tag (some handle) suffix, input)
  if atWordEnd input then return (token, input) else throw .badTag

def readDirective (input : Input) : Except Error (Token × Input) := do
  let input := input.next
  let name := input.rest.takeWhile isWordChar
  let input := input.advance name.length
  if name.isEmpty || !atWordEnd input then throw .badDirective
  let (token, input) ←
    if name = "YAML".toList then do
      let input := input.skipWhile (· == ' ')
      let version := input.rest.takeWhile fun c => c.isDigit || c == '.'
      let (major, minor) := Text.cutFirst '.' version
      let input := input.advance version.length
      if !atWordEnd input then throw .badDirective
      if major.isEmpty || (minor.getD []).isEmpty || (minor.getD []).contains '.' then
        throw .badDirective
      if Text.replaceAll ['0'] [] major ≠ ['1'] then throw .badDirective
      pure (Token.directive name, input)
    else if name = "TAG".toList then do
      let (handle, input) ← readHandle .badDirective (input.skipWhile (· == ' '))
      if input.head? ≠ some ' ' then throw .badDirective
      let (lead, input) ← readTagText (input.skipWhile (· == ' '))
      if !atWordEnd input then throw .badDirective
      pure (Token.tagDirective handle lead, input)
    else pure (Token.directive name, input.skipWhile (!isBreak ·))
  return (token, ← skipLine .badDirective input)

def readAnchorName (input : Input) : Except Error (Text × Input) :=
  let input := input.next
  let name := input.rest.takeWhile isWordChar
  let input := input.advance name.length
  let ends := Input.endsOr (fun c => isSpaceOrBreak c || "?:,]\x7d%@\x60".toList.contains c)
  if !name.isEmpty && ends input.head? then .ok (name, input) else .error .badAnchor

/-! ## One token after the other -/

def lexEnd (lexer : Lexer) : Except Error Lexer := do
  let lexer ← (lexer.closeBlocks (-1)).dropKey
  return { lexer.emit .streamEnd with keyAllowed := false, keys := [], finished := true }

def lexDirective (lexer : Lexer) : Except Error Lexer := do
  let lexer ← (lexer.closeBlocks (-1)).dropKey
  let (token, input) ← readDirective lexer.input
  return { lexer.emit token with input, keyAllowed := false }

/-- A line that begins or ends a document. -/
def lexSeparator (lexer : Lexer) (token : Token) : Except Error Lexer := do
  let lexer ← (lexer.closeBlocks (-1)).dropKey
  return { lexer.emitMark 3 token with keyAllowed := false }

def lexFlowStart (lexer : Lexer) (token : Token) : Except Error Lexer := do
  let lexer ← lexer.saveKey
  return { lexer.emitMark 1 token with flowLevel := lexer.flowLevel + 1, keyAllowed := true }

def lexFlowEnd (lexer : Lexer) (token : Token) : Except Error Lexer := do
  let lexer ← lexer.dropKey
  return { lexer.emitMark 1 token with flowLevel := lexer.flowLevel - 1, keyAllowed := false }

def lexFlowEntry (lexer : Lexer) : Except Error Lexer := do
  let lexer ← lexer.dropKey
  return { lexer.emitMark 1 .flowEntry with keyAllowed := true }

def lexBlockEntry (lexer : Lexer) : Except Error Lexer := do
  if !lexer.inFlow && !lexer.keyAllowed then throw .misplacedEntry
  let lexer := if lexer.inFlow then lexer else lexer.openBlockHere .blockSequenceStart
  let lexer ← lexer.dropKey
  return { lexer.emitMark 1 .blockEntry with keyAllowed := true }

def lexKey (lexer : Lexer) : Except Error Lexer := do
  if !lexer.inFlow && !lexer.keyAllowed then throw .misplacedKey
  let lexer := if lexer.inFlow then lexer else lexer.openBlockHere .blockMappingStart
  let lexer ← lexer.dropKey
  return { lexer.emitMark 1 .key with keyAllowed := !lexer.inFlow }

def lexValue (lexer : Lexer) : Except Error Lexer := do
  match lexer.keys.find? (·.level == lexer.flowLevel) with
  | some key =>
    let keys := lexer.keys.filter (·.level != lexer.flowLevel)
    let lexer := { lexer with keys, tokens := lexer.tokens.insertIdxIfInBounds key.number .key }
    let lexer :=
      match if lexer.inFlow then none else lexer.openBlock? key.column with
      | some opened =>
        { opened with tokens := opened.tokens.insertIdxIfInBounds key.number .blockMappingStart }
      | none => lexer
    return { lexer.emitMark 1 .value with keyAllowed := false }
  | none =>
    if !lexer.inFlow && !lexer.keyAllowed then throw .misplacedValue
    let lexer := if lexer.inFlow then lexer else lexer.openBlockHere .blockMappingStart
    return { lexer.emitMark 1 .value with keyAllowed := !lexer.inFlow }

def lexAnchor (lexer : Lexer) (token : Text → Token) : Except Error Lexer := do
  let lexer ← lexer.saveKey
  let (name, input) ← readAnchorName lexer.input
  return { lexer.emit (token name) with input, keyAllowed := false }

def lexTag (lexer : Lexer) : Except Error Lexer := do
  let lexer ← lexer.saveKey
  let (token, input) ← readTag lexer.input
  return { lexer.emit token with input, keyAllowed := false }

def lexBlock (lexer : Lexer) (folded : Bool) : Except Error Lexer := do
  let lexer ← lexer.dropKey
  let (t, input) ← readBlock folded lexer.indent lexer.input
  return { lexer.emit (.scalar t false) with input, keyAllowed := true }

def lexQuoted (lexer : Lexer) (double : Bool) : Except Error Lexer := do
  let lexer ← lexer.saveKey
  let (t, input) ← readQuoted double lexer.input
  return { lexer.emit (.scalar t false) with input, keyAllowed := false }

def lexPlain (lexer : Lexer) : Except Error Lexer := do
  let lexer ← lexer.saveKey
  let (t, lineEnded, input) := readPlain lexer.inFlow (lexer.indent + 1) lexer.input
  return { lexer.emit (.scalar t true) with input, keyAllowed := lineEnded }

/-- Whether a plain text may begin with a character. -/
def startsPlain (lexer : Lexer) (c : Char) : Bool :=
  !(isSpaceOrBreak c || "-?:,[]\x7b\x7d#&*!|>\x27\x22%@\x60".toList.contains c)
    || (!lexer.input.blankAt 1 && (c == '-' || (!lexer.inFlow && (c == '?' || c == ':'))))

def lexToken (lexer : Lexer) (c : Char) : Except Error Lexer :=
  let input := lexer.input
  let separate := lexer.inFlow || input.blankAt 1
  if c = '%' && input.column = 0 then lexer.lexDirective
  else if input.column = 0 && input.atMarks '-' then lexer.lexSeparator .documentStart
  else if input.column = 0 && input.atMarks '.' then lexer.lexSeparator .documentEnd
  else if c = '[' then lexer.lexFlowStart .flowSequenceStart
  else if c = '\x7b' then lexer.lexFlowStart .flowMappingStart
  else if c = ']' then lexer.lexFlowEnd .flowSequenceEnd
  else if c = '\x7d' then lexer.lexFlowEnd .flowMappingEnd
  else if c = ',' then lexer.lexFlowEntry
  else if c = '-' && input.blankAt 1 then lexer.lexBlockEntry
  else if c = '?' && separate then lexer.lexKey
  else if c = ':' && separate then lexer.lexValue
  else if c = '*' then lexer.lexAnchor .alias
  else if c = '&' then lexer.lexAnchor .anchor
  else if c = '!' then lexer.lexTag
  else if c = '|' && !lexer.inFlow then lexer.lexBlock false
  else if c = '>' && !lexer.inFlow then lexer.lexBlock true
  else if c = '\x27' then lexer.lexQuoted false
  else if c = '\x22' then lexer.lexQuoted true
  else if lexer.startsPlain c then lexer.lexPlain
  else .error (.unexpectedCharacter c)

def advance (lexer : Lexer) : Except Error Lexer := do
  let lexer ← (lexer.skipByteOrderMark.skipBlanks lexer.input.bound).dropStaleKeys
  let lexer := lexer.closeBlocks lexer.input.column
  match lexer.input.head? with
  | none => lexer.lexEnd
  | some c => lexer.lexToken c

/-- Cuts tokens up to the end of the document or to a fault; every token but the last one takes a
character. -/
def run : (fuel : Nat) → Lexer → TokenStream
  | 0, lexer => ⟨lexer.settledTokens, some .tooDeep⟩
  | fuel + 1, lexer =>
    match lexer.advance with
    | .error fault => ⟨lexer.settledTokens, some fault⟩
    | .ok lexer => if lexer.finished then ⟨lexer.tokens.toList, none⟩ else run fuel lexer

end Lexer

def isAllowed (c : Char) : Bool :=
  let n := c.toNat
  n == 9 || n == 10 || n == 13 || (0x20 ≤ n && n ≤ 0x7E) || n == 0x85 || (0xA0 ≤ n && n ≤ 0xD7FF)
    || (0xE000 ≤ n && n ≤ 0xFFFD) || 0x10000 ≤ n

def tokenize (document : Text) : TokenStream :=
  match document.find? (!isAllowed ·) with
  | some c => ⟨[], some (.unprintableCharacter c)⟩
  | none => Lexer.run (document.length + 2) (Lexer.start document)

end PathOptions.Yaml
