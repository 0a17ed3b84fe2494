import PathOptions.Yaml.Lexer
import PathOptions.Yaml.Schema
/-!
The nodes of a document: scalars, sequences and mappings with their types. Sequences and mappings
are numbered, and an alias of one keeps the name of its anchor; an alias of a scalar is replaced by
the scalar.
-/

namespace PathOptions.Yaml

inductive Node where
  | scalar (tag : Tag) (text : Text)
  | sequence (number : Nat) (tag : Tag) (items : List Node)
  | mapping (number : Nat) (tag : Tag) (entries : List (Node × Node))
  | alias (name : Text)
  deriving Repr

/-- A document: its root and the nodes that have names. -/
structure Document where
  root : Node
  anchors : List (Text × Node)
  /-- The number of sequences and mappings. -/
  count : Nat
  /-- Whether an alias stands inside the node that it names. -/
  isKnotted : Bool
  deriving Repr

namespace Node

/-- What is left to read, with the anchors and the tag handles known so far. -/
structure Rest where
  stream : TokenStream
  /-- The anchors of nodes that are read or being read. -/
  declared : List Text
  anchors : List (Text × Node)
  handles : List (Text × Text)
  /-- The number of sequences and mappings that are begun. -/
  count : Nat
  isKnotted : Bool

abbrev Reader := StateT Rest (Except Error)

/-- The next token; behind the last one, the fault of the stream or the end again. -/
def peek : Reader Token := do
  let stream := (← get).stream
  match stream.tokens, stream.fault with
  | token :: _, _ => return token
  | [], some fault => throw fault
  | [], none => return .streamEnd

def skip : Reader Unit :=
  modify fun rest => { rest with stream := { rest.stream with tokens := rest.stream.tokens.tail } }

/-- Passes over a token if it is the given one, and says so. -/
def skipIf (token : Token) : Reader Bool := do
  if (← peek) = token then
    skip
    return true
  return false

/-- A number for a sequence or mapping. -/
def number : Reader Nat := do
  let count := (← get).count
  modify fun rest => { rest with count := count + 1 }
  return count

def readAlias (name : Text) : Reader Node := do
  let rest ← get
  match rest.anchors.find? (·.1 == name) with
  | some (_, .scalar tag t) => return .scalar tag t
  | some _ => return .alias name
  | none =>
    if !rest.declared.contains name then throw (.undefinedAlias name)
    set { rest with isKnotted := true }
    return .alias name

def empty : Node := .scalar .null []

/-- Declares the anchor of a node before the parts of the node are read. -/
def declare (anchor : Option Text) : Reader Unit := do
  match anchor with
  | none => return
  | some name =>
    if (← get).declared.contains name then throw (.duplicateAnchor name)
    modify fun rest => { rest with declared := name :: rest.declared }

def register (anchor : Option Text) (node : Node) : Reader Node := do
  match anchor with
  | none => return node
  | some name =>
    modify fun rest => { rest with anchors := (name, node) :: rest.anchors }
    return node

def readAnchor : Reader (Option Text) := do
  match ← peek with
  | .anchor name =>
    skip
    return some name
  | _ => return none

def readTag : Reader (Option (Option Text × Text)) := do
  match ← peek with
  | .tag handle suffix =>
    skip
    return some (handle, suffix)
  | _ => return none

def fullTag : Option Text × Text → Reader Text
  | (none, suffix) => return suffix
  | (some handle, suffix) => do
    match (← get).handles.find? (·.1 == handle) with
    | some (_, lead) => return lead ++ suffix
    | none => throw (.undefinedHandle handle)

/-- An anchor and a tag in either order. -/
def readProperties : Reader (Option Text × Option Text) := do
  let first ← readAnchor
  match ← readTag with
  | none => return (first, none)
  | some written =>
    let anchor ← if first.isSome then pure first else readAnchor
    return (anchor, some (← fullTag written))

/-- The tag that leaves the type open. -/
def openTag : Text := ['!']

def scalarTag (tag : Option Text) (plain : Bool) (t : Text) : Tag :=
  match tag with
  | none => if plain then plainTag t else .text
  | some name => if name = openTag then plainTag t else Tag.ofName name

def collectionTag (tag : Option Text) (implicit : Tag) : Tag :=
  match tag with
  | none => implicit
  | some name => if name = openTag then implicit else Tag.ofName name

/-- Where a node stands: only a block may hold blocks, and a value may be a block sequence that is
not indented. -/
inductive Place where
  | block
  | blockValue
  | flow
  deriving DecidableEq, Repr

/-- Tokens behind which nothing is left of a block entry. -/
def endsBlockEntry : Token → Bool
  | .key | .value | .blockEnd => true
  | _ => false

mutual

def readNode (place : Place) : (fuel : Nat) → Reader Node
  | 0 => throw .tooDeep
  | fuel + 1 => do
    match ← peek with
    | .alias name =>
      skip
      readAlias name
    | _ =>
      let (anchor, tag) ← readProperties
      let token ← peek
      if place = .blockValue && token = .blockEntry then
        declare anchor
        let items ← readFlatItems fuel
        register anchor (.sequence (← number) (collectionTag tag .sequence) items)
      else
        match token with
        | .scalar t plain =>
          skip
          declare anchor
          register anchor (.scalar (scalarTag tag plain t) t)
        | .flowSequenceStart =>
          declare anchor
          skip
          let items ← readFlowItems true fuel
          register anchor (.sequence (← number) (collectionTag tag .sequence) items)
        | .flowMappingStart =>
          declare anchor
          skip
          let entries ← readFlowEntries true fuel
          register anchor (.mapping (← number) (collectionTag tag .mapping) entries)
        | token =>
          if place ≠ .flow && token = .blockSequenceStart then
            declare anchor
            skip
            let items ← readBlockItems fuel
            register anchor (.sequence (← number) (collectionTag tag .sequence) items)
          else if place ≠ .flow && token = .blockMappingStart then
            declare anchor
            skip
            let entries ← readBlockEntries fuel
            register anchor (.mapping (← number) (collectionTag tag .mapping) entries)
          else if anchor.isSome || tag.isSome then
            declare anchor
            register anchor (.scalar (scalarTag tag true []) [])
          else throw .expectedContent

def readBlockItems : (fuel : Nat) → Reader (List Node)
  | 0 => throw .tooDeep
  | fuel + 1 => do
    if ← skipIf .blockEntry then
      let next ← peek
      let item ←
        if next = .blockEntry || next = .blockEnd then pure empty else readNode .block fuel
      return item :: (← readBlockItems fuel)
    else if ← skipIf .blockEnd then return []
    else throw .expectedBlockEnd

def readFlatItems : (fuel : Nat) → Reader (List Node)
  | 0 => throw .tooDeep
  | fuel + 1 => do
    if ← skipIf .blockEntry then
      let next ← peek
      let item ←
        if next = .blockEntry || endsBlockEntry next then pure empty else readNode .block fuel
      return item :: (← readFlatItems fuel)
    else return []

def readBlockEntries : (fuel : Nat) → Reader (List (Node × Node))
  | 0 => throw .tooDeep
  | fuel + 1 => do
    if ← skipIf .key then
      let key ← if endsBlockEntry (← peek) then pure empty else readNode .blockValue fuel
      let value ← readBlockValue fuel
      return (key, value) :: (← readBlockEntries fuel)
    else if ← skipIf .blockEnd then return []
    else throw .expectedBlockEnd

def readBlockValue : (fuel : Nat) → Reader Node
  | 0 => throw .tooDeep
  | fuel + 1 => do
    if ← skipIf .value then
      if endsBlockEntry (← peek) then return empty else readNode .blockValue fuel
    else return empty

def readFlowItems (first : Bool) : (fuel : Nat) → Reader (List Node)
  | 0 => throw .tooDeep
  | fuel + 1 => do
    if ← skipIf .flowSequenceEnd then return []
    if !first then
      if !(← skipIf .flowEntry) then throw .expectedFlowEntry
    if ← skipIf .key then
      let next ← peek
      let key ←
        if next = .value || next = .flowEntry || next = .flowSequenceEnd then pure empty
        else readNode .flow fuel
      let value ← readFlowValue .flowSequenceEnd fuel
      let item := Node.mapping (← number) .mapping [(key, value)]
      return item :: (← readFlowItems false fuel)
    else if ← skipIf .flowSequenceEnd then return []
    else
      let item ← readNode .flow fuel
      return item :: (← readFlowItems false fuel)

def readFlowEntries (first : Bool) : (fuel : Nat) → Reader (List (Node × Node))
  | 0 => throw .tooDeep
  | fuel + 1 => do
    if ← skipIf .flowMappingEnd then return []
    if !first then
      if !(← skipIf .flowEntry) then throw .expectedFlowEntry
    if ← skipIf .key then
      let next ← peek
      let key ←
        if next = .value || next = .flowEntry || next = .flowMappingEnd then pure empty
        else readNode .flow fuel
      let value ← readFlowValue .flowMappingEnd fuel
      return (key, value) :: (← readFlowEntries false fuel)
    else if ← skipIf .flowMappingEnd then return []
    else
      let key ← readNode .flow fuel
      return (key, empty) :: (← readFlowEntries false fuel)

/-- Reads the value of a key in a flow collection with the given closing bracket. -/
def readFlowValue (close : Token) : (fuel : Nat) → Reader Node
  | 0 => throw .tooDeep
  | fuel + 1 => do
    if ← skipIf .value then
      let next ← peek
      if next = .flowEntry || next = close then return empty else readNode .flow fuel
    else return empty

end

def standardHandles : List (Text × Text) := [(['!'], ['!']), (['!', '!'], Tag.standardLead)]

def readDirectives (version : Bool) : (fuel : Nat) → Reader Unit
  | 0 => throw .tooDeep
  | fuel + 1 => do
    match ← peek with
    | .directive name =>
      skip
      let isVersion := name = "YAML".toList
      if isVersion && version then throw .badDirective
      readDirectives (version || isVersion) fuel
    | .tagDirective handle lead =>
      skip
      if (← get).handles.any (·.1 == handle) then throw .badDirective
      modify fun rest => { rest with handles := (handle, lead) :: rest.handles }
      readDirectives version fuel
    | _ => return

def skipDocumentEnds : (fuel : Nat) → Reader Unit
  | 0 => return
  | fuel + 1 => do if ← skipIf .documentEnd then skipDocumentEnds fuel

/-- Reads a document that begins with directives or a separating line. -/
def readExplicit (fuel : Nat) : Reader Node := do
  readDirectives false fuel
  modify fun rest =>
    let missing := standardHandles.filter fun (h, _) => !rest.handles.any (·.1 == h)
    { rest with handles := rest.handles ++ missing }
  if !(← skipIf .documentStart) then throw .expectedDocumentStart
  match ← peek with
  | .directive _ | .tagDirective .. | .documentStart | .documentEnd | .streamEnd => return empty
  | _ => readNode .block fuel

/-- Reads the only document of a stream; there may be none. The directives of a second document are
read before it is refused. -/
def readStream (fuel : Nat) : Reader (Option Node) := do
  match ← peek with
  | .streamEnd => return none
  | .directive _ | .tagDirective .. | .documentStart =>
    let node ← readExplicit fuel
    finish node
  | _ =>
    modify fun rest => { rest with handles := standardHandles }
    let node ← readNode .block fuel
    finish node
where
  finish (node : Node) : Reader (Option Node) := do
    skipDocumentEnds fuel
    if (← peek) = .streamEnd then return some node
    modify fun rest => { rest with handles := [] }
    readDirectives false fuel
    throw .severalDocuments

end Node

/-- The document of a stream of tokens; none if the stream holds no document. -/
def Document.ofTokens (stream : TokenStream) : Except Error (Option Document) := do
  let fuel := 2 * stream.tokens.length + 4
  let (root, rest) ← (Node.readStream fuel).run ⟨stream, [], [], [], 0, false⟩
  return root.map fun root => ⟨root, rest.anchors, rest.count, rest.isKnotted⟩

end PathOptions.Yaml
