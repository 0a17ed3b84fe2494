import PathOptions.Value.Written
import PathOptions.Yaml.Node
/-!
The collections of a document as a graph. An alias may stand inside the collection that it names,
so that a collection can contain itself; a value is made from the graph by unfolding it. Keys must
be scalars; of two entries with the same key the later value counts; the entries of merged mappings
come before the others. Of several faults the one nearest to the root is reported, and of those at
the same depth the first.
-/

namespace PathOptions.Yaml

/-- An item of a list, or the value of an entry: a scalar, or a collection by its number. -/
inductive Part where
  | scalar (s : Scalar)
  | collection (number : Nat)
  deriving Repr

inductive Collection where
  | list (items : List Part)
  | map (entries : List (Scalar × Part))
  deriving Repr

structure Graph where
  root : Part
  collections : Array (Option Collection)
  deriving Repr

/-! ## From nodes to collections -/

def Node.isMerge : Node → Bool
  | .scalar .merge _ => true
  | _ => false

/-- Whether a scalar has the type of a collection, which shows only when its parts are asked for. -/
def Tag.isHollow : Tag → Bool
  | .sequence | .mapping => true
  | _ => false

namespace Document

/-- The node that an alias stands for; any other node stands for itself. -/
def resolve (document : Document) : Node → Node
  | .alias name =>
    match document.anchors.find? (·.1 == name) with
    | some (_, node) => node
    | none => .empty
  | node => node

mutual

/-- The entries of a mapping after its merges. A mapping that is merged into itself brings its own
entries. -/
def flatten (document : Document) (around : List Nat) (number : Nat) :
    (fuel : Nat) → List (Node × Node) → Except Error (List (Node × Node))
  | 0, _ => .error .tooDeep
  | fuel + 1, entries => do
    let own := entries.filter (!·.1.isMerge)
    if around.contains number then return own
    let merged ← (entries.filter (·.1.isMerge)).mapM fun (_, value) =>
      document.mergedEntries (number :: around) fuel value
    return merged.flatten ++ own

/-- The entries that a merged value brings; of several mappings the earlier ones count more. -/
def mergedEntries (document : Document) (around : List Nat) :
    (fuel : Nat) → Node → Except Error (List (Node × Node))
  | 0, _ => .error .tooDeep
  | fuel + 1, value =>
    match document.resolve value with
    | .mapping number _ entries => document.flatten around number fuel entries
    | .sequence _ _ items => do
      let parts ← items.mapM fun item =>
        match document.resolve item with
        | .mapping number _ entries => document.flatten around number fuel entries
        | _ => throw Error.badMerge
      return parts.reverse.flatten
    | _ => .error .badMerge

end

/-- A node as a part, with the node itself if its own parts are still to be looked at. -/
def partOf (document : Document) (node : Node) : Except Error (Part × List Node) :=
  let node := document.resolve node
  match node with
  | .scalar tag t =>
    if tag.isHollow then .ok (.scalar .null, [node])
    else (scalarValue tag t).map fun s => (.scalar s, [])
  | .sequence number tag _ | .mapping number tag _ =>
    match tag with
    | .sequence | .mapping => .ok (.collection number, [node])
    | .other name => .error (.unknownTag name)
    | _ => .error .expectedContent
  | .alias name => .error (.undefinedAlias name)

def keyOf (document : Document) (node : Node) : Except Error Scalar :=
  match document.resolve node with
  | .scalar .default t => .ok (.text t)
  | node => do
    match ← document.partOf node with
    | (.scalar s, []) => return s
    | _ => throw .unhashableKey

/-- The collection that a node is, with the nodes in it whose parts are still to be looked at. -/
def collectionOf (document : Document) (fuel : Nat) :
    Node → Except Error (Collection × List Node)
  | .sequence _ .sequence items => do
    let parts ← items.mapM document.partOf
    return (.list (parts.map (·.1)), parts.flatMap (·.2))
  | .mapping number .mapping entries => do
    let entries ← document.flatten [] number fuel entries
    let parts ← entries.mapM fun (key, value) => do
      return (← document.keyOf key, ← document.partOf value)
    let put := fun entries (key, part, _) => Value.put Scalar.sameDocumentKey entries key part
    return (.map (parts.foldl put []), parts.flatMap (·.2.2))
  | _ => .error .expectedContent

def isKnown (collections : Array (Option Collection)) : Node → Bool
  | .sequence number _ _ | .mapping number _ _ => (collections[number]?.join).isSome
  | _ => false

/-- Notes a collection under the number of its node. -/
def note (collections : Array (Option Collection)) (collection : Collection) :
    Node → Array (Option Collection)
  | .sequence number _ _ | .mapping number _ _ => collections.setIfInBounds number (some collection)
  | _ => collections

/-- Looks at the parts of some nodes in turn; gives the nodes in them that are to be looked at. -/
def lookAt (document : Document) (collections : Array (Option Collection)) :
    List Node → Except Error (Array (Option Collection) × List Node)
  | [] => .ok (collections, [])
  | node :: rest => do
    if isKnown collections node then document.lookAt collections rest
    else
      let (collection, inner) ← document.collectionOf (2 * document.count + 2) node
      let (collections, later) ← document.lookAt (note collections collection node) rest
      return (collections, inner ++ later)

/-- Looks at the parts of some nodes, then at the parts of those parts, and so on. -/
def lookDeeper (document : Document) :
    (fuel : Nat) → Array (Option Collection) → List Node →
      Except Error (Array (Option Collection))
  | 0, collections, _ => .ok collections
  | _ + 1, collections, [] => .ok collections
  | fuel + 1, collections, nodes => do
    let (collections, inner) ← document.lookAt collections nodes
    document.lookDeeper fuel collections inner

/-- The graph of a document; every level brings a collection that is not known yet. -/
def graph (document : Document) : Except Error Graph := do
  let (root, nodes) ← document.partOf document.root
  let unknown := Array.replicate document.count none
  return ⟨root, ← document.lookDeeper (document.count + 2) unknown nodes⟩

end Document

/-! ## From collections to values -/

namespace Graph

/-- The value of a collection, given those of its parts. -/
def layer (graph : Graph) (number : Nat) (value : Part → Value) : Value :=
  match graph.collections[number]?.join with
  | some (.list items) => .list (items.map value)
  | some (.map entries) => .map (entries.map fun (key, part) => (key, value part))
  | none => .null

/-- The collections that are parts of a collection. -/
def inner (graph : Graph) (number : Nat) : List Nat :=
  let parts : List Part :=
    match graph.collections[number]?.join with
    | some (.list items) => items
    | some (.map entries) => entries.map (·.2)
    | none => []
  parts.filterMap fun
    | .collection other => some other
    | .scalar _ => none

/-- The collections that can be reached from some others, these included. -/
def reachable (graph : Graph) : (fuel : Nat) → (known next : List Nat) → List Nat
  | 0, known, _ => known
  | _ + 1, known, [] => known
  | fuel + 1, known, next =>
    let fresh := (next.filter (!known.contains ·)).eraseDups
    graph.reachable fuel (fresh ++ known) (fresh.flatMap graph.inner)

/-- Whether a collection contains itself, directly or in a part. -/
def isCyclic (graph : Graph) (number : Nat) : Bool :=
  (graph.reachable (graph.collections.size + 1) [] (graph.inner number)).contains number

def dots (graph : Graph) (number : Nat) : Value :=
  match graph.collections[number]?.join with
  | some (.map _) => .cyclic "\x7b...\x7d".toList (.map [])
  | _ => .cyclic "[...]".toList (.list [])

/-- A part in which no collection stands inside itself. -/
def cut (graph : Graph) : (fuel : Nat) → (around : List Nat) → Part → Value
  | _, _, .scalar s => .scalar s
  | 0, _, .collection number => graph.dots number
  | fuel + 1, around, .collection number =>
    if around.contains number then graph.dots number
    else graph.layer number (graph.cut fuel (number :: around))

def tree (graph : Graph) (known : List (Nat × Value)) : (fuel : Nat) → Part → Value
  | _, .scalar s => .scalar s
  | 0, .collection number => graph.dots number
  | fuel + 1, .collection number =>
    match known.find? (·.1 == number) with
    | some (_, value) => value
    | none => graph.layer number (graph.tree known fuel)

/-- The values of collections that contain themselves, unfolded a number of times. The texts of the
collections are given. -/
def unfold (graph : Graph) (texts : List (Nat × Text)) : (times : Nat) → List (Nat × Value)
  | 0 => texts.map fun (number, written) => (number, .cyclic written (graph.dots number))
  | times + 1 =>
    let known := graph.unfold texts times
    let part := graph.tree known graph.collections.size
    texts.map fun (number, written) => (number, .cyclic written (graph.layer number part))

/-- How often a collection that contains itself is unfolded. A configuration is looked into less
deep: its sections, a profile, its options, an entry and the value. -/
def depth : Nat := 8

/-- The value of a graph. Only a document with an alias inside its own node needs unfolding. -/
def value (graph : Graph) (isKnotted : Bool) : Value :=
  let size := graph.collections.size
  let cyclic := if isKnotted then (List.range size).filter graph.isCyclic else []
  let texts := cyclic.map fun number => (number, (graph.cut size [] (.collection number)).quoted)
  graph.tree (graph.unfold texts depth) (size + 1) graph.root

end Graph

end PathOptions.Yaml
