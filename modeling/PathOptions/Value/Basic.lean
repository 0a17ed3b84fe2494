import PathOptions.Binary64.Basic
import PathOptions.Text.Basic
/-!
The values that a configuration file holds: scalars, lists, and mappings from scalars to values
that keep the order of their entries. A list or mapping may contain itself.
-/

namespace PathOptions

/-- A value of a type that nothing in a configuration asks for, as far as it shows. -/
structure OtherValue where
  typeName : String
  plain : Text
  quoted : Text
  isBlank : Bool
  /-- By these texts the values of one type are put in order. -/
  rank : Text
  deriving DecidableEq, Repr

/-- A value without parts; only scalars can be keys. -/
inductive Scalar where
  | null
  | bool (b : Bool)
  | int (i : Int)
  | real (x : Binary64)
  | text (t : Text)
  /-- A calendar date in its ISO form. -/
  | date (t : Text)
  /-- A moment, some bytes, a set and the like. -/
  | other (value : OtherValue)
  deriving DecidableEq, Repr

inductive Value where
  | scalar (s : Scalar)
  | list (items : List Value)
  | map (entries : List (Scalar × Value))
  /-- A list or mapping that contains itself: its written form, in which dots stand for it where it
  comes again, and the list or mapping, unfolded as far as one looks into it. -/
  | cyclic (written : Text) (unfolded : Value)
  deriving Repr

namespace Scalar

/-- Truth values count as the integers 0 and 1. -/
def toInt? : Scalar → Option Int
  | .bool b => some (if b then 1 else 0)
  | .int i => some i
  | .real x => x.toInt?
  | _ => none

/-- Whether two scalars are the same key: numbers by value, whatever their type, and a NaN equals
no key. -/
def sameKey (a b : Scalar) : Bool :=
  match a.toInt?, b.toInt? with
  | some i, some j => i == j
  | some _, none | none, some _ => false
  | none, none => a == b && a != .real .nan

/-- Whether two scalars are the same key of one document, in which there is only one NaN. -/
def sameDocumentKey (a b : Scalar) : Bool := a.sameKey b || a == .real .nan && b == .real .nan

end Scalar

namespace Value

abbrev null : Value := .scalar .null

abbrev bool (b : Bool) : Value := .scalar (.bool b)

abbrev int (i : Int) : Value := .scalar (.int i)

abbrev text (t : Text) : Value := .scalar (.text t)

/-- The list or mapping that a value is if it contains itself; any other value. -/
def exposed : Value → Value
  | .cyclic _ unfolded => unfolded
  | value => value

@[simp] theorem exposed_scalar (s : Scalar) : (scalar s).exposed = scalar s := rfl

@[simp] theorem exposed_list (items : List Value) : (list items).exposed = list items := rfl

@[simp] theorem exposed_map (entries : List (Scalar × Value)) :
    (map entries).exposed = map entries := rfl

/-- Puts an entry into a mapping with a test for equal keys: an existing key keeps its place and its
first spelling and gets the new value. -/
def put {α : Type} (same : Scalar → Scalar → Bool) (entries : List (Scalar × α)) (key : Scalar)
    (value : α) : List (Scalar × α) :=
  match entries with
  | [] => [(key, value)]
  | (k, v) :: rest => if same k key then (k, value) :: rest else (k, v) :: put same rest key value

def ofEntries (same : Scalar → Scalar → Bool) (entries : List (Scalar × Value)) :
    List (Scalar × Value) :=
  entries.foldl (fun map (key, value) => put same map key value) []

def lookup (entries : List (Scalar × Value)) (key : Text) : Option Value :=
  match entries with
  | [] => none
  | (k, v) :: rest => if k = .text key then some v else lookup rest key

/-- Whether a value says nothing: null, false, zero, or an empty text, list or mapping. -/
def isBlank : Value → Bool
  | .scalar .null => true
  | .scalar (.bool b) => !b
  | .scalar (.int i) => i == 0
  | .scalar (.real x) => x.isZero
  | .scalar (.text t) => t.isEmpty
  | .scalar (.date _) => false
  | .scalar (.other value) => value.isBlank
  | .list items => items.isEmpty
  | .map entries => entries.isEmpty
  | .cyclic _ _ => false

def typeName : Value → String
  | .scalar .null => "NoneType"
  | .scalar (.bool _) => "bool"
  | .scalar (.int _) => "int"
  | .scalar (.real _) => "float"
  | .scalar (.text _) => "str"
  | .scalar (.date _) => "date"
  | .scalar (.other value) => value.typeName
  | .list _ => "list"
  | .map _ => "dict"
  | .cyclic _ unfolded => unfolded.typeName

end Value

end PathOptions
