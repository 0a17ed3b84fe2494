import PathOptions.Value.Written
/-!
Reports as lines of fields, with a tab between two fields and a newline between two lines. Tabs and
newlines inside a field are written with a backslash.
-/

namespace PathOptions

structure Table where
  columns : List Value
  rows : List (List Value)
  deriving Repr

namespace Table

def maxRows : Nat := 100000

inductive Error where
  | missingKeys
  | rowLength (row actual expected : Nat)
  | tooManyRows (count : Nat)
  /-- A value of this type has no entries. -/
  | noEntries (typeName : String)
  | noLength (typeName : String)
  | notIterable (typeName : String)
  deriving DecidableEq, Repr

/-- A number with commas between groups of three digits. -/
def grouped (n : Nat) : Text :=
  let rec insert : Nat → Text → Text
    | _, [] => []
    | k, c :: cs =>
      if k % 3 = 0 ∧ k ≠ 0 then ',' :: c :: insert (k + 1) cs else c :: insert (k + 1) cs
  (insert 0 (Nat.toDigits 10 n).reverse).reverse

def Error.message : Error → String
  | .missingKeys => "table must have 'columns' and 'rows' keys"
  | .rowLength row actual expected =>
    "row " ++ toString row ++ " has " ++ toString actual ++ " values, expected "
      ++ toString expected
  | .tooManyRows count =>
    "Table has " ++ Text.str (grouped count) ++ " rows, exceeds limit of "
      ++ Text.str (grouped maxRows)
  | .noEntries "list" => "list indices must be integers or slices, not str"
  | .noEntries "str" => "string indices must be integers, not 'str'"
  | .noEntries typeName => "argument of type '" ++ typeName ++ "' is not iterable"
  | .noLength typeName => "object of type '" ++ typeName ++ "' has no len()"
  | .notIterable typeName => "'" ++ typeName ++ "' object is not iterable"

/-- The values that a value consists of when it is read as a row: items, keys or characters. -/
def rowOf? : Value → Option (List Value)
  | .list items => some items
  | .map entries => some (entries.map fun (key, _) => .scalar key)
  | .scalar (.text t) => some (t.map fun c => .text [c])
  | .scalar _ => none
  | .cyclic _ unfolded => rowOf? unfolded

def readRow (value : Value) : Except Error (List Value) :=
  match rowOf? value with
  | some row => .ok row
  | none => .error (.noLength value.typeName)

/-- Reads rows of a given length, counted from a number. -/
def readRows (expected : Nat) : Nat → List Value → Except Error (List (List Value))
  | _, [] => .ok []
  | i, value :: rest => do
    let row ← readRow value
    if row.length ≠ expected then throw (.rowLength i row.length expected)
    let others ← readRows expected (i + 1) rest
    return row :: others

def requiredKeys : List Text := ["columns".toList, "rows".toList]

def occursIn (part : Text) : Text → Bool
  | [] => part.isEmpty
  | c :: cs => part.isPrefixOf (c :: cs) || occursIn part cs

/-- Why a value that is no mapping is no table: the keys are looked for among its items or in its
text before an entry is taken. -/
def refusal : Value → Error
  | .list items =>
    let isItem := fun key => items.any fun item =>
      match item with
      | .scalar (.text t) => t == key
      | _ => false
    if requiredKeys.all isItem then .noEntries "list" else .missingKeys
  | .scalar (.text t) =>
    if requiredKeys.all (occursIn · t) then .noEntries "str" else .missingKeys
  | value => .noEntries value.typeName

/-- Reads a table from a mapping with columns and rows; every row must have one value for each
column. -/
def ofValue (value : Value) : Except Error Table :=
  match value.exposed with
  | .map entries =>
    match requiredKeys.map (Value.lookup entries) with
    | [some columns, some rows] => do
      let columns ← readRow columns
      match rowOf? rows with
      | none => throw (.notIterable rows.typeName)
      | some rows => return ⟨columns, ← readRows columns.length 0 rows⟩
    | _ => .error .missingKeys
  | value => .error (refusal value)

def fieldChar (c : Char) : Text :=
  if c = '\t' then ['\\', 't'] else if c = '\n' then ['\\', 'n'] else [c]

/-- A value as a field: nothing for null, and no tab or newline. -/
def field : Value → Text
  | .scalar .null => []
  | value => value.plain.flatMap fieldChar

def lines (table : Table) : List Text :=
  Text.join '\t' (table.columns.map Value.plain)
    :: table.rows.map fun row => Text.join '\t' (row.map field)

/-- The text of a table that is not too long. -/
def format (table : Table) : Except Error Text :=
  if table.rows.length > maxRows then .error (.tooManyRows table.rows.length)
  else .ok (Text.join '\n' table.lines)

end Table

end PathOptions
