import PathOptions.Binary64.Shortest
import PathOptions.Value.Basic
import PathOptions.Yaml.Error
/-!
The types of scalars: which type an untagged plain text has, and which value a text has under a
type.
-/

namespace PathOptions.Yaml

inductive Tag where
  | null
  | bool
  | int
  | float
  | date
  | text
  /-- Takes the entries of other mappings into a mapping. -/
  | merge
  /-- Stands for the value of the mapping in which it is a key. -/
  | default
  | sequence
  | mapping
  | other (tag : Text)
  deriving DecidableEq, Repr

namespace Tag

def standardLead : Text := "tag:yaml.org,2002:".toList

def names : List (Text × Tag) := [
  ("null".toList, .null), ("bool".toList, .bool), ("int".toList, .int), ("float".toList, .float),
  ("timestamp".toList, .date), ("str".toList, .text), ("merge".toList, .merge),
  ("value".toList, .default), ("seq".toList, .sequence), ("map".toList, .mapping)]

def ofName (name : Text) : Tag :=
  if standardLead.isPrefixOf name then
    match names.find? (·.1 == name.drop standardLead.length) with
    | some (_, tag) => tag
    | none => .other name
  else .other name

end Tag

/-! ## Forms of plain texts -/

def dropSign : Text → Text
  | '+' :: t => t
  | '-' :: t => t
  | t => t

def isDigitOrLine (c : Char) : Bool := c.isDigit || c == '_'

/-- A digit and then digits and low lines. -/
def isGroupedNumber : Text → Bool
  | c :: rest => c.isDigit && rest.all isDigitOrLine
  | [] => false

/-- A part of a number to the base 60: at most two digits, below 60. -/
def isSixtieth : Text → Bool
  | [c] => c.isDigit
  | [c, d] => '0' ≤ c && c ≤ '5' && d.isDigit
  | _ => false

/-- A colon-separated number to the base 60 behind its first part. -/
def areSixtieths (parts : List Text) : Bool := !parts.isEmpty && parts.all isSixtieth

/-- Whether an unsigned text is an integer: binary, octal, hexadecimal, decimal or to the base
60. -/
def isUnsignedInt (t : Text) : Bool :=
  match t with
  | ['0'] => true
  | '0' :: 'b' :: digits =>
    !digits.isEmpty && digits.all fun c => c == '0' || c == '1' || c == '_'
  | '0' :: 'x' :: digits =>
    !digits.isEmpty && digits.all fun c => c == '_' || c.isDigit
      || ('a' ≤ c && c ≤ 'f') || ('A' ≤ c && c ≤ 'F')
  | '0' :: digits => digits.all fun c => c == '_' || ('0' ≤ c && c ≤ '7')
  | t =>
    match Text.pieces ':' t with
    | first :: parts => isGroupedNumber first && (parts.isEmpty || areSixtieths parts)
    | [] => false

/-- An exponent with its sign, from its letter on, or nothing. -/
def isExponent : Text → Bool
  | [] => true
  | c :: sign :: digits =>
    (c == 'e' || c == 'E') && (sign == '+' || sign == '-') && Text.isDigits digits
  | _ => false

/-- Whether a text is digits and low lines and then perhaps an exponent. -/
def isFraction (t : Text) : Bool := isExponent (t.dropWhile isDigitOrLine)

/-- Whether a text is a number with a point, an infinity or a NaN. A sign is not allowed before a
point that begins a number. -/
def isFloat (t : Text) : Bool :=
  let unsigned := dropSign t
  let infinities := [".inf".toList, ".Inf".toList, ".INF".toList]
  let nans := [".nan".toList, ".NaN".toList, ".NAN".toList]
  let plain :=
    match t with
    | '.' :: c :: rest => c.isDigit && isFraction (c :: rest)
    | _ => false
  let (whole, part) := Text.cutFirst '.' unsigned
  let pointed :=
    match part with
    | none => false
    | some fraction =>
      (isGroupedNumber whole && isFraction fraction)
        || (match Text.pieces ':' whole with
          | first :: parts =>
            isGroupedNumber first && areSixtieths parts && fraction.all isDigitOrLine
          | [] => false)
  plain || pointed || infinities.contains unsigned || nans.contains t

/-- Whether a text has the form of a date: year, month and day in digits. -/
def isDate (t : Text) : Bool :=
  match Text.pieces '-' t with
  | [year, month, day] =>
    year.length == 4 && month.length == 2 && day.length == 2
      && year.all Char.isDigit && month.all Char.isDigit && day.all Char.isDigit
  | _ => false

def boolWords : List (Text × Bool) := [
  ("yes".toList, true), ("no".toList, false), ("true".toList, true), ("false".toList, false),
  ("on".toList, true), ("off".toList, false)]

/-- Whether a word is written in lower case, in upper case or with a capital. -/
def isCased (word t : Text) : Bool :=
  t == word || t == word.map Char.toUpper || t == (word.take 1).map Char.toUpper ++ word.drop 1

def isBool (t : Text) : Bool := boolWords.any fun (word, _) => isCased word t

def isNull (t : Text) : Bool := t.isEmpty || t == ['~'] || isCased "null".toList t

def plainTag (t : Text) : Tag :=
  if isNull t then .null
  else if isBool t then .bool
  else if isFloat t then .float
  else if isUnsignedInt (dropSign t) then .int
  else if isDate t then .date
  else if t = ['<', '<'] then .merge
  else if t = ['='] then .default
  else .text

/-! ## Values of texts -/

def valueInBase (base : Nat) (digits : Text) : Except Error Nat := do
  if digits.isEmpty then throw (.digitsMissing base)
  let digit := fun (c : Char) =>
    if c.isDigit then c.toNat - 48 else if 'a' ≤ c then c.toNat - 87 else c.toNat - 55
  return digits.foldl (fun n c => base * n + digit c) 0

def intValue (t : Text) : Except Error Int := do
  let t := t.filter (· != '_')
  let n ← match dropSign t with
    | ['0'] => pure 0
    | '0' :: 'b' :: digits => valueInBase 2 digits
    | '0' :: 'x' :: digits => valueInBase 16 digits
    | '0' :: digits => valueInBase 8 ('0' :: digits)
    | unsigned =>
      pure ((Text.pieces ':' unsigned).foldl (fun n part => 60 * n + Text.digitsValue part) 0)
  return if t.head? = some '-' then -(n : Int) else n

/-- The sum of the parts of a number to the base 60, the last part first. -/
def sumSixtieths : (unit : Nat) → (sum : Binary64) → List Text → Option Binary64
  | _, sum, [] => some sum
  | unit, sum, part :: rest => do
    let x ← Binary64.readUnsigned? part
    sumSixtieths (60 * unit) (sum.addMultiple x unit) rest

def floatValue (t : Text) : Except Error Binary64 := do
  let t := (t.filter (· != '_')).map Char.toLower
  let unsigned := dropSign t
  let x ←
    if unsigned = ".inf".toList then pure (.infinite false)
    else if unsigned = ".nan".toList then pure .nan
    else
      let read :=
        match Text.pieces ':' unsigned with
        | [single] => Binary64.readUnsigned? single
        | parts => sumSixtieths 1 (.zero false) parts.reverse
      match read with
      | some x => pure x
      | none => throw (Error.badScalar t)
  return if t.head? = some '-' then x.negate else x

def daysIn (year month : Nat) : Nat :=
  if month = 2 then
    if (year % 4 = 0 && year % 100 ≠ 0) || year % 400 = 0 then 29 else 28
  else if month = 4 || month = 6 || month = 9 || month = 11 then 30
  else 31

def dateValue (t : Text) : Except Error Scalar := do
  match (Text.pieces '-' t).map Text.digitsValue with
  | [year, month, day] =>
    if year = 0 then throw .yearOutOfRange
    if month < 1 || 12 < month then throw .monthOutOfRange
    if day < 1 || daysIn year month < day then throw .dayOutOfRange
    return .date t
  | _ => throw (.badScalar t)

def scalarValue (tag : Tag) (t : Text) : Except Error Scalar := do
  match tag with
  | .null => return .null
  | .bool =>
    match boolWords.find? (·.1 == t.map Char.toLower) with
    | some (_, b) => return .bool b
    | none => throw (.unknownTruthWord (t.map Char.toLower))
  | .int =>
    if (dropSign (t.filter (· != '_'))).isEmpty then throw .emptyNumber
    else if isUnsignedInt (dropSign t) then return .int (← intValue t)
    else throw (.badScalar t)
  | .float =>
    if (t.filter (· != '_')).isEmpty then throw .emptyNumber
    else if isFloat t then return .real (← floatValue t)
    else if isUnsignedInt (dropSign t) then return .real (Binary64.ofInt (← intValue t))
    else throw (.badScalar t)
  | .date => if isDate t then dateValue t else throw (.notDate t)
  | .text => return .text t
  | .merge | .default | .sequence | .mapping => throw (.badScalar t)
  | .other name => throw (.unknownTag name)

end PathOptions.Yaml
