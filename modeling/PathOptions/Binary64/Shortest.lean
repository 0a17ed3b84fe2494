import PathOptions.Binary64.Basic
import PathOptions.Text.Numeral
/-!
Decimal texts of double-precision numbers: the fewest digits that read back as the same number
and, of those, the nearest to it. How the digits are laid out is a `Layout`.
-/

namespace PathOptions.Binary64

/-- Where the decimal point stands and how exponents look. The exponent is that of the first
digit. -/
structure Layout where
  /-- The lowest exponent that is written with leading zeros instead of an exponent. -/
  lowestPlain : Int
  /-- The highest exponent that is written with trailing zeros instead of an exponent. -/
  highestPlain : Int
  /-- The least number of digits of a written exponent. -/
  exponentDigits : Nat
  deriving Repr

/-- The exponent of the first decimal digit of the positive quotient `num / den`. -/
def leadingExponent (num den : Nat) : Int :=
  let guess := ((Nat.toDigits 10 num).length : Int) - (Nat.toDigits 10 den).length
  let reached :=
    if 0 ≤ guess then den * Nat.pow 10 guess.toNat ≤ num
    else den ≤ num * Nat.pow 10 (-guess).toNat
  if reached then guess else guess - 1

/-- The two neighbours of `num / den` on the grid of multiples of `10 ^ exponent`, nearest
first; the even one comes first if both are equally near. -/
def neighbours (num den : Nat) (exponent : Int) : List Nat :=
  let (n, d) := if 0 ≤ exponent then (num, den * Nat.pow 10 exponent.toNat)
    else (num * Nat.pow 10 (-exponent).toNat, den)
  let nearest := roundQuotient n d
  let below := n / d
  if n % d = 0 then [below] else [nearest, if nearest = below then below + 1 else below]

/-- The shortest digits that read back as the finite number, tried with `17 - left` digits and
more; seventeen digits always do. -/
def searchDigits (significand : Nat) (exponent leading : Int) : (left : Nat) → Nat × Int
  | 0 =>
    let (num, den) := quotient significand exponent
    let place := leading - 16
    ((neighbours num den place).headD 0, place)
  | left + 1 =>
    let (num, den) := quotient significand exponent
    let place := leading - (16 - (left + 1) : Nat)
    let readsBack := fun digits =>
      ofDecimal false digits place == .finite false significand exponent
    match (neighbours num den place).find? readsBack with
    | some digits => (digits, place)
    | none => searchDigits significand exponent leading left

/-- Drops the zeros at the end of the digits. A neighbour above can be the next power of ten, which
has a digit more than the grid was made for. -/
def trimZeros (digits : Nat) (place : Int) : Nat × Int :=
  if 0 < digits ∧ digits % 10 = 0 then trimZeros (digits / 10) (place + 1) else (digits, place)
termination_by digits
decreasing_by omega

/-- The shortest digits of a positive finite number and the power of ten of the last one. -/
def shortest (significand : Nat) (exponent : Int) : Nat × Int :=
  let (num, den) := quotient significand exponent
  let (digits, place) := searchDigits significand exponent (leadingExponent num den) 16
  trimZeros digits place

/-- Lays out `digits * 10 ^ place`. -/
def Layout.arrange (layout : Layout) (digits : Text) (place : Int) : Text :=
  let leading := place + digits.length - 1
  if leading < layout.lowestPlain || layout.highestPlain < leading then
    let mantissa :=
      match digits with
      | d :: e :: rest => d :: '.' :: e :: rest
      | short => short
    let power := Nat.toDigits 10 leading.natAbs
    mantissa ++ 'e' :: (if leading < 0 then '-' else '+') ::
      (List.replicate (layout.exponentDigits - power.length) '0' ++ power)
  else if leading < 0 then
    '0' :: '.' :: (List.replicate (-leading - 1).toNat '0' ++ digits)
  else if 0 ≤ place then
    digits ++ List.replicate place.toNat '0' ++ ['.', '0']
  else
    let whole := (leading + 1).toNat
    digits.take whole ++ '.' :: digits.drop whole

def Layout.text (layout : Layout) : Binary64 → Text
  | .nan => ['n', 'a', 'n']
  | .infinite negative => (if negative then ['-'] else []) ++ ['i', 'n', 'f']
  | .finite negative significand exponent =>
    (if negative then ['-'] else []) ++
      (if significand = 0 then ['0', '.', '0']
       else
        let (digits, place) := shortest significand exponent
        layout.arrange (Nat.toDigits 10 digits) place)

/-- Reads digits with an optional point and an optional signed exponent. -/
def readUnsigned? (t : Text) : Option Binary64 :=
  let (mantissa, power) := Text.cutFirst 'e' (t.map Char.toLower)
  let (whole, part) := Text.cutFirst '.' mantissa
  let digits := whole ++ part.getD []
  let exponent :=
    match power with
    | none => some 0
    | some ('+' :: digits) =>
      if Text.isDigits digits then some (Text.digitsValue digits : Int) else none
    | some signed => Text.readPlainInteger? signed
  match exponent with
  | some e =>
    if Text.isDigits digits then
      some (ofDecimal false (Text.digitsValue digits) (e - (part.getD []).length))
    else none
  | none => none

/-- Reads a decimal text with an optional sign, or one of the names `inf` and `nan`. -/
def read? (t : Text) : Option Binary64 :=
  let unsigned : Text → Option Binary64
    | ['i', 'n', 'f'] => some (.infinite false)
    | ['n', 'a', 'n'] => some .nan
    | other => readUnsigned? other
  match t with
  | '-' :: rest => (unsigned rest).map negate
  | '+' :: rest => unsigned rest
  | rest => unsigned rest

end PathOptions.Binary64
