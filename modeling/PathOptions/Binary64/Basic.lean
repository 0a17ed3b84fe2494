/-!
Double-precision numbers without hardware arithmetic: an exact quotient is rounded once, to the
nearest representable number and to the even one of two that are equally near.
-/

namespace PathOptions

/-- A double-precision number. A finite one is `significand * 2 ^ exponent` in its only canonical
form: the significand has 53 bits, or the exponent is the lowest there is. -/
inductive Binary64 where
  | nan
  | infinite (negative : Bool)
  | finite (negative : Bool) (significand : Nat) (exponent : Int)
  deriving DecidableEq, Repr

namespace Binary64

/-- The exponent of the subnormal numbers. -/
def lowestExponent : Int := -1074

/-- The exponent above which a number of 53 bits is too large. -/
def highestExponent : Int := 971

def zero (negative : Bool) : Binary64 := .finite negative 0 lowestExponent

/-- `num / den` as a quotient of naturals after division by `2 ^ exponent`. -/
def scaled (num den : Nat) (exponent : Int) : Nat × Nat :=
  if 0 ≤ exponent then (num, den * Nat.pow 2 exponent.toNat)
  else (num * Nat.pow 2 (-exponent).toNat, den)

/-- The nearest natural to `num / den`; of two equally near, the even one. -/
def roundQuotient (num den : Nat) : Nat :=
  let q := num / den
  let twice := 2 * (num % den)
  if twice < den then q
  else if twice = den then (if q % 2 = 0 then q else q + 1)
  else q + 1

/-- Rounds the quotient `num / den`, `den` being positive. -/
def ofQuotient (negative : Bool) (num den : Nat) : Binary64 :=
  if num = 0 then zero negative
  else
    let guess := (Nat.log2 num : Int) - Nat.log2 den - 53
    let (n, d) := scaled num den guess
    let exponent := max lowestExponent (if n / d < Nat.pow 2 53 then guess else guess + 1)
    let (n, d) := scaled num den exponent
    let q := roundQuotient n d
    let (q, exponent) := if q = Nat.pow 2 53 then (Nat.pow 2 52, exponent + 1) else (q, exponent)
    if exponent > highestExponent then .infinite negative else .finite negative q exponent

/-- Rounds `digits * 10 ^ exponent`. Magnitudes that are far out of range are decided by their
number of digits. -/
def ofDecimal (negative : Bool) (digits : Nat) (exponent : Int) : Binary64 :=
  let magnitude := ((Nat.toDigits 10 digits).length : Int) + exponent
  if digits = 0 || magnitude < -400 then zero negative
  else if magnitude > 400 then .infinite negative
  else if 0 ≤ exponent then ofQuotient negative (digits * Nat.pow 10 exponent.toNat) 1
  else ofQuotient negative digits (Nat.pow 10 (-exponent).toNat)

def ofInt (i : Int) : Binary64 := ofQuotient (i < 0) i.natAbs 1

def quotient (significand : Nat) (exponent : Int) : Nat × Nat :=
  if 0 ≤ exponent then (significand * Nat.pow 2 exponent.toNat, 1)
  else (significand, Nat.pow 2 (-exponent).toNat)

/-- The integer that a number equals, if it equals one. -/
def toInt? : Binary64 → Option Int
  | .finite negative significand exponent =>
    let (num, den) := quotient significand exponent
    if num % den = 0 then some (if negative then -((num / den : Nat) : Int) else (num / den : Nat))
    else none
  | _ => none

def isZero : Binary64 → Bool
  | .finite _ significand _ => significand == 0
  | _ => false

/-- The value of a finite number as a fraction; `none` for the others. -/
def fraction? : Binary64 → Option (Int × Nat)
  | .finite negative significand exponent =>
    let (num, den) := quotient significand exponent
    some (if negative then -(num : Int) else num, den)
  | _ => none

/-- Whether the first of two numbers is at most the second; false for a NaN. -/
def le (a b : Binary64) : Bool :=
  match a, b with
  | .nan, _ | _, .nan => false
  | .infinite true, _ | _, .infinite false => true
  | _, .infinite true | .infinite false, _ => false
  | a, b =>
    match a.fraction?, b.fraction? with
    | some (n, d), some (n', d') => n * d' ≤ n' * d
    | _, _ => false

/-- Whether a number is at most an integer; false for a NaN. -/
def leInt (a : Binary64) (i : Int) : Bool :=
  match a with
  | .nan => false
  | .infinite negative => negative
  | a =>
    match a.fraction? with
    | some (n, d) => n ≤ i * d
    | none => false

/-- Whether a number is at least an integer; false for a NaN. -/
def geInt (a : Binary64) (i : Int) : Bool :=
  match a with
  | .nan => false
  | .infinite negative => !negative
  | a =>
    match a.fraction? with
    | some (n, d) => i * d ≤ n
    | none => false

/-- `a + b * n`, each operation rounded; a number that is not finite absorbs the others. -/
def addMultiple (a b : Binary64) (n : Nat) : Binary64 :=
  match b.fraction? with
  | none => b
  | some (bn, bd) =>
    let product := ofQuotient (bn < 0) (bn.natAbs * n) bd
    match a.fraction?, product.fraction? with
    | none, _ => a
    | _, none => product
    | some (an, ad), some (pn, pd) =>
      let sum := an * pd + pn * ad
      ofQuotient (sum < 0) sum.natAbs (ad * pd)

def negate : Binary64 → Binary64
  | .nan => .nan
  | .infinite negative => .infinite (!negative)
  | .finite negative significand exponent => .finite (!negative) significand exponent

end Binary64

end PathOptions
