import PathOptions.Text.Blank
/-!
Integers in decimal notation: the canonical text, the text filled with zeros to a width, and two
readers, one for ASCII digits and one for every notation in common use (a sign, single low lines
between digits, digits of any script, white space around).
-/

namespace PathOptions.Text

def decimal : Int → Text
  | .ofNat n => Nat.toDigits 10 n
  | .negSucc n => '-' :: Nat.toDigits 10 (n + 1)

/-- The decimal text with zeros after the sign, to fill a width that counts the sign. -/
def zeroFilled (width : Nat) (i : Int) : Text :=
  let digits := Nat.toDigits 10 i.natAbs
  if i < 0 then '-' :: (List.replicate (width - 1 - digits.length) '0' ++ digits)
  else List.replicate (width - digits.length) '0' ++ digits

/-- The number that a run of ASCII digits stands for, first digit highest. -/
def digitsValue (digits : Text) : Nat :=
  digits.foldl (fun n c => 10 * n + (c.toNat - 48)) 0

/-- At least one character, and ASCII digits only. -/
def isDigits (t : Text) : Bool := !t.isEmpty && t.all Char.isDigit

/-- Reads an optional minus sign and ASCII digits, and nothing else. -/
def readPlainInteger? : Text → Option Int
  | '-' :: digits => if isDigits digits then some (-(digitsValue digits : Int)) else none
  | digits => if isDigits digits then some (digitsValue digits) else none

/-- The code point of the zero of each run of ten decimal digits (category Nd). -/
def digitZeros : List Nat := [
    0x30, 0x660, 0x6F0, 0x7C0, 0x966, 0x9E6, 0xA66, 0xAE6, 0xB66, 0xBE6, 0xC66, 0xCE6, 0xD66,
    0xDE6, 0xE50, 0xED0, 0xF20, 0x1040, 0x1090, 0x17E0, 0x1810, 0x1946, 0x19D0, 0x1A80, 0x1A90,
    0x1B50, 0x1BB0, 0x1C40, 0x1C50, 0xA620, 0xA8D0, 0xA900, 0xA9D0, 0xA9F0, 0xAA50, 0xABF0,
    0xFF10, 0x104A0, 0x10D30, 0x11066, 0x110F0, 0x11136, 0x111D0, 0x112F0, 0x11450, 0x114D0,
    0x11650, 0x116C0, 0x11730, 0x118E0, 0x11950, 0x11C50, 0x11D50, 0x11DA0, 0x16A60, 0x16AC0,
    0x16B50, 0x1D7CE, 0x1D7D8, 0x1D7E2, 0x1D7EC, 0x1D7F6, 0x1E140, 0x1E2F0, 0x1E950, 0x1FBF0]

/-- The value of a decimal digit of any script. -/
def digitOf? (c : Char) : Option Nat :=
  (digitZeros.find? fun first => first ≤ c.toNat && c.toNat ≤ first + 9).map (c.toNat - ·)

/-- Reads digits of any script; a low line may stand between two digits. -/
def readGroupedDigits? : (value : Nat) → (afterDigit : Bool) → Text → Option Nat
  | value, afterDigit, [] => if afterDigit then some value else none
  | value, afterDigit, c :: cs =>
    if c = '_' then if afterDigit then readGroupedDigits? value false cs else none
    else
      match digitOf? c with
      | some d => readGroupedDigits? (10 * value + d) true cs
      | none => none

/-- White space that may surround an integer: the information separators do not count. -/
def isNumeralBlank (c : Char) : Bool := isBlank c && !(0x1C ≤ c.toNat && c.toNat ≤ 0x1F)

/-- Reads an integer in any notation in common use. -/
def readInteger? (t : Text) : Option Int :=
  match trimBy isNumeralBlank t with
  | '-' :: digits => (readGroupedDigits? 0 false digits).map fun n => -(n : Int)
  | '+' :: digits => (readGroupedDigits? 0 false digits).map fun n => (n : Int)
  | digits => (readGroupedDigits? 0 false digits).map fun n => (n : Int)

end PathOptions.Text
