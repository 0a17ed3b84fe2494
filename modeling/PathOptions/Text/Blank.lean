import PathOptions.Text.Basic
/-!
The white space that may surround an option name: the Unicode characters of bidirectional type
WS, B or S and those of category Zs. Zero-width characters are not blank.
-/

namespace PathOptions.Text

/-- White space in the sense of Unicode, U+001C to U+001F and U+0085 included. -/
def isBlank (c : Char) : Bool :=
  let n := c.toNat
  (9 ≤ n && n ≤ 13) || (0x1C ≤ n && n ≤ 0x20) || n == 0x85 || n == 0xA0 || n == 0x1680
    || (0x2000 ≤ n && n ≤ 0x200A) || n == 0x2028 || n == 0x2029 || n == 0x202F || n == 0x205F
    || n == 0x3000

/-- Drops the characters of a class at both ends. -/
def trimBy (blank : Char → Bool) (t : Text) : Text :=
  ((t.dropWhile blank).reverse.dropWhile blank).reverse

def trim (t : Text) : Text := trimBy isBlank t

end PathOptions.Text
