import TokenLint.Text.Utf8

/-!
# White space

The white space of Unicode, and cutting it from the ends of a text.
-/

namespace TokenLint.Text

/-- The scalar values with the property White_Space. -/
def isBlank (code : Nat) : Bool :=
  (9 ≤ code && code ≤ 13) || code == 0x20 || code == 0x85 || code == 0xA0 || code == 0x1680
    || (0x2000 ≤ code && code ≤ 0x200A) || code == 0x2028 || code == 0x2029
    || code == 0x202F || code == 0x205F || code == 0x3000

/-- The text without white space at its ends. -/
def trimBlank (t : Text) : Text :=
  ofRunes (((runes t).dropWhile fun r => isBlank r.code).reverse.dropWhile
    fun r => isBlank r.code).reverse

end TokenLint.Text
