import TokenLint.Text.Printable

/-!
# Quoted texts

A text in double quotes on one line: the quote and the backslash are escaped, printable
runes stand for themselves, the seven named control characters have letter escapes, and
everything else is written in hexadecimal. A stray byte is written as that byte.
-/

namespace TokenLint.Text

/-- The letter that names a control character in an escape. -/
def controlLetter? (code : Nat) : Option UInt8 :=
  match code with
  | 7 => some 97
  | 8 => some 98
  | 9 => some 116
  | 10 => some 110
  | 11 => some 118
  | 12 => some 102
  | 13 => some 114
  | _ => none

/-- The hexadecimal escape of a scalar value. -/
def hexEscape (code : Nat) : Text :=
  if code < 0x20 || code == 0x7F then ofString "\\x" ++ hexFixed 2 code
  else if code < 0x10000 then ofString "\\u" ++ hexFixed 4 code
  else ofString "\\U" ++ hexFixed 8 code

/-- One rune inside quotes. With `ascii` set, only ASCII runes stand for themselves. -/
def quoteRune (ascii : Bool) (r : Rune) : Text :=
  if !r.valid then ofString "\\x" ++ hex r.bytes
  else if r.code == 34 || r.code == 92 then 92 :: r.bytes
  else if isPrintable r.code && (!ascii || r.code < 0x80) then r.bytes
  else match controlLetter? r.code with
    | some letter => [92, letter]
    | none => hexEscape r.code

/-- The text in double quotes. -/
def quoted (t : Text) : Text := 34 :: (runes t).flatMap (quoteRune false) ++ [34]

/-- The text in double quotes, with escapes for everything outside ASCII. -/
def quotedAscii (t : Text) : Text := 34 :: (runes t).flatMap (quoteRune true) ++ [34]

/-- Can the text stand unchanged between two grave accents? It is valid UTF-8 and holds
neither a grave accent nor a byte order mark nor a control character but the tab. -/
def fitsGrave (t : Text) : Bool :=
  (runes t).all fun r =>
    r.valid && r.code != 0xFEFF && r.code != 96 && r.code != 0x7F && (0x20 ≤ r.code || r.code == 9)

end TokenLint.Text
