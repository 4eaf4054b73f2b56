import TokenLint.Toml.Value

/-!
# TOML strings, numbers and dates

Each reader takes the characters from the place where the value starts, and gives the value
and what is behind it.
-/

namespace TokenLint.Toml

/-- A reader of values of a type. -/
abbrev Reader (α : Type) := List Nat → Option (α × List Nat)

/-- Is the character a blank or a tabulator? -/
def isBlank (c : Nat) : Bool := c == 32 || c == 9

/-- Is the character part of a line break? -/
def isBreak (c : Nat) : Bool := c == 10 || c == 13

/-- Is the character a decimal digit? -/
def isDigit (c : Nat) : Bool := 48 ≤ c && c ≤ 57

/-- The value of a hexadecimal digit. -/
def hexValue? (c : Nat) : Option Nat :=
  if isDigit c then some (c - 48)
  else if 97 ≤ c && c ≤ 102 then some (c - 87)
  else if 65 ≤ c && c ≤ 70 then some (c - 55)
  else none

/-- The character with a number in hexadecimal digits. -/
def hexCharacter? (count : Nat) : Reader Nat := fun cs => do
  let values ← (cs.take count).mapM hexValue?
  let n := values.foldl (fun n v => n * 16 + v) 0
  if values.length < count || (0xD800 ≤ n && n ≤ 0xDFFF) || 0x10FFFF < n then none
  else some (n, cs.drop count)

/-- The character of an escape, behind its backslash. -/
def escape? : Reader Nat
  | 98 :: rest => some (8, rest)
  | 116 :: rest => some (9, rest)
  | 110 :: rest => some (10, rest)
  | 102 :: rest => some (12, rest)
  | 114 :: rest => some (13, rest)
  | 34 :: rest => some (34, rest)
  | 92 :: rest => some (92, rest)
  | 117 :: rest => hexCharacter? 4 rest
  | 85 :: rest => hexCharacter? 8 rest
  | _ => none

/-- The text of characters. -/
def textOf (cs : List Nat) : Text := cs.flatMap Text.encodeRune

/-- Puts characters before the result of a reader. -/
def before (cs : List Nat) (r : Option (Text × List Nat)) : Option (Text × List Nat) :=
  r.map fun (t, rest) => (textOf cs ++ t, rest)

/-- A string in double quotes, behind the first one. -/
def basicString? : Nat → Reader Text
  | 0, _ => none
  | fuel + 1, cs =>
    match cs with
    | [] => none
    | 34 :: rest => some ([], rest)
    | 92 :: rest =>
      match escape? rest with
      | some (c, rest) => before [c] (basicString? fuel rest)
      | none => none
    | c :: rest => if isBreak c then none else before [c] (basicString? fuel rest)

/-- A string in single quotes, behind the first one. -/
def literalString? : Reader Text
  | [] => none
  | 39 :: rest => some ([], rest)
  | c :: rest => if isBreak c then none else before [c] (literalString? rest)

/-- A string in three quotes, behind them; `quotes` is the number of quotes just before. Up to
five quotes may stand at the end, of which the last three end the string. In double quotes a
backslash before a line break joins the lines, with all white space around the break. -/
def longString? (quote : Nat) : Nat → Nat → Reader Text
  | 0, _, _ => none
  | fuel + 1, quotes, cs =>
    match cs with
    | [] => none
    | c :: rest =>
      if c == quote then
        if rest.take 2 == [quote, quote] then
          if rest.getD 2 0 == quote then
            if 2 ≤ quotes then none
            else before [c] (longString? quote fuel (quotes + 1) rest)
          else some ([], rest.drop 2)
        else before [c] (longString? quote fuel (quotes + 1) rest)
      else if c == 92 && quote == 34 then
        let white := rest.takeWhile fun c => isBlank c || isBreak c
        if 10 ∈ white then longString? quote fuel 0 (rest.drop white.length)
        else match escape? rest with
          | some (e, after) => before [e] (longString? quote fuel (if e == 34 then 1 else 0) after)
          | none => none
      else before [c] (longString? quote fuel 0 rest)

/-- Without a line break at the start. -/
def dropBreak : List Nat → List Nat
  | 13 :: 10 :: rest => rest
  | 10 :: rest => rest
  | cs => cs

/-- A string; it starts with a quote. -/
def string? : Reader Text := fun cs =>
  match cs with
  | 34 :: 34 :: 34 :: rest => longString? 34 (rest.length + 1) 0 (dropBreak rest)
  | 39 :: 39 :: 39 :: rest => longString? 39 (rest.length + 1) 0 (dropBreak rest)
  | 34 :: rest => basicString? (rest.length + 1) rest
  | 39 :: rest => literalString? rest
  | _ => none

/-- Do underscores stand between digits only? `ok` says that one may follow, and in the end that
the text may end. -/
def underscoresOk (ok : Bool) : List Nat → Bool
  | [] => ok
  | c :: rest => if c == 95 && !ok then false else underscoresOk (hexValue? c).isSome rest

/-- Without a sign in front. -/
def unsigned (cs : List Nat) : List Nat :=
  match cs with
  | 43 :: rest => rest
  | 45 :: rest => rest
  | cs => cs

/-- Does a decimal number have a zero in front of other digits? -/
def hasLeadingZero (cs : List Nat) : Bool :=
  match unsigned cs with
  | 48 :: c :: _ => c != 98 && c != 111 && c != 120
  | _ => false

/-- The value of digits in a base, without their underscores. -/
def digitsIn? (base : Nat) (cs : List Nat) : Option Nat := do
  let ds ← (cs.filter (· ≠ 95)).mapM fun c => (hexValue? c).filter (· < base)
  if ds.isEmpty then none else some (ds.foldl (fun n d => n * base + d) 0)

/-- The value of an integer of 64 bits. -/
def integer? (cs : List Nat) : Option Int := do
  if !underscoresOk false cs || hasLeadingZero cs then none
  else
    let n ← match unsigned cs with
      | 48 :: 120 :: rest => digitsIn? 16 rest
      | 48 :: 111 :: rest => digitsIn? 8 rest
      | 48 :: 98 :: rest => digitsIn? 2 rest
      | rest => digitsIn? 10 rest
    let n : Int := if cs.head? = some 45 then -(n : Int) else n
    if -9223372036854775808 ≤ n && n ≤ 9223372036854775807 then some n else none

/-- Is the number too great for a floating point number? `digits` are its digits without a
point, and `power` is the power of ten they are multiplied by. -/
def overflows (digits : List Nat) (power : Int) : Bool :=
  let n := digits.foldl (fun n d => n * 10 + (d - 48)) 0
  if n = 0 then false
  else if 400 < (digits.length : Int) + power && 310 < power + (digits.dropWhile (· == 48)).length then true
  else
    let limit := (1 <<< 1024) - (1 <<< 970)
    if power < 0 then limit * Nat.pow 10 power.natAbs ≤ n else limit ≤ n * Nat.pow 10 power.natAbs

/-- Is the text a number with a fraction or an exponent? -/
def isFloat (cs : List Nat) : Bool :=
  let isExponent (c : Nat) : Bool := c == 101 || c == 69
  let mantissa := cs.takeWhile fun c => !isExponent c
  let exponent := (cs.dropWhile fun c => !isExponent c).drop 1
  let hasExponent := cs.any isExponent
  let whole := mantissa.takeWhile (· ≠ 46)
  let fraction := (mantissa.dropWhile (· ≠ 46)).drop 1
  let hasPoint := 46 ∈ mantissa
  let ok (ds : List Nat) : Bool := !ds.isEmpty && ds.all (fun c => isDigit c || c == 95) && underscoresOk false ds
  let value := (unsigned exponent).filter (· ≠ 95)
  let shift : Int := (value.foldl (fun n d => n * 10 + (d - 48)) 0 : Nat)
  let power := (if exponent.head? = some 45 then -shift else shift) - (fraction.filter (· ≠ 95)).length
  ok (unsigned whole) && !hasLeadingZero whole && (!hasPoint || ok fraction)
    && (!hasExponent || ok (unsigned exponent))
    && !overflows ((unsigned whole ++ fraction).filter (· ≠ 95)) power

/-- The days of a month. -/
def daysOf (year month : Nat) : Nat :=
  if month == 2 then (if year % 4 == 0 && (year % 100 != 0 || year % 400 == 0) then 29 else 28)
  else if month == 4 || month == 6 || month == 9 || month == 11 then 30
  else 31

/-- The value of two digits that stand at the start. -/
def twoDigits? : Reader Nat
  | a :: b :: rest => if isDigit a && isDigit b then some ((a - 48) * 10 + (b - 48), rest) else none
  | _ => none

/-- What is behind a character at the start. -/
def expect? (c : Nat) (cs : List Nat) : Option (List Nat) :=
  if cs.head? = some c then some cs.tail else none

/-- What is behind a date at the start. -/
def date? (cs : List Nat) : Option (List Nat) := do
  let (century, cs) ← twoDigits? cs
  let (year, cs) ← twoDigits? cs
  let (month, cs) ← twoDigits? (← expect? 45 cs)
  let (day, cs) ← twoDigits? (← expect? 45 cs)
  if 1 ≤ month && month ≤ 12 && 1 ≤ day && day ≤ daysOf (century * 100 + year) month then some cs
  else none

/-- The value of one or two digits that stand at the start. -/
def digitsUpToTwo? : Reader Nat := fun cs =>
  match twoDigits? cs, cs with
  | some r, _ => some r
  | none, a :: rest => if isDigit a then some (a - 48, rest) else none
  | none, [] => none

/-- What is behind a time of day at the start. -/
def time? (cs : List Nat) : Option (List Nat) := do
  let (hour, cs) ← digitsUpToTwo? cs
  let (minute, cs) ← twoDigits? (← expect? 58 cs)
  let (second, cs) ← twoDigits? (← expect? 58 cs)
  if hour < 24 && minute < 60 && second < 60 then
    match cs with
    | 46 :: c :: rest => some (if isDigit c then rest.dropWhile isDigit else cs)
    | cs => some cs
  else none

/-- Is the text a time zone, or empty? -/
def isZone (cs : List Nat) : Bool :=
  match cs with
  | [] => true
  | [90] => true
  | s :: rest =>
    (s == 43 || s == 45) &&
      (do
        let (hour, rest) ← twoDigits? rest
        let (minute, rest) ← twoDigits? (← expect? 58 rest)
        some (rest.isEmpty && hour ≤ 24 && minute ≤ 60) : Option Bool) = some true

/-- Is the text a date, a time of day, or both? -/
def isDatetime (cs : List Nat) : Bool :=
  let cs := cs.map fun c => if c == 122 then 90 else if c == 116 || c == 32 then 84 else c
  match date? cs with
  | some [] => true
  | some (84 :: rest) => ((time? rest).map isZone).getD false
  | some _ => false
  | none => time? cs = some []

/-- Without blanks at the end. -/
def trimBlanks (cs : List Nat) : List Nat := (cs.reverse.dropWhile isBlank).reverse

/-- The characters that may follow in a decimal number, once it has a sign or an underscore. -/
def decimalRun (cs : List Nat) : List Nat :=
  let digits := cs.takeWhile fun c => isDigit c || c == 95
  let c := cs.getD digits.length 0
  if c == 46 || c == 101 || c == 69 then
    cs.takeWhile fun c =>
      isDigit c || c == 95 || c == 46 || c == 45 || c == 43 || c == 101 || c == 69
  else digits

/-- Is the run a number with a fraction or an exponent? -/
def looksFloat (run : List Nat) : Bool := run.any fun c => c == 46 || c == 101 || c == 69

/-- The value of a decimal run. -/
def decimal? (run rest : List Nat) : Option (Value × List Nat) :=
  if looksFloat run then (if isFloat run then some (.float, rest) else none)
  else (integer? run).map fun n => (.integer n, rest)

/-- A number or a date that starts with a digit. -/
def digitValue? : Reader Value := fun cs =>
  let based (isDigitThere : Nat → Bool) : Option (Value × List Nat) :=
    let run := cs.take 2 ++ (cs.drop 2).takeWhile fun c => isDigitThere c || c == 95
    if isDigitThere (cs.getD 2 0) then
      (integer? run).map fun n => (.integer n, cs.drop run.length)
    else none
  match cs with
  | 48 :: 98 :: _ => based fun c => c == 48 || c == 49
  | 48 :: 111 :: _ => based fun c => 48 ≤ c && c ≤ 55
  | 48 :: 120 :: _ => based fun c => (hexValue? c).isSome
  | cs =>
    let digits := cs.takeWhile isDigit
    let c := cs.getD digits.length 0
    if (c == 45 || c == 58) && 1 < digits.length || (c == 45 || c == 58) && cs.head? ≠ some 48 then
      let run := cs.takeWhile fun c =>
        isDigit c || c ∈ ("-:Tt .Zz+".toList.map Char.toNat)
      if isDatetime (trimBlanks run) then some (.datetime, cs.drop run.length) else none
    else
      let run := decimalRun cs
      decimal? run (cs.drop run.length)

/-- What is behind a word at the start. -/
def word? (w : String) (cs : List Nat) : Option (List Nat) :=
  let codes := w.toList.map Char.toNat
  if codes.isPrefixOf cs then some (cs.drop codes.length) else none

/-- A value that is neither a list nor a table. -/
def scalar? : Reader Value := fun cs =>
  match cs with
  | [] => none
  | c :: rest =>
    if c == 34 || c == 39 then (string? cs).map fun (t, rest) => (.string t, rest)
    else if isDigit c then digitValue? cs
    else if c == 43 || c == 45 then
      match word? "inf" rest, word? "nan" rest with
      | some rest, _ => some (.float, rest)
      | _, some rest => some (.float, rest)
      | none, none =>
        if isDigit (rest.getD 0 0) then
          let run := c :: decimalRun rest
          decimal? run (cs.drop run.length)
        else none
    else
      match word? "true" cs, word? "false" cs, word? "inf" cs, word? "nan" cs with
      | some rest, _, _, _ => some (.boolean true, rest)
      | _, some rest, _, _ => some (.boolean false, rest)
      | _, _, some rest, _ => some (.float, rest)
      | _, _, _, some rest => some (.float, rest)
      | none, none, none, none => none

end TokenLint.Toml
