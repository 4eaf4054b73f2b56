import TokenLint.Text.Quoted

/-!
# Message templates

A template is a text with directives that are replaced by arguments, which are texts. A
directive is a percent sign, flags, an argument index in brackets, a width, a precision
and a verb, all but the verb optional. Nothing fails: what a directive cannot do is written
into the output as a remark that begins with a percent sign and an exclamation mark.

The verbs are `s` and `v` (the text), `q` (the text in quotes), `x` and `X` (its bytes in
hexadecimal), `T` (the name of the argument's type, which is always `string`) and the
percent sign (itself, taking no argument).
-/

namespace TokenLint.Text.Template

/-- The flags, width and precision of a directive. -/
structure Style where
  sharp : Bool := false
  zero : Bool := false
  plus : Bool := false
  minus : Bool := false
  space : Bool := false
  /-- The width, if one is given. -/
  width : Option Nat := none
  /-- The precision, if one is given. -/
  precision : Option Nat := none
  /-- Does the verb write a text in quotes, because `v` was given the sharp flag? -/
  asLiteral : Bool := false
  deriving Inhabited

/-- What is known between two directives. -/
structure State where
  /-- The number of the next argument. -/
  next : Nat := 0
  /-- Was any argument chosen by an index? Then unused ones are no mistake. -/
  reordered : Bool := false
  deriving Inhabited

/-- What is known inside a directive. -/
structure Directive where
  state : State
  style : Style := {}
  /-- Has every index so far been good? -/
  goodIndex : Bool := true
  /-- Was the last item read an index? -/
  afterIndex : Bool := false
  /-- Remarks written before the verb is known. -/
  remarks : Text := []
  deriving Inhabited

/-- Fills up to the width, on the side the flags say. -/
def pad (style : Style) (columns : Nat) (t : Text) : Text :=
  match style.width with
  | none => t
  | some w =>
    if style.minus then t ++ List.replicate (w - columns) 32
    else List.replicate (w - columns) (if style.zero then 48 else 32) ++ t

/-- The runes the precision allows. -/
def cut (style : Style) (t : Text) : Text :=
  match style.precision with
  | none => t
  | some p => ofRunes ((runes t).take p)

/-- The argument as it is. -/
def writePlain (style : Style) (t : Text) : Text :=
  let t := cut style t
  pad style (runeCount t) t

/-- The argument in quotes. -/
def writeQuoted (style : Style) (t : Text) : Text :=
  let t := cut style t
  let q :=
    if style.sharp && fitsGrave t then 96 :: t ++ [96]
    else if style.plus then quotedAscii t
    else quoted t
  pad style (runeCount q) q

/-- The bytes of the argument in hexadecimal. With the sharp flag a mark stands before the
digits, with the space flag the bytes are apart, with both every byte has the mark. -/
def writeHex (style : Style) (digit : Nat → UInt8) (mark : UInt8) (t : Text) : Text :=
  let bytes := match style.precision with
    | none => t
    | some p => t.take p
  let pairs := bytes.map fun b => [digit (b.toNat / 16), digit (b.toNat % 16)]
  let lead : Text := if style.sharp then [48, mark] else []
  let body :=
    if pairs.isEmpty then []
    else if style.space then join [32] (pairs.map (lead ++ ·))
    else lead ++ pairs.flatten
  pad style body.length body

/-- A verb that texts do not have. -/
def writeBadVerb (style : Style) (verb : Text) (t : Text) : Text :=
  "%!" ++ verb ++ "(string=" ++ (if style.asLiteral then writeQuoted style t else writePlain style t) ++ ")"

/-- One argument under a verb. -/
def writeArgument (style : Style) (verb : Text) (t : Text) : Text :=
  if verb = "v" then
    if style.asLiteral then writeQuoted style t else writePlain style t
  else if verb = "s" then writePlain style t
  else if verb = "q" then writeQuoted style t
  else if verb = "x" then writeHex style hexDigit 120 t
  else if verb = "X" then writeHex style hexDigitUpper 88 t
  else if verb = "T" then writePlain style "string"
  else writeBadVerb style verb t

/-- `v` and `w` use up the sharp and plus flags; the sharp flag asks for quotes. -/
def Style.forVerb (style : Style) (verb : Text) : Style :=
  if verb = "v" || verb = "w" then
    { style with asLiteral := style.sharp, sharp := false, plus := false }
  else style

/-- Numbers above this bound are not read. -/
def numberLimit : Nat := 1000000

/-- Reads decimal digits: the number, if there is one, and the rest. A number whose leading
part is beyond the limit uses up the whole text and counts as none. -/
def readNumber (seen : Option Nat) : Text → Option Nat × Text
  | [] => (seen, [])
  | b :: rest =>
    if isDigit b then
      if numberLimit < seen.getD 0 then (none, [])
      else readNumber (some (seen.getD 0 * 10 + (b.toNat - 48))) rest
    else (seen, b :: rest)

/-- Reads flags. -/
def readFlags (style : Style) : Text → Style × Text
  | [] => (style, [])
  | b :: rest =>
    if b = 35 then readFlags { style with sharp := true } rest
    else if b = 48 then readFlags { style with zero := true } rest
    else if b = 43 then readFlags { style with plus := true } rest
    else if b = 45 then readFlags { style with minus := true } rest
    else if b = 32 then readFlags { style with space := true } rest
    else (style, b :: rest)

/-- Reads an argument index in brackets, if one stands here. -/
def readIndex (count : Nat) (d : Directive) (t : Text) : Directive × Text :=
  match t with
  | 91 :: rest =>
    let d := { d with state := { d.state with reordered := true } }
    let bad : Directive := { d with goodIndex := false, afterIndex := false }
    if t.length < 3 then (bad, rest)
    else match splitFirst 93 rest with
      | none => (bad, rest)
      | some (inside, after) =>
        match readNumber none inside with
        | (some n, []) =>
          if 0 < n && n ≤ count then
            ({ d with state := { d.state with next := n - 1 }, afterIndex := true }, after)
          else ({ d with goodIndex := false, afterIndex := true }, after)
        | _ => (bad, after)
  | _ => ({ d with afterIndex := false }, t)

/-- A star takes an argument as a number. No text is one, so the argument is skipped. -/
def skipStar (count : Nat) (d : Directive) : Directive :=
  { d with
    state := { d.state with next := if d.state.next < count then d.state.next + 1 else d.state.next }
    afterIndex := false }

/-- Reads a width. -/
def readWidth (count : Nat) (d : Directive) (t : Text) : Directive × Text :=
  match t with
  | 42 :: rest =>
    let d := skipStar count d
    ({ d with remarks := d.remarks ++ "%!(BADWIDTH)" }, rest)
  | _ =>
    match readNumber none t with
    | (some w, rest) =>
      ({ d with
        style := { d.style with width := some w }
        goodIndex := d.goodIndex && !d.afterIndex }, rest)
    | (none, rest) => (d, rest)

/-- Reads a precision. -/
def readPrecision (count : Nat) (d : Directive) (t : Text) : Directive × Text :=
  match t with
  | 46 :: rest =>
    let d := if d.afterIndex then { d with goodIndex := false } else d
    let (d, rest) := readIndex count d rest
    match rest with
    | 42 :: rest =>
      let d := skipStar count d
      ({ d with remarks := d.remarks ++ "%!(BADPREC)" }, rest)
    | _ =>
      let (p, rest) := readNumber none rest
      ({ d with style := { d.style with precision := some (p.getD 0) } }, rest)
  | _ => (d, t)

/-- The verb at the start of a text, and the rest. -/
def readVerb (t : Text) : Option (Text × Text) :=
  match t with
  | [] => none
  | b :: rest =>
    match scalar? b rest with
    | some (_, k) => some (b :: rest.take k, rest.drop k)
    | none => some (encodeRune replacement, rest)

/-- Writes the directive whose verb has been read. -/
def applyVerb (args : List Text) (d : Directive) (verb : Text) : Text × State :=
  if verb = "%" then (d.remarks ++ "%", d.state)
  else if !d.goodIndex then (d.remarks ++ "%!" ++ verb ++ "(BADINDEX)", d.state)
  else match args[d.state.next]? with
    | none => (d.remarks ++ "%!" ++ verb ++ "(MISSING)", d.state)
    | some arg =>
      (d.remarks ++ writeArgument (d.style.forVerb verb) verb arg,
        { d.state with next := d.state.next + 1 })

/-- Reads and writes the directive after a percent sign: what it writes, what is known
after it, and the rest of the template. -/
def directive (args : List Text) (state : State) (t : Text) : Text × State × Text :=
  let (style, t) := readFlags {} t
  let d : Directive := { state := state, style := style }
  match t with
  | [] => ("%!(NOVERB)", state, [])
  | b :: rest =>
    if 97 ≤ b && b ≤ 122 && state.next < args.length then
      let (out, state) := applyVerb args d [b]
      (out, state, rest)
    else
      let (d, t) := readIndex args.length d t
      let (d, t) := readWidth args.length d t
      let (d, t) := readPrecision args.length d t
      let (d, t) := if d.afterIndex then (d, t) else readIndex args.length d t
      match readVerb t with
      | none => (d.remarks ++ "%!(NOVERB)", d.state, [])
      | some (verb, rest) =>
        let (out, state) := applyVerb args d verb
        (out, state, rest)

/-- Expands at most `fuel` directives and plain bytes. -/
def expandFrom (args : List Text) : Nat → State → Text → Text
  | 0, _, t => t
  | _ + 1, state, [] =>
    if !state.reordered && state.next < args.length then
      "%!(EXTRA " ++ join ", " ((args.drop state.next).map fun a => ("string=" : Text) ++ a) ++ ")"
    else []
  | fuel + 1, state, 37 :: rest =>
    let (out, state, rest) := directive args state rest
    out ++ expandFrom args fuel state rest
  | fuel + 1, state, b :: rest => b :: expandFrom args fuel state rest

/-- The template with its directives replaced by the arguments. Every step uses up at least
one byte of the template, so its length bounds the number of steps. -/
def expand (template : Text) (args : List Text) : Text :=
  expandFrom args (template.length + 1) {} template

end TokenLint.Text.Template
