import TokenLint.Command.Value

/-!
# Reading a command line

Options start with two dashes and a name, or with one dash and a letter. The value of an
option is behind an equals sign or is the next word; a switch needs none. Letters of switches
can share a dash. Options may stand anywhere before a word of two dashes, behind which
everything is an argument.

A command line is read word by word. The state says what the next word is.
-/

namespace TokenLint.Command

/-- An option. -/
structure OptionSpec where
  name : Text
  letter : Option UInt8 := none
  kind : ValueKind := .text
  deriving DecidableEq, Inhabited

namespace OptionSpec

/-- A switch. -/
def switch (name : Text) : OptionSpec := { name := name, kind := .switch }

/-- An option that is a number. -/
def number (name : Text) : OptionSpec := { name := name, kind := .number }

/-- An option that is a text. -/
def text (name : Text) : OptionSpec := { name := name }

/-- The option in words. -/
def shown (o : OptionSpec) : Text :=
  match o.letter with
  | some b => [45, b] ++ ", --" ++ o.name
  | none => "--" ++ o.name

end OptionSpec

/-- What is wrong with a command line. -/
inductive UsageError where
  | badOption (word : Text)
  | unknownOption (name : Text)
  /-- The letters are those from the unknown one on. -/
  | unknownLetter (letter : UInt8) (letters : Text)
  | noValue (name : Text)
  | noValueForLetter (letter : UInt8) (letters : Text)
  | badValue (option : OptionSpec) (value reason : Text)
  deriving DecidableEq, Inhabited

namespace UsageError

/-- A letter in single quotes. Bytes outside ASCII are shown by the first byte of the rune with
their number. -/
def quotedLetter (b : UInt8) : Text :=
  let code := if b < 128 then b.toNat else if b < 192 then 0xC2 else 0xC3
  let inner :=
    if code = 39 then Text.ofString "\\'"
    else if code = 34 then [34]
    else (Text.runes (Text.encodeRune code)).flatMap (Text.quoteRune false)
  39 :: inner ++ [39]

/-- The words for an error. -/
def message : UsageError → Text
  | .badOption word => "bad flag syntax: " ++ word
  | .unknownOption name => "unknown flag: --" ++ name
  | .unknownLetter letter letters =>
    "unknown shorthand flag: " ++ quotedLetter letter ++ " in -" ++ letters
  | .noValue name => "flag needs an argument: --" ++ name
  | .noValueForLetter letter letters =>
    "flag needs an argument: " ++ quotedLetter letter ++ " in -" ++ letters
  | .badValue o value reason =>
    "invalid argument " ++ Text.quoted value ++ " for " ++ Text.quoted o.shown ++ " flag: " ++ reason

end UsageError

/-- A command line that was read. -/
structure CommandLine where
  /-- The options that were given, the latest first. -/
  given : List (Text × Value) := []
  arguments : List Text := []
  deriving DecidableEq, Inhabited

namespace CommandLine

/-- The value an option was given last. -/
def value? (c : CommandLine) (name : Text) : Option Value := c.given.lookup name

/-- The text of an option. -/
def text? (c : CommandLine) (name : Text) : Option Text :=
  match c.value? name with
  | some (.text t) => some t
  | _ => none

/-- The text of an option that has a standard value. -/
def text (c : CommandLine) (name standard : Text) : Text := (c.text? name).getD standard

/-- Is a switch on? -/
def isOn (c : CommandLine) (name : Text) : Bool := c.value? name = some (.switch true)

/-- The number of an option. -/
def number? (c : CommandLine) (name : Text) : Option Int :=
  match c.value? name with
  | some (.number n) => some n
  | _ => none

/-- The duration of an option; zero if it was not given. -/
def duration (c : CommandLine) (name : Text) : Time.Duration :=
  match c.value? name with
  | some (.duration d) => d
  | _ => 0

/-- Gives an option a value. -/
def set (c : CommandLine) (o : OptionSpec) (value : Text) : Except UsageError CommandLine :=
  match Value.read o.kind value with
  | .ok v => .ok { c with given := (o.name, v) :: c.given }
  | .error reason => .error (.badValue o value reason)

end CommandLine

/-- What the next word is. -/
inductive Expected where
  /-- An option or an argument. -/
  | any
  /-- The value of an option. Without it there is an error. -/
  | value (o : OptionSpec) (missing : UsageError)
  | argument
  deriving DecidableEq, Inhabited

/-- A command line that is being read. -/
structure Reading where
  line : CommandLine := {}
  expected : Expected := .any
  deriving DecidableEq, Inhabited

namespace Reading

/-- Reads letters behind a dash. -/
def letters (options : List OptionSpec) (c : CommandLine) : Text → Except UsageError Reading
  | [] => .ok { line := c }
  | b :: rest =>
    match options.find? fun o => o.letter = some b with
    | none => .error (.unknownLetter b (b :: rest))
    | some o =>
      match rest with
      | 61 :: v :: value => (c.set o (v :: value)).map fun c => { line := c }
      | _ =>
        if o.kind = .switch then do letters options (← c.set o "true") rest
        else if rest.isEmpty then
          .ok { line := c, expected := .value o (.noValueForLetter b (b :: rest)) }
        else (c.set o rest).map fun c => { line := c }

/-- Reads the word of an option with a name, without its dashes. -/
def named (options : List OptionSpec) (c : CommandLine) (word : Text) : Except UsageError Reading :=
  let (name, value) := match Text.splitFirst 61 word with
    | some (name, value) => (name, some value)
    | none => (word, none)
  if name = [] || name.head? = some 45 then .error (.badOption ("--" ++ word))
  else
    match options.find? fun o => o.name = name with
    | none => .error (.unknownOption name)
    | some o =>
      match value with
      | some value => (c.set o value).map fun c => { line := c }
      | none =>
        if o.kind = .switch then (c.set o "true").map fun c => { line := c }
        else .ok { line := c, expected := .value o (.noValue name) }

/-- Reads a word. -/
def word (options : List OptionSpec) (r : Reading) (w : Text) : Except UsageError Reading :=
  let argument : Reading := { r with line := { r.line with arguments := r.line.arguments ++ [w] } }
  match r.expected with
  | .argument => .ok argument
  | .value o _ => (r.line.set o w).map fun c => { line := c }
  | .any =>
    match w with
    | [45, 45] => .ok { r with expected := .argument }
    | 45 :: 45 :: name => named options r.line name
    | 45 :: b :: rest =>
      if Text.hasStart (b :: rest) "test." then .ok r else letters options r.line (b :: rest)
    | _ => .ok argument

end Reading

/-- Reads the words of a command line. -/
def CommandLine.read (options : List OptionSpec) (words : List Text) :
    Except UsageError CommandLine := do
  let r ← words.foldlM (Reading.word options) {}
  match r.expected with
  | .value _ missing => .error missing
  | _ => .ok r.line

end TokenLint.Command
