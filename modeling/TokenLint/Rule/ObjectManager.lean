import TokenLint.Rule
import TokenLint.Token.CallSite

/-!
# The object manager rule

Objects used to be created by asking an object manager for a class by its name. The rule
looks at calls of `get` and `create` and at the first string literal after the name. It
warns about `create`, and if the literal names a class of the past it reports an error with
a fix that puts in the present name.

Whether a name is a call, and which names are of the past, are parameters of the rule.
-/

namespace TokenLint.ObjectManager

/-- The name of the rule. -/
def name : Text := "Typo3Update.LegacyClassnames.InstantiationWithObjectManager"

/-- The warning about `create`. -/
def createMessage : Text :=
  "The \"create\" method of ObjectManager is no longer supported, please migrate to \"get\"."

/-- The error about a class name of the past. -/
def legacyMessage : Text :=
  "Legacy classes are not allowed, found \"%s\", use \"%s\" instead"

/-- The single quote. -/
def singleQuote : UInt8 := 39

/-- The double quote. -/
def doubleQuote : UInt8 := 34

/-- Is the byte a quote? -/
def isQuote (b : UInt8) : Bool := b = singleQuote || b = doubleQuote

/-- Drops the first byte if it is a quote. -/
def dropQuote : Text → Text
  | b :: rest => if isQuote b then rest else b :: rest
  | [] => []

/-- A literal without the quotes at its ends. -/
def stripQuotes (raw : Text) : Text := (dropQuote (dropQuote raw).reverse).reverse

/-- The literal that puts another name in the place of the one in `raw`. Whatever the first
byte of `raw` is, it is the quote: what stands between its first two occurrences is
replaced, and what follows the second one stays. Double quotes become single ones, because
a backslash means something between double quotes. -/
def replaceName (raw newName : Text) : Text :=
  match raw with
  | [] => singleQuote :: newName ++ [singleQuote]
  | q :: rest =>
    let q' := if q = doubleQuote then singleQuote else q
    match Text.splitFirst q rest with
    | none => q' :: newName
    | some (_, tail) => q' :: newName ++ q' :: tail

/-- What the rule depends on. -/
structure Settings where
  /-- Is the name at a position called? -/
  isCall : Stream → Int → Bool := Stream.isFunctionCall
  /-- The present name for a class name of the past; without it no name is of the past. -/
  replacement? : Option (Text → Option Text) := none
  deriving Inhabited

/-- The fix that replaces a literal. It is named by its place. -/
def fix (pos : Pos) (raw className newName : Text) : Fix :=
  Fix.deferred ("Replace " ++ className ++ " with " ++ newName)
    (some
      { id := Code.shown Code.legacyClassname ++ "-" ++ Text.ofNat pos.file.toNat ++ "-"
          ++ Text.ofNat pos.token.toNat
        build := fun _ =>
          .ok { preferred := true, edits := [⟨pos, replaceName raw newName, raw⟩] } })
    [.preferred]

/-- What the rule says about the token at a position. -/
def process (s : Settings) (v : RuleView) (i : Nat) : Findings :=
  if !s.isCall v.tokens i then {}
  else
    let method := (v.tokens.tokenAt i).content
    if method ≠ "get" && method ≠ "create" then {}
    else match v.tokens.findNext [.stringLiteral] i with
      | none => {}
      | some j =>
        let warnings :=
          if method = "create" then
            [v.warning i createMessage Code.mightBeDeprecatedMethod ["create"]]
          else []
        let raw := (v.tokens.tokenAt j).content
        let className := stripQuotes raw
        match s.replacement?.bind fun f => f className with
        | none => { diagnostics := warnings }
        | some newName =>
          { diagnostics := warnings ++
              [v.fixableError j legacyMessage Code.legacyClassname
                (fix (v.pos j) raw className newName) [className, newName]] }

/-- The rule. -/
def rule (s : Settings) : Rule := { code := name, kinds := Kind.functionNames, process := process s }

end TokenLint.ObjectManager
