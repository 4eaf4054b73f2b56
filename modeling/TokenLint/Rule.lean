import TokenLint.Diagnostic.Bag
import TokenLint.Text.Template

/-!
# Rules

A rule is asked about tokens of the kinds it registers for, and answers with diagnostics. It
sees one file through a view that knows the number of the file and the name of the rule. A
rule may crash; what it has reported before stays.
-/

namespace TokenLint

/-- The file a rule looks at. -/
structure RuleView where
  file : UInt32 := 0
  path : Text := []
  tokens : Stream := []
  /-- The rule for which the file is viewed. -/
  rule : Text := []
  deriving Inhabited

namespace RuleView

/-- The place of a token; positions that are no token index give the first token. -/
def pos (v : RuleView) (i : Int) : Pos :=
  ⟨v.file, if 0 ≤ i && i < 4294967296 then i.toNat.toUInt32 else 0⟩

/-- The message of a diagnostic: a template if there is data to fill in. -/
def message (template : Text) (data : List Text) : Text :=
  if data.isEmpty || 37 ∉ template then template else Text.Template.expand template data

/-- A diagnostic at a token. -/
def report (v : RuleView) (severity : Severity) (i : Int) (template : Text) (code : Code)
    (data : List Text) (fixes : List Fix) : Diagnostic :=
  { severity := severity, code := code, rule := v.rule, message := message template data
    primary := v.pos i, data := data, fixes := fixes }

/-- A warning at a token. -/
def warning (v : RuleView) (i : Int) (template : Text) (code : Code) (data : List Text) :
    Diagnostic :=
  v.report .warning i template code data []

/-- An error at a token. -/
def error (v : RuleView) (i : Int) (template : Text) (code : Code) (data : List Text) :
    Diagnostic :=
  v.report .error i template code data []

/-- An error at a token, with a fix. -/
def fixableError (v : RuleView) (i : Int) (template : Text) (code : Code) (fix : Fix)
    (data : List Text) : Diagnostic :=
  v.report .error i template code data [fix]

end RuleView

/-- What a rule says about one token. -/
structure Findings where
  diagnostics : List Diagnostic := []
  /-- The words of a crash, if the rule crashed in the end. -/
  crash : Option Text := none
  deriving Inhabited

/-- A rule. -/
structure Rule where
  /-- The name of the rule. -/
  code : Text
  /-- The kinds of tokens it is asked about. -/
  kinds : List Kind
  /-- What it says about the token at a position. -/
  process : RuleView → Nat → Findings
  deriving Inhabited

namespace Rule

/-- The diagnostic that reports a crash. -/
def crashed (r : Rule) (v : RuleView) (i : Nat) (words : Text) : Diagnostic :=
  { severity := .error, code := Code.sniffPanic, rule := r.code, primary := v.pos i
    message := "sniff " ++ r.code ++ " panicked: " ++ words }

/-- What a rule reports for a token, a crash included. -/
def findings (r : Rule) (v : RuleView) (i : Nat) : List Diagnostic :=
  let f := r.process v i
  f.diagnostics ++ (f.crash.map (r.crashed v i)).toList

end Rule

end TokenLint
