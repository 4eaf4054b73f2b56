import TokenLint.Run.Registry

/-!
# Running rules over a file

Every token is shown to the rules registered for its kind. What they report goes into a bag
through a filter that lets each diagnostic pass only once; in the end the bag is sorted. A
run that is cancelled stops before the next token.
-/

namespace TokenLint.Run

/-- What came of a file. -/
structure FileResult (ε : Type) where
  path : Text := []
  file : UInt32 := 0
  tokenCount : Nat := 0
  bag : Bag := {}
  /-- Why the file could not be processed; then the bag is empty. -/
  error : Option ε := none
  deriving Inhabited

/-- The view of a file that a rule gets. -/
def viewFor (base : RuleView) (r : Rule) : RuleView := { base with rule := r.code }

/-- What the rules report for one token. -/
def findingsAt (rules : Registry) (base : RuleView) (t : Token) (i : Nat) : List Diagnostic :=
  (rules.forKind t.kind).flatMap fun r => r.findings (viewFor base r) i

/-- What the rules report for tokens, numbered from `i` on. A run that is cancelled by the
time a token comes up ends there; `cancelled` says when. -/
def findingsFrom (rules : Registry) (base : RuleView) (cancelled : Nat → Bool) (i : Nat) :
    Stream → List Diagnostic
  | [] => []
  | t :: rest =>
    if cancelled i then []
    else findingsAt rules base t i ++ findingsFrom rules base cancelled (i + 1) rest

/-- Collects reports in a bag of a given capacity, each report once, sorted. -/
def collect (max : Int) (reports : List Diagnostic) : Bag :=
  ((reports.foldl Sink.report (.unique [] (.bag (Bag.ofCapacity max)))).bag?.getD {}).sort

/-- Runs rules over one file of a file set. -/
def processFile (rules : Registry) (max : Int) (fs : FileSet) (id : UInt32)
    (cancelled : Nat → Bool) : FileResult Text :=
  match fs.get? id with
  | none =>
    { file := id, bag := Bag.ofCapacity max
      error := some ("unknown file id " ++ Text.ofNat id.toNat) }
  | some f =>
    let path := fs.pathOf id .auto
    let base : RuleView := { file := id, path := path, tokens := f.tokens }
    { path := path, file := id, tokenCount := f.tokens.length
      bag := collect max (findingsFrom rules base cancelled 0 f.tokens) }

/-- Runs rules over all files of a file set. -/
def processAll (rules : Registry) (max : Int) (fs : FileSet) : List (FileResult Text) :=
  fs.ids.map fun id => processFile rules max fs id fun _ => false

/-- All diagnostics of results, in order. -/
def diagnostics {ε : Type} (results : List (FileResult ε)) : List Diagnostic :=
  results.flatMap fun r => r.bag.items.toList

end TokenLint.Run
