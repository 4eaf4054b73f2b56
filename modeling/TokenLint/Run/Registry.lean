import TokenLint.Rule

/-!
# Registries

Which rules are asked about which kinds of tokens. Rules get numbers in the order in which they
are registered, and a table says which numbers to ask about a kind. They are asked in that order,
and each only once however often it names a kind.
-/

namespace TokenLint

/-- Registered rules. -/
structure Registry where
  rules : List Rule := []
  /-- Kinds and the numbers of rules to ask about them, in the order in which they were entered. -/
  table : List (Kind × Nat) := []
  deriving Inhabited

namespace Registry

/-- The number of rules. -/
def size (r : Registry) : Nat := r.rules.length

/-- The table with a number entered for kinds; `seen` are the kinds it is entered for already. -/
def enter (number : Nat) (table : List (Kind × Nat)) (seen : List Kind) :
    List Kind → List (Kind × Nat)
  | [] => table
  | k :: rest =>
    if k ∈ seen then enter number table seen rest
    else enter number (table ++ [(k, number)]) (k :: seen) rest

/-- The registry with one more rule. -/
def register (r : Registry) (rule : Rule) : Registry :=
  { rules := r.rules ++ [rule], table := enter r.size r.table [] rule.kinds }

/-- The registry of a list in which some places may be empty. -/
def ofList (rules : List (Option Rule)) : Registry :=
  rules.foldl (fun r place => match place with
    | none => r
    | some rule => r.register rule) {}

/-- The rules for a kind of tokens, in order. -/
def forKind (r : Registry) (k : Kind) : List Rule :=
  r.table.filterMap fun e => if e.1 = k then r.rules[e.2]? else none

end Registry

end TokenLint
