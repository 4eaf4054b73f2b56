/-!
# Tables

Values by key are kept in lists of pairs: streams by file, entries of a class map by folded name,
entries of a disk by path, values of a mapping file by name.
-/

namespace TokenLint.Table

variable {κ α : Type} [DecidableEq κ]

/-- The table with a value for a key: in the place of an earlier one, else behind all others. -/
def assign (xs : List (κ × α)) (key : κ) (v : α) : List (κ × α) :=
  if xs.any (·.1 = key) then xs.map fun x => if x.1 = key then (key, v) else x
  else xs ++ [(key, v)]

end TokenLint.Table
