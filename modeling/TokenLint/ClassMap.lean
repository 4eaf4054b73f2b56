import TokenLint.Table
import TokenLint.Text.Blank
import TokenLint.Text.Fold

/-!
# Class maps

A class map knows the present names of classes of the past. Names are looked up without
regard to case and to backslashes around them. How case is disregarded is a parameter of
the construction, so that what is true of class maps does not depend on it.
-/

namespace TokenLint

/-- One class: its name of the past and its present name. -/
structure ClassEntry where
  legacy : Text
  modern : Text
  deriving DecidableEq, Inhabited

/-- Classes by their folded names of the past. -/
structure ClassMap where
  entries : List (Text × ClassEntry) := []
  deriving DecidableEq, Inhabited

namespace ClassMap

/-- A name without backslashes around it. -/
def bare (t : Text) : Text := Text.trimBoth (· = 92) t

/-- A name in a mapping without blanks and then without backslashes around it. -/
def normalize (t : Text) : Text := bare (Text.trimBlank t)

/-- Sets the entry of a key. -/
def set (m : ClassMap) (key : Text) (e : ClassEntry) : ClassMap :=
  { entries := Table.assign m.entries key e }

/-- Adds a pair; pairs with an empty name say nothing. -/
def addPair (fold : Text → Text) (m : ClassMap) (pair : Text × Text) : ClassMap :=
  let legacy := normalize pair.1
  let modern := normalize pair.2
  if legacy = [] || modern = [] then m else m.set (fold legacy) ⟨legacy, modern⟩

/-- The map of pairs of names. They are added in the byte order of their first names, so
of several names that are the same when folded the greatest wins. -/
def ofPairsWith (fold : Text → Text) (pairs : List (Text × Text)) : ClassMap :=
  (pairs.mergeSort fun a b => Text.le a.1 b.1).foldl (addPair fold) {}

/-- The map of pairs of names, under the case folding of Unicode. -/
def ofPairs (pairs : List (Text × Text)) : ClassMap := ofPairsWith Text.fold pairs

/-- The present name of a class. -/
def replacementWith? (fold : Text → Text) (m : ClassMap) (name : Text) : Option Text :=
  let key := bare name
  if key = [] then none else (m.entries.lookup (fold key)).map (·.modern)

/-- The present name of a class, under the case folding of Unicode. -/
def replacement? (m : ClassMap) (name : Text) : Option Text := m.replacementWith? Text.fold name

/-- The number of classes. -/
def size (m : ClassMap) : Nat := m.entries.length

/-- The pairs of names. -/
def pairs (m : ClassMap) : List (Text × Text) := m.entries.map fun x => (x.2.legacy, x.2.modern)

/-- The classes of both maps; where both know a name the second one is right. -/
def merge (m other : ClassMap) : ClassMap :=
  other.entries.foldl (fun out x => out.set x.1 x.2) m

end ClassMap

end TokenLint
