import TokenLint.Table
import TokenLint.Toml.Value

/-!
# Building a TOML document

The document grows line by line. A header opens a table, or adds one to a list of tables; a
dotted key opens tables on its way. A table that was only opened on the way to another one
may be opened once more by a header of its own; everything else may be written only once,
except that a list in brackets may be replaced.
-/

namespace TokenLint.Toml

/-- A document that is being read. -/
structure Builder where
  root : Entries := []
  /-- The table that entries go to. -/
  context : Key := []
  /-- The tables that were only opened on the way. -/
  implicits : List Key := []
  /-- Is the value at a key a list in brackets? The latest word counts. -/
  lists : List (Key × Bool) := []
  /-- All keys, in the order in which they were written. -/
  keys : List Key := []
  deriving Inhabited

/-- Changes the table at a key; in a list of tables the last one counts. Nothing if there is no
table on the way. -/
def update? (f : Entries → Option Entries) : Key → Entries → Option Entries
  | [], es => f es
  | k :: ks, es =>
    match es.lookup k with
    | some (.table sub) => (update? f ks sub).map fun sub => Table.assign es k (.table sub)
    | some (.tables items) =>
      match items.reverse with
      | last :: before =>
        (update? f ks last).map fun last => Table.assign es k (.tables (last :: before).reverse)
      | [] => none
    | _ => none

/-- The table at a key. -/
def tableAt : Key → Entries → Entries
  | [], es => es
  | k :: ks, es =>
    match es.lookup k with
    | some (.table sub) => tableAt ks sub
    | some (.tables items) => tableAt ks (items.getLastD [])
    | _ => []

namespace Builder

/-- Is the value at a key a list in brackets? -/
def isList (b : Builder) (k : Key) : Bool := (b.lists.lookup k).getD false

/-- Says whether the value at a key is a list in brackets. -/
def note (b : Builder) (k : Key) (isList : Bool) : Builder := { b with lists := (k, isList) :: b.lists }

/-- Forgets that a table was only opened on the way. -/
def settle (b : Builder) (k : Key) : Builder := { b with implicits := b.implicits.filter (· ≠ k) }

/-- Gives a name in the current table a value; nothing if that is not allowed. -/
def setValue? (b : Builder) (name : Text) (v : Value) : Option Builder :=
  let key := b.context ++ [name]
  let write (es : Entries) : Option Entries :=
    if (es.lookup name).isNone || b.isList key then some (Table.assign es name v)
    else if b.implicits.contains key then some es
    else none
  let isNew (es : Entries) : Bool := (es.lookup name).isNone
  (update? write b.context b.root).map fun root =>
    let settled := if isNew (tableAt b.context b.root) then b else b.settle key
    { settled with root := root }

/-- Opens the tables on the way to a key. -/
def openWay? (b : Builder) (done : Key) : Key → Option Builder
  | [] => some b
  | k :: rest =>
    let here := done ++ [k]
    match (tableAt done b.root).lookup k with
    | some (.table _) | some (.tables (_ :: _)) => b.openWay? here rest
    | some _ => none
    | none => do
      let root ← update? (fun es => some (Table.assign es k (.table []))) done b.root
      ({ b with root := root, implicits := here :: b.implicits } : Builder).openWay? here rest

/-- Opens a table, or adds one to a list of tables. Entries then go there. -/
def openTable? (b : Builder) (key : Key) (listed : Bool) : Option Builder :=
  match key.reverse with
  | [] => none
  | last :: before => do
    let way := before.reverse
    let b ← b.openWay? [] way
    let b := { b with context := way }
    let b ←
      if listed then do
        let add (es : Entries) : Option Entries :=
          match es.lookup last with
          | none => some (Table.assign es last (.tables [[]]))
          | some (.tables items) => some (Table.assign es last (.tables (items ++ [[]])))
          | some _ => none
        let root ← update? add way b.root
        some { b with root := root }
      else b.setValue? last (.table [])
    some { b with context := key }

/-- Opens the tables that a dotted key leads through. -/
def openDotted? (b : Builder) : List Text → Option Builder
  | [] => some b
  | k :: rest => do
    let key := b.context ++ [k]
    let b ← ({ b with implicits := key :: b.implicits } : Builder).openTable? key false
    b.openDotted? rest

/-- Opens the table of a header. -/
def header? (b : Builder) (key : Key) (listed : Bool) : Option Builder := do
  let b ← b.openTable? key listed
  some { b.note key false with keys := b.keys ++ [key] }

end Builder

end TokenLint.Toml
