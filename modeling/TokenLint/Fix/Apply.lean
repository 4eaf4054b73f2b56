import TokenLint.Diagnostic.Basic
import TokenLint.Table
import TokenLint.Text.Quoted

/-!
# Applying fixes

The fixes of a list of diagnostics are gathered, ordered by where they belong, selected by a
mode, and applied one after the other. A fix is applied completely or not at all: it is
skipped if one of its edits has no token, or a token that an applied fix has edited already,
or a token whose content is not the expected one.

Main definitions: `gather`, `order`, `select`, `applySelected` and `apply`, which puts them
together.
-/

namespace TokenLint.Fixing

/-- Which fixes to apply. -/
inductive Mode where
  /-- The first one that can be. -/
  | once
  /-- All safe ones. -/
  | all
  /-- The one with a given name. -/
  | byId
  /-- None. -/
  | nothing
  deriving DecidableEq, Inhabited

namespace Mode

/-- The mode meant by an option value. -/
def ofName? (t : Text) : Option Mode :=
  if t = [] || t = "once" then some .once
  else if t = "all" then some .all
  else if t = "id" then some .byId
  else none

/-- The complaint about an option value that means no mode. -/
def unknown (t : Text) : Text :=
  "unknown fix mode " ++ Text.quoted t ++ " (want once, all or id)"

end Mode

/-- A fix that could be applied. -/
structure Candidate where
  diagnostic : Diagnostic
  plan : FixPlan
  /-- Its place among all candidates when they were gathered. -/
  order : Nat
  deriving Inhabited

/-- A fix that was applied. -/
structure Applied where
  id : Text
  title : Text
  code : Code
  message : Text
  applicability : Applicability
  /-- The path of the file the diagnostic is in. -/
  path : Text
  editCount : Nat
  deriving DecidableEq, Inhabited

/-- A fix that was not applied, and why. -/
structure Skipped where
  id : Text := []
  title : Text := []
  reason : Text
  deriving DecidableEq, Inhabited

/-- A file that was changed. -/
structure FileChange where
  file : UInt32
  path : Text
  editCount : Nat
  deriving DecidableEq, Inhabited

/-- What came of applying fixes. -/
structure Outcome where
  applied : List Applied := []
  skipped : List Skipped := []
  changes : List FileChange := []
  deriving DecidableEq, Inhabited

/-- Why nothing came of it. -/
inductive Problem where
  | noFileSet
  | noFixes
  deriving DecidableEq, Inhabited

namespace Problem

/-- The words for a problem. -/
def message : Problem → Text
  | .noFileSet => "fix: FileSet is nil"
  | .noFixes => "no applicable fixes found"

end Problem

/-- The reasons for which a fix is skipped. -/
inductive Reason where
  | cannotBuild (e : FixError)
  | noEdits
  | duplicateId
  | unknownId
  | needsAll
  | notSafe (a : Applicability)
  | unknownFile (file : UInt32)
  | outOfRange
  | conflict
  | mismatch
  deriving DecidableEq, Inhabited

namespace Reason

/-- The words for a reason. -/
def message : Reason → Text
  | .cannotBuild e => "failed to build fixes: " ++ e.message
  | .noEdits => "fix has no edits"
  | .duplicateId => "duplicate fix id"
  | .unknownId => "fix id not found"
  | .needsAll => "fix requires all fixes to be applied"
  | .notSafe a => "applicability is " ++ a.label
  | .unknownFile file => "unknown file " ++ Text.ofNat file.toNat
  | .outOfRange => "edit position out of range"
  | .conflict => "conflicts with previously applied edits"
  | .mismatch => "existing text does not match expected content"

end Reason

/-! ## Gathering -/

/-- What has been gathered so far. -/
structure Gathered where
  candidates : Array Candidate := #[]
  skipped : List Skipped := []
  deriving Inhabited

/-- The name of a fix that has none: by the code and place of its diagnostic and its number
among the fixes offered there. -/
def generatedId (fs : FileSet) (d : Diagnostic) (index : Nat) : Text :=
  Code.shown d.code ++ "-" ++ fs.pathOf d.primary.file .auto ++ "-"
    ++ Text.ofNat d.primary.token.toNat ++ "-" ++ Text.ofNat index

/-- Gathers one fix of a diagnostic. -/
def gatherPlan (fs : FileSet) (d : Diagnostic) (g : Gathered) (p : FixPlan × Nat) : Gathered :=
  if p.1.edits.isEmpty then
    { g with skipped := g.skipped ++ [⟨p.1.id, p.1.title, Reason.noEdits.message⟩] }
  else
    let plan := if p.1.id = [] then { p.1 with id := generatedId fs d p.2 } else p.1
    if g.candidates.any fun c => c.plan.id = plan.id then
      { g with skipped := g.skipped ++ [⟨plan.id, plan.title, Reason.duplicateId.message⟩] }
    else { g with candidates := g.candidates.push ⟨d, plan, g.candidates.size⟩ }

/-- Gathers the fixes of a diagnostic: all of them or, if one cannot be built, none. -/
def gatherDiagnostic (fs : FileSet) (g : Gathered) (d : Diagnostic) : Gathered :=
  if !d.fixable then g
  else match Fix.resolveAll (some fs) d.fixes with
    | .error e =>
      { g with skipped := g.skipped ++ [⟨[], d.message, (Reason.cannotBuild e).message⟩] }
    | .ok plans => plans.zipIdx.foldl (gatherPlan fs d) g

/-- Gathers the fixes of all diagnostics. -/
def gather (fs : FileSet) (ds : List Diagnostic) : Gathered := ds.foldl (gatherDiagnostic fs) {}

/-- Does a candidate come first? By the place of its diagnostic, then as gathered. -/
def Candidate.before (a b : Candidate) : Bool :=
  if a.diagnostic.primary ≠ b.diagnostic.primary then
    a.diagnostic.primary.less b.diagnostic.primary
  else a.order < b.order

/-- The candidates in order. -/
def order (cs : List Candidate) : List Candidate := cs.mergeSort fun a b => !b.before a

/-! ## Selecting -/

/-- What to apply. -/
structure Request where
  mode : Mode := .once
  /-- The name asked for. -/
  id : Text := []
  deriving DecidableEq, Inhabited

/-- The safe candidate that mode `once` takes, or else the first that may be taken alone,
and what is skipped on the way. -/
def selectOnce (fallback : Option Candidate) (skipped : List Skipped) :
    List Candidate → List Candidate × List Skipped
  | [] => (fallback.toList, skipped)
  | c :: rest =>
    if c.plan.requiresAll then
      selectOnce fallback (skipped ++ [⟨c.plan.id, c.plan.title, Reason.needsAll.message⟩]) rest
    else if c.plan.applicability = .alwaysSafe then ([c], skipped)
    else selectOnce (if fallback.isNone then some c else fallback) skipped rest

/-- Is the candidate safe? -/
def isSafe (c : Candidate) : Bool := c.plan.applicability = .alwaysSafe

/-- The candidates to apply, and those the request rules out. -/
def select (cs : List Candidate) (r : Request) : List Candidate × List Skipped :=
  match r.mode with
  | .byId =>
    match cs.find? fun c => c.plan.id = r.id with
    | none => ([], [⟨r.id, [], Reason.unknownId.message⟩])
    | some c =>
      if c.plan.requiresAll then ([], [⟨r.id, [], Reason.needsAll.message⟩]) else ([c], [])
  | .all =>
    (cs.filter isSafe,
      (cs.filter fun c => !isSafe c).map fun c =>
        ⟨c.plan.id, c.plan.title, (Reason.notSafe c.plan.applicability).message⟩)
  | .once => selectOnce none [] cs
  | .nothing => ([], [])

/-! ## Applying -/

/-- The state while fixes are applied. -/
structure Workspace where
  /-- The streams that have been changed, by file. -/
  streams : List (UInt32 × Stream) := []
  /-- The tokens that have been edited. -/
  touched : List Pos := []
  /-- The number of edits by file. -/
  editCounts : List (UInt32 × Nat) := []
  applied : List Applied := []
  skipped : List Skipped := []
  deriving Inhabited

/-- The files of edits, in increasing order. -/
def filesOf (edits : List TokenEdit) : List UInt32 :=
  (edits.map (·.pos.file)).mergeSort (· ≤ ·) |>.eraseDups

/-- The edits in one file, in the order of their tokens. -/
def editsIn (file : UInt32) (edits : List TokenEdit) : List TokenEdit :=
  (edits.filter (·.pos.file = file)).mergeSort fun a b => a.pos.token ≤ b.pos.token

/-- Why an edit cannot be made. -/
def checkEdit (s : Stream) (touched : List Pos) (e : TokenEdit) : Option Reason :=
  match s[e.pos.token.toNat]? with
  | none => some .outOfRange
  | some t =>
    if e.pos ∈ touched then some .conflict
    else if e.oldText ≠ [] && t.content ≠ e.oldText then some .mismatch
    else none

/-- Makes the edits of one file, or says why not. -/
def editStream (touched : List Pos) : Stream → List TokenEdit → Except Reason Stream
  | s, [] => .ok s
  | s, e :: rest =>
    match checkEdit s touched e with
    | some r => .error r
    | none => editStream touched (s.setContent e.pos.token.toNat e.newText) rest

/-- The current stream of a file. -/
def Workspace.stream? (w : Workspace) (fs : FileSet) (file : UInt32) : Option Stream :=
  match w.streams.lookup file with
  | some s => some s
  | none => (fs.get? file).map (·.tokens)

/-- The new streams of all files a fix edits, or why it cannot be applied. -/
def stage (fs : FileSet) (w : Workspace) (edits : List TokenEdit) :
    List UInt32 → Except Reason (List (UInt32 × Stream))
  | [] => .ok []
  | file :: rest =>
    match w.stream? fs file with
    | none => .error (.unknownFile file)
    | some s =>
      match editStream w.touched s (editsIn file edits) with
      | .error r => .error r
      | .ok s =>
        match stage fs w edits rest with
        | .error r => .error r
        | .ok staged => .ok ((file, s) :: staged)

/-- Applies one candidate, or skips it. -/
def applyOne (fs : FileSet) (w : Workspace) (c : Candidate) : Workspace :=
  let edits := c.plan.edits
  match stage fs w edits (filesOf edits) with
  | .error r =>
    { w with skipped := w.skipped ++ [⟨c.plan.id, c.plan.title, r.message⟩] }
  | .ok staged =>
    { w with
      streams := staged.foldl (fun xs (file, s) => Table.assign xs file s) w.streams
      touched := w.touched ++ edits.map (·.pos)
      editCounts := staged.foldl
        (fun xs (file, _) =>
          Table.assign xs file ((xs.lookup file).getD 0 + (editsIn file edits).length))
        w.editCounts
      applied := w.applied ++
        [{ id := c.plan.id, title := c.plan.title, code := c.diagnostic.code
           message := c.diagnostic.message, applicability := c.plan.applicability
           path := fs.pathOf c.diagnostic.primary.file .auto, editCount := edits.length }] }

/-- Puts changed streams into the file set. -/
def commit (fs : FileSet) (streams : List (UInt32 × Stream)) : FileSet :=
  streams.foldl (fun fs (file, s) => fs.replace file s) fs

/-- The changed files, by path and then by number. -/
def changesOf (fs : FileSet) (w : Workspace) : List FileChange :=
  let changes := w.streams.map fun (file, _) =>
    (⟨file, fs.pathOf file .auto, (w.editCounts.lookup file).getD 0⟩ : FileChange)
  (changes.mergeSort fun a b => a.file ≤ b.file).mergeSort fun a b => Text.le a.path b.path

/-- Applies the selected candidates in order. -/
def applySelected (fs : FileSet) (cs : List Candidate) :
    FileSet × List Applied × List Skipped × List FileChange :=
  let w := cs.foldl (applyOne fs) {}
  (commit fs w.streams, w.applied, w.skipped, changesOf fs w)

/-- Applies the fixes of diagnostics: the new file set, what was done, and the problem if
nothing was. -/
def apply (fs : FileSet) (ds : List Diagnostic) (r : Request) :
    FileSet × Outcome × Option Problem :=
  let g := gather fs ds
  let (selected, ruledOut) := select (order g.candidates.toList) r
  let (fs', applied, skipped, changes) := applySelected fs selected
  let outcome : Outcome :=
    { applied := applied
      skipped := g.skipped ++ (if g.candidates.isEmpty then [] else ruledOut) ++ skipped
      changes := changes }
  (fs', outcome, if applied.isEmpty then some .noFixes else none)

end TokenLint.Fixing
