import TokenLint.FileSet

/-!
# Fixes

A fix is a list of token replacements with a title and a judgement on how safe it is. Its
replacements may be computed late: then the fix carries a builder that is run when they are
needed.
-/

namespace TokenLint

/-- What sort of change a fix is. -/
structure FixKind where
  rank : UInt8 := 0
  deriving DecidableEq, Inhabited

namespace FixKind

/-- A small local change. -/
def quickFix : FixKind := ⟨0⟩

/-- The name of a sort of change. -/
def label (k : FixKind) : Text :=
  if k.rank = 0 then "quickfix"
  else if k.rank = 1 then "refactor"
  else if k.rank = 2 then "rewrite"
  else if k.rank = 3 then "source"
  else "unknown"

end FixKind

/-- How safe a fix is; smaller is safer. -/
structure Applicability where
  rank : UInt8 := 0
  deriving DecidableEq, Inhabited

namespace Applicability

/-- Can be applied without a look. -/
def alwaysSafe : Applicability := ⟨0⟩

/-- The name of a degree of safety. -/
def label (a : Applicability) : Text :=
  if a.rank = 0 then "always-safe"
  else if a.rank = 1 then "safe-with-heuristics"
  else if a.rank = 2 then "manual-review"
  else "unknown"

end Applicability

/-- The replacement of one token. -/
structure TokenEdit where
  pos : Pos := {}
  newText : Text := []
  /-- What the token must hold before; empty when that does not matter. -/
  oldText : Text := []
  deriving DecidableEq, Inhabited

/-- A fix whose replacements are known. -/
structure FixPlan where
  /-- A name by which the fix can be asked for; possibly empty. -/
  id : Text := []
  title : Text := []
  kind : FixKind := .quickFix
  applicability : Applicability := .alwaysSafe
  preferred : Bool := false
  /-- May only be applied together with all other fixes. -/
  requiresAll : Bool := false
  edits : List TokenEdit := []
  deriving DecidableEq, Inhabited

/-- A builder of a fix: it may look at the files, and it may fail with words. -/
structure FixBuilder where
  id : Text
  build : Option FileSet → Except Text FixPlan
  deriving Inhabited

/-- A fix that is offered with a diagnostic. -/
structure Fix where
  /-- The fix as declared; without a builder this is the fix itself. -/
  plan : FixPlan := {}
  builder : Option FixBuilder := none
  deriving Inhabited

/-- Why a fix cannot be built. -/
inductive FixError where
  | buildFailed (builder cause : Text)
  /-- The builder produced a fix that changes nothing. -/
  | noEdits (builder : Text)
  deriving DecidableEq, Inhabited

namespace FixError

/-- The words for an error. -/
def message : FixError → Text
  | .buildFailed id cause => "fix " ++ id ++ ": " ++ cause
  | .noEdits id => "fix " ++ id ++ ": fix thunk produced no edits"

end FixError

namespace Fix

/-- The fix with its replacements. A built fix takes over the declared name and title where
it has none of its own; all else is the builder's. -/
def resolve (files : Option FileSet) (f : Fix) : Except FixError FixPlan :=
  match f.builder with
  | none => .ok f.plan
  | some b =>
    match b.build files with
    | .error cause => .error (.buildFailed b.id cause)
    | .ok built =>
      if built.edits.isEmpty then .error (.noEdits b.id)
      else .ok
        { built with
          id := if built.id ≠ [] then built.id else if f.plan.id ≠ [] then f.plan.id else b.id
          title := if built.title ≠ [] then built.title else f.plan.title }

/-- All fixes with their replacements, or the first error. -/
def resolveAll (files : Option FileSet) : List Fix → Except FixError (List FixPlan)
  | [] => .ok []
  | f :: rest =>
    match f.resolve files with
    | .error e => .error e
    | .ok p =>
      match resolveAll files rest with
      | .error e => .error e
      | .ok ps => .ok (p :: ps)

/-- What can be said about a fix when it is made. -/
inductive Trait where
  | applicability (a : Applicability)
  | kind (k : FixKind)
  | preferred
  | id (id : Text)
  | requiresAll
  deriving DecidableEq, Inhabited

/-- Applies one saying. -/
def withTrait (f : Fix) : Fix.Trait → Fix
  | .applicability a => { f with plan := { f.plan with applicability := a } }
  | .kind k => { f with plan := { f.plan with kind := k } }
  | .preferred => { f with plan := { f.plan with preferred := true } }
  | .id id => { f with plan := { f.plan with id := id } }
  | .requiresAll => { f with plan := { f.plan with requiresAll := true } }

/-- A safe small fix. -/
def quick (title : Text) (edits : List TokenEdit) (opts : List Fix.Trait) : Fix :=
  opts.foldl withTrait { plan := { title := title, edits := edits } }

/-- Replaces one token. -/
def replaceToken (title : Text) (pos : Pos) (newText expect : Text) (opts : List Fix.Trait) : Fix :=
  quick title [⟨pos, newText, expect⟩] opts

/-- Empties one token. -/
def deleteToken (title : Text) (pos : Pos) (expect : Text) (opts : List Fix.Trait) : Fix :=
  replaceToken title pos [] expect opts

/-- Replaces several tokens; missing texts are empty. -/
def replaceTokens (title : Text) (positions : List Pos) (newTexts expects : List Text)
    (opts : List Fix.Trait) : Fix :=
  quick title
    (positions.zipIdx.map fun (pos, i) => ⟨pos, newTexts.getD i [], expects.getD i []⟩) opts

/-- A fix that is built late. -/
def deferred (title : Text) (builder : Option FixBuilder) (opts : List Fix.Trait) : Fix :=
  opts.foldl withTrait { plan := { title := title }, builder := builder }

end Fix

end TokenLint
