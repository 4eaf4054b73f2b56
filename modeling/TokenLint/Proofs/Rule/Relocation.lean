import Mathlib.Data.Set.Function
import TokenLint.Proofs.Rule.Rewrite

/-!
# Reports about the first file, moved to another file

A file that is processed alone is the first file of its file set. Among others it has another
number, which stands in the places of diagnostics, in the places of edits, and in the names of
fixes. This is all the difference there is:

* `Fix.resolve_relocate`: moving a fix moves what it resolves to.
* `Rule.Relocatable`: what a rule reports for a file with another number is what it reports for
  the first file, moved.
* `Run.collect_relocate`: bags are moved by moving what is collected.
* `ObjectManager.relocatable_rule`: the object manager rule is such a rule.
-/

namespace TokenLint

/-! ## Other numbers

To move something is to put the number of a file in the place of 0, wherever it stands.
-/

/-- The name of the fix for a legacy class name in a file, up to the number of the token. -/
def fixPrefix (file : UInt32) : Text :=
  Code.shown Code.legacyClassname ++ "-" ++ Text.ofNat file.toNat ++ "-"

/-- A name of a fix in the first file, with the number of another file. -/
def renumber (file : UInt32) (id : Text) : Text :=
  if fixPrefix 0 <+: id then fixPrefix file ++ id.drop (fixPrefix 0).length else id

def Pos.relocate (file : UInt32) (p : Pos) : Pos := if p.file = 0 then { p with file := file } else p

def Note.relocate (file : UInt32) (n : Note) : Note := { n with pos := n.pos.relocate file }

def TokenEdit.relocate (file : UInt32) (e : TokenEdit) : TokenEdit :=
  { e with pos := e.pos.relocate file }

def FixPlan.relocate (file : UInt32) (p : FixPlan) : FixPlan :=
  { p with id := renumber file p.id, edits := p.edits.map (TokenEdit.relocate file) }

def FixBuilder.relocate (file : UInt32) (b : FixBuilder) : FixBuilder :=
  { id := renumber file b.id, build := fun files => (b.build files).map (FixPlan.relocate file) }

def Fix.relocate (file : UInt32) (f : Fix) : Fix :=
  { plan := f.plan.relocate file, builder := f.builder.map (FixBuilder.relocate file) }

def Diagnostic.relocate (file : UInt32) (d : Diagnostic) : Diagnostic :=
  { d with
    primary := d.primary.relocate file
    notes := d.notes.map (Note.relocate file)
    fixes := d.fixes.map (Fix.relocate file) }

def Bag.relocate (file : UInt32) (b : Bag) : Bag :=
  { b with items := b.items.map (Diagnostic.relocate file) }

theorem fixPrefix_ne_nil (file : UInt32) : fixPrefix file ≠ [] := by
  have hCode : Code.shown Code.legacyClassname ≠ [] := by decide
  simp [fixPrefix, hCode]

theorem renumber_eq_nil_iff {file : UInt32} {id : Text} : renumber file id = [] ↔ id = [] := by
  unfold renumber
  split
  case isTrue h =>
    refine iff_of_false (fun hNil => ?_) fun hNil => ?_
    · exact fixPrefix_ne_nil file (List.append_eq_nil_iff.mp hNil).1
    · exact fixPrefix_ne_nil 0 (List.prefix_nil.mp (hNil ▸ h))
  case isFalse => rfl

@[simp] theorem renumber_nil (file : UInt32) : renumber file [] = [] := renumber_eq_nil_iff.mpr rfl

theorem renumber_fixPrefix_append (file : UInt32) (rest : Text) :
    renumber file (fixPrefix 0 ++ rest) = fixPrefix file ++ rest := by
  rw [renumber, if_pos (List.prefix_append _ _), List.drop_left]

/-- Moving a fix moves what it resolves to. -/
theorem Fix.resolve_relocate (file : UInt32) {files : Option FileSet} {f : Fix} {p : FixPlan}
    (h : f.resolve files = .ok p) : (f.relocate file).resolve files = .ok (p.relocate file) := by
  unfold Fix.resolve at h ⊢
  cases hBuilder : f.builder with
  | none =>
      rw [hBuilder] at h
      cases h
      simp [Fix.relocate, hBuilder]
  | some b =>
      rw [hBuilder] at h
      simp only [Fix.relocate, hBuilder, Option.map_some, FixBuilder.relocate]
      cases hBuild : b.build files with
      | error cause => simp [hBuild] at h
      | ok built =>
          simp only [hBuild] at h
          split at h
          case isTrue => cases h
          case isFalse hEdits =>
            cases h
            have hEdits' : (built.relocate file).edits.isEmpty = false := by
              simpa [FixPlan.relocate] using hEdits
            simp only [Except.map, hEdits', Bool.false_eq_true, if_false]
            by_cases hId : built.id = [] <;> by_cases hDeclared : f.plan.id = [] <;>
              by_cases hTitle : built.title = [] <;>
              simp [FixPlan.relocate, renumber_eq_nil_iff, hId, hDeclared, hTitle]

/-! ## Rules -/

def Findings.relocate (file : UInt32) (f : Findings) : Findings :=
  { f with diagnostics := f.diagnostics.map (Diagnostic.relocate file) }

/-- A rule speaks of the file it is given, and what it says does not depend on the number of that
file. -/
structure Rule.Relocatable (r : Rule) : Prop where
  inFile : ∀ (v : RuleView) (i : Nat), ∀ d ∈ (r.process v i).diagnostics, d.primary.file = v.file
  moved : ∀ (v : RuleView) (i : Nat) (file : UInt32), v.file = 0 →
    r.process { v with file := file } i = (r.process v i).relocate file

namespace RuleView

variable {v : RuleView} (hv : v.file = 0) (file : UInt32)
include hv

theorem pos_relocate (i : Int) : { v with file := file }.pos i = (v.pos i).relocate file := by
  simp [pos, Pos.relocate, hv]

theorem report_relocate (severity : Severity) (i : Int) (template : Text) (code : Code)
    (data : List Text) (fixes : List Fix) :
    { v with file := file }.report severity i template code data (fixes.map (Fix.relocate file)) =
      (v.report severity i template code data fixes).relocate file := by
  simp [report, Diagnostic.relocate, ← pos_relocate hv]

end RuleView

namespace Rule

theorem Relocatable.file_of_mem_findings {r : Rule} (h : r.Relocatable) {v : RuleView} {i : Nat}
    {d : Diagnostic} (hd : d ∈ r.findings v i) : d.primary.file = v.file := by
  rcases mem_findings_iff.mp hd with hReport | ⟨words, -, rfl⟩
  · exact h.inFile v i d hReport
  · rfl

/-- A crash is reported in the file, too. -/
theorem Relocatable.findings_eq {r : Rule} (h : r.Relocatable) {v : RuleView} (hv : v.file = 0)
    (i : Nat) (file : UInt32) :
    r.findings { v with file := file } i = (r.findings v i).map (Diagnostic.relocate file) := by
  have hCrashed : ∀ words, r.crashed { v with file := file } i words =
      (r.crashed v i words).relocate file := by
    intro words
    rw [crashed, RuleView.pos_relocate hv]
    rfl
  simp only [findings, h.moved v i file hv, Findings.relocate, List.map_append]
  cases (r.process v i).crash with
  | none => rfl
  | some words => simp [hCrashed]

end Rule

/-! ## Collecting -/

/-- Striking out repetitions goes with a change of elements that tells their keys apart. -/
theorem firstBy_map {α β : Type} [DecidableEq β] {key : α → β} {f : α → α} {g : β → β} {S : Set β}
    (hInj : Set.InjOn g S) {xs : List α} (hKeys : ∀ x ∈ xs, key x ∈ S)
    (hKey : ∀ x ∈ xs, key (f x) = g (key x)) {seen : List β} (hSeen : ∀ k ∈ seen, k ∈ S) :
    firstBy key (seen.map g) (xs.map f) = (firstBy key seen xs).map f := by
  induction xs generalizing seen with
  | nil => rfl
  | cons x xs ih =>
      have hHead := hKeys x List.mem_cons_self
      have hKeys' := fun y hy => hKeys y (List.mem_cons_of_mem x hy)
      have hKey' := fun y hy => hKey y (List.mem_cons_of_mem x hy)
      have hOld : g (key x) ∈ seen.map g ↔ key x ∈ seen := by
        refine ⟨fun h => ?_, List.mem_map_of_mem⟩
        obtain ⟨k, hk, hEq⟩ := List.mem_map.mp h
        exact hInj (hSeen k hk) hHead hEq ▸ hk
      rw [List.map_cons, firstBy, firstBy, hKey x List.mem_cons_self]
      by_cases hx : key x ∈ seen
      · rw [if_pos hx, if_pos (hOld.mpr hx)]
        exact ih hKeys' hKey' hSeen
      · rw [if_neg hx, if_neg (mt hOld.mp hx), List.map_cons]
        refine congrArg (f x :: ·) (@ih hKeys' hKey' (key x :: seen) fun k hk => ?_)
        rcases List.mem_cons.mp hk with rfl | hk
        · exact hHead
        · exact hSeen k hk

def Diagnostic.Key.relocate (file : UInt32) (k : Diagnostic.Key) : Diagnostic.Key :=
  { k with pos := k.pos.relocate file }

theorem Diagnostic.Key.relocate_injOn (file : UInt32) :
    Set.InjOn (Diagnostic.Key.relocate file) {k | k.pos.file = 0} := by
  rintro ⟨code, rule, severity, ⟨f, t⟩, message⟩ hk ⟨code', rule', severity', ⟨f', t'⟩, message'⟩ hk' h
  simp only [Set.mem_ofPred_eq] at hk hk'
  subst hk hk'
  simpa [Diagnostic.Key.relocate, Pos.relocate] using h

theorem Diagnostic.before_relocate (file : UInt32) {a b : Diagnostic} (ha : a.primary.file = 0)
    (hb : b.primary.file = 0) : before (a.relocate file) (b.relocate file) = before a b := by
  simp [before, relocate, Pos.relocate, ha, hb]

namespace Run

section Reports

variable {reports : List Diagnostic} (hFirst : ∀ d ∈ reports, d.primary.file = 0) (file : UInt32)
include hFirst

theorem distinct_relocate :
    distinct (reports.map (Diagnostic.relocate file)) = (distinct reports).map (Diagnostic.relocate file) :=
  @firstBy_map _ _ _ Diagnostic.key _ _ _ (Diagnostic.Key.relocate_injOn file) reports hFirst
    (fun _ _ => rfl) [] fun _ h => absurd h List.not_mem_nil

theorem sort_relocate :
    Diagnostic.sort (reports.map (Diagnostic.relocate file)) =
      (Diagnostic.sort reports).map (Diagnostic.relocate file) := by
  refine (List.map_mergeSort fun a ha b hb => ?_).symm
  rw [Diagnostic.before_relocate file (hFirst b hb) (hFirst a ha)]

/-- Bags are moved by moving what is collected. -/
theorem collect_relocate (max : Int) :
    collect max (reports.map (Diagnostic.relocate file)) = (collect max reports).relocate file := by
  have hKept : ∀ d ∈ (distinct reports).take (room max), d.primary.file = 0 := fun d hd =>
    hFirst d ((firstBy_sublist [] reports).subset (List.mem_of_mem_take hd))
  rw [collect_eq, collect_eq, distinct_relocate hFirst, ← List.map_take,
    sort_relocate hKept, List.length_map, Bag.relocate, List.map_toArray]

end Reports

section Views

variable {rules : Registry} (hRules : ∀ k, ∀ r ∈ rules.forKind k, r.Relocatable) {base : RuleView}
  (hBase : base.file = 0)
include hRules hBase

theorem file_of_mem_findingsFrom {s : Stream} {i : Nat} {d : Diagnostic}
    (hd : d ∈ findingsFrom rules base (fun _ => false) i s) : d.primary.file = 0 := by
  rw [findingsFrom_eq_flatMap] at hd
  obtain ⟨p, -, hAt⟩ := List.mem_flatMap.mp hd
  obtain ⟨r, hr, hFound⟩ := List.mem_flatMap.mp hAt
  exact ((hRules _ r hr).file_of_mem_findings hFound).trans hBase

theorem findingsFrom_relocate (file : UInt32) (s : Stream) (i : Nat) :
    findingsFrom rules { base with file := file } (fun _ => false) i s =
      (findingsFrom rules base (fun _ => false) i s).map (Diagnostic.relocate file) := by
  rw [findingsFrom_eq_flatMap, findingsFrom_eq_flatMap, List.map_flatMap]
  refine List.flatMap_congr fun p _ => ?_
  rw [findingsAt, findingsAt, List.map_flatMap]
  exact List.flatMap_congr fun r hr =>
    @Rule.Relocatable.findings_eq r (hRules _ r hr) (viewFor base r) hBase p.2 file

end Views

end Run

namespace ObjectManager

theorem fixId_eq (p : Pos) : fixId p = fixPrefix p.file ++ Text.ofNat p.token.toNat := rfl

theorem fix_relocate (file : UInt32) {p : Pos} (hp : p.file = 0) (raw className newName : Text) :
    fix (p.relocate file) raw className newName =
      (fix p raw className newName).relocate file := by
  have hId : renumber file (fixId p) = fixId (p.relocate file) := by
    rw [fixId_eq, fixId_eq, hp, renumber_fixPrefix_append, Pos.relocate, if_pos hp]
  simp only [fixId] at hId
  simp only [fix, Fix.deferred, List.foldl_cons, List.foldl_nil, Fix.withTrait, Fix.relocate,
    FixPlan.relocate, FixBuilder.relocate, Option.map_some, renumber_nil, List.map_nil, Except.map,
    List.map_cons, TokenEdit.relocate, hId]

section Process

variable {v : RuleView} (hv : v.file = 0) (file : UInt32)
include hv

theorem createWarning_relocate (i : Nat) :
    createWarning { v with file := file } i = (createWarning v i).relocate file :=
  v.report_relocate hv file .warning i createMessage Code.mightBeDeprecatedMethod
    [Text.ofString "create"] []

theorem legacyError_relocate (j : Nat) (newName : Text) :
    legacyError { v with file := file } j newName = (legacyError v j newName).relocate file := by
  have hFix := fix_relocate file (p := v.pos j) hv (v.tokens.tokenAt j).content
    (stripQuotes (v.tokens.tokenAt j).content) newName
  rw [legacyError, legacyError, RuleView.fixableError, RuleView.fixableError, v.pos_relocate hv,
    hFix]
  exact v.report_relocate hv file .error j legacyMessage Code.legacyClassname _ [_]

end Process

/-- Whether there is a warning and what the error is about depends on the tokens only. -/
theorem exists_process_eq (s : Settings) (v : RuleView) (i : Nat) :
    ∃ (warns : Bool) (error? : Option (Nat × Text)), ∀ file : UInt32,
      process s { v with file := file } i =
        { diagnostics :=
            (if warns then [createWarning { v with file := file } i] else []) ++
              (error?.map fun q => legacyError { v with file := file } q.1 q.2).toList } := by
  -- the tests of the rule, in their order; none of them looks at the number of the file
  by_cases hCall : s.isCall v.tokens i = true
  · by_cases hSite : (v.tokens.tokenAt i).content ≠ Text.ofString "get" ∧
        (v.tokens.tokenAt i).content ≠ Text.ofString "create"
    · exact ⟨false, none, fun file => by simp [process, hCall, hSite]⟩
    · cases hFind : v.tokens.findNext [.stringLiteral] i with
      | none => exact ⟨false, none, fun file => by simp [process, hCall, hFind]⟩
      | some j =>
          cases hName : s.replacement?.bind fun f =>
              f (stripQuotes (v.tokens.tokenAt j).content) with
          | none =>
              refine ⟨(v.tokens.tokenAt i).content = Text.ofString "create", none, fun file => ?_⟩
              simp [process, hCall, hSite, hFind, hName, createWarning]
          | some newName =>
              refine ⟨(v.tokens.tokenAt i).content = Text.ofString "create", some (j, newName),
                fun file => ?_⟩
              simp [process, hCall, hSite, hFind, hName, createWarning, legacyError]
  · exact ⟨false, none, fun file => by simp [process, hCall]⟩

/-- The rule speaks of the file it is given, and does not look at the number of that file. -/
theorem relocatable_rule (s : Settings) : (rule s).Relocatable where
  inFile := by
    intro v i d (hd : d ∈ (process s v i).diagnostics)
    obtain ⟨warns, error?, hEq⟩ := exists_process_eq s v i
    have hFirst : process s v i = _ := hEq v.file
    rw [hFirst, List.mem_append] at hd
    rcases hd with hWarning | hError
    · split at hWarning
      · rw [List.mem_singleton.mp hWarning]
        rfl
      · exact absurd hWarning List.not_mem_nil
    · obtain ⟨q, -, rfl⟩ := Option.map_eq_some_iff.mp (Option.mem_toList.mp hError)
      rfl
  moved := by
    intro v i file hv
    obtain ⟨warns, error?, hEq⟩ := exists_process_eq s v i
    have hFirst : process s v i = _ := hEq v.file
    show process s { v with file := file } i = (process s v i).relocate file
    rw [hEq file, hFirst, Findings.relocate]
    simp only [createWarning_relocate hv file, legacyError_relocate hv file]
    cases warns <;> cases error? <;> rfl

end ObjectManager

end TokenLint
