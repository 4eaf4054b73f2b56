import TokenLint.Proofs.Rule.Specification
import TokenLint.Proofs.Token.Trivia

/-!
# What white space and comments have no part in

The object manager rule searches forward and backward in a stream, and speaks of tokens by their
positions. Two streams that differ in trivia, or in the names, lines and columns of their tokens,
have different positions, but what is reported about them is the same:

* `SameReport`: two reports say the same about tokens that match.
* `forall₂_reportsOf`: the reports about two such streams match one by one.
* `bags_match`: so do the bags of two files.
-/

namespace TokenLint.ObjectManager

/-! ## Places that match -/

theorem isCode_of_isFunctionCall {s : Stream} {p : Nat} (h : s.isFunctionCall p = true) :
    s.IsCode p := by
  have hKind := Stream.kind_of_isFunctionCall h
  exact Stream.isCode_of_kind (by rw [hKind]; decide) (by rw [hKind]; decide)

theorem isCode_of_literal {s : Stream} {j : Nat} (hKind : (s.tokenAt j).kind = .stringLiteral) :
    s.IsCode j :=
  Stream.isCode_of_kind (by rw [hKind]; decide) (by rw [hKind]; decide)

section Places

variable {s t : Stream} (hSame : s.SameCode t)
include hSame

theorem isSite_iff_of_aligned {p q : Nat} (h : s.Aligned t p q) : IsSite s p ↔ IsSite t q := by
  rw [IsSite, IsSite, hSame.isFunctionCall_eq h, hSame.content_eq h]

theorem reaches_of_aligned {p q j k : Nat} (h : s.Aligned t p q) (h' : s.Aligned t j k)
    (hReaches : Reaches s p j) : Reaches t q k := by
  obtain ⟨hpj, hKind, hBetween⟩ := hReaches
  have hTrivia : ∀ kind ∈ Kind.trivia, kind ≠ .stringLiteral := by decide
  refine ⟨(h.lt_iff_lt h').mp hpj, hSame.kind_eq h' ▸ hKind, fun m hmk hqm => ?_⟩
  exact hSame.between hTrivia h h' (fun n hpn hnj => hBetween n hnj hpn) m hqm hmk

theorem isArgument_of_aligned {j k : Nat} (h : s.Aligned t j k) (hArgument : IsArgument s j) :
    IsArgument t k := by
  obtain ⟨p, hpj, hSite, hReaches⟩ := hArgument
  obtain ⟨q, hq⟩ := hSame.exists_aligned (isCode_of_isFunctionCall hSite.1)
  exact ⟨q, (hq.lt_iff_lt h).mp hpj, (isSite_iff_of_aligned hSame hq).mp hSite,
    reaches_of_aligned hSame hq h hReaches⟩

theorem isDeprecated_of_aligned {p q : Nat} (h : s.Aligned t p q)
    (hDeprecated : IsDeprecated s p) : IsDeprecated t q := by
  obtain ⟨hCall, hCreate, j, -, hpj, hKind⟩ := hDeprecated
  obtain ⟨k, hk⟩ := hSame.exists_aligned (isCode_of_literal hKind)
  exact ⟨hSame.isFunctionCall_eq h ▸ hCall, hSame.content_eq h ▸ hCreate, k, hk.right.1,
    (h.lt_iff_lt hk).mp hpj, hSame.kind_eq hk ▸ hKind⟩

theorem isDeprecated_iff_of_aligned {p q : Nat} (h : s.Aligned t p q) :
    IsDeprecated s p ↔ IsDeprecated t q :=
  ⟨isDeprecated_of_aligned hSame h, isDeprecated_of_aligned hSame.symm h.symm⟩

theorem presentName?_eq_of_aligned (checker : Text → Option Text) {j k : Nat}
    (h : s.Aligned t j k) : presentName? checker s j = presentName? checker t k := by
  have hArgument : IsArgument s j ↔ IsArgument t k :=
    ⟨isArgument_of_aligned hSame h, isArgument_of_aligned hSame.symm h.symm⟩
  simp only [presentName?, hArgument, hSame.content_eq h]

end Places

/-! ## Reports that match -/

/-- Two edits replace the same text by the same text, at tokens that match. -/
structure SameEdit (s t : Stream) (e e' : TokenEdit) : Prop where
  oldText : e.oldText = e'.oldText
  newText : e.newText = e'.newText
  aligned : s.Aligned t e.pos.token.toNat e'.pos.token.toNat

/-- Two reports say the same about tokens that match, and their fixes do the same. -/
structure SameReport (s t : Stream) (d d' : Diagnostic) : Prop where
  severity : d.severity = d'.severity
  code : d.code = d'.code
  message : d.message = d'.message
  data : d.data = d'.data
  aligned : s.Aligned t d.primary.token.toNat d'.primary.token.toNat
  edits : ∀ files files', ∃ plans plans', Fix.resolveAll files d.fixes = .ok plans ∧
    Fix.resolveAll files' d'.fixes = .ok plans' ∧
    List.Forall₂ (SameEdit s t) (plans.flatMap (·.edits)) (plans'.flatMap (·.edits))

section Reports

variable {checker : Text → Option Text} {v v' : RuleView}

/-- Nothing is said about trivia. -/
theorem reportsOf_eq_flatMap_codePositions (checker : Text → Option Text) (v : RuleView) :
    reportsOf checker v = v.tokens.codePositions.flatMap (reportsAt checker v) := by
  rw [Stream.codePositions, flatMap_filter, reportsOf]
  refine List.flatMap_congr fun i _ => ?_
  by_cases hCode : v.tokens.IsCode i
  · simp [hCode]
  · have hNone : reportsAt checker v i = [] := by
      refine List.eq_nil_iff_forall_not_mem.mpr fun d hd => hCode ?_
      rcases mem_reportsAt_iff.mp hd with ⟨hDeprecated, -⟩ | ⟨newName, hName, -⟩
      · exact isCode_of_isFunctionCall hDeprecated.1
      · obtain ⟨⟨p, -, -, hReaches⟩, -⟩ := presentName?_eq_some_iff.mp hName
        exact isCode_of_literal hReaches.2.1
    simp [hNone]

theorem sameReport_of_warnsAt {s t : Stream} {file file' : UInt32} {p q : Nat} {d d' : Diagnostic}
    (h : s.Aligned t p q) (hd : WarnsAt file p d) (hd' : WarnsAt file' q d') :
    SameReport s t d d' := by
  refine ⟨hd.severity.trans hd'.severity.symm, hd.code.trans hd'.code.symm,
    hd.message.trans hd'.message.symm, hd.data.trans hd'.data.symm, ?_, fun _ _ => ?_⟩
  · rwa [hd.token, hd'.token]
  · have hNone : d.fixes = [] := by simpa [Diagnostic.fixable] using hd.fixable
    have hNone' : d'.fixes = [] := by simpa [Diagnostic.fixable] using hd'.fixable
    rw [hNone, hNone']
    exact ⟨[], [], rfl, rfl, .nil⟩

theorem sameReport_of_replacesAt {s t : Stream} {file file' : UInt32} {j k : Nat}
    {raw newName : Text} {d d' : Diagnostic} (h : s.Aligned t j k)
    (hd : ReplacesAt file j raw newName d) (hd' : ReplacesAt file' k raw newName d') :
    SameReport s t d d' := by
  have hPlace : s.Aligned t d.primary.token.toNat d'.primary.token.toNat := by
    rwa [hd.token, hd'.token]
  refine ⟨hd.severity.trans hd'.severity.symm, hd.code.trans hd'.code.symm,
    hd.message.trans hd'.message.symm, hd.data.trans hd'.data.symm, hPlace, fun files files' => ?_⟩
  obtain ⟨fix, hFix, hResolve⟩ := hd.fixes
  obtain ⟨fix', hFix', hResolve'⟩ := hd'.fixes
  obtain ⟨plan, hPlan, hEdits⟩ := hResolve files
  obtain ⟨plan', hPlan', hEdits'⟩ := hResolve' files'
  refine ⟨[plan], [plan'], ?_, ?_, ?_⟩
  · simp only [hFix, Fix.resolveAll, hPlan]
  · simp only [hFix', Fix.resolveAll, hPlan']
  · rw [List.flatMap_singleton, List.flatMap_singleton, hEdits, hEdits']
    exact .cons ⟨rfl, rfl, hPlace⟩ .nil

variable (hRule : v.rule = name) (hRule' : v'.rule = name)
  (hLength : v.tokens.length < 2 ^ 32) (hLength' : v'.tokens.length < 2 ^ 32)
  (hSame : v.tokens.SameCode v'.tokens)
include hRule hRule' hLength hLength' hSame

theorem forall₂_reportsAt {p q : Nat} (h : v.tokens.Aligned v'.tokens p q) :
    List.Forall₂ (SameReport v.tokens v'.tokens) (reportsAt checker v p)
      (reportsAt checker v' q) := by
  rw [reportsAt, reportsAt, presentName?_eq_of_aligned hSame checker h]
  simp only [isDeprecated_iff_of_aligned hSame h]
  have hp : p < 2 ^ 32 := Nat.lt_trans h.left.1 hLength
  have hq : q < 2 ^ 32 := Nat.lt_trans h.right.1 hLength'
  refine List.rel_append ?_ ?_
  · split
    · exact .cons (sameReport_of_warnsAt h (warnsAt_createWarning hRule hp)
        (warnsAt_createWarning hRule' hq)) .nil
    · exact .nil
  · cases presentName? checker v'.tokens q with
    | none => exact .nil
    | some newName =>
        have hError := replacesAt_legacyError newName hRule hp
        rw [hSame.content_eq h] at hError
        exact .cons (sameReport_of_replacesAt h hError (replacesAt_legacyError newName hRule' hq)) .nil

/-- The reports about streams that differ in trivia only match one by one. -/
theorem forall₂_reportsOf :
    List.Forall₂ (SameReport v.tokens v'.tokens) (reportsOf checker v) (reportsOf checker v') := by
  rw [reportsOf_eq_flatMap_codePositions, reportsOf_eq_flatMap_codePositions]
  exact List.rel_flatMap hSame.forall₂_aligned fun p q h =>
    forall₂_reportsAt hRule hRule' hLength hLength' hSame h

end Reports

/-! ## Bags that match -/

theorem dropped_processFile {checker : Text → Option Text} {max : Int} {fs : FileSet}
    {file : UInt32} {f : SourceFile} (hFile : fs.get? file = some f)
    (hLength : f.tokens.length < 2 ^ 32) :
    (Run.processFile (registry checker) max fs file fun _ => false).bag.dropped =
      (reportsOf checker (viewOf fs file)).length - Run.room max := by
  rw [Run.bag_processFile_eq_collect]
  refine dropped_eq ?_
  rwa [← Fixing.tokensOf_of_get? hFile] at hLength

theorem items_processFile {checker : Text → Option Text} {max : Int} {fs : FileSet}
    {file : UInt32} {f : SourceFile} (hFile : fs.get? file = some f)
    (hLength : f.tokens.length < 2 ^ 32)
    (hKept : (Run.processFile (registry checker) max fs file fun _ => false).bag.dropped = 0) :
    (Run.processFile (registry checker) max fs file fun _ => false).bag.items.toList =
      reportsOf checker (viewOf fs file) := by
  rw [Run.bag_processFile_eq_collect] at hKept ⊢
  refine bag_eq_reportsOf ?_ hKept
  rwa [← Fixing.tokensOf_of_get? hFile] at hLength

/-- White space, comments, and the names, lines and columns of tokens do not matter. Two files hold
the same tokens but for these, and nothing that is reported about the one is dropped. Then nothing
is dropped of what is reported about the other, and the reports in the two bags say the same, one
by one, about tokens that match. -/
theorem bags_match (checker : Text → Option Text) (max : Int) (fs fs' : FileSet)
    (file file' : UInt32) (f f' : SourceFile)
    (hFile : fs.get? file = some f) (hFile' : fs'.get? file' = some f')
    (hLength : f.tokens.length < 2 ^ 32) (hLength' : f'.tokens.length < 2 ^ 32)
    (hSame : f.tokens.SameCode f'.tokens)
    (hKept : (Run.processFile (registry checker) max fs file fun _ => false).bag.dropped = 0) :
    let bag := (Run.processFile (registry checker) max fs file fun _ => false).bag
    let bag' := (Run.processFile (registry checker) max fs' file' fun _ => false).bag
    bag'.dropped = 0 ∧
      List.Forall₂ (SameReport f.tokens f'.tokens) bag.items.toList bag'.items.toList := by
  intro bag bag'
  have hTokens : (viewOf fs file).tokens = f.tokens := Fixing.tokensOf_of_get? hFile
  have hTokens' : (viewOf fs' file').tokens = f'.tokens := Fixing.tokensOf_of_get? hFile'
  have hReports : List.Forall₂ (SameReport f.tokens f'.tokens)
      (reportsOf checker (viewOf fs file)) (reportsOf checker (viewOf fs' file')) := by
    rw [← hTokens, ← hTokens'] at hSame ⊢
    exact forall₂_reportsOf rfl rfl (hTokens ▸ hLength) (hTokens' ▸ hLength') hSame
  have hKept' : bag'.dropped = 0 := by
    rw [dropped_processFile hFile hLength] at hKept
    rw [dropped_processFile hFile' hLength', ← hReports.length_eq]
    exact hKept
  rw [items_processFile hFile hLength hKept, items_processFile hFile' hLength' hKept']
  exact ⟨hKept', hReports⟩

/-- The first of the sample files with white space and comments in between, and with positions. -/
def spacedFiles : FileSet :=
  { files := #[
      { path := "c"
        tokens := [{ kind := .whitespace, content := " " },
          { kind := .identifier, name := "T_STRING", content := "create", line := 1, column := 2 },
          { kind := .comment, content := "// create" }, { kind := .openParenthesis, content := "(" },
          { kind := .identifier, content := "get", line := 2 },
          { kind := .docComment, content := "/** 'Tx_Old' */" },
          { kind := .openParenthesis, content := "(" }, { kind := .whitespace, content := "\n" },
          { kind := .stringLiteral, content := "\"Tx_Old\"" },
          { kind := .closeParenthesis, content := ")" }] }] }

/-- The warning and the error stand at the tokens 1 and 8 instead of 0 and 4. -/
theorem bags_match_spacedFiles :
    let bag := (Run.processFile (registry sampleChecker) 9 sampleFiles 0 fun _ => false).bag
    let bag' := (Run.processFile (registry sampleChecker) 9 spacedFiles 0 fun _ => false).bag
    bag.items.toList.map (·.primary.token) = [0, 4] ∧
      bag'.items.toList.map (·.primary.token) = [1, 8] ∧
      List.Forall₂ (SameReport sampleFiles.files[0].tokens spacedFiles.files[0].tokens)
        bag.items.toList bag'.items.toList := by
  intro bag bag'
  have hKept : bag.dropped = 0 := by
    refine sampleFiles_kept _ (List.mem_map.mpr ⟨0, ?_, rfl⟩)
    decide
  have hMatch := bags_match sampleChecker 9 sampleFiles spacedFiles 0 0 sampleFiles.files[0]
    spacedFiles.files[0] rfl rfl (by decide) (by decide) (by decide) hKept
  have hItems : bag.items.toList = reportsOf sampleChecker (viewOf sampleFiles 0) :=
    items_processFile rfl (by decide) hKept
  have hItems' : bag'.items.toList = reportsOf sampleChecker (viewOf spacedFiles 0) :=
    items_processFile rfl (by decide) hMatch.1
  refine ⟨?_, ?_, hMatch.2⟩
  · rw [hItems]
    decide +kernel
  · rw [hItems']
    decide +kernel

end TokenLint.ObjectManager
