import TokenLint.Proofs.Rule.Rewrite

/-!
# What the bag of a file says

The object manager rule looks forward from calls, and several calls may lead to one literal. What
stands in the bag in the end does not show any of this. There is one warning for each deprecated
call and one error for each literal that a call leads to and that names a class of the past. The
errors carry their fix with them. Nothing else is said, and no token is spoken of twice.

* `WarnsAt`, `ReplacesAt`: a warning and an error, field by field.
* `bag_specification`: which warnings and errors the bag of a file holds.
-/

namespace TokenLint.ObjectManager

/-- A warning about the call of `create` at a token. -/
structure WarnsAt (file : UInt32) (p : Nat) (d : Diagnostic) : Prop where
  severity : d.severity = .warning
  code : d.code = Code.mightBeDeprecatedMethod
  rule : d.rule = name
  message : d.message = createMessage
  file : d.primary.file = file
  token : d.primary.token.toNat = p
  data : d.data = [Text.ofString "create"]
  fixable : d.fixable = false

/-- An error about the literal `raw` at a token, with one fix that puts a name into it. -/
structure ReplacesAt (file : UInt32) (j : Nat) (raw newName : Text) (d : Diagnostic) : Prop where
  severity : d.severity = .error
  code : d.code = Code.legacyClassname
  rule : d.rule = name
  message : d.message = "Legacy classes are not allowed, found \"" ++ (stripQuotes raw ++
    ("\", use \"" ++ (newName ++ "\" instead")))
  file : d.primary.file = file
  token : d.primary.token.toNat = j
  data : d.data = [stripQuotes raw, newName]
  fixes : ∃ fix, d.fixes = [fix] ∧ ∀ files, ∃ plan, fix.resolve files = .ok plan ∧
    plan.edits = [{ pos := d.primary, newText := replaceName raw newName, oldText := raw }]

theorem message_legacy (old new : Text) :
    RuleView.message legacyMessage [old, new] = "Legacy classes are not allowed, found \"" ++ (old ++
      ("\", use \"" ++ (new ++ "\" instead"))) := by
  with_unfolding_all rfl

theorem warnsAt_createWarning {v : RuleView} {p : Nat} (hv : v.rule = name) (hp : p < 2 ^ 32) :
    WarnsAt v.file p (createWarning v p) := by
  have hMessage : (createWarning v p).message = createMessage := by
    have hPlain : (37 : UInt8) ∉ createMessage := by decide
    simp [createWarning, RuleView.warning, RuleView.report, RuleView.message, hPlain]
  exact ⟨rfl, rfl, hv, hMessage, rfl, pos_token hp, rfl, rfl⟩

theorem replacesAt_legacyError {v : RuleView} {j : Nat} (newName : Text) (hv : v.rule = name)
    (hj : j < 2 ^ 32) :
    ReplacesAt v.file j (v.tokens.tokenAt j).content newName (legacyError v j newName) := by
  refine ⟨rfl, rfl, hv, message_legacy _ _, rfl, pos_token hj, rfl, _, rfl, fun files => ?_⟩
  refine ⟨_, rfl, ?_⟩
  rfl

section Bag

variable {checker : Text → Option Text} {v : RuleView} (hRule : v.rule = name)
  (hLength : v.tokens.length < 2 ^ 32)
include hRule hLength

/-- A report of a file is a warning about a call or an error about a literal. -/
theorem warnsAt_or_replacesAt {d : Diagnostic} (h : d ∈ reportsOf checker v) :
    (∃ p, IsDeprecated v.tokens p ∧ WarnsAt v.file p d) ∨
      ∃ j newName, presentName? checker v.tokens j = some newName ∧
        ReplacesAt v.file j (v.tokens.tokenAt j).content newName d := by
  obtain ⟨i, hi⟩ := mem_reportsOf_iff.mp h
  have hIndex : i < 2 ^ 32 := Nat.lt_trans (lt_length_of_mem_reportsAt hi) hLength
  rcases mem_reportsAt_iff.mp hi with ⟨hDeprecated, rfl⟩ | ⟨newName, hName, rfl⟩
  · exact Or.inl ⟨i, hDeprecated, warnsAt_createWarning hRule hIndex⟩
  · exact Or.inr ⟨i, newName, hName, replacesAt_legacyError newName hRule hIndex⟩

theorem exists_warnsAt_iff {p : Nat} :
    (∃ d ∈ reportsOf checker v, WarnsAt v.file p d) ↔ IsDeprecated v.tokens p := by
  constructor
  · rintro ⟨d, hd, hWarns⟩
    rcases warnsAt_or_replacesAt hRule hLength hd with ⟨q, hDeprecated, hAt⟩ | ⟨j, newName, -, hAt⟩
    · rwa [← hWarns.token, hAt.token]
    · have hSeverity := hWarns.severity.symm.trans hAt.severity
      cases hSeverity
  · intro hDeprecated
    have hIndex := Nat.lt_trans (Stream.lt_length_of_isFunctionCall hDeprecated.1) hLength
    refine ⟨createWarning v p, mem_reportsOf_iff.mpr ⟨p, ?_⟩, warnsAt_createWarning hRule hIndex⟩
    exact mem_reportsAt_iff.mpr (Or.inl ⟨hDeprecated, rfl⟩)

theorem exists_replacesAt_iff {j : Nat} {newName : Text} :
    (∃ d ∈ reportsOf checker v,
        ReplacesAt v.file j (v.tokens.tokenAt j).content newName d) ↔
      presentName? checker v.tokens j = some newName := by
  constructor
  · rintro ⟨d, hd, hReplaces⟩
    rcases warnsAt_or_replacesAt hRule hLength hd with ⟨p, -, hAt⟩ | ⟨j', newName', hName, hAt⟩
    · have hSeverity := hReplaces.severity.symm.trans hAt.severity
      cases hSeverity
    · have hj : j = j' := hReplaces.token.symm.trans hAt.token
      have hData := hReplaces.data.symm.trans hAt.data
      simp only [List.cons.injEq, and_true] at hData
      rw [hj, hData.2]
      exact hName
  · intro hName
    have hj := lt_length_of_isArgument (presentName?_eq_some_iff.mp hName).1
    refine ⟨legacyError v j newName, mem_reportsOf_iff.mpr ⟨j, ?_⟩,
      replacesAt_legacyError newName hRule (Nat.lt_trans hj hLength)⟩
    exact mem_reportsAt_iff.mpr (Or.inr ⟨newName, hName, rfl⟩)

end Bag

/-- What the bag of a file holds if nothing was dropped. The reports stand in the order of their
tokens, one for each token. A warning stands at a token exactly if it is a call of `create` with a
literal behind it. An error stands at a token exactly if it is the first literal after a call of
`get` or `create` and holds a name of the past. There is nothing else. -/
theorem bag_specification (checker : Text → Option Text) (max : Int) (fs : FileSet) (file : UInt32)
    (f : SourceFile) (hFile : fs.get? file = some f) (hLength : f.tokens.length < 2 ^ 32)
    (hKept : (Run.processFile (registry checker) max fs file fun _ => false).bag.dropped = 0) :
    let items := (Run.processFile (registry checker) max fs file fun _ => false).bag.items.toList
    let content := fun j : Nat => (f.tokens.tokenAt j).content
    items.Pairwise (fun d d' => d.primary.token.toNat < d'.primary.token.toNat) ∧
      (∀ p, (∃ d ∈ items, WarnsAt file p d) ↔ IsDeprecated f.tokens p) ∧
      (∀ j newName, (∃ d ∈ items, ReplacesAt file j (content j) newName d) ↔
        IsArgument f.tokens j ∧ checker (stripQuotes (content j)) = some newName) ∧
      ∀ d ∈ items, (∃ p, WarnsAt file p d) ∨
        ∃ j newName, ReplacesAt file j (content j) newName d := by
  intro items content
  have hTokens : (viewOf fs file).tokens = f.tokens := by
    rw [tokens_viewOf, Fixing.tokensOf_of_get? hFile]
  have hItems : items = reportsOf checker (viewOf fs file) := by
    have hLength' : (Run.baseView fs file).tokens.length < 2 ^ 32 := by
      have hView : (Run.baseView fs file).tokens = f.tokens := hTokens
      rwa [hView]
    simp only [items]
    rw [Run.bag_processFile_eq_collect] at hKept ⊢
    exact bag_eq_reportsOf hLength' hKept
  have hRule : (viewOf fs file).rule = name := rfl
  rw [← hTokens] at hLength
  refine ⟨?_, fun p => ?_, fun j newName => ?_, fun d hd => ?_⟩
  · rw [hItems]
    exact reportsOf_pairwise hLength
  · have hIff := @exists_warnsAt_iff checker _ hRule hLength p
    rwa [← hItems, hTokens] at hIff
  · have hIff := @exists_replacesAt_iff checker _ hRule hLength j newName
    rwa [← hItems, hTokens, presentName?_eq_some_iff] at hIff
  · rw [hItems] at hd
    rcases warnsAt_or_replacesAt hRule hLength hd with ⟨p, -, hAt⟩ | ⟨j, newName, -, hAt⟩
    · exact Or.inl ⟨p, hAt⟩
    · rw [hTokens] at hAt
      exact Or.inr ⟨j, newName, hAt⟩

/-- Two calls that lead to one literal: a warning about the outer one, and one error. -/
theorem bag_specification_sampleFiles :
    let items := (Run.processFile (registry sampleChecker) 9 sampleFiles 0
      fun _ => false).bag.items.toList
    (∃ d ∈ items, WarnsAt 0 0 d) ∧
      (∃ d ∈ items, ReplacesAt 0 4 (Text.ofString "\"Tx_Old\"") (Text.ofString "New") d) ∧
      ¬ ∃ d ∈ items, WarnsAt 0 2 d := by
  intro items
  have hKept : (Run.processFile (registry sampleChecker) 9 sampleFiles 0
      fun _ => false).bag.dropped = 0 := by
    refine sampleFiles_kept _ (List.mem_map.mpr ⟨0, ?_, rfl⟩)
    decide
  obtain ⟨-, hWarns, hReplaces, -⟩ := bag_specification sampleChecker 9 sampleFiles 0
    sampleFiles.files[0] rfl (by decide) hKept
  refine ⟨(hWarns 0).mpr (by decide), (hReplaces 4 (Text.ofString "New")).mpr ?_, ?_⟩
  · exact ⟨by decide, by decide⟩
  · intro hInner
    exact absurd ((hWarns 2).mp hInner) (by decide)

end TokenLint.ObjectManager
