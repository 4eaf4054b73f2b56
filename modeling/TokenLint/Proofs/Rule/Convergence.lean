import TokenLint.Proofs.Rule.Literal
import TokenLint.Proofs.Rule.Rewrite

/-!
# Fixing converges in one pass

A rewritten stream has the calls and the literals of the original one: no kind changes, and the
content of a token changes only if it is a literal. A literal in quotes that is rewritten holds
the new name between its quotes. So if no new name is one of the past, there is nothing left to
rewrite.

* `presentName?_rewritten`: no name of the past is left.
* `allReports_rewritten`: the warnings stay, the errors are gone.
* `fixing_converges`: a second run of the rule and of its fixes.
-/

namespace TokenLint

namespace ObjectManager

open Fixing

/-! ## Rewritten streams -/

section Rewritten

variable {checker : Text → Option Text} {s : Stream}

theorem kinds_rewritten : (rewritten checker s).kinds = s.kinds := by
  apply List.ext_getElem?
  intro j
  simp only [Stream.kinds, rewritten, List.getElem?_map, List.getElem?_mapIdx, Option.map_map]
  rfl

theorem content_rewritten (j : Nat) :
    ((rewritten checker s).tokenAt j).content =
      (presentName? checker s j).elim (s.tokenAt j).content
        (replaceName (s.tokenAt j).content) := by
  simp only [Stream.tokenAt_natCast, List.getD_eq_getElem?_getD, rewritten, List.getElem?_mapIdx]
  cases hToken : s[j]? with
  | some t => rfl
  | none =>
      have hNone : presentName? checker s j = none := by
        rw [Option.eq_none_iff_forall_ne_some]
        intro newName hName
        have hj := lt_length_of_isArgument (presentName?_eq_some_iff.mp hName).1
        rw [List.getElem?_eq_none_iff] at hToken
        omega
      rw [hNone]
      rfl

/-- Tokens that are no literals keep their contents. -/
theorem content_rewritten_of_ne {j : Nat} (h : (s.tokenAt j).kind ≠ .stringLiteral) :
    ((rewritten checker s).tokenAt j).content = (s.tokenAt j).content := by
  have hNone : presentName? checker s j = none := by
    rw [Option.eq_none_iff_forall_ne_some]
    intro newName hName
    obtain ⟨⟨p, -, -, hReaches⟩, -⟩ := presentName?_eq_some_iff.mp hName
    exact h hReaches.2.1
  rw [content_rewritten, hNone]
  rfl

theorem isSite_rewritten {p : Nat} : IsSite (rewritten checker s) p ↔ IsSite s p := by
  have hCall := Stream.isFunctionCall_congr (@kinds_rewritten checker s) p
  simp only [IsSite, hCall]
  refine and_congr_right fun h => ?_
  rw [content_rewritten_of_ne]
  rw [Stream.kind_of_isFunctionCall h]
  decide

theorem reaches_rewritten {p j : Nat} : Reaches (rewritten checker s) p j ↔ Reaches s p j := by
  simp only [Reaches, Stream.kind_tokenAt_congr (@kinds_rewritten checker s)]

theorem isArgument_rewritten {j : Nat} : IsArgument (rewritten checker s) j ↔ IsArgument s j := by
  simp only [IsArgument, isSite_rewritten, reaches_rewritten]

theorem isDeprecated_rewritten {p : Nat} :
    IsDeprecated (rewritten checker s) p ↔ IsDeprecated s p := by
  have hKinds := @kinds_rewritten checker s
  simp only [IsDeprecated, Stream.isFunctionCall_congr hKinds, Stream.length_congr hKinds,
    Stream.kind_tokenAt_congr hKinds]
  refine and_congr_right fun h => ?_
  rw [content_rewritten_of_ne]
  rw [Stream.kind_of_isFunctionCall h]
  decide

/-- If no present name is one of the past, no name of the past is left. -/
theorem presentName?_rewritten (hChecker : ∀ n m, checker n = some m → checker m = none)
    (hQuoted : ∀ t ∈ s, t.kind = .stringLiteral → IsQuoted t.content) (j : Nat) :
    presentName? checker (rewritten checker s) j = none := by
  by_cases hArgument : IsArgument s j
  · rw [presentName?, if_pos (isArgument_rewritten.mpr hArgument), content_rewritten]
    rw [presentName?, if_pos hArgument]
    -- either nothing was known about the literal, or it holds a present name now
    cases hName : checker (stripQuotes (s.tokenAt j).content) with
    | none => exact hName
    | some newName =>
        obtain ⟨-, -, -, -, hKind, -⟩ := id hArgument
        have hToken := Stream.getElem?_eq_tokenAt (lt_length_of_isArgument hArgument)
        have hRaw := hQuoted _ (List.mem_of_getElem? hToken) hKind
        rw [Option.elim_some, stripQuotes_replaceName hRaw]
        exact hChecker _ _ hName
  · rw [presentName?, if_neg (mt isArgument_rewritten.mp hArgument)]

end Rewritten

/-! ## The second run -/

/-- A view of rewritten tokens has the warnings of the view of the original ones. -/
theorem reportsOf_rewritten {checker : Text → Option Text} {v v' : RuleView}
    (hFile : v'.file = v.file) (hRule : v'.rule = v.rule)
    (hTokens : v'.tokens = rewritten checker v.tokens)
    (hChecker : ∀ n m, checker n = some m → checker m = none)
    (hQuoted : ∀ t ∈ v.tokens, t.kind = .stringLiteral → IsQuoted t.content) :
    reportsOf checker v' =
      (reportsOf checker v).filter fun d => d.code = Code.mightBeDeprecatedMethod := by
  have hWarning : ∀ i, createWarning v' i = createWarning v i := by
    intro i
    simp [createWarning, RuleView.warning, RuleView.report, RuleView.pos, hFile, hRule]
  have hAt : ∀ i, reportsAt checker v' i =
      (reportsAt checker v i).filter fun d => d.code = Code.mightBeDeprecatedMethod := by
    intro i
    have hError : ∀ m, (legacyError v i m).code ≠ Code.mightBeDeprecatedMethod := by
      intro m
      have hCode : (legacyError v i m).code = Code.legacyClassname := rfl
      rw [hCode]
      decide
    have hCode : (createWarning v i).code = Code.mightBeDeprecatedMethod := rfl
    rw [reportsAt, reportsAt, hTokens, presentName?_rewritten hChecker hQuoted, hWarning]
    simp only [isDeprecated_rewritten]
    by_cases hDeprecated : IsDeprecated v.tokens i <;>
      cases presentName? checker v.tokens i <;> simp [hDeprecated, hCode, hError]
  have hLength := Stream.length_congr (@kinds_rewritten checker v.tokens)
  rw [reportsOf, reportsOf, hTokens, hLength, List.filter_flatMap]
  exact List.flatMap_congr fun i _ => hAt i

section SecondRun

variable {checker : Text → Option Text} {max : Int} {fs fs' : FileSet}
variable (hFiles : fs'.files.map (·.tokens) = fs.files.map fun f => rewritten checker f.tokens)
include hFiles

theorem size_rewritten : fs'.size = fs.size := by
  simpa [FileSet.size] using congrArg Array.size hFiles

theorem ids_rewritten : fs'.ids = fs.ids := by
  rw [FileSet.ids, FileSet.ids, size_rewritten hFiles]

theorem tokensOf_rewritten (file : UInt32) :
    tokensOf fs' file = rewritten checker (tokensOf fs file) := by
  have hAt : ∀ g : FileSet, tokensOf g file = ((g.files.map (·.tokens))[file.toNat]?).getD [] := by
    intro g
    simp [tokensOf, FileSet.get?]
  rw [hAt fs', hFiles, tokensOf, FileSet.get?, Array.getElem?_map]
  cases fs.files[file.toNat]? <;> rfl

theorem length_files_rewritten (hLength : ∀ f ∈ fs.files, f.tokens.length < 2 ^ 32) :
    ∀ f ∈ fs'.files, f.tokens.length < 2 ^ 32 := by
  intro f hf
  have hMem : f.tokens ∈ fs.files.map fun f => rewritten checker f.tokens :=
    hFiles ▸ Array.mem_map.mpr ⟨f, hf, rfl⟩
  obtain ⟨g, hg, hTokens⟩ := Array.mem_map.mp hMem
  rw [← hTokens, Stream.length_congr kinds_rewritten]
  exact hLength g hg

variable (hChecker : ∀ n m, checker n = some m → checker m = none)
variable (hQuoted : ∀ f ∈ fs.files, ∀ t ∈ f.tokens, t.kind = .stringLiteral → IsQuoted t.content)
include hChecker hQuoted

theorem reportsOf_viewOf_rewritten (file : UInt32) :
    reportsOf checker (viewOf fs' file) = (reportsOf checker (viewOf fs file)).filter
      fun d => d.code = Code.mightBeDeprecatedMethod := by
  refine reportsOf_rewritten rfl rfl (tokensOf_rewritten hFiles file) hChecker ?_
  intro t ht
  rw [tokens_viewOf, tokensOf] at ht
  cases hFile : fs.get? file with
  | none => simp [hFile] at ht
  | some f =>
      rw [hFile] at ht
      exact hQuoted f (Array.mem_of_getElem? hFile) t ht

theorem allReports_rewritten :
    allReports checker fs' =
      (allReports checker fs).filter fun d => d.code = Code.mightBeDeprecatedMethod := by
  rw [allReports, allReports, ids_rewritten hFiles, List.filter_flatMap]
  exact List.flatMap_congr fun file _ => reportsOf_viewOf_rewritten hFiles hChecker hQuoted file

/-- The second run has fewer reports, so that nothing is dropped either. -/
theorem kept_rewritten (hSize : fs.size < 2 ^ 32)
    (hLength : ∀ f ∈ fs.files, f.tokens.length < 2 ^ 32)
    (hKept : ∀ r ∈ Run.processAll (registry checker) max fs, r.bag.dropped = 0) :
    ∀ r ∈ Run.processAll (registry checker) max fs', r.bag.dropped = 0 := by
  have hSize' : fs'.size < 2 ^ 32 := by rw [size_rewritten hFiles]; exact hSize
  rw [kept_iff hSize' (length_files_rewritten hFiles hLength), ids_rewritten hFiles]
  rw [kept_iff hSize hLength] at hKept
  intro file hMem
  rw [reportsOf_viewOf_rewritten hFiles hChecker hQuoted]
  exact Nat.le_trans (List.length_filter_le _ _) (hKept file hMem)

end SecondRun

/-- Only errors about names of the past offer fixes. -/
theorem not_fixable_of_code_ne {checker : Text → Option Text} {fs : FileSet}
    (hSize : fs.size < 2 ^ 32) (hLength : ∀ f ∈ fs.files, f.tokens.length < 2 ^ 32)
    {d : Diagnostic} (hMem : d ∈ allReports checker fs) (hCode : d.code ≠ Code.legacyClassname) :
    d.fixable = false := by
  by_contra hFixable
  have hError : d ∈ legacyErrors checker fs :=
    List.mem_filter.mpr ⟨hMem, by simpa using hFixable⟩
  obtain ⟨p, newName, -, rfl⟩ := (mem_legacyErrors_iff hSize hLength).mp hError
  exact hCode rfl

/-- The rule is run over all files, nothing is dropped, and all fixes are applied; no present name
is one of the past, and literals stand in quotes. Then a second run finds no name of the past and
makes the same warnings as the first one, and there is nothing to fix. -/
theorem fixing_converges (checker : Text → Option Text) (max : Int) (fs : FileSet)
    (hSize : fs.size < 2 ^ 32) (hLength : ∀ f ∈ fs.files, f.tokens.length < 2 ^ 32)
    (hChecker : ∀ n m, checker n = some m → checker m = none)
    (hQuoted : ∀ f ∈ fs.files, ∀ t ∈ f.tokens, t.kind = .stringLiteral → IsQuoted t.content)
    (hKept : ∀ r ∈ Run.processAll (registry checker) max fs, r.bag.dropped = 0) :
    let first := Run.diagnostics (Run.processAll (registry checker) max fs)
    let fs' := (apply fs first { mode := .all }).1
    let second := Run.diagnostics (Run.processAll (registry checker) max fs')
    (∀ d ∈ second, d.code ≠ Code.legacyClassname) ∧
      second = first.filter (fun d => d.code = Code.mightBeDeprecatedMethod) ∧
      ∀ request, (apply fs' second request).1 = fs' ∧
        (apply fs' second request).2.2 = some .noFixes := by
  intro first fs' second
  have hFirst : first = allReports checker fs := diagnostics_eq hSize hLength hKept
  have hFiles : fs'.files.map (·.tokens) = fs.files.map fun f => rewritten checker f.tokens := by
    obtain ⟨changes, hApply⟩ := @apply_allReports checker fs hSize hLength
    simp only [fs', hFirst, hApply]
    exact tokens_filesAfter_legacyEdits hSize hLength
  have hSize' : fs'.size < 2 ^ 32 := by rw [size_rewritten hFiles]; exact hSize
  have hSecond : second = first.filter fun d => d.code = Code.mightBeDeprecatedMethod := by
    rw [hFirst, ← allReports_rewritten hFiles hChecker hQuoted]
    exact diagnostics_eq hSize' (length_files_rewritten hFiles hLength)
      (kept_rewritten hFiles hChecker hQuoted hSize hLength hKept)
  have hCode : ∀ d ∈ second, d.code = Code.mightBeDeprecatedMethod := by
    intro d hd
    rw [hSecond] at hd
    simpa using (List.mem_filter.mp hd).2
  have hNone : ∀ d ∈ second, d.code ≠ Code.legacyClassname := by
    intro d hd
    rw [hCode d hd]
    decide
  have hPlain : ∀ d ∈ second, d.fixable = false := by
    intro d hd
    have hMem : d ∈ allReports checker fs := by
      rw [hSecond, hFirst] at hd
      exact (List.mem_filter.mp hd).1
    exact not_fixable_of_code_ne hSize hLength hMem (hNone d hd)
  exact ⟨hNone, hSecond, apply_of_not_fixable hPlain fs'⟩

theorem sampleFiles_quoted :
    ∀ f ∈ sampleFiles.files, ∀ t ∈ f.tokens, t.kind = .stringLiteral → IsQuoted t.content := by
  have hDouble : IsQuoted (Text.ofString "\"Tx_Old\"") :=
    ⟨doubleQuote, "Tx_Old", rfl, by decide, by decide⟩
  have hSingle : IsQuoted (Text.ofString "'Tx_Old'") :=
    ⟨singleQuote, "Tx_Old", rfl, by decide, by decide⟩
  have hKept : IsQuoted (Text.ofString "'Kept'") :=
    ⟨singleQuote, "Kept", rfl, by decide, by decide⟩
  simp [sampleFiles, callTokens, hDouble, hSingle, hKept]

theorem sampleChecker_present :
    ∀ n m, sampleChecker n = some m → sampleChecker m = none := by
  intro n m h
  have hNew : m = Text.ofString "New" := by
    unfold sampleChecker at h
    split at h
    · exact (Option.some.inj h).symm
    · cases h
  rw [hNew]
  decide

/-- The second run makes the warnings of the first one again, and nothing is left to fix. -/
theorem fixing_converges_sampleFiles :
    let first := Run.diagnostics (Run.processAll (registry sampleChecker) 9 sampleFiles)
    let fs' := (apply sampleFiles first { mode := .all }).1
    let second := Run.diagnostics (Run.processAll (registry sampleChecker) 9 fs')
    first.length = 4 ∧ second.length = 2 ∧ (apply fs' second { mode := .all }).1 = fs' := by
  intro first fs' second
  obtain ⟨-, hSecond, hApply⟩ := fixing_converges sampleChecker 9 sampleFiles (by decide)
    (by decide) sampleChecker_present sampleFiles_quoted sampleFiles_kept
  have hCount : first.length = 4 ∧
      (first.filter fun d => d.code = Code.mightBeDeprecatedMethod).length = 2 := by
    have hFirst : first = allReports sampleChecker sampleFiles :=
      diagnostics_eq (by decide) (by decide) sampleFiles_kept
    rw [hFirst]
    constructor <;> decide +kernel
  refine ⟨hCount.1, ?_, (hApply { mode := .all }).1⟩
  exact (congrArg List.length hSecond).trans hCount.2

end ObjectManager

end TokenLint
