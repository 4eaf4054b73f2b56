import TokenLint.Proofs.Fix.Gather
import TokenLint.Proofs.Rule.ObjectManager
import TokenLint.Proofs.Run.Pool
import TokenLint.Proofs.Text.Decimal

/-!
# Rewriting class names of the past

The rule is run over all files of a file set, and the fixes of what it reports are applied.
Between a literal and its new content lie the search for calls, the filter for repetitions, the
sorting of a bag, the late building of fixes, their names, and the checks before an edit. None
of these loses, repeats or rejects a rewriting:

* `diagnostics_eq`: the reports of all files, one file after the other.
* `offersOne`: each error offers one fix, under a name of its own.
* `compatible_planned`: all fixes can be applied.
* `apply_all_rewrites`: the outcome, for every token of every file.
-/

namespace TokenLint.ObjectManager

open Fixing

/-! ## The fix of a place -/

/-- The view of a file that the rule gets. -/
def viewOf (fs : FileSet) (file : UInt32) : RuleView := { Run.baseView fs file with rule := name }

@[simp] theorem file_viewOf (fs : FileSet) (file : UInt32) : (viewOf fs file).file = file := rfl

@[simp] theorem tokens_viewOf (fs : FileSet) (file : UInt32) :
    (viewOf fs file).tokens = tokensOf fs file := rfl

/-- The content of the token at a place. -/
def contentAt (fs : FileSet) (p : Pos) : Text :=
  ((tokensOf fs p.file).tokenAt p.token.toNat).content

/-- The present name for what stands at a place, if there is one to be put in. -/
def presentNameAt? (checker : Text → Option Text) (fs : FileSet) (p : Pos) : Option Text :=
  presentName? checker (tokensOf fs p.file) p.token.toNat

/-- The name of the fix for a place. -/
def fixId (p : Pos) : Text :=
  Code.shown Code.legacyClassname ++ "-" ++ Text.ofNat p.file.toNat ++ "-"
    ++ Text.ofNat p.token.toNat

/-- The edit that puts a name in. -/
def editFor (fs : FileSet) (p : Pos) (newName : Text) : TokenEdit :=
  ⟨p, replaceName (contentAt fs p) newName, contentAt fs p⟩

/-- The fix that puts a name in. -/
def planFor (fs : FileSet) (p : Pos) (newName : Text) : FixPlan :=
  { id := fixId p
    title := "Replace " ++ stripQuotes (contentAt fs p) ++ " with " ++ newName
    preferred := true
    edits := [editFor fs p newName] }

/-- The entry about a place in the list of applied fixes. -/
def entryFor (fs : FileSet) (p : Pos) (newName : Text) : Applied :=
  { id := fixId p
    title := "Replace " ++ stripQuotes (contentAt fs p) ++ " with " ++ newName
    code := Code.legacyClassname
    message := RuleView.message legacyMessage [stripQuotes (contentAt fs p), newName]
    applicability := .alwaysSafe
    path := fs.pathOf p.file .auto
    editCount := 1 }

/-- The fix for an error. -/
def planOf (checker : Text → Option Text) (fs : FileSet) (d : Diagnostic) : FixPlan :=
  planFor fs d.primary ((presentNameAt? checker fs d.primary).getD [])

/-- The stream in which every name of the past has been replaced. -/
def rewritten (checker : Text → Option Text) (s : Stream) : Stream :=
  s.mapIdx fun j t =>
    { t with content := (presentName? checker s j).elim t.content (replaceName t.content) }

@[simp] theorem pos_editFor (fs : FileSet) (p : Pos) (newName : Text) :
    (editFor fs p newName).pos = p := rfl

theorem fixId_ne_nil (p : Pos) : fixId p ≠ [] := by
  have hCode : Code.shown Code.legacyClassname ≠ [] := by decide
  simp [fixId, hCode]

/-- No two places have fixes of one name. -/
theorem fixId_injective {p q : Pos} (h : fixId p = fixId q) : p = q := by
  obtain ⟨file, token⟩ := p
  obtain ⟨file', token'⟩ := q
  have hDash : Text.isDigit (Text.byte '-') = false := by decide
  simp only [fixId, List.append_assoc, List.append_cancel_left_eq] at h
  obtain ⟨hFile, hToken⟩ := Text.ofNat_append_inj hDash h
  rw [UInt32.toNat_inj.mp hFile, UInt32.toNat_inj.mp (Text.ofNat_injective hToken)]

/-! ## The reports of all files -/

theorem mem_ids_iff {fs : FileSet} (hSize : fs.size < 2 ^ 32) {file : UInt32} :
    file ∈ fs.ids ↔ ∃ f, fs.get? file = some f := by
  simp only [FileSet.ids, List.mem_map, List.mem_range, FileSet.get?]
  constructor
  · rintro ⟨i, hi, rfl⟩
    have hNumber : i.toUInt32.toNat = i := Nat.mod_eq_of_lt (by omega)
    rw [hNumber]
    exact ⟨_, Array.getElem?_eq_getElem hi⟩
  · rintro ⟨f, hf⟩
    exact ⟨file.toNat, (Array.getElem?_eq_some_iff.mp hf).1, by simp⟩

theorem get?_toUInt32 {fs : FileSet} (hSize : fs.size < 2 ^ 32) {i : Nat} {f : SourceFile}
    (hFile : fs.files[i]? = some f) : fs.get? i.toUInt32 = some f := by
  have hi : i < fs.size := (Array.getElem?_eq_some_iff.mp hFile).1
  have hNumber : i.toUInt32.toNat = i := Nat.mod_eq_of_lt (by omega)
  rw [FileSet.get?, hNumber, hFile]

theorem ids_pairwise {fs : FileSet} (hSize : fs.size < 2 ^ 32) :
    fs.ids.Pairwise fun a b => a.toNat < b.toNat := by
  rw [FileSet.ids, List.pairwise_map]
  refine List.pairwise_lt_range.imp_of_mem fun {i j} hi hj hij => ?_
  have hi' : i.toUInt32.toNat = i := Nat.mod_eq_of_lt (by have := List.mem_range.mp hi; omega)
  have hj' : j.toUInt32.toNat = j := Nat.mod_eq_of_lt (by have := List.mem_range.mp hj; omega)
  omega

theorem length_tokensOf {fs : FileSet} (hLength : ∀ f ∈ fs.files, f.tokens.length < 2 ^ 32)
    (file : UInt32) : (tokensOf fs file).length < 2 ^ 32 := by
  unfold tokensOf
  cases hFile : fs.get? file with
  | none => simp
  | some f => exact hLength f (Array.mem_of_getElem? hFile)

/-- A name of the past stands in a token of a file. -/
theorem exists_token_of_presentNameAt? {checker : Text → Option Text} {fs : FileSet} {p : Pos}
    {newName : Text} (h : presentNameAt? checker fs p = some newName) :
    ∃ f t, fs.get? p.file = some f ∧ f.tokens[p.token.toNat]? = some t ∧
      t.content = contentAt fs p := by
  have hToken := lt_length_of_isArgument (presentName?_eq_some_iff.mp h).1
  cases hFile : fs.get? p.file with
  | none => simp [tokensOf, hFile] at hToken
  | some f =>
      rw [tokensOf_of_get? hFile] at hToken
      refine ⟨f, _, rfl, Stream.getElem?_eq_tokenAt hToken, ?_⟩
      rw [contentAt, tokensOf_of_get? hFile]

/-- The reports about the files of a file set. -/
def allReports (checker : Text → Option Text) (fs : FileSet) : List Diagnostic :=
  fs.ids.flatMap fun file => reportsOf checker (viewOf fs file)

/-- The errors among them, which are the reports that offer a fix. -/
def legacyErrors (checker : Text → Option Text) (fs : FileSet) : List Diagnostic :=
  (allReports checker fs).filter (·.fixable)

/-- The edits of the fixes of all errors. -/
def legacyEdits (checker : Text → Option Text) (fs : FileSet) : List TokenEdit :=
  editsOf (planned (planOf checker fs) (legacyErrors checker fs))

/-- The error about a place. -/
def errorAt (fs : FileSet) (p : Pos) (newName : Text) : Diagnostic :=
  legacyError (viewOf fs p.file) p.token.toNat newName

theorem primary_errorAt (fs : FileSet) (p : Pos) (newName : Text) :
    (errorAt fs p newName).primary = p := by
  have hToken := p.token.toNat_lt
  have hPos : (viewOf fs p.file).pos (p.token.toNat : Int) = p := by
    have hRange : (0 ≤ (p.token.toNat : Int) && (p.token.toNat : Int) < 4294967296) = true := by
      simp only [Bool.and_eq_true, decide_eq_true_eq]
      omega
    simp only [RuleView.pos, hRange, if_true, Int.toNat_natCast, Nat.toUInt32_eq, file_viewOf,
      UInt32.ofNat_toNat]
  exact hPos

/-- An error offers the fix of its place, and nothing else. -/
theorem resolveAll_errorAt (fs : FileSet) (p : Pos) (newName : Text) :
    Fix.resolveAll (some fs) (errorAt fs p newName).fixes = .ok [planFor fs p newName] := by
  have hPos : (viewOf fs p.file).pos (p.token.toNat : Int) = p := primary_errorAt fs p newName
  simp [errorAt, legacyError, RuleView.fixableError, RuleView.report, Fix.resolveAll, Fix.resolve,
    fix, Fix.deferred, Fix.withTrait, hPos, planFor, editFor, fixId, contentAt]

theorem recordOf_errorAt (fs : FileSet) (p : Pos) (newName : Text) (i : Nat) :
    recordOf fs ⟨errorAt fs p newName, planFor fs p newName, i⟩ = entryFor fs p newName := by
  have hCode : (errorAt fs p newName).code = Code.legacyClassname := rfl
  have hMessage : (errorAt fs p newName).message =
      RuleView.message legacyMessage [stripQuotes (contentAt fs p), newName] := rfl
  simp only [recordOf, entryFor, planFor, primary_errorAt, hCode, hMessage, List.length_singleton]

section Reports

variable {checker : Text → Option Text} {max : Int} {fs : FileSet}
variable (hSize : fs.size < 2 ^ 32) (hLength : ∀ f ∈ fs.files, f.tokens.length < 2 ^ 32)
include hSize hLength

theorem diagnostics_eq
    (hKept : ∀ r ∈ Run.processAll (registry checker) max fs, r.bag.dropped = 0) :
    Run.diagnostics (Run.processAll (registry checker) max fs) = allReports checker fs := by
  rw [Run.diagnostics, Run.processAll, List.flatMap_map]
  refine List.flatMap_congr fun file hMem => ?_
  have hDropped := hKept _ (List.mem_map.mpr ⟨file, hMem, rfl⟩)
  obtain ⟨f, hf⟩ := (mem_ids_iff hSize).mp hMem
  rw [Run.bag_processFile_eq_collect] at hDropped ⊢
  exact bag_eq_reportsOf (length_tokensOf hLength file) hDropped

/-- Nothing is dropped if and only if the bag of each file has room for its reports. -/
theorem kept_iff :
    (∀ r ∈ Run.processAll (registry checker) max fs, r.bag.dropped = 0) ↔
      ∀ file ∈ fs.ids, (reportsOf checker (viewOf fs file)).length ≤ Run.room max := by
  rw [Run.processAll, List.forall_mem_map]
  refine forall₂_congr fun file hMem => ?_
  obtain ⟨f, hf⟩ := (mem_ids_iff hSize).mp hMem
  rw [Run.bag_processFile_eq_collect, dropped_eq (length_tokensOf hLength file), Nat.sub_eq_zero_iff_le]
  rfl

/-- The reports that offer a fix are the errors about the names of the past. -/
theorem mem_legacyErrors_iff {d : Diagnostic} :
    d ∈ legacyErrors checker fs ↔
      ∃ p newName, presentNameAt? checker fs p = some newName ∧ d = errorAt fs p newName := by
  simp only [legacyErrors, allReports, List.mem_filter, List.mem_flatMap, mem_reportsOf_iff, mem_reportsAt_iff]
  constructor
  · rintro ⟨⟨file, -, i, ⟨-, rfl⟩ | ⟨newName, hName, rfl⟩⟩, hFixable⟩
    · cases hFixable
    · have hi := lt_length_of_isArgument (presentName?_eq_some_iff.mp hName).1
      have hToken : i.toUInt32.toNat = i :=
        Nat.mod_eq_of_lt (Nat.lt_trans hi (length_tokensOf hLength file))
      refine ⟨⟨file, i.toUInt32⟩, newName, ?_, ?_⟩
      · rw [presentNameAt?, hToken]
        exact hName
      · rw [errorAt, hToken]
  · rintro ⟨p, newName, hName, rfl⟩
    obtain ⟨f, -, hFile, -⟩ := exists_token_of_presentNameAt? hName
    exact ⟨⟨p.file, (mem_ids_iff hSize).mpr ⟨f, hFile⟩, p.token.toNat,
      Or.inr ⟨newName, hName, rfl⟩⟩, rfl⟩

/-- The reports stand in the order of their places. -/
theorem allReports_pairwise :
    (allReports checker fs).Pairwise fun d d' => d.primary.less d'.primary = true := by
  rw [allReports, List.pairwise_flatMap]
  constructor
  · intro file _
    have hTokens : (viewOf fs file).tokens.length < 2 ^ 32 := length_tokensOf hLength file
    refine (reportsOf_pairwise hTokens).imp_of_mem fun hd hd' hLt => ?_
    rw [Pos.less_iff, file_of_mem_reportsOf hd, file_of_mem_reportsOf hd']
    exact Or.inr ⟨rfl, hLt⟩
  · refine (ids_pairwise hSize).imp fun hLt d hd d' hd' => ?_
    rw [Pos.less_iff, file_of_mem_reportsOf hd, file_of_mem_reportsOf hd']
    exact Or.inl hLt

/-! ## The fixes of all errors -/

theorem eq_errorAt_of_mem {d : Diagnostic} (h : d ∈ legacyErrors checker fs) :
    ∃ newName, presentNameAt? checker fs d.primary = some newName ∧
      d = errorAt fs d.primary newName ∧ planOf checker fs d = planFor fs d.primary newName := by
  obtain ⟨p, newName, hName, rfl⟩ := (mem_legacyErrors_iff hSize hLength).mp h
  rw [primary_errorAt, planOf, primary_errorAt, hName]
  exact ⟨newName, rfl, rfl, rfl⟩

theorem offersOne : OffersOne fs (planOf checker fs) (allReports checker fs) := by
  have hPlan : ∀ d ∈ allReports checker fs, d.fixable = true →
      ∃ newName, d = errorAt fs d.primary newName ∧
        planOf checker fs d = planFor fs d.primary newName := by
    intro d hd hFixable
    obtain ⟨newName, -, hError, hPlan⟩ :=
      eq_errorAt_of_mem hSize hLength (List.mem_filter.mpr ⟨hd, hFixable⟩)
    exact ⟨newName, hError, hPlan⟩
  refine ⟨fun d hd hFixable => ?_, fun d hd hFixable => ?_, fun d hd hFixable => ?_, ?_⟩
  · obtain ⟨newName, hError, hPlan⟩ := hPlan d hd hFixable
    rw [hPlan, hError, resolveAll_errorAt, primary_errorAt]
  · obtain ⟨newName, -, hPlan⟩ := hPlan d hd hFixable
    rw [hPlan]
    exact List.cons_ne_nil _ _
  · exact fixId_ne_nil d.primary
  · refine List.pairwise_map.mpr (((allReports_pairwise hSize hLength).filter _).imp ?_)
    intro d d' hLess hId
    exact Pos.ne_of_less hLess (fixId_injective hId)

theorem compatible_planned :
    Compatible fs [] (planned (planOf checker fs) (legacyErrors checker fs)) := by
  refine ⟨fun c hc => ⟨?_, by simp [Apart]⟩, ?_⟩
  · obtain ⟨hMem, hPlan⟩ := mem_planned hc
    obtain ⟨newName, hName, -, hFor⟩ := eq_errorAt_of_mem hSize hLength hMem
    obtain ⟨f, t, hFile, hToken, hText⟩ := exists_token_of_presentNameAt? hName
    rw [hPlan, hFor]
    exact fits_singleton hFile hToken hText
  · refine pairwise_planned ((allReports_pairwise hSize hLength).filter _) ?_
    intro d _ d' _ hLess i i'
    simp only [Apart, planOf, planFor, List.mem_singleton, forall_eq, pos_editFor]
    exact Pos.ne_of_less hLess

theorem mem_legacyEdits_iff {e : TokenEdit} :
    e ∈ legacyEdits checker fs ↔
      ∃ p newName, presentNameAt? checker fs p = some newName ∧ e = editFor fs p newName := by
  rw [legacyEdits, editsOf_planned, List.mem_flatMap]
  constructor
  · rintro ⟨d, hd, he⟩
    obtain ⟨newName, hName, -, hPlan⟩ := eq_errorAt_of_mem hSize hLength hd
    rw [hPlan] at he
    exact ⟨d.primary, newName, hName, List.mem_singleton.mp he⟩
  · rintro ⟨p, newName, hName, rfl⟩
    refine ⟨errorAt fs p newName, ?_, ?_⟩
    · exact (mem_legacyErrors_iff hSize hLength).mpr ⟨p, newName, hName, rfl⟩
    · rw [planOf, primary_errorAt, hName]
      exact List.mem_singleton_self _

theorem legacyEdits_pairwise :
    (legacyEdits checker fs).Pairwise fun e e' => e.pos ≠ e'.pos := by
  rw [legacyEdits, editsOf_planned, List.pairwise_flatMap]
  refine ⟨fun d _ => List.pairwise_singleton _ _, ?_⟩
  refine ((allReports_pairwise hSize hLength).filter _).imp fun {d d'} hLess e he e' he' => ?_
  rw [planOf, planFor, List.mem_singleton] at he he'
  rw [he, he', pos_editFor, pos_editFor]
  exact Pos.ne_of_less hLess

/-- The token of a file at which there is something to say about a place. -/
theorem place_of_getElem? {i j : Nat} {f : SourceFile} {t : Token} (hFile : fs.files[i]? = some f)
    (hToken : f.tokens[j]? = some t) :
    j.toUInt32.toNat = j ∧ contentAt fs ⟨i.toUInt32, j.toUInt32⟩ = t.content ∧
      presentNameAt? checker fs ⟨i.toUInt32, j.toUInt32⟩ = presentName? checker f.tokens j := by
  have hj : j < f.tokens.length := (List.getElem?_eq_some_iff.mp hToken).1
  have hj' : j.toUInt32.toNat = j :=
    Nat.mod_eq_of_lt (Nat.lt_trans hj (hLength f (Array.mem_of_getElem? hFile)))
  have hTokens : tokensOf fs i.toUInt32 = f.tokens := tokensOf_of_get? (get?_toUInt32 hSize hFile)
  refine ⟨hj', ?_, ?_⟩
  · rw [contentAt, hTokens, hj', Stream.tokenAt_eq_of_getElem? hToken]
  · rw [presentNameAt?, hTokens, hj']

/-- All edits together rewrite a stream. -/
theorem streamAfter_legacyEdits {i : Nat} {f : SourceFile} (hFile : fs.files[i]? = some f) :
    streamAfter (legacyEdits checker fs) i.toUInt32 f.tokens = rewritten checker f.tokens := by
  apply List.ext_getElem?
  intro j
  rw [getElem?_streamAfter, rewritten, List.getElem?_mapIdx]
  cases hToken : f.tokens[j]? with
  | none => rfl
  | some t =>
      obtain ⟨hj, hContent, hName⟩ := @place_of_getElem? checker fs hSize hLength i j f t hFile hToken
      have hHere : ∀ newName, concerns i.toUInt32 j
          (editFor fs ⟨i.toUInt32, j.toUInt32⟩ newName) = true := by
        intro newName
        simp only [concerns, pos_editFor, hj, decide_true, Bool.and_self]
      rw [Option.map_some, Option.map_some]
      -- either no edit is about the token, or exactly one is
      cases hPresent : presentName? checker f.tokens j with
      | none =>
          rw [contentAfter_of_forall_not]
          · rfl
          · intro e he
            obtain ⟨p, newName, hSome, rfl⟩ := (mem_legacyEdits_iff hSize hLength).mp he
            by_contra hConcerns
            have hPos : p = ⟨i.toUInt32, j.toUInt32⟩ :=
              pos_eq_of_concerns (by simpa using hConcerns) (hHere newName)
            rw [hPos, hName, hPresent] at hSome
            cases hSome
      | some newName =>
          have he : editFor fs ⟨i.toUInt32, j.toUInt32⟩ newName ∈ legacyEdits checker fs :=
            (mem_legacyEdits_iff hSize hLength).mpr ⟨_, newName, hName.trans hPresent, rfl⟩
          rw [contentAfter_of_mem (legacyEdits_pairwise hSize hLength) he (hHere newName), editFor,
            hContent]
          rfl

theorem tokens_filesAfter_legacyEdits :
    (filesAfter (legacyEdits checker fs) fs).files.map (·.tokens) =
      fs.files.map fun f => rewritten checker f.tokens := by
  apply Array.ext_getElem?
  intro i
  rw [Array.getElem?_map, Array.getElem?_map, tokens_getElem?_filesAfter hSize]
  cases hFile : fs.files[i]? with
  | none => rfl
  | some f => exact congrArg some (streamAfter_legacyEdits hSize hLength hFile)

/-- What applying all fixes comes to. -/
theorem apply_allReports : ∃ changes, apply fs (allReports checker fs) { mode := .all } =
    (filesAfter (legacyEdits checker fs) fs,
      { applied := (planned (planOf checker fs) (legacyErrors checker fs)).map (recordOf fs)
        skipped := [], changes := changes },
      if (legacyErrors checker fs).isEmpty then some .noFixes else none) :=
  apply_all_eq (offersOne hSize hLength) rfl ((allReports_pairwise hSize hLength).filter _)
    (fun _ _ => rfl) (compatible_planned hSize hLength)

theorem applied_eq :
    (planned (planOf checker fs) (legacyErrors checker fs)).map (recordOf fs) =
      ((legacyErrors checker fs).map (·.primary)).map fun p =>
        entryFor fs p ((presentNameAt? checker fs p).getD []) := by
  rw [map_planned _ (fun d => recordOf fs ⟨d, planOf checker fs d, 0⟩) fun _ _ => rfl,
    List.map_map]
  refine List.map_congr_left fun d hd => ?_
  obtain ⟨p, newName, hName, rfl⟩ := (mem_legacyErrors_iff hSize hLength).mp hd
  rw [Function.comp_apply, planOf, primary_errorAt, hName, Option.getD_some, recordOf_errorAt]

theorem mem_places_iff {p : Pos} :
    p ∈ (legacyErrors checker fs).map (·.primary) ↔
      ∃ newName, presentNameAt? checker fs p = some newName := by
  simp only [List.mem_map, mem_legacyErrors_iff hSize hLength]
  constructor
  · rintro ⟨d, ⟨q, newName, hName, rfl⟩, rfl⟩
    rw [primary_errorAt]
    exact ⟨newName, hName⟩
  · rintro ⟨newName, hName⟩
    exact ⟨_, ⟨p, newName, hName, rfl⟩, primary_errorAt fs p newName⟩

/-- There is an error if and only if some file holds a name of the past. -/
theorem legacyErrors_eq_nil_iff :
    legacyErrors checker fs = [] ↔
      ∀ f ∈ fs.files, ∀ j, presentName? checker f.tokens j = none := by
  rw [List.eq_nil_iff_forall_not_mem]
  simp only [mem_legacyErrors_iff hSize hLength]
  constructor
  · intro hNone f hf j
    rw [Option.eq_none_iff_forall_ne_some]
    intro newName hName
    obtain ⟨i, hFile⟩ := Array.mem_iff_getElem?.mp hf
    have hj := lt_length_of_isArgument (presentName?_eq_some_iff.mp hName).1
    obtain ⟨-, -, hAt⟩ := @place_of_getElem? checker fs hSize hLength i j f _ hFile
      (Stream.getElem?_eq_tokenAt hj)
    exact hNone _ ⟨_, newName, hAt.trans hName, rfl⟩
  · rintro hNone d ⟨p, newName, hName, -⟩
    obtain ⟨f, -, hFile, -⟩ := exists_token_of_presentNameAt? hName
    rw [presentNameAt?, tokensOf_of_get? hFile, hNone f (Array.mem_of_getElem? hFile)] at hName
    cases hName

end Reports

/-- The rewriting law. The rule is run over all files, nothing is dropped, and all fixes are
applied. Then every literal that is the first one after a call of `get` or `create` and holds a
name of the past holds the present one, and no other token has changed. There is one entry for
each of these literals, in the order of their places, and nothing is skipped. -/
theorem apply_all_rewrites (checker : Text → Option Text) (max : Int) (fs : FileSet)
    (hSize : fs.size < 2 ^ 32) (hLength : ∀ f ∈ fs.files, f.tokens.length < 2 ^ 32)
    (hKept : ∀ r ∈ Run.processAll (registry checker) max fs, r.bag.dropped = 0) :
    ∃ (fs' : FileSet) (outcome : Outcome) (problem : Option Problem) (places : List Pos),
      apply fs (Run.diagnostics (Run.processAll (registry checker) max fs)) { mode := .all } =
        (fs', outcome, problem) ∧
      fs'.files.map (·.tokens) = fs.files.map (fun f => rewritten checker f.tokens) ∧
      places.Pairwise (fun p q => p.less q = true) ∧
      (∀ p, p ∈ places ↔ ∃ newName, presentNameAt? checker fs p = some newName) ∧
      outcome.applied =
        places.map (fun p => entryFor fs p ((presentNameAt? checker fs p).getD [])) ∧
      outcome.skipped = [] ∧
      (problem = some .noFixes ↔ ∀ f ∈ fs.files, ∀ j, presentName? checker f.tokens j = none) := by
  obtain ⟨changes, hApply⟩ := @apply_allReports checker fs hSize hLength
  rw [diagnostics_eq hSize hLength hKept]
  refine ⟨_, _, _, (legacyErrors checker fs).map (·.primary), hApply,
    tokens_filesAfter_legacyEdits hSize hLength, ?_, ?_, applied_eq hSize hLength, rfl, ?_⟩
  · exact List.pairwise_map.mpr ((allReports_pairwise hSize hLength).filter _)
  · exact fun p => mem_places_iff hSize hLength
  · rw [← legacyErrors_eq_nil_iff hSize hLength]
    cases legacyErrors checker fs <;> simp

/-! ## A run -/

/-- The tokens of a call with a literal as its only argument. -/
def callTokens (function literal : Text) : Stream :=
  [{ kind := .identifier, content := function }, { kind := .openParenthesis, content := "(" },
    { kind := .stringLiteral, content := literal }, { kind := .closeParenthesis, content := ")" }]

/-- Two files. In the first one, two calls reach the same literal. -/
def sampleFiles : FileSet :=
  { files := #[
      { path := "a"
        tokens := { kind := .identifier, content := "create" } ::
          { kind := .openParenthesis, content := "(" } :: callTokens "get" "\"Tx_Old\"" },
      { path := "b", tokens := callTokens "create" "'Kept'" ++ callTokens "get" "'Tx_Old'" }] }

/-- A checker that knows one class name of the past. -/
def sampleChecker (n : Text) : Option Text := if n = "Tx_Old" then some "New" else none

theorem sampleFiles_kept :
    ∀ r ∈ Run.processAll (registry sampleChecker) 9 sampleFiles, r.bag.dropped = 0 := by
  have hAll : (Run.processAll (registry sampleChecker) 9 sampleFiles).all
      (fun r => r.bag.dropped = 0) = true := by
    decide +kernel
  simpa using hAll

theorem apply_all_rewrites_sampleFiles :
    let result := apply sampleFiles
      (Run.diagnostics (Run.processAll (registry sampleChecker) 9 sampleFiles)) { mode := .all }
    result.1.files.map (fun f => f.tokens.source) =
        #[Text.ofString "create(get('New')", Text.ofString "create('Kept')get('New')"] ∧
      result.2.1.skipped = [] := by
  obtain ⟨fs', outcome, problem, places, hApply, hTokens, -, -, -, hSkipped, -⟩ :=
    apply_all_rewrites sampleChecker 9 sampleFiles (by decide) (by decide) sampleFiles_kept
  have hSources : fs'.files.map (fun f => f.tokens.source) =
      (sampleFiles.files.map fun f => rewritten sampleChecker f.tokens).map Stream.source := by
    rw [← hTokens, Array.map_map]
    rfl
  simp only [hApply, hSkipped, hSources, and_true]
  decide +kernel

end TokenLint.ObjectManager
