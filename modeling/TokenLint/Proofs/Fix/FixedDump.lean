import TokenLint.Proofs.Dump.Edited
import TokenLint.Proofs.Fix.Selection

/-!
# Fixed dumps

A dump that was read is written again after fixes have been applied to it. An edit may give a token
any content, and nearly all of them can be read back. Only a bare character must keep a content of
one byte: its record says nothing but the content, so a longer text, or none, is refused.

* `fix_of_mem_appliedOf`: the edits that are made are those of the fixes on offer.
* `readable_streamAfter_iff`: which streams can be read back, by the edits of the applied fixes.
* `fixed_dump_read_back_iff`: what comes of writing and reading a fixed dump.
-/

namespace TokenLint.Fixing

/-! ## The applied fixes -/

theorem fix_of_mem_appliedOf {fs : FileSet} {ds : List Diagnostic} {r : Request} {c : Candidate}
    (hc : c ∈ appliedOf fs ds r) : ∃ d ∈ ds, ∃ f ∈ d.fixes,
      ∃ p, f.resolve (some fs) = .ok p ∧ c.plan.edits = p.edits := by
  have hSelected := mem_of_mem_select ((appliedFrom_sublist fs {} _).mem hc)
  have hCandidate := Array.mem_toList_iff.mp ((List.mergeSort_perm _ _).mem_iff.mp hSelected)
  obtain ⟨hd, f, hf, hFix⟩ := fix_of_mem_gather hCandidate
  exact ⟨c.diagnostic, hd, f, hf, hFix⟩

/-! ## The stream of a file -/

theorem get?_apply {fs : FileSet} {file : UInt32} {f : SourceFile} (hf : fs.get? file = some f)
    (ds : List Diagnostic) (r : Request) :
    ∃ f', (apply fs ds r).1.get? file = some f' ∧ f'.origin = f.origin ∧
      f'.tokens = streamAfter (editsOf (appliedOf fs ds r)) file f.tokens := by
  rw [(apply_eq fs ds r).1, get?_filesAfter, hf, Option.map_some]
  by_cases hEdited : edited (editsOf (appliedOf fs ds r)) file = true
  · rw [if_pos hEdited]
    exact ⟨_, rfl, rfl, rfl⟩
  · rw [if_neg hEdited]
    refine ⟨f, rfl, rfl, (streamAfter_of_forall_ne (fun e he hFile => ?_) _).symm⟩
    exact hEdited (edited_iff.mpr ⟨e, he, hFile⟩)

/-- A token keeps its content, or an edit of one of the candidates decides. -/
theorem contentAfter_editsOf_cases {cs : List Candidate}
    (hApart : cs.Pairwise fun c d => Apart c.plan.edits d.plan.edits) (file : UInt32) (j : Nat)
    (t : Text) : contentAfter (editsOf cs) file j t = t ∨
      ∃ c ∈ cs, ∃ e, c.lastEdit? file j = some e ∧
        contentAfter (editsOf cs) file j t = e.newText := by
  by_cases hSome : ∃ c ∈ cs, ∃ e ∈ c.plan.edits, concerns file j e = true
  · obtain ⟨c, hc, e, he, hConcerns⟩ := hSome
    have hNe := List.ne_nil_of_mem (List.mem_filter.mpr ⟨he, hConcerns⟩)
    have hLast : c.lastEdit? file j = some (List.getLast _ hNe) := List.getLast?_eq_some_getLast hNe
    exact Or.inr ⟨c, hc, _, hLast, contentAfter_editsOf_of_lastEdit? hApart hc hLast t⟩
  · exact Or.inl (not_not.mp fun hNe => hSome (exists_edit_of_contentAfter_ne hNe))

/-- No candidate leaves a bare character with a content that is not a single byte. -/
def KeepsCharacters (cs : List Candidate) (file : UInt32) (s : Stream) : Prop :=
  ∀ (j : Nat) t, s[j]? = some t → t.Bare → ∀ c ∈ cs, ∀ e, c.lastEdit? file j = some e →
    e.newText.length = 1

section Streams

variable {cs : List Candidate} {s : Stream}

theorem exists_of_mem_streamAfter {es : List TokenEdit} {file : UInt32} {t' : Token}
    (h : t' ∈ streamAfter es file s) : ∃ (j : Nat) (t : Token), s[j]? = some t ∧
      t' = { t with content := contentAfter es file j t.content } := by
  obtain ⟨j, hj⟩ := List.mem_iff_getElem?.mp h
  rw [getElem?_streamAfter, Option.map_eq_some_iff] at hj
  obtain ⟨t, ht, hSame⟩ := hj
  exact ⟨j, t, ht, hSame.symm⟩

/-- Edits leave labels alone. -/
theorem labelled_streamAfter (hNamed : ∀ t ∈ s, t.Named) (es : List TokenEdit) (file : UInt32) :
    ∀ t ∈ streamAfter es file s, t.Bare ∨ t.Labelled := by
  intro t' ht'
  obtain ⟨j, t, ht, rfl⟩ := exists_of_mem_streamAfter ht'
  rcases (hNamed t (List.mem_of_getElem? ht)).labelled with hBare | ⟨hTrim, hKnown⟩
  · exact Or.inl hBare
  · exact Or.inr ⟨hTrim, hKnown⟩

variable (hApart : cs.Pairwise fun c d => Apart c.plan.edits d.plan.edits)
include hApart

theorem readable_streamAfter_iff (hNamed : ∀ t ∈ s, t.Named) (file : UInt32) :
    Stream.Readable (streamAfter (editsOf cs) file s) ↔ KeepsCharacters cs file s := by
  constructor
  · intro hReadable j t ht hBare c hc e he
    have hToken := getElem?_streamAfter (editsOf cs) file s j
    rw [ht, Option.map_some, contentAfter_editsOf_of_lastEdit? hApart hc he] at hToken
    exact hReadable _ (List.mem_of_getElem? hToken) hBare
  · intro hKeeps t' ht' hBare
    obtain ⟨j, t, ht, rfl⟩ := exists_of_mem_streamAfter ht'
    rcases contentAfter_editsOf_cases hApart file j t.content with hSame | ⟨c, hc, e, he, hText⟩
    · show (contentAfter (editsOf cs) file j t.content).length = 1
      rw [hSame]
      exact (hNamed t (List.mem_of_getElem? ht)).length_of_bare hBare
    · show (contentAfter (editsOf cs) file j t.content).length = 1
      rw [hText]
      exact hKeeps j t ht hBare c hc e he

theorem isUtf8_streamAfter (hContents : ∀ t ∈ s, Text.isUtf8 t.content = true)
    (hTexts : ∀ c ∈ cs, ∀ e ∈ c.plan.edits, Text.isUtf8 e.newText = true) (file : UInt32) :
    ∀ t ∈ streamAfter (editsOf cs) file s, Text.isUtf8 t.content = true := by
  intro t' ht'
  obtain ⟨j, t, ht, rfl⟩ := exists_of_mem_streamAfter ht'
  show Text.isUtf8 (contentAfter (editsOf cs) file j t.content) = true
  rcases contentAfter_editsOf_cases hApart file j t.content with hSame | ⟨c, hc, e, he, hText⟩
  · rw [hSame]
    exact hContents t (List.mem_of_getElem? ht)
  · rw [hText]
    exact hTexts c hc e (Candidate.exists_of_lastEdit? he).1

end Streams

/-! ## Writing and reading -/

/-- A dump that was read in either format stands in a file set, and fixes are applied, whatever is
asked for. Then the file can be written in both formats, as far as its lengths fit, and what was
written is read back with the same source if and only if every bare character that applied fixes edit
is a single byte in the end. Otherwise it is refused, because of a bare character that is none any
more. -/
theorem fixed_dump_read_back_iff {fs : FileSet} {file : UInt32} {f : SourceFile}
    {format : DumpFormat} {input : Text} {d : Dump} (hDecode : Dump.decode format input = .ok d)
    (hFile : fs.get? file = some f) (hTokens : f.tokens = d.tokens)
    (hContents : ∀ t ∈ d.tokens, Text.isUtf8 t.content = true) {ds : List Diagnostic}
    (hTexts : ∀ x ∈ ds, ∀ fix ∈ x.fixes, ∀ p, fix.resolve (some fs) = .ok p →
      ∀ e ∈ p.edits, Text.isUtf8 e.newText = true) (r : Request) :
    ∃ f', (apply fs ds r).1.get? file = some f' ∧ f'.origin = f.origin ∧
      ∀ target, Dump.Fits ⟨f'.origin, f'.tokens⟩ target →
        ∃ out, Dump.encode target ⟨f'.origin, f'.tokens⟩ = .ok out ∧
          ((∃ back, Dump.decode target out = .ok back ∧ back.tokens.source = f'.tokens.source) ↔
            KeepsCharacters (appliedOf fs ds r) file d.tokens) ∧
          (¬ KeepsCharacters (appliedOf fs ds r) file d.tokens →
            ∃ (j : Nat) (t : Token), f'.tokens[j]? = some t ∧ t.Bare ∧ t.content.length ≠ 1 ∧
              Dump.decode target out = .error (.missingKind j t.content)) := by
  obtain ⟨f', hGet, hOrigin, hStream⟩ := get?_apply hFile ds r
  refine ⟨f', hGet, hOrigin, fun target hFits => ?_⟩
  have hApart := apart_appliedOf fs ds r
  have hNamed := Dump.named_of_decode hDecode
  rw [hTokens] at hStream
  have hNewTexts : ∀ c ∈ appliedOf fs ds r, ∀ e ∈ c.plan.edits, Text.isUtf8 e.newText = true := by
    intro c hc e he
    obtain ⟨x, hx, fix, hFix, p, hResolve, hEdits⟩ := fix_of_mem_appliedOf hc
    exact hTexts x hx fix hFix p hResolve e (hEdits ▸ he)
  have hLabelled := labelled_streamAfter hNamed (editsOf (appliedOf fs ds r)) file
  have hReadable := readable_streamAfter_iff hApart hNamed file
  have hValid := isUtf8_streamAfter hApart hContents hNewTexts file
  rw [← hStream] at hLabelled hReadable hValid
  obtain ⟨out, hEncode, hBack⟩ := Dump.readBack_decode hFits hLabelled hValid
  refine ⟨out, hEncode, ?_⟩
  rw [← hReadable]
  generalize Dump.decode target out = result at hBack
  cases hBack with
  | same hAll hSource =>
      exact ⟨⟨fun _ => hAll, fun _ => ⟨_, rfl, hSource⟩⟩, fun hNot => absurd hAll hNot⟩
  | refused hToken hBare hLength =>
      have hNot : ¬ Stream.Readable f'.tokens :=
        fun hAll => hLength (hAll _ (List.mem_of_getElem? hToken) hBare)
      refine ⟨⟨?_, fun hAll => absurd hAll hNot⟩, fun _ => ⟨_, _, hToken, hBare, hLength, rfl⟩⟩
      rintro ⟨back, hOk, -⟩
      cases hOk

/-- A dump of one operator. -/
def plusDump : Dump := ⟨[], [⟨.other, [], "+", 1, 1⟩]⟩

/-- The file set with that dump. -/
def plusFile : FileSet := FileSet.add {} "Sum.tokens.json" plusDump.path plusDump.tokens {}

/-- A diagnostic with a fix that empties the operator. -/
def removingPlus : Diagnostic := { fixes := [Fix.deleteToken "Remove operator" {} "+" []] }

/-- The fix is applied, and then the dump is written as JSON and refused. -/
theorem fixed_dump_read_back_iff_plusDump :
    Dump.decode .json "[\"+\"]" = .ok plusDump ∧
      ((appliedOf plusFile [removingPlus] { mode := .all }).map fun c => c.plan.edits) =
        [[⟨{}, [], "+"⟩]] ∧
      ∃ f' out, (apply plusFile [removingPlus] { mode := .all }).1.get? 0 = some f' ∧
        Dump.encode .json ⟨f'.origin, f'.tokens⟩ = .ok out ∧
        ¬ (∃ back, Dump.decode .json out = .ok back ∧ back.tokens.source = f'.tokens.source) ∧
        ∃ j content, Dump.decode .json out = .error (.missingKind j content) := by
  have hDecode : Dump.decode .json "[\"+\"]" = .ok plusDump := by decide +kernel
  have hEdits : ((appliedOf plusFile [removingPlus] { mode := .all }).map fun c => c.plan.edits) =
      [[⟨{}, [], "+"⟩]] := by decide +kernel
  have hContents : ∀ t ∈ plusDump.tokens, Text.isUtf8 t.content = true := by
    rw [← List.all_eq_true]
    decide +kernel
  have hTexts : ∀ x ∈ [removingPlus], ∀ fix ∈ x.fixes, ∀ p, fix.resolve (some plusFile) = .ok p →
      ∀ e ∈ p.edits, Text.isUtf8 e.newText = true := by
    intro x hx fix hFix p hResolve e he
    rw [List.mem_singleton.mp hx] at hFix
    rw [List.mem_singleton.mp hFix] at hResolve
    cases hResolve
    rw [List.mem_singleton.mp he]
    exact Text.isUtf8_of_ascii fun b hb => absurd hb List.not_mem_nil
  have hNot : ¬ KeepsCharacters (appliedOf plusFile [removingPlus] { mode := .all }) 0
      plusDump.tokens := by
    intro hKeeps
    obtain ⟨c, hc, hPlan⟩ := List.mem_map.mp (hEdits ▸ List.mem_singleton_self _)
    have hLast : c.lastEdit? 0 0 = some ⟨{}, [], "+"⟩ := by
      rw [Candidate.lastEdit?, hPlan]
      rfl
    exact absurd (hKeeps 0 _ rfl ⟨rfl, rfl⟩ c hc _ hLast) (by decide)
  have hFile : ∃ f, plusFile.get? 0 = some f ∧ f.tokens = plusDump.tokens := ⟨_, rfl, rfl⟩
  obtain ⟨f, hGetFile, hTokens⟩ := hFile
  obtain ⟨f', hGet, -, hTargets⟩ :=
    fixed_dump_read_back_iff hDecode hGetFile hTokens hContents hTexts { mode := .all }
  obtain ⟨out, hEncode, hIff, hRefused⟩ := hTargets .json trivial
  obtain ⟨j, t, -, -, -, hError⟩ := hRefused hNot
  exact ⟨hDecode, hEdits, f', out, hGet, hEncode, fun hSame => hNot (hIff.mp hSame), j, _, hError⟩

end TokenLint.Fixing
