import TokenLint.Proofs.Fix.Workspace

/-!
# When fixes fit

The edits of a fix can be made if their tokens are there and the edits of each token find the text
they expect, the first one the text of the token and every other one the text of the edit before.
Put this way, without groups and sorted lists, it can be decided.

* `editStream_ok_iff_guarded`, `fits_iff`: whether edits can be made, token by token.
-/

namespace TokenLint.Fixing

/-! ## The edits of one token -/

/-- Edits of one token with a given content, one after the other: each finds the text it expects. -/
def Guarded : Text → List TokenEdit → Prop
  | _, [] => True
  | content, e :: es => (e.oldText = [] ∨ content = e.oldText) ∧ Guarded e.newText es

/-! ## When edits can be made -/

theorem isSome_getElem?_setContent (s : Stream) (n j : Nat) (c : Text) :
    (s.setContent n c)[j]?.isSome = s[j]?.isSome := by
  rw [getElem?_setContent, Option.isSome_map]

theorem checkEdit_nil_eq_none_iff {s : Stream} {e : TokenEdit} :
    checkEdit s [] e = none ↔ ∃ t, s[e.pos.token.toNat]? = some t ∧
      (e.oldText = [] ∨ t.content = e.oldText) := by
  rw [checkEdit_eq_none_iff]
  cases s[e.pos.token.toNat]? <;> simp

/-- The edits of one file can be made if their tokens are there and those of each token find what
they expect. -/
theorem editStream_ok_iff_guarded {file : UInt32} {es : List TokenEdit} {s : Stream}
    (hFile : ∀ e ∈ es, e.pos.file = file) :
    (∃ s', editStream [] s es = .ok s') ↔
      (∀ e ∈ es, s[e.pos.token.toNat]?.isSome = true) ∧
        ∀ (j : Nat) (t : Token), s[j]? = some t →
          Guarded t.content (es.filter (concerns file j)) := by
  induction es generalizing s with
  | nil => simp [editStream, Guarded]
  | cons e es ih =>
      obtain ⟨hHead, hTail⟩ := List.forall_mem_cons.mp hFile
      have hConcerns : ∀ j, concerns file j e = true ↔ e.pos.token.toNat = j := by
        intro j
        simp [concerns, hHead]
      simp only [editStream_cons_ok_iff, exists_and_left, checkEdit_nil_eq_none_iff, ih hTail,
        isSome_getElem?_setContent, List.forall_mem_cons]
      constructor
      · rintro ⟨⟨t, ht, hText⟩, hThere, hRest⟩
        refine ⟨⟨by rw [ht]; rfl, hThere⟩, fun j t' ht' => ?_⟩
        have hAfter := hRest j
        rw [getElem?_setContent, ht', Option.map_some] at hAfter
        by_cases hj : e.pos.token.toNat = j
        · subst hj
          obtain rfl := Option.some.inj (ht.symm.trans ht')
          rw [List.filter_cons_of_pos ((hConcerns _).mpr rfl)]
          exact ⟨hText, hAfter _ (by rw [if_pos rfl])⟩
        · rw [List.filter_cons_of_neg (mt (hConcerns j).mp hj)]
          exact hAfter t' (by rw [if_neg hj])
      · rintro ⟨⟨hIn, hThere⟩, hAll⟩
        obtain ⟨t, ht⟩ := Option.isSome_iff_exists.mp hIn
        have hFirst := hAll _ t ht
        rw [List.filter_cons_of_pos ((hConcerns _).mpr rfl)] at hFirst
        refine ⟨⟨t, ht, hFirst.1⟩, hThere, fun j t' ht' => ?_⟩
        rw [getElem?_setContent, Option.map_eq_some_iff] at ht'
        obtain ⟨u, hu, rfl⟩ := ht'
        by_cases hj : e.pos.token.toNat = j
        · subst hj
          rw [if_pos rfl]
          exact hFirst.2
        · have hOther := hAll j u hu
          rw [List.filter_cons_of_neg (mt (hConcerns j).mp hj)] at hOther
          rwa [if_neg hj]

/-- Edits can be made on the files of a file set if for each of them there are its file and its
token, and all edits of this token find what they expect. -/
theorem fits_iff {fs : FileSet} {edits : List TokenEdit} :
    Fits fs edits ↔ ∀ e ∈ edits, ∃ f t, fs.get? e.pos.file = some f ∧
      f.tokens[e.pos.token.toNat]? = some t ∧
        Guarded t.content (edits.filter (concerns e.pos.file e.pos.token.toNat)) := by
  constructor
  · intro h e he
    obtain ⟨hKnown, hEdit⟩ := h e.pos.file (mem_filesOf.mpr ⟨e, he, rfl⟩)
    obtain ⟨f, hf⟩ := Option.isSome_iff_exists.mp hKnown
    rw [tokensOf_of_get? hf,
      editStream_ok_iff_guarded fun e' he' => (mem_editsIn.mp he').2] at hEdit
    obtain ⟨t, ht⟩ := Option.isSome_iff_exists.mp (hEdit.1 e (mem_editsIn.mpr ⟨he, rfl⟩))
    have hGuards := hEdit.2 _ t ht
    rw [filter_concerns_editsIn] at hGuards
    exact ⟨f, t, hf, ht, hGuards⟩
  · intro h file hFile
    obtain ⟨e, he, rfl⟩ := mem_filesOf.mp hFile
    obtain ⟨f, -, hf, -, -⟩ := h e he
    refine ⟨by rw [hf]; rfl, ?_⟩
    rw [tokensOf_of_get? hf, editStream_ok_iff_guarded fun e' he' => (mem_editsIn.mp he').2]
    have hSameFile : ∀ e' : TokenEdit, e'.pos.file = e.pos.file →
        ∀ f', fs.get? e'.pos.file = some f' → f' = f := by
      intro e' hSame f' hf'
      rw [hSame, hf] at hf'
      exact (Option.some.inj hf').symm
    constructor
    · intro e' he'
      obtain ⟨hMem, hSame⟩ := mem_editsIn.mp he'
      obtain ⟨f', t, hf', ht, -⟩ := h e' hMem
      rw [← hSameFile e' hSame f' hf', ht]
      rfl
    · intro j t ht
      rw [filter_concerns_editsIn]
      -- a token that no edit concerns has nothing to guard
      cases hEdits : edits.filter (concerns e.pos.file j) with
      | nil => trivial
      | cons e' rest =>
          have hIn : e' ∈ edits.filter (concerns e.pos.file j) := hEdits ▸ List.mem_cons_self
          obtain ⟨hMem, hConcerns⟩ := List.mem_filter.mp hIn
          simp only [concerns, Bool.and_eq_true, decide_eq_true_eq] at hConcerns
          obtain ⟨hSame, hj⟩ := hConcerns
          obtain ⟨f', t', hf', ht', hGuards⟩ := h e' hMem
          rw [hSameFile e' hSame f' hf', hj, ht] at ht'
          rw [hSame, hj, hEdits] at hGuards
          rwa [Option.some.inj ht']

/-! ## Deciding it -/

instance Guarded.decidable :
    (content : Text) → (es : List TokenEdit) → Decidable (Guarded content es)
  | _, [] => isTrue trivial
  | content, e :: es =>
    have := Guarded.decidable e.newText es
    inferInstanceAs (Decidable ((e.oldText = [] ∨ content = e.oldText) ∧ Guarded e.newText es))

instance (fs : FileSet) (edits : List TokenEdit) : Decidable (Fits fs edits) :=
  decidable_of_iff
    (∀ e ∈ edits, ((fs.get? e.pos.file).any fun f => (f.tokens[e.pos.token.toNat]?).any fun t =>
      Guarded t.content (edits.filter (concerns e.pos.file e.pos.token.toNat))) = true)
    (by simp [fits_iff, Option.any_eq_true, exists_and_left])

instance (es es' : List TokenEdit) : Decidable (Apart es es') :=
  inferInstanceAs (Decidable (∀ e ∈ es, ∀ e' ∈ es', e.pos ≠ e'.pos))

instance (fs : FileSet) (made : List TokenEdit) (c : Candidate) : Decidable (Accepts fs made c) :=
  inferInstanceAs (Decidable (Fits fs c.plan.edits ∧ Apart made c.plan.edits))

end TokenLint.Fixing
