import TokenLint.Proofs.Fix.Deferred
import TokenLint.Proofs.Fix.FixedDump
import TokenLint.Report.Preview

/-!
# Previews say what is done

The lines that a preview shows are those of a block of tokens. A stream has one block around each of
its tokens, and an edit of the token turns the block before into the block after, whatever comes in
front and behind. So does the engine when it makes the edit, and if no line feed comes or goes, the
block around the token in the fixed file is the one that was announced.

* `LineBlock.unique`: there is one block around a token.
* `lineBlock_ofLine`: the block of a preview.
* `LineBlock.setContent_eq_append`: what an edit does to a stream.
* `apply_single`: a fix of one edit makes this edit.
* `preview_shows_fix`: the preview, the fixed file and its own preview.
-/

namespace TokenLint

namespace Report

open Fixing

variable {s : Stream} {i first last : Nat} {t : Token} {c : Text}

/-! ## Blocks of lines -/

theorem length_setContent (s : Stream) (n : Int) (c : Text) :
    (s.setContent n c).length = s.length := by
  unfold Stream.setContent
  split
  · rfl
  · exact List.length_modify _ _ _

/-- From the first token to the last one, with a token in between: the tokens of a line, as far as
tokens begin and end with lines. -/
structure LineBlock (s : Stream) (i first last : Nat) : Prop where
  first_le : first ≤ i
  le_last : i ≤ last
  last_lt : last < s.length
  unbroken : ∀ k, first ≤ k → k < last → ∀ t, s[k]? = some t → 10 ∉ t.content
  starts : first = 0 ∨ ∃ t, s[first - 1]? = some t ∧ 10 ∈ t.content
  stops : last + 1 = s.length ∨ ∃ t, s[last]? = some t ∧ 10 ∈ t.content

namespace LineBlock

theorem first_le_first {first' last' : Nat} (h : LineBlock s i first last)
    (h' : LineBlock s i first' last') : first' ≤ first := by
  by_contra hLess
  have hFirst := h'.first_le
  have hLast := h.le_last
  rcases h'.starts with hZero | ⟨t, ht, hBreaks⟩
  · omega
  · exact h.unbroken (first' - 1) (by omega) (by omega) t ht hBreaks

theorem last_le_last {first' last' : Nat} (h : LineBlock s i first last)
    (h' : LineBlock s i first' last') : last' ≤ last := by
  by_contra hLess
  have hFirst := h'.first_le
  have hLast := h.le_last
  have hIn := h'.last_lt
  rcases h.stops with hEnd | ⟨t, ht, hBreaks⟩
  · omega
  · exact h'.unbroken last (by omega) (by omega) t ht hBreaks

theorem unique {first' last' : Nat} (h : LineBlock s i first last)
    (h' : LineBlock s i first' last') : first = first' ∧ last = last' :=
  ⟨Nat.le_antisymm (h'.first_le_first h) (h.first_le_first h'),
    Nat.le_antisymm (h'.last_le_last h) (h.last_le_last h')⟩

/-- An edit keeps the block if there is no line feed in it, neither before nor after. -/
theorem setContent (h : LineBlock s i first last) (hToken : s[i]? = some t)
    (hOld : 10 ∉ t.content) (hNew : 10 ∉ c) : LineBlock (s.setContent i c) i first last := by
  have hOther : ∀ k, k ≠ i → (s.setContent i c)[k]? = s[k]? := by
    intro k hk
    rw [getElem?_setContent]
    simp [Ne.symm hk]
  have hBreaking : ∀ (k : Nat) x, s[k]? = some x → 10 ∈ x.content →
      (s.setContent i c)[k]? = some x := by
    intro k x hx hBreaks
    rw [hOther k ?_, hx]
    rintro rfl
    rw [hToken] at hx
    exact hOld (Option.some.inj hx ▸ hBreaks)
  refine ⟨h.first_le, h.le_last, (length_setContent s i c).symm ▸ h.last_lt, ?_, ?_, ?_⟩
  · intro k hFirst hLast x hx
    by_cases hk : k = i
    · rw [hk, getElem?_setContent, hToken, Option.map_some, if_pos rfl] at hx
      exact Option.some.inj hx ▸ hNew
    · rw [hOther k hk] at hx
      exact h.unbroken k hFirst hLast x hx
  · refine h.starts.imp_right ?_
    rintro ⟨x, hx, hBreaks⟩
    exact ⟨x, hBreaking _ x hx hBreaks, hBreaks⟩
  · rw [length_setContent]
    refine h.stops.imp_right ?_
    rintro ⟨x, hx, hBreaks⟩
    exact ⟨x, hBreaking _ x hx hBreaks, hBreaks⟩

end LineBlock

/-! ## The block of a preview -/

theorem breaksLine_iff : breaksLine t = true ↔ 10 ∈ t.content := decide_eq_true_iff

/-- What is taken in in front of a token. -/
theorem firstOfLine_spec (s : Stream) (i : Nat) :
    firstOfLine s i ≤ i ∧
      (∀ k, firstOfLine s i ≤ k → k < i → ∀ t, s[k]? = some t → 10 ∉ t.content) ∧
      (firstOfLine s i = 0 ∨ ∃ t, s[firstOfLine s i - 1]? = some t ∧ 10 ∈ t.content) := by
  induction i with
  | zero => exact ⟨Nat.le_refl 0, fun k _ hk => absurd hk (Nat.not_lt_zero k), Or.inl rfl⟩
  | succ i ih =>
      rw [firstOfLine]
      split
      · rename_i hBreaks
        obtain ⟨t, ht, hBreaks⟩ := (Option.any_eq_true _ _).mp hBreaks
        refine ⟨Nat.le_refl _, fun k hFirst hLast => ?_, Or.inr ⟨t, ht, breaksLine_iff.mp hBreaks⟩⟩
        omega
      · rename_i hGoesOn
        obtain ⟨hLe, hUnbroken, hStarts⟩ := ih
        refine ⟨Nat.le_succ_of_le hLe, fun k hFirst hLast t ht => ?_, hStarts⟩
        rcases Nat.lt_succ_iff_lt_or_eq.mp hLast with hk | rfl
        · exact hUnbroken k hFirst hk t ht
        · rw [ht] at hGoesOn
          exact mt breaksLine_iff.mpr hGoesOn

/-- What is taken in behind the first token. -/
theorem restOfLine_spec (hSome : s ≠ []) :
    restOfLine s < s.length ∧
      (∀ k, k < restOfLine s → ∀ t, s[k]? = some t → 10 ∉ t.content) ∧
      (restOfLine s + 1 = s.length ∨ ∃ t, s[restOfLine s]? = some t ∧ 10 ∈ t.content) := by
  induction s with
  | nil => exact absurd rfl hSome
  | cons x rest ih =>
      rw [restOfLine]
      split
      · rename_i hStops
        refine ⟨Nat.zero_lt_succ _, fun k hk => absurd hk (Nat.not_lt_zero k), ?_⟩
        rcases Bool.or_eq_true_iff.mp hStops with hNone | hBreaks
        · exact Or.inl (by rw [List.isEmpty_iff.mp hNone]; rfl)
        · exact Or.inr ⟨x, rfl, breaksLine_iff.mp hBreaks⟩
      · rename_i hGoesOn
        obtain ⟨hRest, hKeeps⟩ : rest ≠ [] ∧ 10 ∉ x.content := by
          simpa [← breaksLine_iff] using hGoesOn
        obtain ⟨hIn, hUnbroken, hStops⟩ := ih hRest
        refine ⟨Nat.succ_lt_succ hIn, fun k hk t ht => ?_, hStops.imp_left (congrArg (· + 1))⟩
        cases k with
        | zero =>
            obtain rfl := Option.some.inj ht
            exact hKeeps
        | succ k => exact hUnbroken k (Nat.lt_of_succ_lt_succ hk) t ht

theorem lineBlock_ofLine (h : i < s.length) :
    LineBlock s i (firstOfLine s i) (lastOfLine s i) := by
  obtain ⟨hFirst, hLead, hStarts⟩ := firstOfLine_spec s i
  have hSome : s.drop i ≠ [] := by simpa using h
  obtain ⟨hIn, hTrail, hStops⟩ := restOfLine_spec hSome
  have hLast : lastOfLine s i = i + restOfLine (s.drop i) := rfl
  rw [List.length_drop] at hIn hStops
  refine ⟨hFirst, by omega, by omega, ?_, hStarts, ?_⟩
  · intro k hk hk' x hx
    rcases Nat.lt_or_ge k i with hBefore | hBehind
    · exact hLead k hk hBefore x hx
    · refine hTrail (k - i) (by omega) x ?_
      rw [List.getElem?_drop, Nat.add_sub_cancel' hBehind, hx]
  · rw [List.getElem?_drop] at hStops
    exact hStops.imp_left fun hEnd => by omega

/-! ## Texts of blocks -/

/-- The tokens of a block. -/
def blockOf (s : Stream) (first last : Nat) : Stream := (s.drop first).take (last + 1 - first)

theorem eq_append_blockOf (s : Stream) (h : first ≤ last) :
    s = s.take first ++ blockOf s first last ++ s.drop (last + 1) := by
  have hRest : (s.drop first).drop (last + 1 - first) = s.drop (last + 1) := by
    rw [List.drop_drop, Nat.add_sub_cancel' (Nat.le_succ_of_le h)]
  rw [List.append_assoc, blockOf, ← hRest, List.take_append_drop, List.take_append_drop]

theorem setContent_natCast (s : Stream) (n : Nat) (c : Text) :
    s.setContent n c = s.modify n fun t => { t with content := c } :=
  if_neg (Int.not_lt.mpr (Int.natCast_nonneg n))

namespace LineBlock

theorem blockOf_setContent (h : LineBlock s i first last) (c : Text) :
    blockOf (s.setContent i c) first last =
      (blockOf s first last).setContent (i - first : Nat) c := by
  rw [setContent_natCast, setContent_natCast, blockOf, blockOf,
    List.drop_modify_of_ge _ _ _ _ h.first_le, List.take_modify]

theorem previewTexts_eq (h : LineBlock s i first last) (c : Text) :
    previewTexts s i c =
      ((blockOf s first last).source, (blockOf (s.setContent i c) first last).source) := by
  have hIn : i < s.length := Nat.lt_of_le_of_lt h.le_last h.last_lt
  rw [h.blockOf_setContent]
  obtain ⟨rfl, rfl⟩ := (lineBlock_ofLine hIn).unique h
  rfl

/-- An edit changes the block around its token, and nothing in front of it or behind. -/
theorem setContent_eq_append (h : LineBlock s i first last) (c : Text) :
    s.setContent i c =
      s.take first ++ blockOf (s.setContent i c) first last ++ s.drop (last + 1) := by
  have hFront : (s.setContent i c).take first = s.take first := by
    rw [setContent_natCast, List.take_modify]
    refine List.modify_eq_self ?_
    exact (List.length_take_le first s).trans h.first_le
  have hBehind : (s.setContent i c).drop (last + 1) = s.drop (last + 1) := by
    rw [setContent_natCast, List.drop_modify_of_lt]
    exact Nat.lt_succ_of_le h.le_last
  have hSplit := eq_append_blockOf (s.setContent i c) (h.first_le.trans h.le_last)
  rw [hFront, hBehind] at hSplit
  exact hSplit

end LineBlock

theorem source_append (s s' : Stream) : Stream.source (s ++ s') = s.source ++ s'.source :=
  List.flatMap_append

/-! ## A single fix -/

section Single

variable {fs : FileSet} {e : TokenEdit} {f : SourceFile} {t : Token} {d : Diagnostic} {x : Fix}
  {p : FixPlan} {r : Request}

/-- A fix of a single edit that is taken makes this edit, if the token holds what it is expected to
hold. -/
theorem apply_single (hFile : fs.get? e.pos.file = some f)
    (hToken : f.tokens[e.pos.token.toNat]? = some t)
    (hGuard : e.oldText = [] ∨ t.content = e.oldText) (hFixes : d.fixes = [x])
    (hPlan : (Offer.fix d x 0).plan? fs = some p) (hEdits : p.edits = [e]) (hTakes : r.takes p) :
    ∃ a f', (apply fs [d] r).2.1.applied = [a] ∧ a.id = p.id ∧
      (apply fs [d] r).1.get? e.pos.file = some f' ∧
      f'.tokens = f.tokens.setContent e.pos.token.toNat e.newText := by
  obtain ⟨c, hOnly, rfl, -⟩ := exists_lone hFixes hPlan
  have hFits : Fits fs c.plan.edits := by
    have hOnce : ([e].map (·.pos)).Nodup := List.nodup_singleton _
    rw [hEdits, fits_iff_of_nodup hOnce]
    exact List.forall_mem_singleton.mpr ⟨f, t, hFile, hToken, hGuard⟩
  have hApplied := appliedOf_only hOnly hFits hTakes
  obtain ⟨f', hFile', -, hTokens⟩ := get?_apply hFile [d] r
  refine ⟨recordOf fs c, f', ?_, rfl, hFile', ?_⟩
  · rw [(apply_eq fs [d] r).2.1, hApplied, List.map_singleton]
  · rw [hTokens, hApplied, editsOf, List.flatMap_singleton, hEdits, streamAfter_cons_of_eq rfl,
      streamAfter_of_forall_ne (fun _ h => absurd h List.not_mem_nil)]

end Single

/-! ## Previews and fixes -/

theorem preview?_eq {fs : FileSet} {e : TokenEdit} {f : SourceFile}
    (hFile : fs.get? e.pos.file = some f) (hIn : e.pos.token.toNat < f.tokens.length) :
    preview? (some fs) e =
      some ⟨previewLines (previewTexts f.tokens e.pos.token.toNat e.newText).1,
        previewLines (previewTexts f.tokens e.pos.token.toNat e.newText).2⟩ := by
  rw [preview?, Option.bind_some, hFile]
  exact if_pos hIn

/-- The preview of an edit shows the lines of the block around its token, before and after. A fix of
just this edit puts the one in the place of the other. If there is no line feed in the edit, the
lines after it are those that the same preview shows before it in the fixed file. -/
theorem preview_shows_fix {fs : FileSet} {e : TokenEdit} {f : SourceFile} {t : Token}
    (hFile : fs.get? e.pos.file = some f) (hToken : f.tokens[e.pos.token.toNat]? = some t)
    {before after : Text}
    (hTexts : previewTexts f.tokens e.pos.token.toNat e.newText = (before, after)) :
    LineBlock f.tokens e.pos.token.toNat (firstOfLine f.tokens e.pos.token.toNat)
        (lastOfLine f.tokens e.pos.token.toNat) ∧
      preview? (some fs) e = some ⟨previewLines before, previewLines after⟩ ∧
      ∃ pre post, f.tokens.source = pre ++ before ++ post ∧
        ∀ d x p r, d.fixes = [x] → (Offer.fix d x 0).plan? fs = some p → p.edits = [e] →
          (e.oldText = [] ∨ t.content = e.oldText) → r.takes p →
          ∃ a f', (apply fs [d] r).2.1.applied = [a] ∧ a.id = p.id ∧
            (apply fs [d] r).1.get? e.pos.file = some f' ∧
            f'.tokens.source = pre ++ after ++ post ∧
            (10 ∉ t.content → 10 ∉ e.newText →
              (preview? (some (apply fs [d] r).1) e).map (·.before) =
                some (previewLines after)) := by
  have hIn : e.pos.token.toNat < f.tokens.length := (List.getElem?_eq_some_iff.mp hToken).1
  have hBlock := lineBlock_ofLine hIn
  have hShown := preview?_eq hFile hIn
  rw [hTexts] at hShown
  rw [hBlock.previewTexts_eq] at hTexts
  obtain ⟨rfl, rfl⟩ := Prod.mk.inj hTexts
  refine ⟨hBlock, hShown, Stream.source (f.tokens.take (firstOfLine f.tokens e.pos.token.toNat)),
    Stream.source (f.tokens.drop (lastOfLine f.tokens e.pos.token.toNat + 1)), ?_, ?_⟩
  · rw [← source_append, ← source_append]
    exact congrArg Stream.source
      (eq_append_blockOf f.tokens (hBlock.first_le.trans hBlock.le_last))
  · intro d x p r hFixes hPlan hEdits hGuard hTakes
    obtain ⟨a, f', hApplied, hName, hFile', hTokens⟩ :=
      apply_single hFile hToken hGuard hFixes hPlan hEdits hTakes
    refine ⟨a, f', hApplied, hName, hFile', ?_, ?_⟩
    · rw [hTokens, ← source_append, ← source_append]
      exact congrArg Stream.source (hBlock.setContent_eq_append e.newText)
    · intro hOld hNew
      have hBlock' := hBlock.setContent hToken hOld hNew
      have hIn' : e.pos.token.toNat < f'.tokens.length := by
        rw [hTokens, length_setContent]
        exact hIn
      rw [preview?_eq hFile' hIn', hTokens, hBlock'.previewTexts_eq]
      rfl

/-- A file of three lines, with a call on the second. -/
def callFile : SourceFile :=
  { tokens := [{ content := "<?php\n" }, { content := "  " }, { content := "old" },
      { content := "()" }, { content := ";\n" }, { content := "end" }] }

theorem preview_shows_fix_callFile :
    let fs : FileSet := { files := #[callFile] }
    let e : TokenEdit := ⟨⟨0, 2⟩, "new", "old"⟩
    let fixed := (apply fs [offering ⟨0, 2⟩ "rename" [e]] { mode := .all }).1
    preview? (some fs) e = some ⟨["  old();"], ["  new();"]⟩ ∧
      ∃ pre post f', callFile.tokens.source = pre ++ "  old();\n" ++ post ∧
        fixed.get? 0 = some f' ∧ f'.tokens.source = pre ++ "  new();\n" ++ post ∧
        (preview? (some fixed) e).map (·.before) = some [Text.ofString "  new();"] := by
  intro fs e fixed
  have hToken : callFile.tokens[e.pos.token.toNat]? = some { content := "old" } := rfl
  have hTexts : previewTexts callFile.tokens e.pos.token.toNat e.newText =
      (Text.ofString "  old();\n", Text.ofString "  new();\n") := by decide
  have hFile : fs.get? e.pos.file = some callFile := rfl
  obtain ⟨-, hShown, pre, post, hSource, hFix⟩ := preview_shows_fix hFile hToken hTexts
  obtain ⟨a, f', -, -, hFile, hFixed, hAgain⟩ :=
    hFix (offering ⟨0, 2⟩ "rename" [e]) _ _ { mode := .all } rfl rfl rfl (Or.inr rfl) rfl
  exact ⟨hShown, pre, post, f', hSource, hFile, hFixed, hAgain (by decide) (by decide)⟩

end Report

end TokenLint
