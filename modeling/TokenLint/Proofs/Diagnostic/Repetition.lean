import TokenLint.Proofs.Run.Reference
import TokenLint.Proofs.Text.Decimal

/-!
# Removing repetitions from a bag

Two diagnostics report the same finding if a rule says the same, by its code, about the same place.
A bag does not compare rule, code and place. It compares one text that is made of them: rule and
code joined by a dot, then the place. The place can be read back from this text. Rule and code
cannot, because a rule without a name adds no dot, a dot may stand in both, and a code that is empty
is written as a word. So a finding can be taken for the repetition of another one.

* `mark_eq_iff`: what the text tells.
* `qualified_eq_iff`: rules and codes that are not told apart.
* `firstBy_eq_firstBy_iff`: when a key that tells less leaves the same elements.
* `dedup_agrees_iff`: when a bag loses repetitions only.
-/

namespace TokenLint

/-! ## Keys that tell less than others -/

section Keys

variable {α β γ : Type} [DecidableEq β] [DecidableEq γ] {fine : α → β} {coarse : α → γ}

/-- A key that tells less leaves the first elements of the other key if and only if it tells apart
those of a list that the other key tells apart. -/
theorem firstBy_eq_firstBy_iff (hCoarse : ∀ x y, fine x = fine y → coarse x = coarse y)
    {xs : List α} :
    firstBy coarse [] xs = firstBy fine [] xs ↔
      ∀ x ∈ xs, ∀ y ∈ xs, coarse x = coarse y → fine x = fine y := by
  constructor
  · intro h x hx y hy hKey
    -- the kept elements of the two keys are different ones, unless the keys are the same
    obtain ⟨x', hx', hFirst⟩ := exists_mem_firstBy hx (List.not_mem_nil (a := fine x))
    obtain ⟨y', hy', hSecond⟩ := exists_mem_firstBy hy (List.not_mem_nil (a := fine y))
    have hSame : coarse x' = coarse y' := by
      rw [hCoarse _ _ hFirst, hCoarse _ _ hSecond, hKey]
    have hNodup : ((firstBy fine [] xs).map coarse).Nodup := h ▸ nodup_map_firstBy [] xs
    rw [← hFirst, ← hSecond, List.inj_on_of_nodup_map hNodup hx' hy' hSame]
  · intro h
    induction xs using List.reverseRecOn with
    | nil => rfl
    | append_singleton xs x ih =>
        have hOld : ∀ y ∈ xs, ∀ z ∈ xs, coarse y = coarse z → fine y = fine z := fun y hy z hz =>
          h y (List.mem_append_left _ hy) z (List.mem_append_left _ hz)
        have hSeen : coarse x ∈ xs.map coarse ↔ fine x ∈ xs.map fine := by
          simp only [List.mem_map]
          refine exists_congr fun y => and_congr_right fun hy => ⟨?_, hCoarse y x⟩
          exact h y (List.mem_append_left _ hy) x (by simp)
        rw [firstBy_concat, firstBy_concat, ih hOld]
        simp only [hSeen]

end Keys

/-! ## Rules and codes -/

namespace Code

/-- What stands in front of a code because of its rule. -/
def front (rule : Text) : Text := if rule = [] then [] else rule ++ [46]

theorem qualified_eq (c : Code) (rule : Text) : qualified c rule = front rule ++ shown c := by
  unfold qualified front
  split
  · rfl
  · rw [List.append_assoc]
    rfl

variable {c c' : Code} {rule rule' : Text}

/-- Rules and codes are written alike if the other code begins with what a rule has more. -/
theorem qualified_eq_iff :
    qualified c rule = qualified c' rule' ↔
      (∃ moved, front rule' = front rule ++ moved ∧ shown c = moved ++ shown c') ∨
        ∃ moved, front rule = front rule' ++ moved ∧ shown c' = moved ++ shown c := by
  rw [qualified_eq, qualified_eq]
  exact List.append_eq_append_iff

theorem front_injective (h : front rule = front rule') : rule = rule' := by
  have hSome : ∀ r : Text, r ++ [46] ≠ [] := fun r => List.append_ne_nil_of_right_ne_nil r (by simp)
  unfold front at h
  split at h <;> split at h
  · rename_i hRule hRule'
    rw [hRule, hRule']
  · exact absurd h.symm (hSome rule')
  · exact absurd h (hSome rule)
  · exact List.append_cancel_right h

theorem dot_mem_of_front {start moved : Text} (h : front rule = start ++ moved)
    (hMoved : moved ≠ []) : 46 ∈ moved := by
  unfold front at h
  split at h
  · exact absurd (List.append_eq_nil_iff.mp h.symm).2 hMoved
  · have hLast : (rule ++ [46]).getLast? = (start ++ moved).getLast? := congrArg _ h
    rw [List.getLast?_concat, List.getLast?_append_of_ne_nil _ hMoved] at hLast
    exact List.mem_of_getLast? hLast.symm

/-- A code without a dot that is not the word for the empty code. -/
structure Plain (c : Code) : Prop where
  no_dot : 46 ∉ c
  ne_unknown : c ≠ Text.ofString "unknown"

theorem Plain.dot_notMem_shown (h : Plain c) : 46 ∉ shown c := by
  unfold shown
  split
  · decide
  · exact h.no_dot

theorem Plain.shown_injective (h : Plain c) (h' : Plain c') (hShown : shown c = shown c') :
    c = c' := by
  have hUnknown := h.ne_unknown
  have hUnknown' := h'.ne_unknown
  unfold shown at hShown
  split at hShown <;> split at hShown <;> simp_all

/-- What begins a plain code belongs to no rule. -/
theorem Plain.eq_of_front_eq (h : Plain c) (h' : Plain c') {moved : Text}
    (hFront : front rule' = front rule ++ moved) (hShown : shown c = moved ++ shown c') :
    rule = rule' ∧ c = c' := by
  have hMoved : moved = [] := by
    by_contra hMoved
    exact h.dot_notMem_shown (hShown ▸ List.mem_append_left _ (dot_mem_of_front hFront hMoved))
  subst hMoved
  rw [List.append_nil] at hFront
  exact ⟨front_injective hFront.symm, h.shown_injective h' hShown⟩

/-- Of plain codes, the last dot is the one behind the rule. -/
theorem Plain.qualified_injective (h : Plain c) (h' : Plain c')
    (hQualified : qualified c rule = qualified c' rule') : rule = rule' ∧ c = c' := by
  rcases qualified_eq_iff.mp hQualified with ⟨moved, hFront, hShown⟩ | ⟨moved, hFront, hShown⟩
  · exact h.eq_of_front_eq h' hFront hShown
  · exact (h'.eq_of_front_eq h hFront hShown).imp Eq.symm Eq.symm

end Code

/-! ## What a bag takes for a repetition -/

/-- The finding that a diagnostic reports: the rule, its code, and the place. -/
def Diagnostic.finding (d : Diagnostic) : Text × Code × Pos := (d.rule, d.code, d.primary)

namespace Bag

/-- The place, and rule and code as far as they are told apart, can be read back from a mark. -/
theorem mark_eq_iff {d e : Diagnostic} :
    mark d = mark e ↔ d.primary = e.primary ∧ d.qualifiedCode = e.qualifiedCode := by
  have hMark : ∀ d : Diagnostic, mark d =
      ((d.qualifiedCode ++ 58 :: Text.ofNat d.primary.file.toNat) ++ [58]) ++
        35 :: Text.ofNat d.primary.token.toNat := by
    intro d
    have hBetween : Text.ofString ":#" = [58, 35] := by decide
    simp [mark, Pos.render, hBetween]
  constructor
  · intro h
    rw [hMark, hMark] at h
    obtain ⟨hFront, hToken⟩ := Text.append_ofNat_inj (by decide) h
    obtain ⟨hCode, hFile⟩ := Text.append_ofNat_inj (by decide) (List.append_cancel_right hFront)
    have hPlace : d.primary = e.primary := by
      rw [Pos.mk.injEq]
      exact ⟨UInt32.toNat_inj.mp hFile, UInt32.toNat_inj.mp hToken⟩
    exact ⟨hPlace, hCode⟩
  · rintro ⟨hPlace, hCode⟩
    rw [mark, mark, hPlace, hCode]

theorem mark_eq_of_finding_eq {d e : Diagnostic} (h : d.finding = e.finding) : mark d = mark e := by
  simp only [Diagnostic.finding, Prod.mk.injEq] at h
  obtain ⟨hRule, hCode, hPlace⟩ := h
  have hQualified : d.qualifiedCode = e.qualifiedCode := by
    rw [Diagnostic.qualifiedCode, Diagnostic.qualifiedCode, hRule, hCode]
  exact mark_eq_iff.mpr ⟨hPlace, hQualified⟩

theorem firstOfEach_eq_firstBy (seen : List Text) (ds : List Diagnostic) :
    firstOfEach seen ds = firstBy mark seen ds := by
  induction ds generalizing seen with
  | nil => rfl
  | cons d ds ih =>
      rw [firstOfEach, firstBy, ih, ih]
      by_cases hSeen : mark d ∈ seen <;> simp only [hSeen, if_true, if_false]

theorem dedup_items (b : Bag) : b.dedup.items.toList = firstBy mark [] b.items.toList :=
  firstOfEach_eq_firstBy [] b.items.toList

/-- A diagnostic is removed if and only if one before it has the same place, and a rule and code
that are written alike. So nothing but repetitions is removed, and no repetition stays, if and only
if at each place rules and codes that are written alike are the same. It is enough that the codes
are plain, whatever the rules are called. -/
theorem dedup_agrees_iff (b : Bag) :
    b.dedup.items.toList =
        withoutRepetitions (fun d => (d.primary, d.qualifiedCode)) b.items.toList ∧
      (b.dedup.items.toList = withoutRepetitions Diagnostic.finding b.items.toList ↔
        ∀ d ∈ b.items, ∀ e ∈ b.items, d.primary = e.primary →
          d.qualifiedCode = e.qualifiedCode → d.rule = e.rule ∧ d.code = e.code) ∧
      ((∀ d ∈ b.items, Code.Plain d.code) →
        b.dedup.items.toList = withoutRepetitions Diagnostic.finding b.items.toList) := by
  have hExact : b.dedup.items.toList = withoutRepetitions Diagnostic.finding b.items.toList ↔
      ∀ d ∈ b.items, ∀ e ∈ b.items, d.primary = e.primary →
        d.qualifiedCode = e.qualifiedCode → d.rule = e.rule ∧ d.code = e.code := by
    rw [dedup_items, ← firstBy_eq_withoutRepetitions,
      firstBy_eq_firstBy_iff fun d e => mark_eq_of_finding_eq]
    simp only [Array.mem_toList_iff, mark_eq_iff, Diagnostic.finding, Prod.mk.injEq, and_imp]
    refine forall₂_congr fun d _ => forall₂_congr fun e _ => forall₂_congr fun hPlace _ => ?_
    simp only [hPlace, and_true]
  refine ⟨?_, hExact, fun hPlain => hExact.mpr fun d hd e he _ hQualified => ?_⟩
  · have hPairs : ∀ d e : Diagnostic, mark d = mark e →
        (d.primary, d.qualifiedCode) = (e.primary, e.qualifiedCode) := fun d e h => by
      rw [Prod.mk.injEq]
      exact mark_eq_iff.mp h
    rw [dedup_items, ← firstBy_eq_withoutRepetitions]
    refine ((firstBy_eq_firstBy_iff hPairs).mpr fun d _ e _ h => ?_).symm
    rw [Prod.mk.injEq] at h
    exact mark_eq_iff.mpr h
  · exact (hPlain d hd).qualified_injective (hPlain e he) hQualified

/-- Two findings at one place. What the name of the first rule lacks, its code has. -/
def movedDot : Bag :=
  { items := #[{ rule := "A", code := Text.ofString "b.c" },
      { rule := "A.b", code := Text.ofString "c" }] }

/-- The second finding is lost, although neither its rule nor its code is that of the first. -/
theorem dedup_agrees_iff_movedDot :
    movedDot.dedup.items.size = 1 ∧
      (withoutRepetitions Diagnostic.finding movedDot.items.toList).length = 2 ∧
      movedDot.dedup.items.toList ≠
        withoutRepetitions Diagnostic.finding movedDot.items.toList := by
  refine ⟨by decide, by decide, fun hAgrees => ?_⟩
  have hSame := (dedup_agrees_iff movedDot).2.1.mp hAgrees movedDot.items[0] (Array.getElem_mem _)
    movedDot.items[1] (Array.getElem_mem _) rfl (by decide)
  exact absurd hSame.1 (by decide)

/-- A crash of a rule is written like a finding of another one. -/
example : Code.qualified Code.sniffPanic "A" = Code.qualified "sniffPanic" "A.internal" := by
  decide

end Bag

end TokenLint
