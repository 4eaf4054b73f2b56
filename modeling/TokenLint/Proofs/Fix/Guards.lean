import TokenLint.Proofs.Fix.Frame

/-!
# What guards protect

An edit may name the text that it expects at its token. Fixes stay away from each other, so the text
in front of an edit is the original one as long as no earlier edit of the same fix has replaced it.
A fix may replace a token several times: then only its first edit of the token is held against the
original text, and each other one against the text of the edit before.

* `guard_of_fits`: what the text an edit expects was compared with.
* `replaced_once_iff`: when no token is replaced twice and every guard protects the original text.
-/

namespace TokenLint.Fixing

/-- What an edit expects is what the edits before it have left. -/
theorem Guarded.expects {content : Text} {before after : List TokenEdit} {e : TokenEdit}
    (h : Guarded content (before ++ e :: after)) (hGuard : e.oldText ≠ []) :
    before.foldl (fun _ e => e.newText) content = e.oldText := by
  induction before generalizing content with
  | nil => exact h.1.resolve_left hGuard
  | cons a before ih => exact ih h.2

/-- What an edit expects, compared with what the edits before it have left of the original text. -/
theorem guard_of_fits {fs : FileSet} {before after : List TokenEdit} {e : TokenEdit}
    (h : Fits fs (before ++ e :: after)) (hGuard : e.oldText ≠ []) :
    ∃ f t, fs.get? e.pos.file = some f ∧ f.tokens[e.pos.token.toNat]? = some t ∧
      contentAfter before e.pos.file e.pos.token.toNat t.content = e.oldText := by
  obtain ⟨f, t, hf, ht, hGuards⟩ := fits_iff.mp h e (by simp)
  have hOwn : concerns e.pos.file e.pos.token.toNat e = true := by simp [concerns]
  rw [List.filter_append, List.filter_cons_of_pos hOwn] at hGuards
  exact ⟨f, t, hf, ht, hGuards.expects hGuard⟩

/-! ## Edits of different tokens -/

/-- The token of an edit is there, with the text that the edit expects, if it expects one. -/
def Suits (fs : FileSet) (e : TokenEdit) : Prop :=
  ∃ f t, fs.get? e.pos.file = some f ∧ f.tokens[e.pos.token.toNat]? = some t ∧
    (e.oldText = [] ∨ t.content = e.oldText)

theorem concerns_eq_pos (e e' : TokenEdit) :
    concerns e.pos.file e.pos.token.toNat e' = decide (e'.pos = e.pos) := by
  by_cases hPos : e'.pos = e.pos
  · simp [concerns, hPos]
  · have hOwn : concerns e.pos.file e.pos.token.toNat e = true := by simp [concerns]
    rw [decide_eq_false hPos, ← Bool.not_eq_true]
    exact fun h => hPos (pos_eq_of_concerns h hOwn)

/-- Where no token is edited twice, every edit is held against the original text. -/
theorem fits_iff_of_nodup {fs : FileSet} {edits : List TokenEdit}
    (hOnce : (edits.map (·.pos)).Nodup) : Fits fs edits ↔ ∀ e ∈ edits, Suits fs e := by
  rw [fits_iff]
  refine forall₂_congr fun e he => ?_
  have hAlone : edits.filter (concerns e.pos.file e.pos.token.toNat) = [e] := by
    simp only [funext (concerns_eq_pos e)]
    exact Table.filter_eq_singleton_of_nodup_map hOnce he
  simp [hAlone, Guarded, Suits]

/-- Fixes that stay away from each other replace no token twice if none of them does. -/
theorem nodup_editsOf_iff {cs : List Candidate}
    (hApart : cs.Pairwise fun c d => Apart c.plan.edits d.plan.edits) :
    ((editsOf cs).map (·.pos)).Nodup ↔ ∀ c ∈ cs, (c.plan.edits.map (·.pos)).Nodup := by
  rw [editsOf, List.map_flatMap, List.nodup_flatMap]
  refine and_iff_left (hApart.imp fun {c d} h => ?_)
  intro p hp hp'
  obtain ⟨e, he, rfl⟩ := List.mem_map.mp hp
  obtain ⟨e', he', hSame⟩ := List.mem_map.mp hp'
  exact h e he e' he' hSame.symm

/-! ## Applied fixes -/

/-- Applied fixes stay away from each other, and an edit of an applied fix that expects a text has
found it: the original text of its token, or what an earlier edit of the same fix has left there.
So no token is replaced twice and every guard protects the original text exactly if no applied fix
edits a token twice. -/
theorem replaced_once_iff (fs : FileSet) (ds : List Diagnostic) (r : Request) :
    (apply fs ds r).2.1.applied = (appliedOf fs ds r).map (recordOf fs) ∧
      ((appliedOf fs ds r).Pairwise fun c d =>
        ∀ e ∈ c.plan.edits, ∀ e' ∈ d.plan.edits, e.pos ≠ e'.pos) ∧
      (∀ c ∈ appliedOf fs ds r, ∀ (before after : List TokenEdit) (e : TokenEdit),
        c.plan.edits = before ++ e :: after → e.oldText ≠ [] →
          ∃ f t, fs.get? e.pos.file = some f ∧ f.tokens[e.pos.token.toNat]? = some t ∧
            contentAfter before e.pos.file e.pos.token.toNat t.content = e.oldText) ∧
      ((((editsOf (appliedOf fs ds r)).map (·.pos)).Nodup ∧
          ∀ c ∈ appliedOf fs ds r, ∀ e ∈ c.plan.edits, Suits fs e) ↔
        ∀ c ∈ appliedOf fs ds r, (c.plan.edits.map (·.pos)).Nodup) := by
  obtain ⟨-, hApplied, -⟩ := apply_eq fs ds r
  have hApart := apart_appliedOf fs ds r
  have hFits : ∀ c ∈ appliedOf fs ds r, Fits fs c.plan.edits :=
    fun c hc => ((compatible_appliedFrom (holds_empty fs) _).accepts c hc).1
  refine ⟨hApplied, hApart, ?_, ?_⟩
  · intro c hc before after e hEdits hGuard
    exact guard_of_fits (hEdits ▸ hFits c hc) hGuard
  · rw [nodup_editsOf_iff hApart, and_iff_left_iff_imp]
    intro hOnce c hc
    exact (fits_iff_of_nodup (hOnce c hc)).mp (hFits c hc)

/-- A fix that renames a token and then renames it once more is applied. Its second guard has never
seen the original text. -/
theorem replaced_once_iff_twice :
    let ds := [offering ⟨0, 0⟩ "twice" [⟨⟨0, 0⟩, "one", "x"⟩, ⟨⟨0, 0⟩, "two", "one"⟩]]
    (appliedOf twoFiles ds { mode := .all }).map (·.plan.edits.map (·.pos)) = [[⟨0, 0⟩, ⟨0, 0⟩]] ∧
      ¬ (((editsOf (appliedOf twoFiles ds { mode := .all })).map (·.pos)).Nodup ∧
        ∀ c ∈ appliedOf twoFiles ds { mode := .all }, ∀ e ∈ c.plan.edits, Suits twoFiles e) := by
  intro ds
  have hTwice : (appliedOf twoFiles ds { mode := .all }).map (·.plan.edits.map (·.pos)) =
      [[⟨0, 0⟩, ⟨0, 0⟩]] := by
    rw [appliedOf_of_pairwise (by decide +kernel)]
    decide +kernel
  refine ⟨hTwice, ?_⟩
  rintro ⟨hDistinct, hSuits⟩
  have hOnce := (replaced_once_iff twoFiles ds { mode := .all }).2.2.2.mp ⟨hDistinct, hSuits⟩
  have hMem : [⟨0, 0⟩, ⟨0, 0⟩] ∈ (appliedOf twoFiles ds { mode := .all }).map
      (·.plan.edits.map (·.pos)) := by
    rw [hTwice]
    exact List.mem_singleton_self _
  obtain ⟨c, hc, hEdits⟩ := List.mem_map.mp hMem
  have hNodup := hOnce c hc
  rw [hEdits] at hNodup
  exact absurd hNodup (by decide)

end TokenLint.Fixing
