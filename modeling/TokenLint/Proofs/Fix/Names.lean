import TokenLint.Proofs.Fix.Arrival
import TokenLint.Proofs.Text.Decimal

/-!
# Names of candidates

Of the fixes on offer under one name the first becomes a candidate, and each of the others leaves a
remark. A fix without a name gets one that is made of the code of its diagnostic, the path shown for
the file, the token, and the number of the fix. The two numbers can be read back from such a name.
Code and path cannot: they are only joined by a dash, and of a long path the last element is shown.
So fixes of different diagnostics can be given the same name, and then one of them is lost.

* `sifts_gather`: the candidates are the first offers of each name.
* `generatedId_eq_iff`: what a made name tells.
* `made_names_distinct_iff`: when no fix is lost because of the name made for it.
-/

namespace TokenLint

namespace Fixing

/-! ## The first offer of each name -/

/-- The candidate that an offer stands for, but for its number. -/
def Offer.candidate? (fs : FileSet) : Offer → Option Candidate
  | .nothing _ => none
  | .fix d f index => ((Offer.fix d f index).plan? fs).map fun p => ⟨d, p, 0⟩

/-- The first offers of each name have become candidates, and all others have left a remark. -/
structure Sifts (fs : FileSet) (os : List Offer) (g : Gathered) : Prop where
  unnumbered : g.unnumbered = firstBy (·.plan.id) [] (os.filterMap (Offer.candidate? fs))
  count : g.candidates.size + g.skipped.length = os.length

theorem sifts_empty (fs : FileSet) : Sifts fs [] {} where
  unnumbered := rfl
  count := rfl

namespace Sifts

variable {fs : FileSet} {os : List Offer} {g : Gathered}

theorem mem_names_iff (h : Sifts fs os g) {n : Text} :
    n ∈ g.names ↔ n ∈ (os.filterMap (Offer.candidate? fs)).map (·.plan.id) := by
  rw [Gathered.names_eq, h.unnumbered]
  exact mem_map_firstBy_iff

theorem nodup_names (h : Sifts fs os g) : g.names.Nodup := by
  rw [Gathered.names_eq, h.unnumbered]
  exact nodup_map_firstBy _ _

theorem skip (h : Sifts fs os g) {o : Offer} (s : Skipped)
    (hSeen : ∀ c, o.candidate? fs = some c → c.plan.id ∈ g.names) :
    Sifts fs (os ++ [o]) { g with skipped := g.skipped ++ [s] } where
  unnumbered := by
    show g.unnumbered = _
    rw [List.filterMap_append, h.unnumbered]
    cases hCandidate : o.candidate? fs with
    | none => simp [hCandidate]
    | some c =>
        rw [List.filterMap_cons_some hCandidate, List.filterMap_nil, firstBy_concat,
          if_pos (h.mem_names_iff.mp (hSeen c hCandidate)), List.append_nil]
  count := by
    rw [List.length_append, List.length_append, ← h.count]
    exact (Nat.add_assoc _ _ _).symm

theorem push (h : Sifts fs os g) {o : Offer} {d : Diagnostic} {p : FixPlan}
    (hCandidate : o.candidate? fs = some ⟨d, p, 0⟩) (hNew : p.id ∉ g.names) :
    Sifts fs (os ++ [o]) { g with candidates := g.candidates.push ⟨d, p, g.candidates.size⟩ } where
  unnumbered := by
    have hOld := h.unnumbered
    rw [Gathered.unnumbered] at hOld
    rw [Gathered.unnumbered, Array.toList_push, List.map_append, hOld, List.filterMap_append,
      List.filterMap_cons_some hCandidate, List.filterMap_nil, firstBy_concat,
      if_neg (mt h.mem_names_iff.mpr hNew)]
    rfl
  count := by
    rw [Array.size_push, List.length_append, ← h.count]
    exact Nat.add_right_comm _ _ _

theorem plan (h : Sifts fs os g) {d : Diagnostic} {f : Fix} {p : FixPlan} {i : Nat}
    (hResolve : f.resolve (some fs) = .ok p) :
    Sifts fs (os ++ [.fix d f i]) (gatherPlan fs d g (p, i)) := by
  cases hPlan : (Offer.fix d f i).plan? fs with
  | none =>
      rw [(gatherPlan_of_none hResolve hPlan g).2]
      refine h.skip _ fun c hc => ?_
      simp [Offer.candidate?, hPlan] at hc
  | some q =>
      have hCandidate : (Offer.fix d f i).candidate? fs = some ⟨d, q, 0⟩ := by
        simp [Offer.candidate?, hPlan]
      rw [gatherPlan_of_some hResolve hPlan]
      split
      · rename_i hSeen
        refine h.skip _ fun c hc => ?_
        obtain rfl := Option.some.inj (hCandidate.symm.trans hc)
        exact hSeen
      · rename_i hNew
        exact h.push hCandidate hNew

end Sifts

theorem sifts_gather (fs : FileSet) (ds : List Diagnostic) :
    Sifts fs (ds.flatMap (offersOf fs)) (gather fs ds) := by
  refine gather_induction ?_ ?_ (sifts_empty fs) ds
  · intro os g d f e h _ _
    refine h.skip _ fun c hc => ?_
    cases hc
  · intro os g d f i p h hResolve
    exact h.plan hResolve

/-! ## Made names -/

/-- What a made name tells about the diagnostic besides its token. -/
def labelOf (fs : FileSet) (d : Diagnostic) : Text :=
  Code.shown d.code ++ "-" ++ fs.pathOf d.primary.file .auto

theorem labelOf_eq_iff {fs : FileSet} {d d' : Diagnostic} (h : d.code = d'.code) :
    labelOf fs d = labelOf fs d' ↔
      fs.pathOf d.primary.file .auto = fs.pathOf d'.primary.file .auto := by
  rw [labelOf, labelOf, h]
  exact List.append_right_inj _

/-- The token and the number of the fix can be read back from a made name. -/
theorem generatedId_eq_iff {fs : FileSet} {d d' : Diagnostic} {i i' : Nat} :
    generatedId fs d i = generatedId fs d' i' ↔
      labelOf fs d = labelOf fs d' ∧ d.primary.token = d'.primary.token ∧ i = i' := by
  have hDash : (("-" : String) : Text) = [45] := by decide
  have hName : ∀ (d : Diagnostic) (i : Nat), generatedId fs d i =
      (labelOf fs d ++ 45 :: Text.ofNat d.primary.token.toNat) ++ 45 :: Text.ofNat i := by
    intro d i
    simp [generatedId, labelOf, hDash]
  constructor
  · intro h
    rw [hName, hName] at h
    obtain ⟨hRest, hIndex⟩ := Text.append_ofNat_inj (by decide) h
    obtain ⟨hLabel, hToken⟩ := Text.append_ofNat_inj (by decide) hRest
    exact ⟨hLabel, UInt32.toNat_inj.mp hToken, hIndex⟩
  · rintro ⟨hLabel, hToken, rfl⟩
    rw [hName, hName, hLabel, hToken]

/-- A fix that has edits, but no name. -/
structure Nameless (f : Fix) : Prop where
  built : f.builder = none
  name : f.plan.id = []
  edits : f.plan.edits ≠ []

/-- The fixes of a diagnostic under made names. -/
def underMadeNames (fs : FileSet) (d : Diagnostic) : List Candidate :=
  d.fixes.zipIdx.map fun p => ⟨d, { p.1.plan with id := generatedId fs d p.2 }, 0⟩

section Nameless

variable {fs : FileSet}

theorem Nameless.resolve_eq {f : Fix} (h : Nameless f) (files : Option FileSet) :
    f.resolve files = .ok f.plan := by
  rw [Fix.resolve, h.built]

theorem Nameless.candidate?_eq {f : Fix} (h : Nameless f) (d : Diagnostic) (i : Nat) :
    (Offer.fix d f i).candidate? fs =
      some ⟨d, { f.plan with id := generatedId fs d i }, 0⟩ := by
  simp [Offer.candidate?, Offer.plan?, h.resolve_eq, h.name, h.edits]

theorem offersOf_of_nameless {d : Diagnostic} (h : ∀ f ∈ d.fixes, Nameless f) :
    offersOf fs d = d.fixes.zipIdx.map fun p => .fix d p.1 p.2 := by
  refine if_pos (List.all_eq_true.mpr fun f hf => ?_)
  rw [(h f hf).resolve_eq]
  rfl

theorem candidates_of_nameless {d : Diagnostic} (h : ∀ f ∈ d.fixes, Nameless f) :
    (offersOf fs d).filterMap (Offer.candidate? fs) = underMadeNames fs d := by
  rw [offersOf_of_nameless h, List.filterMap_map, underMadeNames]
  refine List.filterMap_eq_map_iff_forall_eq_some.mpr fun p hp => ?_
  exact (h p.1 (List.fst_mem_of_mem_zipIdx hp)).candidate?_eq d p.2

theorem names_underMadeNames (fs : FileSet) (d : Diagnostic) :
    (underMadeNames fs d).map (·.plan.id) =
      (List.range d.fixes.length).map (generatedId fs d) := by
  rw [underMadeNames, List.map_map, List.range_eq_range', ← List.zipIdx_map_snd, List.map_map]
  rfl

/-- Names made for two diagnostics are different unless both have fixes, at tokens of one number,
and the same label. -/
theorem disjoint_names_iff {d d' : Diagnostic} :
    List.Disjoint ((underMadeNames fs d).map (·.plan.id))
        ((underMadeNames fs d').map (·.plan.id)) ↔
      (d.fixable = true → d'.fixable = true →
        d.primary.token = d'.primary.token → labelOf fs d ≠ labelOf fs d') := by
  have hSome : ∀ d : Diagnostic, d.fixable = true ↔ 0 < d.fixes.length := by
    intro d
    simp [Diagnostic.fixable, List.length_pos_iff]
  rw [names_underMadeNames, names_underMadeNames, hSome, hSome]
  constructor
  · intro hDisjoint hd hd' hToken hLabel
    refine hDisjoint (List.mem_map.mpr ⟨0, List.mem_range.mpr hd, rfl⟩) ?_
    rw [generatedId_eq_iff.mpr ⟨hLabel, hToken, rfl⟩]
    exact List.mem_map.mpr ⟨0, List.mem_range.mpr hd', rfl⟩
  · intro hApart n hn hn'
    obtain ⟨i, hi, rfl⟩ := List.mem_map.mp hn
    obtain ⟨j, hj, hName⟩ := List.mem_map.mp hn'
    obtain ⟨hLabel, hToken, -⟩ := generatedId_eq_iff.mp hName
    have hd := Nat.zero_lt_of_lt (List.mem_range.mp hi)
    have hd' := Nat.zero_lt_of_lt (List.mem_range.mp hj)
    exact hApart hd hd' hToken.symm hLabel.symm

theorem nodup_names_underMadeNames_iff {ds : List Diagnostic} :
    ((ds.flatMap (underMadeNames fs)).map (·.plan.id)).Nodup ↔
      (ds.filter (·.fixable)).Pairwise fun d d' =>
        d.primary.token = d'.primary.token → labelOf fs d ≠ labelOf fs d' := by
  rw [List.map_flatMap, List.nodup_flatMap, List.pairwise_filter]
  have hEach : ∀ d ∈ ds, ((underMadeNames fs d).map (·.plan.id)).Nodup := by
    intro d _
    rw [names_underMadeNames]
    refine List.nodup_range.map fun i j h => ?_
    exact (generatedId_eq_iff.mp h).2.2
  rw [and_iff_right hEach]
  exact List.Pairwise.iff fun _ _ => disjoint_names_iff

theorem filterMap_offers_of_nameless {ds : List Diagnostic}
    (h : ∀ d ∈ ds, ∀ f ∈ d.fixes, Nameless f) :
    (ds.flatMap (offersOf fs)).filterMap (Offer.candidate? fs) =
      ds.flatMap (underMadeNames fs) := by
  rw [List.filterMap_flatMap]
  exact List.flatMap_congr fun d hd => candidates_of_nameless (h d hd)

theorem length_offers_of_nameless {ds : List Diagnostic}
    (h : ∀ d ∈ ds, ∀ f ∈ d.fixes, Nameless f) :
    (ds.flatMap (offersOf fs)).length = (ds.flatMap (underMadeNames fs)).length := by
  rw [List.length_flatMap, List.length_flatMap]
  refine congrArg List.sum (List.map_congr_left fun d hd => ?_)
  rw [offersOf_of_nameless (h d hd), underMadeNames, List.length_map, List.length_map]

end Nameless

/-- Of fixes without names, the first of each made name becomes a candidate. So they have different
names and none is skipped if and only if no two diagnostics with fixes, at tokens of one number, have
the same label: the code and the path shown for the file, joined by a dash. -/
theorem made_names_distinct_iff {fs : FileSet} {ds : List Diagnostic}
    (h : ∀ d ∈ ds, ∀ f ∈ d.fixes, Nameless f) :
    (gather fs ds).unnumbered = firstBy (·.plan.id) [] (ds.flatMap (underMadeNames fs)) ∧
      ((((ds.flatMap (underMadeNames fs)).map (·.plan.id)).Nodup ∧
          (gather fs ds).unnumbered = ds.flatMap (underMadeNames fs) ∧
          (gather fs ds).skipped = []) ↔
        (ds.filter (·.fixable)).Pairwise fun d d' =>
          d.primary.token = d'.primary.token → labelOf fs d ≠ labelOf fs d') := by
  obtain ⟨hCandidates, hCount⟩ := sifts_gather fs ds
  rw [filterMap_offers_of_nameless h] at hCandidates
  rw [length_offers_of_nameless h] at hCount
  refine ⟨hCandidates, ?_⟩
  rw [← nodup_names_underMadeNames_iff, and_iff_left_iff_imp]
  intro hNodup
  rw [firstBy_eq_self_iff.mpr hNodup] at hCandidates
  refine ⟨hCandidates, List.eq_nil_of_length_eq_zero ?_⟩
  have hSize : (gather fs ds).candidates.size = (ds.flatMap (underMadeNames fs)).length := by
    rw [← hCandidates, Gathered.unnumbered, List.length_map, Array.length_toList]
  omega

/-- Two files with long paths and the same last element. -/
def twoPackages : FileSet :=
  { files := #[{ path := "/srv/projects/typo3/vendor/first/Classes/Foo.php",
                 tokens := [{ content := "x" }] },
      { path := "/srv/projects/typo3/vendor/second/Classes/Foo.php",
        tokens := [{ content := "x" }] }] }

/-- The same finding at the first tokens of two files that are both shown as `Foo.php`: the second
fix is given the name of the first one, and is lost. -/
theorem made_names_distinct_iff_twoPackages :
    let ds := [offering ⟨0, 0⟩ [] [⟨⟨0, 0⟩, "y", "x"⟩], offering ⟨1, 0⟩ [] [⟨⟨1, 0⟩, "y", "x"⟩]]
    (ds.map fun d => (d.code, d.primary)).Nodup ∧ (∀ d ∈ ds, ∀ f ∈ d.fixes, Nameless f) ∧
      ¬ (((ds.flatMap (underMadeNames twoPackages)).map (·.plan.id)).Nodup ∧
        (gather twoPackages ds).unnumbered = ds.flatMap (underMadeNames twoPackages) ∧
        (gather twoPackages ds).skipped = []) := by
  intro ds
  have hNameless : ∀ d ∈ ds, ∀ f ∈ d.fixes, Nameless f := by
    simp only [ds, offering, List.forall_mem_cons, List.not_mem_nil, false_imp_iff, implies_true,
      and_true]
    exact ⟨⟨rfl, rfl, List.cons_ne_nil _ _⟩, ⟨rfl, rfl, List.cons_ne_nil _ _⟩⟩
  refine ⟨by decide, hNameless, ?_⟩
  rintro ⟨hDistinct, hKept, hNoneSkipped⟩
  have hApart := (made_names_distinct_iff hNameless).2.mp ⟨hDistinct, hKept, hNoneSkipped⟩
  have hCode : ds[0].code = ds[1].code := rfl
  refine List.rel_of_pairwise_cons hApart List.mem_cons_self rfl ?_
  exact (labelOf_eq_iff hCode).mpr (by decide +kernel)

/-- Other paths, other codes, and still the same label. -/
example :
    let fs : FileSet := { files := #[{ path := "c" }, { path := "b-c" }] }
    labelOf fs { code := Text.ofString "a-b", primary := ⟨0, 0⟩ } =
      labelOf fs { code := Text.ofString "a", primary := ⟨1, 0⟩ } := by
  decide +kernel

end Fixing

end TokenLint
