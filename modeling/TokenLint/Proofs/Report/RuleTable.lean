import Mathlib.Data.List.Forall2
import Mathlib.Data.List.Induction
import TokenLint.Proofs.Sorting
import TokenLint.Proofs.Table
import TokenLint.Report

/-!
# The rule table of the log

The log names the rule of each result, and its driver has a table of these rules. A description
replaces one that was there before, so each rule has one row, with what the last diagnostic of the
rule says, and sorting makes the identifiers increase.

* `lookup_descriptions`: the description of a rule.
* `pairwise_sarifRules`, `mem_ids_sarifRules`, `exists_last_of_mem_sarifRules`: the rows of the table.
* `rule_table_matches`: the table and the results, as they stand in the log.
-/

namespace TokenLint

/-! ## Reading JSON -/

namespace Json

/-- The value of a member of an object. -/
def member? (key : Text) : Json → Option Json
  | .object members => members.lookup key
  | _ => none

/-- The value at the end of a path of members. -/
def at? (j : Json) : List Text → Option Json
  | [] => some j
  | key :: path => (j.member? key).bind fun v => v.at? path

/-- The text at the end of a path. -/
def text? (j : Json) (path : List Text) : Option Text :=
  match j.at? path with
  | some (.string t) => some t
  | _ => none

/-- The items of the array at the end of a path; none without one. -/
def itemsAt (j : Json) (path : List Text) : List Json :=
  match j.at? path with
  | some (.array items) => items
  | _ => []

end Json

namespace Report

/-! ## The table -/

section Rules

variable {ds : List Diagnostic} {id : Text}

theorem descriptions_concat (ds : List Diagnostic) (d : Diagnostic) :
    descriptions (ds ++ [d]) =
      Table.assign (descriptions ds) d.qualifiedCode (Code.title d.code) := List.foldl_append

theorem nodup_descriptions (ds : List Diagnostic) : ((descriptions ds).map Prod.fst).Nodup := by
  induction ds using List.reverseRecOn with
  | nil => exact List.nodup_nil
  | append_singleton ds d ih =>
      rw [descriptions_concat]
      exact Table.nodup_keys_assign ih _ _

/-- The last diagnostic of a rule describes it. -/
theorem lookup_descriptions (ds : List Diagnostic) (id : Text) :
    (descriptions ds).lookup id =
      (ds.reverse.find? fun d => d.qualifiedCode = id).map fun d => Code.title d.code := by
  induction ds using List.reverseRecOn with
  | nil => rfl
  | append_singleton ds d ih =>
      rw [descriptions_concat, Table.lookup_assign, ih, List.reverse_concat, List.find?_cons]
      by_cases hSame : id = d.qualifiedCode
      · simp [hSame]
      · simp [hSame, Ne.symm hSame]

theorem ids_sarifRules (ds : List Diagnostic) :
    (sarifRules ds).map (·.id) = ((descriptions ds).map Prod.fst).mergeSort Text.le := by
  rw [sarifRules, List.map_map]
  exact List.map_id _

theorem pairwise_sarifRules (ds : List Diagnostic) :
    ((sarifRules ds).map (·.id)).Pairwise (· < ·) := by
  rw [ids_sarifRules]
  have hSorted := Sorting.pairwise_mergeSort_text (fun t => t) ((descriptions ds).map Prod.fst)
  have hNodup := (List.mergeSort_perm _ Text.le).nodup_iff.mpr (nodup_descriptions ds)
  refine hSorted.imp₂ ?_ hNodup
  intro a b hLe hNe
  exact Std.lt_of_le_of_ne hLe hNe

theorem mem_ids_sarifRules :
    id ∈ (sarifRules ds).map (·.id) ↔ ∃ d ∈ ds, d.qualifiedCode = id := by
  rw [ids_sarifRules, (List.mergeSort_perm _ _).mem_iff, ← Table.lookup_isSome_iff,
    lookup_descriptions, Option.isSome_map, List.find?_isSome]
  simp only [List.mem_reverse, decide_eq_true_eq]

theorem exists_last_of_mem_sarifRules {r : SarifRule} (h : r ∈ sarifRules ds) :
    ∃ before d after, ds = before ++ d :: after ∧ d.qualifiedCode = r.id ∧
      (∀ x ∈ after, x.qualifiedCode ≠ r.id) ∧ r.description = Code.title d.code := by
  obtain ⟨e, he, hId⟩ := mem_ids_sarifRules.mp (List.mem_map_of_mem h)
  obtain ⟨id, -, rfl⟩ := List.mem_map.mp h
  cases hLast : ds.reverse.find? fun d => d.qualifiedCode = id with
  | none =>
      have hNone := List.find?_eq_none.mp hLast e (List.mem_reverse.mpr he)
      exact absurd hId (by simpa using hNone)
  | some d =>
      obtain ⟨hSame, after, before, hSplit, hOther⟩ := List.find?_eq_some_iff_append.mp hLast
      refine ⟨before.reverse, d, after.reverse, ?_, of_decide_eq_true hSame, fun x hx => ?_, ?_⟩
      · simpa using congrArg List.reverse hSplit
      · simpa using hOther x (List.mem_reverse.mp hx)
      · show ((descriptions ds).lookup id).getD [] = _
        rw [lookup_descriptions, hLast]
        rfl

end Rules

/-! ## The log -/

/-- What a result says of a diagnostic. -/
structure ShownBy (fs : Option FileSet) (d : Diagnostic) (result : Json) : Prop where
  ruleId : result.text? ["ruleId"] = some d.qualifiedCode
  level : result.text? ["level"] = some d.severity.level
  message : result.text? ["message", "text"] = some d.message
  location : ∃ place, result.itemsAt ["locations"] = [place] ∧
    place.text? ["physicalLocation", "artifactLocation", "uri"] =
      some (filePath fs d.primary.file .relative) ∧
    ((place.at? ["physicalLocation", "region"]).isSome = true ↔
      0 < (lineColumn fs d.primary).line)

/-- Rows of a table and results of a run, as they stand in a log. -/
structure Matching (fs : Option FileSet) (ds : List Diagnostic) (run : Json)
    (rules : List SarifRule) : Prop where
  rows : (run.itemsAt ["tool", "driver", "rules"]).map
    (fun row => (row.text? ["id"], row.text? ["shortDescription", "text"])) =
      rules.map fun r => (some r.id, some r.description)
  results : List.Forall₂ (ShownBy fs) ds (run.itemsAt ["results"])
  increasing : (rules.map (·.id)).Pairwise (· < ·)
  used : ∀ id, id ∈ rules.map (·.id) ↔
    ∃ result ∈ run.itemsAt ["results"], result.text? ["ruleId"] = some id
  described : ∀ r ∈ rules, ∃ before d after, ds = before ++ d :: after ∧
    d.qualifiedCode = r.id ∧ (∀ x ∈ after, x.qualifiedCode ≠ r.id) ∧
    r.description = Code.title d.code

theorem shownBy_sarifResult (fs : Option FileSet) (d : Diagnostic) :
    ShownBy fs d (sarifResult fs d).json := by
  by_cases hLine : 0 < (lineColumn fs d.primary).line
  · have hRegion : (sarifResult fs d).region = some (lineColumn fs d.primary) := if_pos hLine
    refine ⟨rfl, rfl, rfl, _, rfl, rfl, ?_⟩
    rw [hRegion]
    exact iff_of_true rfl hLine
  · have hRegion : (sarifResult fs d).region = none := if_neg hLine
    refine ⟨rfl, rfl, rfl, _, rfl, rfl, ?_⟩
    rw [hRegion]
    exact iff_of_false Bool.false_ne_true hLine

theorem itemsAt_results (about : SarifMeta) (fs : Option FileSet) (ds : List Diagnostic) :
    (sarifRun about fs ds).itemsAt ["results"] = ds.map fun d => (sarifResult fs d).json := by
  unfold sarifRun
  cases about.arguments <;> rfl

theorem itemsAt_rules (about : SarifMeta) (fs : Option FileSet) (ds : List Diagnostic) :
    (sarifRun about fs ds).itemsAt ["tool", "driver", "rules"] =
      (sarifRules ds).map SarifRule.json := by
  unfold sarifRun sarifDriver
  cases about.toolVersion with
  | nil => cases sarifRules ds <;> rfl
  | cons x version => cases sarifRules ds <;> rfl

/-- The results are those of the diagnostics, and the table has the rules of the results. -/
theorem rule_table_matches (o : Options) (fs : Option FileSet) (items : List (Option Diagnostic)) :
    ∃ log run rules, write .sarif o fs items = [Json.document Json.plain log] ∧
      log.itemsAt ["runs"] = [run] ∧ Matching fs (items.filterMap id) run rules := by
  refine ⟨sarif o.sarif fs (items.filterMap id), sarifRun o.sarif fs (items.filterMap id),
    sarifRules (items.filterMap id), rfl, rfl, ?_⟩
  refine ⟨?_, ?_, ?_, ?_, ?_⟩
  · rw [itemsAt_rules, List.map_map]
    rfl
  · rw [itemsAt_results, List.forall₂_map_right_iff]
    exact List.forall₂_same.mpr fun d _ => shownBy_sarifResult fs d
  · exact pairwise_sarifRules _
  · intro id
    rw [itemsAt_results, mem_ids_sarifRules]
    constructor
    · rintro ⟨d, hd, rfl⟩
      exact ⟨_, List.mem_map_of_mem hd, (shownBy_sarifResult fs d).ruleId⟩
    · rintro ⟨result, hResult, hId⟩
      obtain ⟨d, hd, rfl⟩ := List.mem_map.mp hResult
      rw [(shownBy_sarifResult fs d).ruleId] at hId
      exact ⟨d, hd, Option.some.inj hId⟩
  · exact fun r hr => exists_last_of_mem_sarifRules hr

end Report

end TokenLint
