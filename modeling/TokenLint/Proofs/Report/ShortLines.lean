import Mathlib.Algebra.GroupWithZero.Nat
import Mathlib.Data.List.Rotate
import TokenLint.Proofs.Path
import TokenLint.Proofs.Report.ShortOrder
import TokenLint.Proofs.Text.Decimal
import TokenLint.Proofs.Text.Trim

/-!
# The lines of a short report

Every diagnostic and every note of a short report has a line of its own. A message cannot break its
line, whatever line breaks are in it, because each of them becomes a blank. Code and path stay as
they are. So if there is no line feed in these, the report is taken apart again by cutting it at its
line feeds.

* `flatten_eq_replaceAll`: one pass over a message is the same as three replacements.
* `newline_notMem_render`: which entries have one line.
* `short_lines`: the lines of a report, and their order.
-/

namespace TokenLint

namespace Text

/-- Replacing one byte by another changes each byte for itself. -/
theorem replaceAll_byte (old new : UInt8) (t : Text) :
    replaceAll [old] [new] t = t.map fun b => if b = old then new else b := by
  induction t with
  | nil => rfl
  | cons b t ih =>
      rw [replaceAll] at ih
      by_cases hOld : b = old
      · simp [replaceAll, replaceFrom, hOld, ih]
      · simp [replaceAll, replaceFrom, hOld, Ne.symm hOld, ih]

end Text

namespace Report

/-! ## Messages on one line -/

/-- In one pass, line breaks become blanks as if first the pair of a carriage return and a line feed
were made one line feed, then every carriage return, and every line feed were made a blank last. -/
theorem flatten_eq_replaceAll (t : Text) :
    flatten t = Text.replaceAll [10] [32] (Text.replaceAll [13] [10]
      (Text.replaceAll [13, 10] [10] t)) := by
  rw [Text.replaceAll_byte, Text.replaceAll_byte, List.map_map]
  fun_induction flatten t with
  | case1 rest ih => simp [Text.replaceAll, Text.replaceFrom, ih]
  | case2 rest h ih =>
      have hPair : List.isPrefixOf [13, 10] (13 :: rest) = false := by
        cases rest with
        | nil => rfl
        | cons b rest =>
            have hb : b ≠ 10 := fun hb => h rest (hb ▸ rfl)
            simp [List.isPrefixOf, hb.symm]
      simp [Text.replaceAll, Text.replaceFrom, hPair, ih]
  | case3 rest ih => simp [Text.replaceAll, Text.replaceFrom, ih]
  | case4 b rest hPair hReturn hFeed ih =>
      have hb : b ≠ 13 := hReturn
      have hb' : b ≠ 10 := hFeed
      simp [Text.replaceAll, Text.replaceFrom, hb, hb', hb.symm, ih]
  | case5 => rfl

theorem newline_notMem_flatten (t : Text) : 10 ∉ flatten t := by
  rw [flatten_eq_replaceAll, Text.replaceAll_byte, List.mem_map]
  rintro ⟨b, -, hb⟩
  split at hb
  · exact absurd hb (by decide)
  · contradiction

theorem newline_notMem_oneLine (t : Text) : 10 ∉ oneLine t := fun h =>
  newline_notMem_flatten t ((Text.trimBlank_isInfix (flatten t)).subset h)

/-! ## Entries on one line -/

theorem newline_notMem_ofNat (n : Nat) : 10 ∉ Text.ofNat n := fun h =>
  absurd (Text.isDigit_of_mem_ofNat h) (by decide)

/-- An entry has one line if there is no line feed in its texts. -/
theorem newline_notMem_render {a : ShortEntry} (hSeverity : 10 ∉ a.severity) (hCode : 10 ∉ a.code)
    (hPath : 10 ∉ a.path) (hMessage : 10 ∉ a.message) : 10 ∉ a.render := by
  have hRemark : 10 ∉ ShortEntry.remark a.fixable := by
    cases a.fixable <;> decide
  have hBlank : 10 ∉ Text.ofString " " := by decide
  have hColon : 10 ∉ Text.ofString ":" := by decide
  rw [ShortEntry.render_eq]
  simp only [ShortEntry.render, ShortEntry.plain, List.mem_append, not_or]
  simp [hSeverity, hCode, hPath, hMessage, hRemark, hBlank, hColon, newline_notMem_ofNat]

theorem render_ne_nil (a : ShortEntry) : a.render ≠ [] := by
  have hBlank : Text.ofString " " ≠ [] := by decide
  simp [ShortEntry.render, hBlank]

variable {fs : FileSet} {notes : Bool} {d : Diagnostic}

/-- No line feed is in the code of a diagnostic, nor in the paths that are shown for it and for its
notes. -/
structure OnOneLine (fs : FileSet) (notes : Bool) (d : Diagnostic) : Prop where
  code : 10 ∉ d.code
  path : 10 ∉ shortPath fs d.primary.file
  note_paths : notes = true → ∀ n ∈ d.notes, 10 ∉ shortPath fs n.pos.file

theorem OnOneLine.newline_notMem_shown (h : OnOneLine fs notes d) : 10 ∉ Code.shown d.code := by
  unfold Code.shown
  split
  · decide
  · exact h.code

theorem newline_notMem_word (s : Severity) : 10 ∉ s.word := by
  unfold Severity.word
  split
  · decide
  · split <;> decide

theorem OnOneLine.newline_notMem_render (h : OnOneLine fs notes d) {a : ShortEntry}
    (ha : a ∈ shortEntries fs notes d) : 10 ∉ a.render := by
  rcases mem_shortEntries ha with rfl | ⟨hNotes, n, hn, rfl⟩
  · exact Report.newline_notMem_render (newline_notMem_word _) h.newline_notMem_shown h.path
      (newline_notMem_oneLine _)
  · have hSeverity : 10 ∉ Text.ofString "note" := by decide
    exact Report.newline_notMem_render hSeverity h.newline_notMem_shown
      (h.note_paths hNotes n hn) (newline_notMem_oneLine _)

theorem length_shortEntries (fs : FileSet) (notes : Bool) (d : Diagnostic) :
    (shortEntries fs notes d).length = 1 + if notes then d.notes.length else 0 := by
  rw [shortEntries_eq, List.length_cons, Nat.add_comm]
  cases notes <;> simp

/-! ## Reports -/

theorem length_flatMap_shortEntries (fs : FileSet) (notes : Bool) (ds : List Diagnostic) :
    (ds.flatMap (shortEntries fs notes)).length =
      ds.length + if notes then (ds.map fun d => d.notes.length).sum else 0 := by
  induction ds with
  | nil => cases notes <;> rfl
  | cons d ds ih =>
      rw [List.flatMap_cons, List.length_append, ih, length_shortEntries]
      cases notes <;> simp only [List.length_cons, List.map_cons, List.sum_cons, if_true,
        Bool.false_eq_true, if_false] <;> omega

/-- If no path and no code has a line feed, a report consists of the lines of all entries in order:
one for each diagnostic and, on request, one for each note. It is empty only if there are none. -/
theorem short_lines {fs : FileSet} {notes : Bool} {items : List (Option Diagnostic)}
    (h : ∀ d : Diagnostic, some d ∈ items → OnOneLine fs notes d) :
    let ds := items.filterMap id
    let report := short (some fs) notes ds
    ∃ es : List ShortEntry,
      es.Perm (ds.flatMap (shortEntries fs notes)) ∧
        es.Pairwise ShortEntry.NotAfter ∧
        es.length = items.countP Option.isSome +
          (if notes then (ds.map fun d => d.notes.length).sum else 0) ∧
        (report = [] ↔ es = []) ∧
        (report ≠ [] → Text.splitOn 10 report = es.map ShortEntry.render) := by
  intro ds report
  have hPerm : (shortSorted fs notes ds).Perm (ds.flatMap (shortEntries fs notes)) :=
    List.mergeSort_perm _ _
  have hReport : report = Text.join [10] ((shortSorted fs notes ds).map ShortEntry.render) := rfl
  have hEmpty : report = [] ↔ shortSorted fs notes ds = [] := by
    rw [hReport]
    refine ⟨fun hNil => ?_, fun hNil => by rw [hNil]; rfl⟩
    by_contra hSome
    refine Text.join_ne_nil (mt List.map_eq_nil_iff.mp hSome) (fun t ht => ?_) hNil
    obtain ⟨a, -, rfl⟩ := List.mem_map.mp ht
    exact render_ne_nil a
  refine ⟨shortSorted fs notes ds, hPerm, ?_, ?_, hEmpty, fun hSome => ?_⟩
  · exact (ShortEntry.ranks_before.pairwise_mergeSort _).imp ShortEntry.before_eq_false_iff.mp
  · rw [hPerm.length_eq, length_flatMap_shortEntries, List.length_filterMap_eq_countP]
    rfl
  · rw [hReport]
    refine Text.splitOn_join (mt List.map_eq_nil_iff.mp (mt hEmpty.mpr hSome)) fun t ht => ?_
    obtain ⟨a, ha, rfl⟩ := List.mem_map.mp ht
    obtain ⟨d, hd, ha⟩ := List.mem_flatMap.mp (hPerm.mem_iff.mp ha)
    exact (h d (by simpa [ds] using hd)).newline_notMem_render ha

/-- A file with two tokens. -/
def twoTokens : FileSet :=
  { files := #[{ path := "a.php", tokens := [{ content := "a", line := 1, column := 1 },
      { content := "b", line := 1, column := 2 }] }] }

/-- A message and a note with line breaks of all kinds, an empty place, and a diagnostic that comes
before the first one. -/
def brokenMessages : List (Option Diagnostic) :=
  [some { severity := .error, code := "c", message := "one\r\ntwo\n", primary := ⟨0, 1⟩,
          notes := [{ pos := ⟨7, 0⟩, message := "\r\r\nthree" }] },
    none, some { severity := .warning, code := "d", message := "\n" }]

theorem short_lines_brokenMessages :
    (∀ d : Diagnostic, some d ∈ brokenMessages → OnOneLine twoTokens true d) ∧
      ∃ es : List ShortEntry, es.length = 3 ∧ es.Pairwise ShortEntry.NotAfter ∧
        Text.splitOn 10 "note c ?:0:0 three\nwarning d a.php:1:1 \nerror c a.php:1:2 one two" =
          es.map ShortEntry.render := by
  have hFile : 10 ∉ shortPath twoTokens 0 := by decide
  have hNone : 10 ∉ shortPath twoTokens 7 := by decide
  have hOneLine : ∀ d : Diagnostic, some d ∈ brokenMessages → OnOneLine twoTokens true d := by
    simp only [brokenMessages, List.mem_cons, List.not_mem_nil, or_false, Option.some.injEq,
      reduceCtorEq, false_or, forall_eq_or_imp, forall_eq]
    exact ⟨⟨by decide, hFile, fun _ => List.forall_mem_singleton.mpr hNone⟩,
      ⟨by decide, hFile, fun _ => List.forall_mem_nil _⟩⟩
  refine ⟨hOneLine, ?_⟩
  obtain ⟨es, -, hOrder, hLength, -, hLines⟩ := short_lines hOneLine
  -- the entry of the first diagnostic comes last
  have hSorted : shortSorted twoTokens true (brokenMessages.filterMap id) =
      ((brokenMessages.filterMap id).flatMap (shortEntries twoTokens true)).rotate 1 :=
    ShortEntry.ranks_before.mergeSort_eq_of_perm (List.rotate_perm _ 1).symm (by decide +kernel)
      (by decide +kernel)
  have hReport : short (some twoTokens) true (brokenMessages.filterMap id) =
      "note c ?:0:0 three\nwarning d a.php:1:1 \nerror c a.php:1:2 one two" := by
    rw [short, hSorted]
    decide +kernel
  rw [hReport] at hLines
  exact ⟨es, hLength, hOrder, hLines (by decide)⟩

end Report

end TokenLint
