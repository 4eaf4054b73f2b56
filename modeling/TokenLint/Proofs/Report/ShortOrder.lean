import TokenLint.Proofs.Sorting
import TokenLint.Report.Short

/-!
# The order of a short report

The entries of a short report are sorted by all that stands in their lines, but for the remark that
a fix is offered. Lines that differ in nothing else stay in the order of the diagnostics. Notes
never have such a remark, and no diagnostic has the severity of a note. So two orders of the same
diagnostics are told apart by their reports exactly if one line is made both with and without the
remark.

* `ShortEntry.ranks_before`: entries are tied if they are the same without the remark.
* `eq_of_lines_eq`: entries can be read back from their lines if they are known but for the remarks.
* `short_eq_iff`: so reports on the same diagnostics are equal only if their entries are.
* `short_order_irrelevant_iff`: when the order of the diagnostics does not matter.
-/

namespace TokenLint

namespace Text

/-- What follows a line if these lines come after it. -/
def following : List Text → Text
  | [] => []
  | ts => 10 :: join "\n" ts

theorem join_lines_cons (t : Text) (ts : List Text) : join "\n" (t :: ts) = t ++ following ts := by
  cases ts with
  | nil => simp [join, following]
  | cons u us =>
      have hBreak : ofString "\n" = [10] := by decide
      simp [join, following, hBreak]

theorem head?_following_ne (ts : List Text) : (following ts).head? ≠ some 32 := by
  cases ts <;> simp [following]

theorem join_eq_of_following_eq {ts us : List Text} (h : following ts = following us) :
    join "\n" ts = join "\n" us := by
  cases ts <;> cases us <;> simp_all [following]

end Text

namespace Report

namespace ShortEntry

/-! ## Comparing entries -/

/-- The entry without the remark that a fix is offered. -/
def plain (e : ShortEntry) : ShortEntry := { e with fixable := false }

/-- `a` may stand in front of `b`: by path, line, column, severity, code and message. -/
def NotAfter (a b : ShortEntry) : Prop :=
  a.path < b.path ∨ a.path = b.path ∧
    (a.line < b.line ∨ a.line = b.line ∧
      (a.column < b.column ∨ a.column = b.column ∧
        (a.severity < b.severity ∨ a.severity = b.severity ∧
          (a.code < b.code ∨ a.code = b.code ∧ a.message ≤ b.message))))

theorem before_eq_byKey :
    before = Sorting.byKey path (Sorting.byKey line (Sorting.byKey column
      (Sorting.byKey severity (Sorting.byKey code (Sorting.byKey message fun _ _ => false))))) := by
  funext a b
  -- the last key is compared without a test for equality
  have hMessage : decide (a.message < b.message) =
      Sorting.byKey message (fun _ _ => false) a b := by
    unfold Sorting.byKey
    split
    · rfl
    · rename_i hSame
      have hEq : a.message = b.message := by simpa using hSame
      simp [hEq]
  unfold before
  rw [hMessage]
  rfl

theorem before_eq_false_iff {a b : ShortEntry} : before b a = false ↔ NotAfter a b := by
  simp only [before_eq_byKey, Sorting.byKey_eq_false_iff, and_true, NotAfter, Std.le_iff_lt_or_eq]

theorem before_plain (a b : ShortEntry) : before a.plain b.plain = before a b := rfl

/-- Entries are told apart by all but the remark. -/
theorem ranks_before : Sorting.Ranks before fun a b => a.plain = b.plain := by
  have hNone : Sorting.Ranks (fun _ _ : ShortEntry => false) fun _ _ => True := Sorting.ranks_false
  have h := (((((hNone.byKey message).byKey code).byKey severity).byKey column).byKey line).byKey
    path
  rw [← before_eq_byKey] at h
  refine ⟨h.trans, h.total, fun {a b} hab hba => ?_⟩
  obtain ⟨hPath, hLine, hColumn, hSeverity, hCode, hMessage, -⟩ := h.tied_of hab hba
  simp only [plain, hPath, hLine, hColumn, hSeverity, hCode, hMessage]

theorem before_eq_false_of_plain_eq {a b : ShortEntry} (h : a.plain = b.plain) :
    before a b = false := by
  rw [← before_plain, h]
  exact (ranks_before.total _ _).elim id id

/-! ## Lines of entries -/

theorem eq_of_plain_eq {a b : ShortEntry} (h : a.plain = b.plain)
    (hFixable : a.fixable = b.fixable) : a = b := by
  have ha : { a.plain with fixable := a.fixable } = a := rfl
  have hb : { b.plain with fixable := b.fixable } = b := rfl
  rw [← ha, ← hb, h, hFixable]

/-- The remark at the end of a line. -/
def remark (fixable : Bool) : Text := if fixable then Text.ofString " [fixable]" else []

theorem render_eq (e : ShortEntry) : e.render = e.plain.render ++ remark e.fixable := by
  simp [render, plain, remark]

/-- A remark is not taken for the beginning of what follows the line. -/
theorem render_append_inj {a b : ShortEntry} (hPlain : a.plain = b.plain) {t u : Text}
    (ht : t.head? ≠ some 32) (hu : u.head? ≠ some 32) (h : a.render ++ t = b.render ++ u) :
    a = b ∧ t = u := by
  have hBegin : ∀ v : Text, (remark true ++ v).head? = some 32 := fun v => rfl
  rw [render_eq a, render_eq b, hPlain, List.append_assoc, List.append_assoc,
    List.append_right_inj] at h
  have hSame : a.fixable = b.fixable := by
    cases ha : a.fixable <;> cases hb : b.fixable <;> rw [ha, hb] at h
    case false.true => exact absurd (hBegin u) (h ▸ ht)
    case true.false => exact absurd (hBegin t) (h ▸ hu)
  rw [hSame] at h
  exact ⟨eq_of_plain_eq hPlain hSame, List.append_cancel_left h⟩

end ShortEntry

/-- Lines tell their entries, if these are known but for the remarks. -/
theorem eq_of_lines_eq {es es' : List ShortEntry}
    (hPlain : es.map ShortEntry.plain = es'.map ShortEntry.plain)
    (h : Text.join "\n" (es.map ShortEntry.render) = Text.join "\n" (es'.map ShortEntry.render)) :
    es = es' := by
  induction es generalizing es' with
  | nil => exact (List.map_eq_nil_iff.mp hPlain.symm).symm
  | cons e es ih =>
      cases es' with
      | nil => cases hPlain
      | cons e' es' =>
          obtain ⟨hFirst, hRest⟩ := List.cons.inj hPlain
          rw [List.map_cons, List.map_cons, Text.join_lines_cons, Text.join_lines_cons] at h
          obtain ⟨rfl, hFollowing⟩ := ShortEntry.render_append_inj hFirst
            (Text.head?_following_ne _) (Text.head?_following_ne _) h
          rw [ih hRest (Text.join_eq_of_following_eq hFollowing)]

/-! ## Entries of diagnostics -/

variable {fs : FileSet} {notes : Bool} {ds ds' : List Diagnostic} {d e : Diagnostic}

/-- The entry of a diagnostic without its notes. -/
def ownEntry (fs : FileSet) (d : Diagnostic) : ShortEntry :=
  shortEntry fs d.severity.word d.code d.primary d.message d.fixable

/-- The entry of a note. -/
def noteEntry (fs : FileSet) (d : Diagnostic) (n : Note) : ShortEntry :=
  shortEntry fs "note" d.code n.pos n.message false

theorem shortEntries_eq (fs : FileSet) (notes : Bool) (d : Diagnostic) :
    shortEntries fs notes d =
      ownEntry fs d :: if notes then d.notes.map (noteEntry fs d) else [] := rfl

theorem mem_shortEntries {a : ShortEntry} (h : a ∈ shortEntries fs notes d) :
    a = ownEntry fs d ∨ notes = true ∧ ∃ n ∈ d.notes, a = noteEntry fs d n := by
  rw [shortEntries_eq, List.mem_cons] at h
  refine h.imp_right fun hNote => ?_
  cases notes with
  | false => exact absurd hNote List.not_mem_nil
  | true =>
      obtain ⟨n, hn, rfl⟩ := List.mem_map.mp hNote
      exact ⟨rfl, n, hn, rfl⟩

/-- The lines of two diagnostics are the same but for the remark. -/
structure SameLine (fs : FileSet) (d e : Diagnostic) : Prop where
  path : shortPath fs d.primary.file = shortPath fs e.primary.file
  place : fs.resolve d.primary = fs.resolve e.primary
  severity : d.severity.word = e.severity.word
  code : Code.shown d.code = Code.shown e.code
  message : oneLine d.message = oneLine e.message

theorem plain_ownEntry_eq_iff :
    (ownEntry fs d).plain = (ownEntry fs e).plain ↔ SameLine fs d e := by
  constructor
  · intro h
    simp only [ShortEntry.plain, ownEntry, shortEntry, ShortEntry.mk.injEq, and_true] at h
    obtain ⟨hSeverity, hCode, hPath, hLine, hColumn, hMessage⟩ := h
    refine ⟨hPath, ?_, hSeverity, hCode, hMessage⟩
    cases hd : fs.resolve d.primary
    cases he : fs.resolve e.primary
    simp_all
  · rintro ⟨hPath, hPlace, hSeverity, hCode, hMessage⟩
    simp only [ShortEntry.plain, ownEntry, shortEntry, hPath, hPlace, hSeverity, hCode, hMessage]

theorem word_ne_note (s : Severity) : s.word ≠ Text.ofString "note" := by
  unfold Severity.word
  split
  · decide
  · split <;> decide

/-- Of the entries that are the same but for the remark, only those of diagnostics can differ. -/
theorem eq_of_plain_eq_of_mem
    (hFixable : ∀ d ∈ ds, ∀ e ∈ ds, SameLine fs d e → d.fixable = e.fixable) {a b : ShortEntry}
    (ha : a ∈ ds.flatMap (shortEntries fs notes)) (hb : b ∈ ds.flatMap (shortEntries fs notes))
    (h : a.plain = b.plain) : a = b := by
  obtain ⟨d, hd, ha⟩ := List.mem_flatMap.mp ha
  obtain ⟨e, he, hb⟩ := List.mem_flatMap.mp hb
  refine ShortEntry.eq_of_plain_eq h ?_
  have hSeverity := congrArg ShortEntry.severity h
  rcases mem_shortEntries ha with rfl | ⟨-, n, -, rfl⟩ <;>
    rcases mem_shortEntries hb with rfl | ⟨-, m, -, rfl⟩
  · exact hFixable d hd e he (plain_ownEntry_eq_iff.mp h)
  · exact absurd hSeverity (word_ne_note _)
  · exact absurd hSeverity.symm (word_ne_note _)
  · rfl

/-! ## Reports -/

theorem plain_shortSorted_of_perm (h : ds.Perm ds') :
    (shortSorted fs notes ds).map ShortEntry.plain =
      (shortSorted fs notes ds').map ShortEntry.plain :=
  ShortEntry.ranks_before.map_mergeSort_of_perm ShortEntry.before_plain (h.flatMap_right _)
    fun _ _ _ _ hTied => hTied

/-- Reports on the same diagnostics are equal only if their entries are. -/
theorem short_eq_iff (h : ds.Perm ds') :
    short (some fs) notes ds = short (some fs) notes ds' ↔
      shortSorted fs notes ds = shortSorted fs notes ds' := by
  refine ⟨eq_of_lines_eq (plain_shortSorted_of_perm h), fun hSorted => ?_⟩
  rw [short, short, hSorted]

theorem shortSorted_eq_of_perm (h : ds.Perm ds')
    (hFixable : ∀ d ∈ ds, ∀ e ∈ ds, SameLine fs d e → d.fixable = e.fixable) :
    shortSorted fs notes ds = shortSorted fs notes ds' := by
  have hSorted : (shortSorted fs notes ds).map id = (shortSorted fs notes ds').map id :=
    ShortEntry.ranks_before.map_mergeSort_of_perm (fun _ _ => rfl) (h.flatMap_right _)
      fun a ha b hb hTied => eq_of_plain_eq_of_mem hFixable ha hb hTied
  rwa [List.map_id, List.map_id] at hSorted

/-- Of the entries that are the same as the one of the first diagnostic but for the remark, this one
comes first. -/
theorem head?_filter_shortSorted (fs : FileSet) (notes : Bool) (d : Diagnostic)
    (ds : List Diagnostic) :
    ((shortSorted fs notes (d :: ds)).filter fun a => a.plain = (ownEntry fs d).plain).head? =
      some (ownEntry fs d) := by
  have hTies : ∀ a ∈ ((d :: ds).flatMap (shortEntries fs notes)).filter fun a =>
      a.plain = (ownEntry fs d).plain, ∀ b ∈ ((d :: ds).flatMap (shortEntries fs notes)).filter
        fun a => a.plain = (ownEntry fs d).plain, ShortEntry.before b a = false := by
    intro a ha b hb
    have ha' : a.plain = (ownEntry fs d).plain := by simpa using (List.mem_filter.mp ha).2
    have hb' : b.plain = (ownEntry fs d).plain := by simpa using (List.mem_filter.mp hb).2
    exact ShortEntry.before_eq_false_of_plain_eq (hb'.trans ha'.symm)
  rw [shortSorted, ShortEntry.ranks_before.filter_mergeSort hTies, List.flatMap_cons,
    shortEntries_eq, List.cons_append, List.filter_cons_of_pos (by simp)]
  rfl

/-- The order of the diagnostics does not matter for the report if and only if no line is made both
with the remark that a fix is offered and without it. Places without a diagnostic do not matter. -/
theorem short_order_irrelevant_iff (files : Option FileSet) (notes : Bool)
    (items : List (Option Diagnostic)) :
    (∀ items' : List (Option Diagnostic), items'.Perm items →
        short files notes (items'.filterMap id) = short files notes (items.filterMap id)) ↔
      ∀ fs ∈ files, ∀ d e : Diagnostic, some d ∈ items → some e ∈ items →
        SameLine fs d e → d.fixable = e.fixable := by
  have hMem : ∀ d : Diagnostic, d ∈ items.filterMap id ↔ some d ∈ items := fun d => by simp
  constructor
  · rintro h fs rfl d e hd he hLine
    -- the reports are all equal, also the one on a list that starts with `d`, or with `e`
    have hFirst : ∀ d : Diagnostic, some d ∈ items →
        ((shortSorted fs notes (items.filterMap id)).filter fun a =>
          a.plain = (ownEntry fs d).plain).head? = some (ownEntry fs d) := by
      intro d hd
      obtain ⟨front, back, hSplit⟩ := List.append_of_mem hd
      have hPerm : (some d :: (front ++ back)).Perm items := hSplit ▸ List.perm_middle.symm
      have hSorted := (short_eq_iff (hPerm.filterMap id)).mp (h _ hPerm)
      have hItems : (some d :: (front ++ back)).filterMap id = d :: (front ++ back).filterMap id :=
        rfl
      rw [← hSorted, hItems]
      exact head?_filter_shortSorted fs notes d _
    have hSame := hFirst d hd
    rw [plain_ownEntry_eq_iff.mpr hLine, hFirst e he] at hSame
    exact congrArg ShortEntry.fixable (Option.some.inj hSame).symm
  · intro h items' hPerm
    cases files with
    | none => rfl
    | some fs =>
        have hItems := hPerm.filterMap id
        refine (short_eq_iff hItems).mpr (shortSorted_eq_of_perm hItems.symm ?_).symm
        intro d hd e he
        exact h fs rfl d e ((hMem d).mp hd) ((hMem e).mp he)

/-- A file with one token. -/
def oneToken : FileSet :=
  { files := #[{ path := "a.php", tokens := [{ content := "a", line := 1, column := 1 }] }] }

/-- Two findings of one kind at one place, and only the first can be fixed. -/
def fixableTwin : List Diagnostic :=
  [{ severity := .error, code := "c", message := "m", fixes := [{}] },
    { severity := .error, code := "c", message := "m" }]

/-- Exchanged, they are reported in the other order. -/
theorem short_order_irrelevant_iff_fixableTwin :
    short (some oneToken) false fixableTwin =
        "error c a.php:1:1 m [fixable]\nerror c a.php:1:1 m" ∧
      short (some oneToken) false fixableTwin.reverse =
        "error c a.php:1:1 m\nerror c a.php:1:1 m [fixable]" ∧
      ¬ ∀ items : List (Option Diagnostic), items.Perm (fixableTwin.map some) →
        short (some oneToken) false (items.filterMap id) =
          short (some oneToken) false ((fixableTwin.map some).filterMap id) := by
  have hSorted : shortSorted oneToken false fixableTwin =
      fixableTwin.flatMap (shortEntries oneToken false) :=
    Sorting.mergeSort_eq_self (by decide +kernel)
  have hSorted' : shortSorted oneToken false fixableTwin.reverse =
      fixableTwin.reverse.flatMap (shortEntries oneToken false) :=
    Sorting.mergeSort_eq_self (by decide +kernel)
  refine ⟨?_, ?_, fun hIrrelevant => ?_⟩
  · rw [short, hSorted]
    decide +kernel
  · rw [short, hSorted']
    decide +kernel
  have hSame := (short_order_irrelevant_iff (some oneToken) false (fixableTwin.map some)).mp
    hIrrelevant oneToken rfl fixableTwin[0] fixableTwin[1] (by simp [fixableTwin])
    (by simp [fixableTwin]) ⟨rfl, rfl, rfl, rfl, rfl⟩
  exact absurd hSame (by decide)

end Report

end TokenLint
