import Mathlib.Data.List.Nodup
import TokenLint.Fix.Apply
import TokenLint.Proofs.Sorting

/-!
# What edits do to streams

The edits of a fix come grouped by file and sorted by token. This module describes their
effect without groups and without order: the content of a token after a list of edits is the
text of the last edit of that token, and where no edit concerns a token it keeps its content.

* `editStream_eq_streamAfter`: edits that can be made on the stream of a file turn it into
  `streamAfter`.
* `editStream_ok_iff`: edits can be made next to tokens that are taken if they stay away from
  these tokens and can be made where nothing is taken.
* `editStream_ok_congr`: whether edits can be made depends on the contents of their own tokens.
* `streamAfter_editsIn`: sorting the edits of a file does not change their effect.
-/

namespace TokenLint.Fixing

/-! ## The effect of edits -/

/-- Does an edit concern a given token of a file? -/
def concerns (file : UInt32) (j : Nat) (e : TokenEdit) : Bool :=
  e.pos.file = file && e.pos.token.toNat = j

theorem pos_eq_of_concerns {file : UInt32} {j : Nat} {e e' : TokenEdit}
    (h : concerns file j e = true) (h' : concerns file j e' = true) : e.pos = e'.pos := by
  simp only [concerns, Bool.and_eq_true, decide_eq_true_eq] at h h'
  have hToken : e.pos.token = e'.pos.token := UInt32.toNat_inj.mp (h.2.trans h'.2.symm)
  have hFile : e.pos.file = e'.pos.file := h.1.trans h'.1.symm
  obtain ⟨⟨f, t⟩, _, _⟩ := e
  obtain ⟨⟨f', t'⟩, _, _⟩ := e'
  simp_all

/-- The content of a token after edits: the text of the last one that concerns it. -/
def contentAfter (edits : List TokenEdit) (file : UInt32) (j : Nat) (content : Text) : Text :=
  (edits.filter (concerns file j)).foldl (fun _ e => e.newText) content

/-- The stream of a file after edits. -/
def streamAfter (edits : List TokenEdit) (file : UInt32) (s : Stream) : Stream :=
  s.mapIdx fun j t => { t with content := contentAfter edits file j t.content }

theorem contentAfter_append (es fs : List TokenEdit) (file : UInt32) (j : Nat) (c : Text) :
    contentAfter (es ++ fs) file j c = contentAfter fs file j (contentAfter es file j c) := by
  simp only [contentAfter, List.filter_append, List.foldl_append]

theorem contentAfter_cons (e : TokenEdit) (es : List TokenEdit) (file : UInt32) (j : Nat)
    (c : Text) :
    contentAfter (e :: es) file j c =
      contentAfter es file j (if concerns file j e then e.newText else c) := by
  by_cases h : concerns file j e <;> simp [contentAfter, h]

theorem contentAfter_of_forall_not {es : List TokenEdit} {file : UInt32} {j : Nat}
    (h : ∀ e ∈ es, concerns file j e = false) (c : Text) : contentAfter es file j c = c := by
  have hNone : es.filter (concerns file j) = [] := by simpa using h
  simp [contentAfter, hNone]

/-- Among edits of different tokens, the one that concerns a token decides. -/
theorem contentAfter_of_mem {es : List TokenEdit}
    (hDistinct : es.Pairwise fun e e' => e.pos ≠ e'.pos) {e : TokenEdit} (he : e ∈ es)
    {file : UInt32} {j : Nat} (hj : concerns file j e = true) (c : Text) :
    contentAfter es file j c = e.newText := by
  induction es generalizing c with
  | nil => simp at he
  | cons a es ih =>
      obtain ⟨hFirst, hRest⟩ := List.pairwise_cons.mp hDistinct
      rw [contentAfter_cons]
      rcases List.mem_cons.mp he with rfl | he
      · rw [if_pos hj, contentAfter_of_forall_not]
        intro e' he'
        by_contra hBoth
        exact hFirst e' he' (pos_eq_of_concerns hj (by simpa using hBoth))
      · exact ih hRest he _

theorem getElem?_streamAfter (es : List TokenEdit) (file : UInt32) (s : Stream) (j : Nat) :
    (streamAfter es file s)[j]? =
      s[j]?.map fun t => { t with content := contentAfter es file j t.content } := by
  simp [streamAfter]

theorem streamAfter_congr {es fs : List TokenEdit} {file : UInt32}
    (h : ∀ j c, contentAfter es file j c = contentAfter fs file j c) (s : Stream) :
    streamAfter es file s = streamAfter fs file s := by
  simp only [streamAfter, h]

theorem streamAfter_streamAfter (es fs : List TokenEdit) (file : UInt32) (s : Stream) :
    streamAfter fs file (streamAfter es file s) = streamAfter (es ++ fs) file s := by
  simp only [streamAfter, List.mapIdx_mapIdx, Function.comp_def, contentAfter_append]

/-- Edits of other files leave a stream as it is. -/
theorem streamAfter_of_forall_ne {es : List TokenEdit} {file : UInt32}
    (h : ∀ e ∈ es, e.pos.file ≠ file) (s : Stream) : streamAfter es file s = s := by
  apply List.ext_getElem?
  intro j
  rw [getElem?_streamAfter]
  have hKeep : ∀ c, contentAfter es file j c = c :=
    contentAfter_of_forall_not fun e he => by simp [concerns, h e he]
  simp [hKeep]

/-! ## Setting contents one after the other -/

theorem getElem?_setContent (s : Stream) (n j : Nat) (c : Text) :
    (s.setContent n c)[j]? = s[j]?.map fun t => if n = j then { t with content := c } else t := by
  have hn : ¬ (n : Int) < 0 := by omega
  simp [Stream.setContent, hn, List.getElem?_modify]

theorem streamAfter_cons_of_eq {e : TokenEdit} {file : UInt32} (he : e.pos.file = file)
    (es : List TokenEdit) (s : Stream) :
    streamAfter (e :: es) file s =
      streamAfter es file (s.setContent e.pos.token.toNat e.newText) := by
  apply List.ext_getElem?
  intro j
  simp only [getElem?_streamAfter, getElem?_setContent, Option.map_map]
  congr 1
  funext t
  by_cases hj : e.pos.token.toNat = j <;>
    simp [contentAfter_cons, concerns, he, hj]

/-- Edits of one file that can be made have the effect that `streamAfter` describes. -/
theorem editStream_eq_streamAfter {touched : List Pos} {es : List TokenEdit} {file : UInt32}
    {s s' : Stream} (hFile : ∀ e ∈ es, e.pos.file = file)
    (h : editStream touched s es = .ok s') : s' = streamAfter es file s := by
  induction es generalizing s with
  | nil =>
      rw [editStream, Except.ok.injEq] at h
      rw [← h, streamAfter_of_forall_ne (by simp)]
  | cons e es ih =>
      unfold editStream at h
      split at h
      · cases h
      · rw [streamAfter_cons_of_eq (hFile e List.mem_cons_self)]
        exact ih (fun e' he' => hFile e' (List.mem_cons_of_mem _ he')) h

/-! ## When edits can be made -/

/-- An edit is in order where nothing is taken: its token is there, with the text the edit
expects. -/
theorem checkEdit_eq_none_iff {s : Stream} {touched : List Pos} {e : TokenEdit} :
    checkEdit s touched e = none ↔
      e.pos ∉ touched ∧ ∃ c, s[e.pos.token.toNat]?.map Token.content = some c ∧
        (e.oldText = [] ∨ c = e.oldText) := by
  unfold checkEdit
  cases hs : s[e.pos.token.toNat]? with
  | none => simp
  | some t =>
      by_cases ht : e.pos ∈ touched
      · simp [ht]
      · by_cases hOld : e.oldText = []
        · simp [ht, hOld]
        · by_cases hSame : t.content = e.oldText <;> simp [ht, hOld, hSame]

theorem editStream_cons_ok_iff {touched : List Pos} {s s' : Stream} {e : TokenEdit}
    {es : List TokenEdit} :
    editStream touched s (e :: es) = .ok s' ↔
      checkEdit s touched e = none ∧
        editStream touched (s.setContent e.pos.token.toNat e.newText) es = .ok s' := by
  rw [editStream]
  cases checkEdit s touched e <;> simp

theorem editStream_ok_iff {touched : List Pos} {s s' : Stream} {es : List TokenEdit} :
    editStream touched s es = .ok s' ↔
      (∀ e ∈ es, e.pos ∉ touched) ∧ editStream [] s es = .ok s' := by
  induction es generalizing s with
  | nil => simp [editStream]
  | cons e es ih =>
      rw [editStream_cons_ok_iff, editStream_cons_ok_iff, ih, checkEdit_eq_none_iff,
        checkEdit_eq_none_iff]
      simp only [List.mem_cons, forall_eq_or_imp, List.not_mem_nil, not_false_eq_true, true_and]
      constructor
      · rintro ⟨⟨hFree, hText⟩, hRest, hOk⟩
        exact ⟨⟨hFree, hRest⟩, hText, hOk⟩
      · rintro ⟨⟨hFree, hRest⟩, hText, hOk⟩
        exact ⟨⟨hFree, hText⟩, hRest, hOk⟩

/-- Two streams on which edits read the same contents take the edits together or not at all. -/
theorem editStream_ok_congr {touched : List Pos} {es : List TokenEdit} {s t : Stream}
    (h : ∀ e ∈ es, s[e.pos.token.toNat]?.map Token.content =
      t[e.pos.token.toNat]?.map Token.content) :
    (∃ s', editStream touched s es = .ok s') ↔ ∃ t', editStream touched t es = .ok t' := by
  induction es generalizing s t with
  | nil => simp [editStream]
  | cons e es ih =>
      have hHead := h e List.mem_cons_self
      -- the first edit leaves both streams with equal contents at the tokens still to come
      have hRest : ∀ e' ∈ es,
          (s.setContent e.pos.token.toNat e.newText)[e'.pos.token.toNat]?.map Token.content =
            (t.setContent e.pos.token.toNat e.newText)[e'.pos.token.toNat]?.map
              Token.content := by
        intro e' he'
        have hTail := h e' (List.mem_cons_of_mem _ he')
        rw [getElem?_setContent, getElem?_setContent]
        by_cases hSame : e.pos.token.toNat = e'.pos.token.toNat
        · rw [hSame] at hHead ⊢
          simp only [Option.map_map, if_true]
          cases hs : s[e'.pos.token.toNat]? <;> cases ht : t[e'.pos.token.toNat]? <;>
            simp_all
        · simpa only [hSame, if_false, Option.map_id'] using hTail
      simp only [editStream_cons_ok_iff, exists_and_left, ih hRest, checkEdit_eq_none_iff, hHead]

/-! ## Grouping by file and sorting by token -/

theorem mem_editsIn {file : UInt32} {edits : List TokenEdit} {e : TokenEdit} :
    e ∈ editsIn file edits ↔ e ∈ edits ∧ e.pos.file = file := by
  simp [editsIn]

theorem length_editsIn (file : UInt32) (edits : List TokenEdit) :
    (editsIn file edits).length = edits.countP (·.pos.file = file) := by
  simp [editsIn, List.countP_eq_length_filter]

theorem mem_filesOf {edits : List TokenEdit} {file : UInt32} :
    file ∈ filesOf edits ↔ ∃ e ∈ edits, e.pos.file = file := by
  simp [filesOf, List.mem_eraseDups]

theorem nodup_eraseDups {α : Type} [BEq α] [LawfulBEq α] (xs : List α) : xs.eraseDups.Nodup := by
  match xs with
  | [] => exact List.nodup_nil
  | x :: rest =>
      have hShorter : (rest.filter fun y => !y == x).length < rest.length + 1 :=
        Nat.lt_succ_of_le (List.length_filter_le _ rest)
      have hNew : x ∉ (rest.filter fun y => !y == x).eraseDups := by
        simp [List.mem_eraseDups]
      rw [List.eraseDups_cons]
      exact List.nodup_cons.mpr ⟨hNew, nodup_eraseDups _⟩
termination_by xs.length

theorem nodup_filesOf (edits : List TokenEdit) : (filesOf edits).Nodup := nodup_eraseDups _

/-- Sorting is stable, so the edits of one token stay in the order in which they were given. -/
theorem filter_concerns_editsIn (file : UInt32) (j : Nat) (edits : List TokenEdit) :
    (editsIn file edits).filter (concerns file j) = edits.filter (concerns file j) := by
  have hInFile : (edits.filter (·.pos.file = file)).filter (concerns file j) =
      edits.filter (concerns file j) := by
    rw [List.filter_filter]
    congr 1
    funext e
    by_cases hf : e.pos.file = file <;> simp [concerns, hf]
  rw [editsIn, Sorting.filter_mergeSort ?_ ?_ ?_, hInFile]
  · intro a b c hab hbc
    simp only [decide_eq_true_eq] at hab hbc ⊢
    exact UInt32.le_trans hab hbc
  · intro a b
    simpa using UInt32.le_total a.pos.token b.pos.token
  · rw [hInFile]
    refine List.pairwise_of_forall_mem_list fun a ha b hb => ?_
    have ha' : a.pos.token.toNat = j := by simp [concerns] at ha; exact ha.2.2
    have hb' : b.pos.token.toNat = j := by simp [concerns] at hb; exact hb.2.2
    simp only [decide_eq_true_eq, UInt32.le_iff_toNat_le]
    omega

theorem streamAfter_editsIn (file : UInt32) (edits : List TokenEdit) (s : Stream) :
    streamAfter (editsIn file edits) file s = streamAfter edits file s :=
  streamAfter_congr (fun j c => by simp only [contentAfter, filter_concerns_editsIn]) s

end TokenLint.Fixing
