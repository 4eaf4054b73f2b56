import TokenLint.Disk
import TokenLint.Proofs.Path
import TokenLint.Proofs.Table

/-!
# What operations on a disk leave as it was

Following a path asks the disk only whether there is something on the way. Where the path leads is
told by its elements: `destination`. So a change of the disk that keeps every directory keeps the
way to every file.

* `fetch_ok_iff`: a file can be read if there is a way to it, and its data is there.
* `fetch_store`, `fetch_store_other`: what can be read after a file was written.
* `destination_join_injective`: different names in a directory lead to different places.
* `makeDirs_addsDirectories`: creating directories changes nothing that was there.
-/

namespace TokenLint.Disk

variable {d d' d'' : Disk} {fresh : Bool} {p q here path data : Text} {es : List Text}

theorem entry?_root (d : Disk) : d.entry? [Path.slash] = some .directory := if_pos rfl

theorem entry?_set (d : Disk) (hPath : path ≠ [Path.slash]) (e : Entry) (q : Text) :
    Disk.entry? (d.set path e) q = if q = path then some e else d.entry? q := by
  unfold entry?
  by_cases hq : q = [Path.slash]
  · subst hq
    simp [hPath.symm]
  · rw [if_neg hq, if_neg hq]
    exact Table.lookup_assign d.entries path q e

/-! ## The way to a file -/

/-- Where an element leads to from a directory. -/
def enter (here e : Text) : Text :=
  if e = "." then here else if e = ".." then Path.dir here else Path.join [here, e]

/-- Where a path starts. -/
def start (d : Disk) (p : Text) : Text := if Path.isAbsolute p then [Path.slash] else d.workDir

/-- The place a path leads to, if nothing is missing on the way. -/
def destination (d : Disk) (p : Text) : Text := (steps p).foldl enter (d.start p)

/-- One step on the way: one starts in a directory and comes to something that is there. -/
theorem follow_cons_ok_iff {e : Text} :
    d.follow fresh here (e :: es) = .ok path ↔
      d.entry? here = some .directory ∧
        (e = "." ∨ e = ".." ∨ (d.entry? (Path.join [here, e])).isSome = true ∨
          fresh = true ∧ es = []) ∧
        d.follow fresh (enter here e) es = .ok path := by
  rw [follow]
  rcases hHere : d.entry? here with _ | ⟨data⟩ | _
  · simp
  · simp
  · by_cases hDot : e = "."
    · simp [enter, hDot]
    · by_cases hUp : e = ".."
      · subst hUp
        simp [enter, hDot]
      · simp only [enter, hDot, hUp, if_false]
        cases hThere : d.entry? (Path.join [here, e]) <;> cases fresh <;> cases es <;> simp

theorem eq_of_follow (h : d.follow fresh here es = .ok path) : path = es.foldl enter here := by
  induction es generalizing here with
  | nil =>
      rw [follow] at h
      cases h
      rfl
  | cons e es ih => exact ih (follow_cons_ok_iff.mp h).2.2

/-- A disk with all the directories of another one, and something wherever there is something. -/
structure Grows (d d' : Disk) : Prop where
  workDir_eq : d'.workDir = d.workDir
  directory : ∀ q, d.entry? q = some .directory → d'.entry? q = some .directory
  present : ∀ q, (d.entry? q).isSome = true → (d'.entry? q).isSome = true

/-- On a disk that has grown the way is still there; what was new on it may be there now. -/
theorem Grows.follow (hGrows : Grows d d') (h : d.follow fresh here es = .ok path)
    (hPresent : fresh = true → (d'.entry? path).isSome = true) :
    d'.follow false here es = .ok path := by
  induction es generalizing here with
  | nil => exact h
  | cons e es ih =>
      obtain ⟨hHere, hThere, hRest⟩ := follow_cons_ok_iff.mp h
      refine follow_cons_ok_iff.mpr ⟨hGrows.directory here hHere, ?_, ih hRest⟩
      rcases hThere with hDot | hUp | hOld | ⟨hFresh, rfl⟩
      · exact Or.inl hDot
      · exact Or.inr (Or.inl hUp)
      · exact Or.inr (Or.inr (Or.inl (hGrows.present _ hOld)))
      · by_cases hDot : e = "."
        · exact Or.inl hDot
        · by_cases hUp : e = ".."
          · exact Or.inr (Or.inl hUp)
          · have hPath : path = Path.join [here, e] := by
              rw [eq_of_follow hRest]
              simp [enter, hDot, hUp]
            exact Or.inr (Or.inr (Or.inl (hPath ▸ hPresent hFresh)))

theorem locate_ok_iff :
    d.locate fresh p = .ok path ↔
      p ≠ [] ∧ d.follow fresh (d.start p) (steps p) = .ok path := by
  unfold locate start
  split <;> simp_all

theorem eq_of_locate (h : d.locate fresh p = .ok path) : path = d.destination p :=
  eq_of_follow (locate_ok_iff.mp h).2

theorem Grows.start_eq (hGrows : Grows d d') (p : Text) : d'.start p = d.start p := by
  rw [start, start, hGrows.workDir_eq]

theorem Grows.destination_eq (hGrows : Grows d d') (p : Text) :
    d'.destination p = d.destination p := by
  rw [destination, destination, hGrows.start_eq]

theorem Grows.locate (hGrows : Grows d d') (h : d.locate fresh p = .ok path)
    (hPresent : fresh = true → (d'.entry? path).isSome = true) :
    d'.locate false p = .ok path := by
  obtain ⟨hNe, hFollow⟩ := locate_ok_iff.mp h
  exact locate_ok_iff.mpr ⟨hNe, hGrows.start_eq p ▸ hGrows.follow hFollow hPresent⟩

theorem fetch_ok_iff :
    d.fetch p = .ok data ↔
      d.locate false p = .ok (d.destination p) ∧
        d.entry? (d.destination p) = some (.file data) := by
  unfold fetch find
  cases hLocate : d.locate false p with
  | error r => simp
  | ok path =>
      have hPath := eq_of_locate hLocate
      subst hPath
      dsimp only
      rcases hEntry : d.entry? (d.destination p) with _ | ⟨data⟩ | _ <;> simp

theorem Grows.fetch (hGrows : Grows d d') (h : d.fetch p = .ok data)
    (hKept : d'.entry? (d.destination p) = some (.file data)) : d'.fetch p = .ok data := by
  obtain ⟨hLocate, _⟩ := fetch_ok_iff.mp h
  rw [fetch_ok_iff, hGrows.destination_eq]
  exact ⟨hGrows.locate hLocate (by simp), hKept⟩

/-! ## Plain names at the end of a path -/

theorem steps_append {before name : Text} (hBefore : Path.Before before) (h : Path.Plain name) :
    steps (before ++ name) =
      (Text.splitOn Path.slash before).filter (· ≠ []) ++ [name] := by
  have hLast : (before ++ name).getLast? ≠ some Path.slash := by
    rw [List.getLast?_append_of_ne_nil _ h.ne_nil]
    intro hLast
    exact h.no_slash (List.mem_of_getLast? hLast)
  unfold steps
  rw [if_neg hLast]
  rcases hBefore with rfl | ⟨t, rfl⟩
  · rw [List.nil_append, Text.splitOn_of_notMem h.no_slash]
    simp [h.ne_nil, Text.splitOn]
  · have hEmpty : Text.splitOn Path.slash ([] : Text) = [[]] := rfl
    have hSplit := Text.splitOn_append_cons Path.slash t name
    have hSplit' := Text.splitOn_append_cons Path.slash t []
    rw [List.append_assoc, List.singleton_append, hSplit, hSplit', hEmpty,
      Text.splitOn_of_notMem h.no_slash]
    simp [h.ne_nil]

theorem start_append (d : Disk) {before name : Text} (hBefore : Path.Before before)
    (h : Path.Plain name) : d.start (before ++ name) = d.start before := by
  rcases hBefore with rfl | ⟨t, rfl⟩
  · rw [List.nil_append, start, h.isAbsolute_eq]
    rfl
  · rw [start, Path.isAbsolute_append (by simp)]
    rfl

/-- A path with a plain name at its end leads to the name in a directory that depends on the other
parts alone. -/
theorem exists_destination_join (d : Disk) (parts : List Text) :
    ∃ here, ∀ name, Path.Plain name →
      d.destination (Path.join (parts ++ [name])) = Path.join ([here] ++ [name]) := by
  obtain ⟨before, hBefore, hJoin⟩ := Path.exists_before_join parts
  refine ⟨((Text.splitOn Path.slash before).filter (· ≠ [])).foldl enter (d.start before), ?_⟩
  intro name h
  rw [hJoin name h, destination, steps_append hBefore h, start_append d hBefore h,
    List.foldl_append, List.foldl_cons, List.foldl_nil, enter, if_neg h.ne_here, if_neg h.ne_up]
  rfl

theorem destination_join_injective (d : Disk) (parts : List Text) {name name' : Text}
    (h : Path.Plain name) (h' : Path.Plain name')
    (hEq : d.destination (Path.join (parts ++ [name])) =
      d.destination (Path.join (parts ++ [name']))) : name = name' := by
  obtain ⟨here, hHere⟩ := exists_destination_join d parts
  obtain ⟨before, _, hJoin⟩ := Path.exists_before_join [here]
  rw [hHere name h, hHere name' h', hJoin name h, hJoin name' h'] at hEq
  exact List.append_cancel_left hEq

/-! ## Writing files -/

/-- What a disk must be like to write a file on it, and what it is like then. -/
theorem store_ok (h : d.store p data = .ok d') :
    d.locate true p = .ok (d.destination p) ∧
      d.entry? (d.destination p) ≠ some .directory ∧
      d' = d.set (d.destination p) (.file data) := by
  unfold store at h
  dsimp only at h
  split at h
  · cases h
  · rename_i path hLocate
    split at h
    · cases h
    · rename_i hKind
      simp only [ne_eq, decide_not, Bool.or_eq_true, Bool.not_eq_true', decide_eq_false_iff_not,
        decide_eq_true_eq, not_or, not_not] at hKind
      obtain ⟨hTrimmed, hNoDirectory⟩ := hKind
      rw [hTrimmed] at hLocate
      have hLocate' : d.locate true p = .ok path := by
        split at hLocate <;> exact hLocate
      have hPath := eq_of_locate hLocate'
      subst hPath
      cases h
      exact ⟨hLocate', hNoDirectory, rfl⟩

theorem ne_root_of_entry?_ne (h : d.entry? path ≠ some .directory) : path ≠ [Path.slash] := by
  rintro rfl
  exact h (entry?_root d)

theorem grows_set_file (h : d.entry? path ≠ some .directory) : Grows d (d.set path (.file data)) := by
  have hRoot := ne_root_of_entry?_ne h
  refine ⟨rfl, ?_, ?_⟩
  · intro q hq
    have hNe : q ≠ path := by
      rintro rfl
      exact h hq
    rw [entry?_set d hRoot, if_neg hNe]
    exact hq
  · intro q hq
    rw [entry?_set d hRoot]
    split
    · rfl
    · exact hq

theorem fetch_store (h : d.store p data = .ok d') : d'.fetch p = .ok data := by
  obtain ⟨hLocate, hKind, rfl⟩ := store_ok h
  have hGrows : Grows d (d.set (d.destination p) (.file data)) := grows_set_file hKind
  have hEntry : Disk.entry? (d.set (d.destination p) (.file data)) (d.destination p) =
      some (.file data) := by
    rw [entry?_set d (ne_root_of_entry?_ne hKind), if_pos rfl]
  rw [fetch_ok_iff, hGrows.destination_eq]
  refine ⟨hGrows.locate hLocate ?_, hEntry⟩
  rw [hEntry]
  exact fun _ => rfl

theorem entry?_store (h : d.store p data = .ok d') (hq : q ≠ d.destination p) :
    d'.entry? q = d.entry? q := by
  obtain ⟨_, hKind, rfl⟩ := store_ok h
  rw [entry?_set d (ne_root_of_entry?_ne hKind), if_neg hq]

theorem grows_store (h : d.store p data = .ok d') : Grows d d' := by
  obtain ⟨_, hKind, rfl⟩ := store_ok h
  exact grows_set_file hKind

theorem fetch_store_other {data' : Text} (h : d.store p data = .ok d')
    (hq : d.destination q ≠ d.destination p) (hFetch : d.fetch q = .ok data') :
    d'.fetch q = .ok data' := by
  have hEntry := (fetch_ok_iff.mp hFetch).2
  exact (grows_store h).fetch hFetch ((entry?_store h hq).trans hEntry)

/-! ## Creating directories -/

/-- A disk that differs from another one in nothing but new directories. -/
structure AddsDirectories (d d' : Disk) : Prop where
  workDir_eq : d'.workDir = d.workDir
  entry?_eq : ∀ q, d'.entry? q = d.entry? q ∨ d.entry? q = none ∧ d'.entry? q = some .directory

theorem addsDirectories_refl (d : Disk) : AddsDirectories d d := ⟨rfl, fun _ => Or.inl rfl⟩

theorem AddsDirectories.trans (h : AddsDirectories d d') (h' : AddsDirectories d' d'') :
    AddsDirectories d d'' := by
  refine ⟨h'.workDir_eq.trans h.workDir_eq, ?_⟩
  intro q
  rcases h'.entry?_eq q with hSame | ⟨hNone, hNew⟩
  · rw [hSame]
    exact h.entry?_eq q
  · rcases h.entry?_eq q with hSame' | ⟨hNone', hNew'⟩
    · exact Or.inr ⟨hSame' ▸ hNone, hNew⟩
    · exact Or.inr ⟨hNone', hNew⟩

theorem AddsDirectories.entry?_of_some (h : AddsDirectories d d') {e : Entry}
    (hq : d.entry? q = some e) : d'.entry? q = some e := by
  rcases h.entry?_eq q with hSame | ⟨hNone, _⟩
  · exact hSame.trans hq
  · rw [hNone] at hq
    cases hq

theorem AddsDirectories.grows (h : AddsDirectories d d') : Grows d d' := by
  refine ⟨h.workDir_eq, fun q hq => h.entry?_of_some hq, ?_⟩
  intro q hq
  obtain ⟨e, he⟩ := Option.isSome_iff_exists.mp hq
  rw [h.entry?_of_some he]
  rfl

theorem AddsDirectories.fetch (h : AddsDirectories d d') (hFetch : d.fetch p = .ok data) :
    d'.fetch p = .ok data :=
  h.grows.fetch hFetch (h.entry?_of_some (fetch_ok_iff.mp hFetch).2)

theorem addsDirectories_set (h : d.entry? path = none) :
    AddsDirectories d (d.set path .directory) := by
  have hRoot : path ≠ [Path.slash] := ne_root_of_entry?_ne (d := d) (by simp [h])
  refine ⟨rfl, ?_⟩
  intro q
  rw [entry?_set d hRoot]
  by_cases hq : q = path
  · rw [if_pos hq, hq]
    exact Or.inr ⟨h, rfl⟩
  · rw [if_neg hq]
    exact Or.inl rfl

theorem makeDirsBelow_addsDirectories {done : Text} (h : d.makeDirsBelow done es = .ok d') :
    AddsDirectories d d' := by
  induction es generalizing d done with
  | nil =>
      rw [makeDirsBelow] at h
      cases h
      exact addsDirectories_refl d'
  | cons e es ih =>
      rw [makeDirsBelow] at h
      split at h
      · exact ih h
      · cases h
      · rename_i hNone
        exact (addsDirectories_set hNone).trans (ih h)

theorem makeDirs_addsDirectories (h : d.makeDirs p = .ok d') : AddsDirectories d d' :=
  makeDirsBelow_addsDirectories h

end TokenLint.Disk
