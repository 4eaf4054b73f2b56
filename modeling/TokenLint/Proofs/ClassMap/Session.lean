import TokenLint.Proofs.ClassMap.Cache

/-!
# Loading mapping files through a cache

The cache knows a mapping file by its data alone, and what it answers with is a snapshot. So what
loading a file gives depends on the first file with the same data that could be read: its class map
is given again, made of its own pairs, even if the name of the present file asks for another format
or for none. A session is a run of such loads on a cache that has no entries at the start, while
others may change everything but the entries.

* `Session.remembers`: what a session leaves in the cache.
* `Session.load_agrees_iff`: what a load in a session gives, and when that is what reading the file
  gives.
-/

namespace TokenLint.ClassMapCache

open ClassMap

variable {digest : Text → Text} {readers : Readers} {c : ClassMapCache} {d d' : Disk}
  {key path data : Text} {m : ClassMap}

/-! ## One load -/

theorem proper_of_parseWith {ext : Text} (h : parseWith readers data ext = .ok m) :
    Proper Text.fold m := by
  have hTable : ∀ pairs, (match pairs with
      | some pairs => Except.ok (ofPairs pairs)
      | none => .error MappingError.noClasses) = .ok m → Proper Text.fold m := by
    intro pairs hPairs
    cases pairs with
    | none => cases hPairs
    | some pairs =>
        cases hPairs
        exact proper_ofPairsWith pairs
  unfold parseWith at h
  dsimp only at h
  split at h
  · split at h
    · cases h
    · exact hTable _ h
  · split at h
    · split at h
      · cases h
      · exact hTable _ h
      · cases h
    · cases h

/-- What loading a file gives: what the cache answers for its data, else what is read. -/
theorem loadWith_result (parse : Text → Text → Except MappingError ClassMap) :
    (c.loadWith digest parse d path).result =
      match d.fetch path with
      | .error e => .error (.disk e)
      | .ok data =>
        match c.get d (digest data) with
        | .hit m => .ok m
        | _ => (parse data (Path.ext path)).mapError (.content path) := by
  unfold loadWith
  cases hFetch : d.fetch path with
  | error e => rfl
  | ok data =>
      dsimp only
      cases hGet : c.get d (digest data) with
      | hit m => rfl
      | miss | broken =>
          dsimp only
          cases hParse : parse data (Path.ext path) with
          | error e => rfl
          | ok m =>
              dsimp only
              split <;> rfl

/-- What loading a file does to the disk: a class map is put if the cache has no answer and the file
has one, and else nothing happens. -/
theorem loadWith_disk (parse : Text → Text → Except MappingError ClassMap)
    (hKept : (c.loadWith digest parse d path).complaint = none) :
    (∃ data m, d.fetch path = .ok data ∧ parse data (Path.ext path) = .ok m ∧
        (∀ m', c.get d (digest data) ≠ .hit m') ∧
        c.put d (digest data) path m = .ok (c.loadWith digest parse d path).disk) ∨
      (c.loadWith digest parse d path).disk = d ∧
        ∀ data m, d.fetch path = .ok data → parse data (Path.ext path) = .ok m →
          ∃ m', c.get d (digest data) = .hit m' := by
  unfold loadWith at hKept ⊢
  cases hFetch : d.fetch path with
  | error e => exact Or.inr ⟨rfl, fun data m hOk _ => by cases hOk⟩
  | ok data =>
      rw [hFetch] at hKept
      dsimp only at hKept ⊢
      cases hGet : c.get d (digest data) with
      | hit m' =>
          refine Or.inr ⟨rfl, ?_⟩
          rintro _ m ⟨⟩ _
          exact ⟨m', hGet⟩
      | miss | broken =>
          rw [hGet] at hKept
          dsimp only at hKept ⊢
          cases hParse : parse data (Path.ext path) with
          | error e =>
              refine Or.inr ⟨rfl, ?_⟩
              rintro _ m ⟨⟩ hOk
              rw [hParse] at hOk
              cases hOk
          | ok m =>
              rw [hParse] at hKept
              dsimp only at hKept ⊢
              cases hPut : c.put d (digest data) path m with
              | error e =>
                  rw [hPut] at hKept
                  cases hKept
              | ok d' =>
                  have hMiss : ∀ m', c.get d (digest data) ≠ .hit m' := by
                    rw [hGet]
                    rintro m' ⟨⟩
                  exact Or.inl ⟨data, m, rfl, hParse, hGet ▸ hMiss, hPut⟩

/-! ## Sessions -/

/-- A mapping file as it was when it was read. -/
structure Reading where
  path : Text
  data : Text
  deriving DecidableEq, Inhabited

/-- The class map in a mapping file, if there is one. -/
def Reading.map? (readers : Readers) (r : Reading) : Option ClassMap :=
  (parseWith readers r.data (Path.ext r.path)).toOption

/-- The mapping file at a path, if it can be read. -/
def readingsOf (d : Disk) (path : Text) : List Reading :=
  match d.fetch path with
  | .ok data => [⟨path, data⟩]
  | .error _ => []

/-- The class map in the first of the files with the given data that had one. -/
def first? (readers : Readers) (h : List Reading) (data : Text) : Option ClassMap :=
  h.findSome? fun r => if r.data = data then r.map? readers else none

/-- The cache answers the same on both disks, and has no entries on the second one where it had none
on the first one. -/
structure SameEntries (c : ClassMapCache) (d d' : Disk) : Prop where
  get_eq : ∀ key, c.get d' key = c.get d key
  lacks : ∀ key, c.Lacks d key → c.Lacks d' key

/-- The mapping files that were read in a session, and the disk after it: files were loaded and all
class maps could be kept, and anything but the entries was changed by others in between. -/
inductive Session (digest : Text → Text) (readers : Readers) (c : ClassMapCache) :
    List Reading → Disk → Prop
  | start {d : Disk} : (∀ key, c.Lacks d key) → Session digest readers c [] d
  | load {h : List Reading} {d : Disk} (path : Text) : Session digest readers c h d →
      (c.loadWith digest (parseWith readers) d path).complaint = none →
      Session digest readers c (h ++ readingsOf d path)
        (c.loadWith digest (parseWith readers) d path).disk
  | change {h : List Reading} {d d' : Disk} : Session digest readers c h d →
      SameEntries c d d' → Session digest readers c h d'

variable {h : List Reading}

/-- No two of the files have one digest and different data. -/
def CollisionFree (digest : Text → Text) (h : List Reading) : Prop :=
  ∀ r ∈ h, ∀ r' ∈ h, digest r.data = digest r'.data → r.data = r'.data

/-- The lengths in the entries of all class maps that were read have 32 bits at most. -/
def Fitting (readers : Readers) (h : List Reading) : Prop :=
  ∀ r ∈ h, ∀ m, r.map? readers = some m → (Payload.ofMap r.path m).Fits

/-- What is in the cache after the files have been read: for their data the snapshot of the class
map that was read first, and nothing else. -/
structure Remembers (digest : Text → Text) (readers : Readers) (c : ClassMapCache)
    (h : List Reading) (d : Disk) : Prop where
  hit : ∀ data m, first? readers h data = some m → c.get d (digest data) = .hit m.snapshot
  lacks : ∀ key, (∀ r ∈ h, digest r.data = key → r.map? readers = none) → c.Lacks d key

theorem first?_eq_none_iff :
    first? readers h data = none ↔ ∀ r ∈ h, r.data = data → r.map? readers = none := by
  simp [first?, List.findSome?_eq_none_iff]

theorem first?_append (h h' : List Reading) (data : Text) :
    first? readers (h ++ h') data = (first? readers h data).or (first? readers h' data) :=
  List.findSome?_append

theorem exists_of_first? (hFirst : first? readers h data = some m) :
    ∃ r ∈ h, r.data = data ∧ r.map? readers = some m := by
  obtain ⟨r, hr, hMap⟩ := List.exists_of_findSome?_eq_some hFirst
  split at hMap
  · rename_i hData
    exact ⟨r, hr, hData, hMap⟩
  · cases hMap

theorem map?_eq_some_iff {r : Reading} :
    r.map? readers = some m ↔ parseWith readers r.data (Path.ext r.path) = .ok m := by
  unfold Reading.map?
  cases parseWith readers r.data (Path.ext r.path) <;> simp [Except.toOption]

theorem mem_readingsOf {r : Reading} :
    r ∈ readingsOf d path ↔ r.path = path ∧ d.fetch path = .ok r.data := by
  unfold readingsOf
  cases hFetch : d.fetch path with
  | error e => simp
  | ok data =>
      rw [List.mem_singleton]
      constructor
      · rintro rfl
        exact ⟨rfl, rfl⟩
      · rintro ⟨rfl, hData⟩
        cases hData
        rfl

theorem CollisionFree.left {h' : List Reading} (hDigest : CollisionFree digest (h ++ h')) :
    CollisionFree digest h := fun r hr r' hr' =>
  hDigest r (List.mem_append_left _ hr) r' (List.mem_append_left _ hr')

theorem CollisionFree.eq_of_fetch (hDigest : CollisionFree digest (h ++ readingsOf d path))
    (hFetch : d.fetch path = .ok data) :
    ∀ r ∈ h, digest r.data = digest data → r.data = data := fun r hr =>
  hDigest r (List.mem_append_left _ hr) ⟨path, data⟩
    (List.mem_append_right _ (mem_readingsOf.mpr ⟨rfl, hFetch⟩))

theorem Remembers.get_ne_hit (hRemembers : Remembers digest readers c h d)
    (hDigest : ∀ r ∈ h, digest r.data = digest data → r.data = data)
    (hNone : first? readers h data = none) (m : ClassMap) : c.get d (digest data) ≠ .hit m := by
  have hLacks : c.Lacks d (digest data) :=
    hRemembers.lacks _ fun r hr hEq => first?_eq_none_iff.mp hNone r hr (hDigest r hr hEq)
  exact hLacks.get_ne_hit m

theorem Remembers.put (hRemembers : Remembers digest readers c h d)
    (hMap : parseWith readers data (Path.ext path) = .ok m)
    (hMiss : ∀ m', c.get d (digest data) ≠ .hit m')
    (hFits : (Payload.ofMap path m).Fits) (hPut : c.put d (digest data) path m = .ok d') :
    Remembers digest readers c (h ++ [⟨path, data⟩]) d' := by
  have hRead : Reading.map? readers ⟨path, data⟩ = some m := map?_eq_some_iff.mpr hMap
  constructor
  · intro data' m' hFirst
    rw [first?_append, Option.or_eq_some_iff] at hFirst
    rcases hFirst with hOld | ⟨_, hNew⟩
    · have hHit := hRemembers.hit data' m' hOld
      have hNe : digest data' ≠ digest data := by
        intro hEq
        exact hMiss m'.snapshot (hEq ▸ hHit)
      exact get_put_other hPut hNe hHit
    · obtain ⟨r, hr, hData, hSome⟩ := exists_of_first? hNew
      rw [List.mem_singleton.mp hr] at hData hSome
      rw [hRead] at hSome
      cases hSome
      subst hData
      exact get_put (proper_of_parseWith hMap) hFits hPut
  · intro key hKey
    have hNe : key ≠ digest data := by
      rintro rfl
      have hNone := hKey ⟨path, data⟩ (by simp) rfl
      rw [hRead] at hNone
      cases hNone
    exact (hRemembers.lacks key fun r hr => hKey r (List.mem_append_left _ hr)).put_other hPut hNe

/-- Loading a file keeps what the cache remembers, and adds the file. -/
theorem Remembers.load (hRemembers : Remembers digest readers c h d)
    (hKept : (c.loadWith digest (parseWith readers) d path).complaint = none)
    (hDigest : CollisionFree digest (h ++ readingsOf d path))
    (hFits : Fitting readers (h ++ readingsOf d path)) :
    Remembers digest readers c (h ++ readingsOf d path)
      (c.loadWith digest (parseWith readers) d path).disk := by
  rcases loadWith_disk (parseWith readers) hKept with
    ⟨data, m, hFetch, hMap, hMiss, hPut⟩ | ⟨hSame, hKnown⟩
  · have hReadings : readingsOf d path = [⟨path, data⟩] := by
      unfold readingsOf
      rw [hFetch]
    have hFit := hFits ⟨path, data⟩ (by simp [hReadings]) m (map?_eq_some_iff.mpr hMap)
    rw [hReadings]
    exact hRemembers.put hMap hMiss hFit hPut
  · rw [hSame]
    constructor
    · intro data m hFirst
      rw [first?_append, Option.or_eq_some_iff] at hFirst
      rcases hFirst with hOld | ⟨hNone, hNew⟩
      · exact hRemembers.hit data m hOld
      · -- a file that has a class map and changes nothing is one whose data is known
        obtain ⟨r, hr, rfl, hSome⟩ := exists_of_first? hNew
        obtain ⟨hPath, hFetch⟩ := mem_readingsOf.mp hr
        obtain ⟨m', hHit⟩ := hKnown r.data m hFetch (hPath ▸ map?_eq_some_iff.mp hSome)
        exact absurd hHit (hRemembers.get_ne_hit (hDigest.eq_of_fetch hFetch) hNone m')
    · intro key hKey
      exact hRemembers.lacks key fun r hr => hKey r (List.mem_append_left _ hr)

theorem Session.remembers (hSession : Session digest readers c h d)
    (hDigest : CollisionFree digest h) (hFits : Fitting readers h) :
    Remembers digest readers c h d := by
  induction hSession with
  | start hCold =>
      refine ⟨?_, fun key _ => hCold key⟩
      intro data m hFirst
      cases hFirst
  | load path _ hKept ih =>
      have hBefore := ih hDigest.left fun r hr => hFits r (List.mem_append_left _ hr)
      exact hBefore.load hKept hDigest hFits
  | change _ hSame ih =>
      obtain ⟨hHit, hLacks⟩ := ih hDigest hFits
      refine ⟨?_, fun key hKey => hSame.lacks key (hLacks key hKey)⟩
      intro data m hFirst
      rw [hSame.get_eq]
      exact hHit data m hFirst

/-! ## What a load in a session gives -/

/-- The class map of the first file with the data of the file at a path. -/
def known? (readers : Readers) (h : List Reading) (d : Disk) (path : Text) : Option ClassMap :=
  (d.fetch path).toOption.bind (first? readers h)

/-- Is this the ending of YAML files? -/
def IsYaml (ext : Text) : Prop := Text.lower ext = ".yaml" ∨ Text.lower ext = ".yml"

/-- Files with these endings are read in the same way. -/
def SameFormat (ext ext' : Text) : Prop :=
  Text.lower ext = Text.lower ext' ∨ IsYaml ext ∧ IsYaml ext'

/-- Both results are the same error, or class maps that answer alike. -/
def Agree (loaded fresh : Except MappingFileError ClassMap) : Prop :=
  match loaded, fresh with
  | .ok m, .ok m' => Alike Text.fold m m'
  | .error e, .error e' => e = e'
  | _, _ => False

theorem agree_refl (result : Except MappingFileError ClassMap) : Agree result result := by
  cases result with
  | error e => rfl
  | ok m => exact ⟨rfl, fun _ => rfl⟩

theorem agree_ok_iff {fresh : Except MappingFileError ClassMap} :
    Agree (.ok m) fresh ↔ ∃ m', fresh = .ok m' ∧ Alike Text.fold m m' := by
  cases fresh with
  | error e => simp [Agree]
  | ok m' => simp [Agree]

theorem exists_of_known? (hKnown : known? readers h d path = some m) :
    ∃ r ∈ h, d.fetch path = .ok r.data ∧ r.map? readers = some m := by
  obtain ⟨data, hData, hFirst⟩ := Option.bind_eq_some_iff.mp hKnown
  obtain ⟨r, hr, rfl, hMap⟩ := exists_of_first? hFirst
  refine ⟨r, hr, ?_, hMap⟩
  cases hFetch : d.fetch path with
  | error e =>
      rw [hFetch] at hData
      cases hData
  | ok data =>
      rw [hFetch] at hData
      cases hData
      rfl

theorem parseWith_of_sameFormat {ext ext' : Text} (hFormat : SameFormat ext ext')
    (h : parseWith readers data ext = .ok m) : parseWith readers data ext' = .ok m := by
  rcases hFormat with hSame | ⟨hYaml, hYaml'⟩
  · unfold parseWith at h ⊢
    rw [← hSame]
    dsimp only at h ⊢
    split
    · rename_i hKind
      rwa [if_pos hKind] at h
    · rename_i hKind
      rw [if_neg hKind] at h
      split
      · rename_i hToml
        rwa [if_pos hToml] at h
      · rename_i hToml
        rw [if_neg hToml] at h
        cases h
  · have hKind : (decide (Text.lower ext = ".yaml") || decide (Text.lower ext = ".yml")) = true := by
      simpa [IsYaml] using hYaml
    have hKind' :
        (decide (Text.lower ext' = ".yaml") || decide (Text.lower ext' = ".yml")) = true := by
      simpa [IsYaml] using hYaml'
    unfold parseWith at h ⊢
    dsimp only at h ⊢
    rw [if_pos hKind] at h
    rw [if_pos hKind']
    exact h

/-- What a load in a session gives: the snapshot of the class map that the same data gave first, and
if there is none what reading the file gives. -/
theorem Session.load_result (hSession : Session digest readers c h d) (path : Text)
    (hDigest : CollisionFree digest (h ++ readingsOf d path)) (hFits : Fitting readers h) :
    (c.loadWith digest (parseWith readers) d path).result =
      match known? readers h d path with
      | some m => .ok m.snapshot
      | none => d.readClassMapWith (parseWith readers) path := by
  have hRemembers := hSession.remembers hDigest.left hFits
  rw [loadWith_result, known?, Disk.readClassMapWith]
  cases hFetch : d.fetch path with
  | error e => rfl
  | ok data =>
      simp only [Except.toOption, Option.bind_some]
      cases hFirst : first? readers h data with
      | some m => rw [hRemembers.hit data m hFirst]
      | none =>
          have hMiss := hRemembers.get_ne_hit (hDigest.eq_of_fetch hFetch) hFirst
          cases hGet : c.get d (digest data) with
          | hit m => exact absurd hGet (hMiss m)
          | miss => rfl
          | broken => rfl

/-- In a session, loading a file gives the snapshot of the class map that the same data gave first,
and if there is none what reading the file gives. That agrees with reading the file if and only if
the snapshot answers like the class map that is read now. So it does if all files with the data were
read in the format of this one, and no name in them has white space at its ends after it was cut. -/
theorem Session.load_agrees_iff (hSession : Session digest readers c h d) (path : Text)
    (hDigest : CollisionFree digest (h ++ readingsOf d path)) (hFits : Fitting readers h) :
    ((c.loadWith digest (parseWith readers) d path).result =
      match known? readers h d path with
      | some m => .ok m.snapshot
      | none => d.readClassMapWith (parseWith readers) path) ∧
    (Agree (c.loadWith digest (parseWith readers) d path).result
        (d.readClassMapWith (parseWith readers) path) ↔
      ∀ m, known? readers h d path = some m →
        ∃ m', d.readClassMapWith (parseWith readers) path = .ok m' ∧
          Alike Text.fold m.snapshot m') ∧
    ((∀ r ∈ h, ∀ m, d.fetch path = .ok r.data → r.map? readers = some m →
        m.NeatNames ∧ SameFormat (Path.ext r.path) (Path.ext path)) →
      Agree (c.loadWith digest (parseWith readers) d path).result
        (d.readClassMapWith (parseWith readers) path)) := by
  have hResult := hSession.load_result path hDigest hFits
  have hIff : Agree (c.loadWith digest (parseWith readers) d path).result
        (d.readClassMapWith (parseWith readers) path) ↔
      ∀ m, known? readers h d path = some m →
        ∃ m', d.readClassMapWith (parseWith readers) path = .ok m' ∧
          Alike Text.fold m.snapshot m' := by
    rw [hResult]
    cases hKnown : known? readers h d path with
    | none => simp [agree_refl]
    | some m => simp [agree_ok_iff]
  refine ⟨hResult, hIff, ?_⟩
  intro hGood
  rw [hIff]
  intro m hKnown
  obtain ⟨r, hr, hFetch, hMap⟩ := exists_of_known? hKnown
  obtain ⟨hNeat, hFormat⟩ := hGood r hr m hFetch hMap
  have hParse := map?_eq_some_iff.mp hMap
  refine ⟨m, ?_, (proper_of_parseWith hParse).snapshot_alike hNeat⟩
  rw [Disk.readClassMapWith, hFetch]
  dsimp only
  rw [parseWith_of_sameFormat hFormat hParse]
  rfl

/-- A mapping file under two names, of which only one has the ending of a format. -/
def twoNames : Disk where
  entries :=
    [("/w", .directory), ("/w/map.yaml", .file "classes:\n  Tx_A: New\\A\n"),
      ("/w/map.json", .file "classes:\n  Tx_A: New\\A\n")]
  workDir := "/w"

/-- The disk after the file with the ending of a format was loaded. -/
def twoNamesLoaded : Disk :=
  (loadWith Digest.sha256 (parseWith ⟨ofYaml?, ofToml?⟩) ⟨"/c"⟩ twoNames "map.yaml").disk

theorem load_agrees_iff_twoNames :
    Session Digest.sha256 ⟨ofYaml?, ofToml?⟩ ⟨"/c"⟩ (readingsOf twoNames "map.yaml") twoNamesLoaded ∧
      ¬ Agree
          (loadWith Digest.sha256 (parseWith ⟨ofYaml?, ofToml?⟩) ⟨"/c"⟩ twoNamesLoaded
            "map.json").result
          (twoNamesLoaded.readClassMapWith (parseWith ⟨ofYaml?, ofToml?⟩) "map.json") := by
  have hCold : ∀ key, Lacks ⟨"/c"⟩ twoNames key := fun key =>
    lacks_of_forall_endings (by decide +kernel)
  have hSession : Session Digest.sha256 ⟨ofYaml?, ofToml?⟩ ⟨"/c"⟩ (readingsOf twoNames "map.yaml")
      twoNamesLoaded := (Session.start hCold).load "map.yaml" (by decide +kernel)
  have hDigest : CollisionFree Digest.sha256
      (readingsOf twoNames "map.yaml" ++ readingsOf twoNamesLoaded "map.json") := by
    unfold CollisionFree
    decide +kernel
  have hFits : Fitting ⟨ofYaml?, ofToml?⟩ (readingsOf twoNames "map.yaml") := by
    have hAll : ∀ r ∈ readingsOf twoNames "map.yaml", ∀ m ∈ r.map? ⟨ofYaml?, ofToml?⟩,
        (Payload.ofMap r.path m).Fits := by
      decide +kernel
    exact hAll
  have hKnown : (known? ⟨ofYaml?, ofToml?⟩ (readingsOf twoNames "map.yaml") twoNamesLoaded
      "map.json").isSome = true := by
    decide +kernel
  have hError : (twoNamesLoaded.readClassMapWith (parseWith ⟨ofYaml?, ofToml?⟩)
      "map.json").isOk = false := by
    decide +kernel
  obtain ⟨_, hIff, _⟩ := hSession.load_agrees_iff "map.json" hDigest hFits
  refine ⟨hSession, ?_⟩
  rw [hIff]
  intro hFresh
  obtain ⟨m, hm⟩ := Option.isSome_iff_exists.mp hKnown
  obtain ⟨m', hOk, _⟩ := hFresh m hm
  rw [hOk] at hError
  cases hError

end TokenLint.ClassMapCache
