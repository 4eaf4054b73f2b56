import TokenLint.Proofs.ClassMap.Payload
import TokenLint.Proofs.Disk

/-!
# What the cache gives back

An entry holds the pairs of a class map, and the class map that the cache answers with is made of
them anew. So it is not the class map that was put, but its snapshot.

* `get_put`: after a class map was put, the cache answers with its snapshot.
* `get_put_other`, `Lacks.put_other`: entries with other keys are neither changed nor made.
* `get_put_lossless_iff`: that is the class map itself if and only if no name has white space at
  its ends.
-/

namespace TokenLint

namespace Text

theorem hexDigit_spec : ∀ i < 16, hexDigit i ≠ Path.slash ∧
    ∀ j < 16, hexDigit i = hexDigit j → i = j := by
  decide

theorem slash_notMem_hex (t : Text) : Path.slash ∉ hex t := by
  intro hMem
  obtain ⟨b, _, hb⟩ := List.mem_flatMap.mp hMem
  have hLt := b.toNat_lt
  rcases List.mem_cons.mp hb with hHigh | hLow
  · exact (hexDigit_spec (b.toNat / 16) (by omega)).1 hHigh.symm
  · exact (hexDigit_spec (b.toNat % 16) (by omega)).1 (List.mem_singleton.mp hLow).symm

theorem hex_injective {t u : Text} (h : hex t = hex u) : t = u := by
  induction t generalizing u with
  | nil =>
      cases u with
      | nil => rfl
      | cons b u => cases h
  | cons a t ih =>
      cases u with
      | nil => cases h
      | cons b u =>
          have haLt := a.toNat_lt
          have hbLt := b.toNat_lt
          obtain ⟨hHigh, hRest⟩ := List.cons.inj h
          obtain ⟨hLow, hTail⟩ := List.cons.inj hRest
          have hDiv := (hexDigit_spec _ (by omega)).2 _ (by omega) hHigh
          have hMod := (hexDigit_spec _ (by omega)).2 _ (by omega) hLow
          have hEq : a = b := UInt8.toNat_inj.mp (by omega)
          rw [hEq, ih hTail]

end Text

namespace ClassMapCache

open ClassMap

variable {c : ClassMapCache} {d d' : Disk} {key source : Text} {m : ClassMap}

theorem put_ok (h : c.put d key source m = .ok d') :
    ∃ made, d.makeDirs c.entryDir = .ok made ∧
      made.store (c.entryPath key) (Payload.ofMap source m).encode = .ok d' := by
  unfold put at h
  cases hMade : d.makeDirs c.entryDir with
  | error e =>
      rw [hMade] at h
      cases h
  | ok made =>
      rw [hMade] at h
      exact ⟨made, rfl, h⟩

/-- An entry with the pairs of a class map is answered with the snapshot of the class map. -/
theorem get_of_fetch {fold : Text → Text} (h : Proper fold m)
    (hFits : (Payload.ofMap source m).Fits)
    (hFetch : d.fetch (c.entryPath key) = .ok (Payload.ofMap source m).encode) :
    c.get d key = .hit m.snapshot := by
  have hDecode := Payload.decode?_encode hFits h.nodup_pairs
  rw [get, hFetch]
  dsimp only
  rw [hDecode]
  rfl

theorem get_put {fold : Text → Text} (h : Proper fold m) (hFits : (Payload.ofMap source m).Fits)
    (hPut : c.put d key source m = .ok d') : c.get d' key = .hit m.snapshot := by
  obtain ⟨made, _, hStore⟩ := put_ok hPut
  exact get_of_fetch h hFits (Disk.fetch_store hStore)

/-! ## Other entries -/

theorem getLast?_entryName (key : Text) :
    (Text.hex key ++ Text.ofString ".mp").getLast? = some 112 := by
  rw [List.getLast?_append_of_ne_nil _ (by decide)]
  rfl

theorem plain_entryName (key : Text) : Path.Plain (Text.hex key ++ ".mp") := by
  have hLast := getLast?_entryName key
  refine ⟨?_, ?_, ?_, ?_⟩
  · intro hMem
    rcases List.mem_append.mp hMem with hHex | hEnd
    · exact Text.slash_notMem_hex key hHex
    · exact absurd hEnd (by decide)
  all_goals
    intro hEq
    rw [hEq] at hLast
    exact absurd hLast (by decide)

/-- The place of the entry with a key. -/
def place (c : ClassMapCache) (d : Disk) (key : Text) : Text := d.destination (c.entryPath key)

/-- There is no entry with the key. -/
def Lacks (c : ClassMapCache) (d : Disk) (key : Text) : Prop :=
  ∀ data, d.entry? (c.place d key) ≠ some (.file data)

theorem place_injective {key' : Text} (h : c.place d key = c.place d key') : key = key' := by
  have hName := Disk.destination_join_injective d [c.dir, Text.ofString "classmaps"]
    (plain_entryName key) (plain_entryName key') h
  exact Text.hex_injective (List.append_cancel_right hName)

/-- A disk on which no path ends like the name of an entry has no entries. -/
theorem lacks_of_forall_endings (h : ∀ x ∈ d.entries, x.1.getLast? ≠ some 112) :
    c.Lacks d key := by
  have hPlace : (c.place d key).getLast? = some 112 := by
    obtain ⟨here, hHere⟩ :=
      Disk.exists_destination_join d [c.dir, Text.ofString "classmaps"]
    obtain ⟨before, _, hJoin⟩ := Path.exists_before_join [here]
    have hPlain := plain_entryName key
    have hEq : c.place d key = before ++ (Text.hex key ++ Text.ofString ".mp") :=
      (hHere _ hPlain).trans (hJoin _ hPlain)
    rw [hEq, List.getLast?_append_of_ne_nil _ hPlain.ne_nil, getLast?_entryName]
  intro data hEntry
  unfold Disk.entry? at hEntry
  split at hEntry
  · cases hEntry
  · obtain ⟨before, after, hEntries, _⟩ := List.lookup_eq_some_iff.mp hEntry
    exact h (c.place d key, .file data) (by simp [hEntries]) hPlace

theorem exists_fetch_of_get (h : c.get d key = .hit m) :
    ∃ data, d.fetch (c.entryPath key) = .ok data := by
  unfold get at h
  split at h
  · split at h <;> cases h
  · rename_i data hFetch
    exact ⟨data, hFetch⟩

theorem Lacks.get_ne_hit (h : c.Lacks d key) (m : ClassMap) : c.get d key ≠ .hit m := by
  intro hGet
  obtain ⟨data, hFetch⟩ := exists_fetch_of_get hGet
  exact h data (Disk.fetch_ok_iff.mp hFetch).2

theorem get_put_other {key' : Text} {m' : ClassMap} (hPut : c.put d key source m = .ok d')
    (hKey : key' ≠ key) (h : c.get d key' = .hit m') : c.get d' key' = .hit m' := by
  obtain ⟨made, hMade, hStore⟩ := put_ok hPut
  obtain ⟨data, hFetch⟩ := exists_fetch_of_get h
  have hFetchMade := (Disk.makeDirs_addsDirectories hMade).fetch hFetch
  have hPlace : made.destination (c.entryPath key') ≠ made.destination (c.entryPath key) :=
    fun hEq => hKey (place_injective (d := made) hEq)
  have hFetch' := Disk.fetch_store_other hStore hPlace hFetchMade
  unfold get at h ⊢
  rw [hFetch']
  rw [hFetch] at h
  exact h

theorem Lacks.put_other {key' : Text} (h : c.Lacks d key') (hPut : c.put d key source m = .ok d')
    (hKey : key' ≠ key) : c.Lacks d' key' := by
  obtain ⟨made, hMade, hStore⟩ := put_ok hPut
  have hAdds := Disk.makeDirs_addsDirectories hMade
  have hPlaceMade : c.place made key' = c.place d key' := hAdds.grows.destination_eq _
  have hPlace : c.place d' key' = c.place made key' :=
    (Disk.grows_store hStore).destination_eq _
  have hNe : c.place made key' ≠ made.destination (c.entryPath key) :=
    fun hEq => hKey (place_injective (d := made) hEq)
  intro data hEntry
  rw [hPlace, Disk.entry?_store hStore hNe, hPlaceMade] at hEntry
  rcases hAdds.entry?_eq (c.place d key') with hSame | ⟨_, hNew⟩
  · exact h data (hSame ▸ hEntry)
  · rw [hNew] at hEntry
    cases hEntry

/-! ## What is lost -/

/-- The cache answers with the snapshot of a class map that was put. The snapshot has as many
classes, the same pairs and the same answers if and only if no name of the class map has white space
at its ends, which it can have behind a backslash that was cut. -/
theorem get_put_lossless_iff (h : Built Text.fold m) :
    (∀ (c : ClassMapCache) (d d' : Disk) (key source : Text), (Payload.ofMap source m).Fits →
        c.put d key source m = .ok d' → c.get d' key = .hit m.snapshot) ∧
      (Alike Text.fold m.snapshot m ∧ m.snapshot.pairs.Perm m.pairs ↔ m.NeatNames) := by
  have hProper := h.proper
  refine ⟨fun c d d' key source hFits hPut => get_put hProper hFits hPut, ?_⟩
  constructor
  · rintro ⟨_, hPairs⟩
    exact hProper.snapshot_pairs_perm_iff.mp hPairs
  · intro hNeat
    exact ⟨hProper.snapshot_alike hNeat, hProper.snapshot_pairs_perm_iff.mpr hNeat⟩

theorem get_put_lossless_iff_backslashBlank :
    Built Text.fold (ofPairs [("\\ Tx_A", "New\\A")]) ∧
      ¬ (Alike Text.fold (ofPairs [("\\ Tx_A", "New\\A")]).snapshot (ofPairs [("\\ Tx_A", "New\\A")]) ∧
        (ofPairs [("\\ Tx_A", "New\\A")]).snapshot.pairs.Perm
          (ofPairs [("\\ Tx_A", "New\\A")]).pairs) := by
  have hBuilt : Built Text.fold (ofPairs [("\\ Tx_A", "New\\A")]) := .ofPairs _
  refine ⟨hBuilt, ?_⟩
  intro hLossless
  have hNeat := (get_put_lossless_iff hBuilt).2.mp hLossless
  revert hNeat
  decide +kernel

end ClassMapCache

end TokenLint
