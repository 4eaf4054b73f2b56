import TokenLint.ClassMap.Cache
import TokenLint.Proofs.ClassMap.Snapshot
import TokenLint.Proofs.MessagePack

/-!
# Entries of the cache

What an entry is written as is read back: the version, the source and the pairs in their order. No
name may stand twice among the pairs, and lengths must fit the 32 bits that are there for them.
-/

namespace TokenLint.ClassMapCache.Payload

open MessagePack

/-- The lengths in the entry have 32 bits at most. -/
structure Fits (p : Payload) : Prop where
  source : p.source.length < 2 ^ 32
  count : p.pairs.length < 2 ^ 32
  names : ∀ x ∈ p.pairs, x.1.length < 2 ^ 32 ∧ x.2.length < 2 ^ 32

instance (p : Payload) : Decidable p.Fits :=
  decidable_of_iff (p.source.length < 2 ^ 32 ∧ p.pairs.length < 2 ^ 32 ∧
      ∀ x ∈ p.pairs, x.1.length < 2 ^ 32 ∧ x.2.length < 2 ^ 32)
    ⟨fun ⟨hSource, hCount, hNames⟩ => ⟨hSource, hCount, hNames⟩, fun h => ⟨h.1, h.2, h.3⟩⟩

/-- The pairs as the entries of a map. -/
def packedPairs (pairs : List (Text × Text)) : List (MessagePack × MessagePack) :=
  pairs.map fun x => (.text x.1, .text x.2)

/-- The entry as a map of its fields. -/
def packed (p : Payload) : List (MessagePack × MessagePack) :=
  [(.text "Schema", .int p.version.toNat), (.text "Source", .text p.source),
    (.text "Pairs", .map (packedPairs p.pairs))]

/-! ## Writing and reading -/

theorem readsEntries_pairs {pairs : List (Text × Text)}
    (hNames : ∀ x ∈ pairs, x.1.length < 2 ^ 32 ∧ x.2.length < 2 ^ 32) :
    ReadsEntries (pairs.flatMap fun x => writeText x.1 ++ writeText x.2) (packedPairs pairs) := by
  induction pairs with
  | nil => exact readsEntries_nil
  | cons x pairs ih =>
      obtain ⟨hLegacy, hModern⟩ := hNames x List.mem_cons_self
      have hRest := ih fun y hy => hNames y (List.mem_cons_of_mem _ hy)
      rw [List.flatMap_cons]
      exact ReadsEntries.cons (reads_writeText hLegacy) (reads_writeText hModern) hRest

theorem reads_encode {p : Payload} (h : p.Fits) : Reads p.encode (.map p.packed) := by
  have hPairs : Reads (writeHeader .map p.pairs.length
      ++ p.pairs.flatMap fun x => writeText x.1 ++ writeText x.2) (.map (packedPairs p.pairs)) := by
    have hLength : (packedPairs p.pairs).length = p.pairs.length := List.length_map _
    rw [← hLength]
    exact reads_map (hLength ▸ h.count) (readsEntries_pairs h.names)
  have hFields : ReadsEntries _ p.packed := ReadsEntries.cons (reads_writeText (t := "Schema") (by decide))
    (reads_writeUInt16 p.version)
    (ReadsEntries.cons (reads_writeText (t := "Source") (by decide)) (reads_writeText h.source)
      (ReadsEntries.cons (reads_writeText (t := "Pairs") (by decide)) hPairs readsEntries_nil))
  have hCount : p.packed.length < 2 ^ 32 := by simp [packed]
  exact reads_map hCount hFields

theorem version?_int (n : UInt16) : version? (.int n.toNat) = some n := by
  have hMod : ((n.toNat : Int) % 65536).toNat = n.toNat := by
    have hLt := n.toNat_lt
    omega
  rw [version?, int?, Option.map_some, hMod]
  simp

theorem readPairs?_packedPairs {pairs : List (Text × Text)} (hNodup : (pairs.map Prod.fst).Nodup) :
    readPairs? [] (.map (packedPairs pairs)) = some pairs := by
  have hRun : ∀ (rest before : List (Text × Text)),
      (packedPairs rest).foldlM
          (fun ps e => do return Table.assign ps (← e.1.text?) (← e.2.text?)) before =
        some (rest.foldl (fun table x => Table.assign table x.1 x.2) before) := by
    intro rest
    induction rest with
    | nil => exact fun before => rfl
    | cons x rest ih => exact fun before => ih _
  rw [readPairs?, hRun, Table.foldl_assign_of_nodup _ _ hNodup]
  rfl

theorem readField?_version (p : Payload) (n : UInt16) :
    readField? p (.text "Schema", .int n.toNat) = some { p with version := n } := by
  have hVersion := version?_int n
  simp only [readField?, text?, Option.bind_some, if_true, hVersion, Option.map_some]

theorem readField?_source (p : Payload) (t : Text) :
    readField? p (.text "Source", .text t) = some { p with source := t } := by
  have hNe : Text.ofString "Source" ≠ Text.ofString "Schema" := by decide
  simp only [readField?, text?, Option.bind_some, if_neg hNe, if_true, Option.map_some]

theorem readField?_pairs (p : Payload) {v : MessagePack} {pairs : List (Text × Text)}
    (h : readPairs? p.pairs v = some pairs) :
    readField? p (.text "Pairs", v) = some { p with pairs := pairs } := by
  have hNe : Text.ofString "Pairs" ≠ Text.ofString "Schema" := by decide
  have hNe' : Text.ofString "Pairs" ≠ Text.ofString "Source" := by decide
  simp only [readField?, text?, Option.bind_some, if_neg hNe, if_neg hNe', if_true, h,
    Option.map_some]

/-- An entry is read as it was written. -/
theorem decode?_encode {p : Payload} (h : p.Fits) (hNodup : (p.pairs.map Prod.fst).Nodup) :
    decode? p.encode = some p := by
  have hPairs : readPairs? [] (.map (packedPairs p.pairs)) = some p.pairs :=
    readPairs?_packedPairs hNodup
  rw [decode?, parse_of_reads (reads_encode h), Option.bind_some, ofMessagePack?, packed,
    List.foldlM_cons, readField?_version, Option.bind_eq_bind, Option.bind_some, List.foldlM_cons,
    readField?_source, Option.bind_eq_bind, Option.bind_some, List.foldlM_cons,
    readField?_pairs _ hPairs]
  rfl

end TokenLint.ClassMapCache.Payload
