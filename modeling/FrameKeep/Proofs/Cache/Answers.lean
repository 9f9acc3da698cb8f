import FrameKeep.Proofs.Cache.Access

/-!
# Answers and entries

No key has two entries, so what a cache answers about a key says what its entry is, and the other
way round: a hit is a live entry, a near miss a ghost, and a far miss no entry at all.
-/

namespace FrameKeep

variable {κ ν : Type} [DecidableEq κ]

namespace PlainCache

variable {cache : PlainCache κ ν} {key : κ} {payload : ν}

/-- A look-up hits exactly the live entry of its key. -/
theorem lookup_eq_hit_iff (distinct : (cache.entries.map (·.key)).Nodup) :
    (cache.lookup key).1 = .hit payload ↔
      { key, payload := some payload } ∈ cache.entries := by
  rw [lookup_found, ← Entry.find?_eq_some_iff distinct]
  cases found : Entry.find? cache.entries key with
  | none => simp
  | some entry =>
    obtain rfl := Entry.key_of_find?_eq_some found
    obtain ⟨key, _ | held⟩ := entry <;> simp [Lookup.ofRemembered]

private theorem lookup_eq_nearMiss_iff (distinct : (cache.entries.map (·.key)).Nodup) :
    (cache.lookup key).1 = .nearMiss ↔ { key, payload := none } ∈ cache.entries := by
  rw [lookup_found, ← Entry.find?_eq_some_iff distinct]
  cases found : Entry.find? cache.entries key with
  | none => simp
  | some entry =>
    obtain rfl := Entry.key_of_find?_eq_some found
    obtain ⟨key, _ | held⟩ := entry <;> simp [Lookup.ofRemembered]

private theorem lookup_eq_farMiss_iff :
    (cache.lookup key).1 = .farMiss ↔ key ∉ cache.entries.map (·.key) := by
  have absent : Entry.find? cache.entries key = none ↔ key ∉ cache.entries.map (·.key) := by
    simp [Entry.find?_eq_none_iff]
  rw [lookup_found, ← absent]
  cases Entry.find? cache.entries key with
  | none => simp
  | some entry => obtain ⟨key, _ | held⟩ := entry <;> simp [Lookup.ofRemembered]

private theorem peek?_eq_some_iff (distinct : (cache.entries.map (·.key)).Nodup) :
    cache.peek? key = some payload ↔ { key, payload := some payload } ∈ cache.entries := by
  rw [peek?, ← Entry.find?_eq_some_iff distinct, Option.bind_eq_some_iff]
  constructor
  · rintro ⟨⟨other, payload?⟩, found, held⟩
    obtain rfl := Entry.key_of_find?_eq_some found
    obtain rfl : payload? = some payload := held
    exact found
  · intro found
    exact ⟨_, found, rfl⟩

end PlainCache

namespace Cache.Consistent

variable [Hashable κ] {cache : Cache κ ν} {key : κ} {payload : ν}

/-- No key is remembered twice. -/
theorem distinct (consistent : cache.Consistent) : (cache.toPlain.entries.map (·.key)).Nodup := by
  obtain ⟨cells, arranged⟩ := consistent.arranged
  have entries : cache.toPlain.entries = cells.map (·.2) := arranged.entries_eq
  rw [entries, List.map_map]
  exact arranged.keys_nodup

/-- A cache says that it is empty exactly if it has no entries. -/
theorem isEmpty_iff (consistent : cache.Consistent) : cache.isEmpty ↔ cache.entries = [] := by
  obtain ⟨cells, arranged⟩ := consistent.arranged
  change (cache.size == 0) = true ↔ _
  rw [beq_iff_eq, arranged.size_eq, arranged.entries_eq, List.map_eq_nil_iff,
    List.length_eq_zero_iff]

/-- A look-up hits exactly the live entry of its key. -/
theorem lookup_eq_hit_iff (consistent : cache.Consistent) :
    (cache.lookup key).1 = .hit payload ↔
      { key, payload := some payload } ∈ cache.entries := by
  rw [consistent.lookup_found]
  exact PlainCache.lookup_eq_hit_iff consistent.distinct

/-- A look-up misses near on exactly the keys of the ghosts. -/
theorem lookup_eq_nearMiss_iff (consistent : cache.Consistent) :
    (cache.lookup key).1 = .nearMiss ↔ { key, payload := none } ∈ cache.entries := by
  rw [consistent.lookup_found]
  exact PlainCache.lookup_eq_nearMiss_iff consistent.distinct

/-- A look-up misses far on exactly the keys that are not remembered. -/
theorem lookup_eq_farMiss_iff (consistent : cache.Consistent) :
    (cache.lookup key).1 = .farMiss ↔ key ∉ cache.keys := by
  rw [consistent.lookup_found]
  exact PlainCache.lookup_eq_farMiss_iff

/-- Getting a key gives exactly the payload of its live entry. -/
theorem get_eq_some_iff (consistent : cache.Consistent) :
    (cache.get key).1 = some payload ↔ { key, payload := some payload } ∈ cache.entries := by
  rw [← consistent.lookup_eq_hit_iff]
  change (cache.lookup key).1.payload? = some payload ↔ _
  cases (cache.lookup key).1 <;> simp [Lookup.payload?]

/-- Peeking at a key gives exactly the payload of its live entry. -/
theorem peek?_eq_some_iff (consistent : cache.Consistent) :
    cache.peek? key = some payload ↔ { key, payload := some payload } ∈ cache.entries := by
  rw [consistent.peek?_eq]
  exact PlainCache.peek?_eq_some_iff consistent.distinct

end Cache.Consistent

end FrameKeep
