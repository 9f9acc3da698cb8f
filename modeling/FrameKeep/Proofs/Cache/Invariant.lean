import FrameKeep.Proofs.Cache.Refinement

/-!
# The representation invariant

`WellFormed` says of each part of a cache what it has to do with the others, in terms of what can be
read off the cache. Every operation keeps it, faults and what follows them included, so it holds
after every run of a new cache.
-/

namespace FrameKeep.Cache

variable {κ ν : Type}

/-- An entry with a key is that key with some payload. -/
theorem exists_entry_iff {cells : List (Slot × Entry κ ν)} {key : κ} {slot : Slot} :
    (∃ entry, (slot, entry) ∈ cells ∧ entry.key = key) ↔
      ∃ payload, (slot, { key, payload }) ∈ cells := by
  constructor
  · rintro ⟨⟨_, payload⟩, member, rfl⟩
    exact ⟨payload, member⟩
  · rintro ⟨payload, member⟩
    exact ⟨_, member, rfl⟩

variable [DecidableEq κ] [Hashable κ]

/-- The list, the index, the boundary, the counts and the capacities of a cache belong together. -/
structure WellFormed (cache : Cache κ ν) : Prop where
  list : cache.list.WellFormed
  keys_nodup : cache.keys.Nodup
  /-- The index leads from a key to the slot of the list element with that key, and only there. -/
  indexed : ∀ key slot, cache.index[key]? = some slot ↔
    ∃ entry, (slot, entry) ∈ cache.list.entries ∧ entry.key = key
  /-- The boundary is in the list, and no entry from it to the back has a payload. -/
  boundary : ∀ slot, cache.boundary = some slot → ∃ recent tail,
    cache.list.slots = recent ++ slot :: tail ∧
      ∀ other ∈ slot :: tail, cache.payloadAt? other = none
  live_eq : cache.live = (Entry.live cache.entries).length
  ghost_eq : cache.ghost = (Entry.ghosts cache.entries).length
  size_eq : cache.size = cache.live + cache.ghost
  live_le : cache.live ≤ cache.maxFrames
  ghost_le : cache.ghost ≤ cache.maxHistory

namespace Arranged

variable {cache : Cache κ ν} {cells : List (Slot × Entry κ ν)}

private theorem indexed_entries (arranged : cache.Arranged cells) (key : κ) (slot : Slot) :
    cache.index[key]? = some slot ↔
      ∃ entry, (slot, entry) ∈ cache.list.entries ∧ entry.key = key := by
  rw [arranged.indexed key slot, arranged.holds.entries_eq, exists_entry_iff]

private theorem boundary_slots (arranged : cache.Arranged cells) {slot : Slot}
    (boundary : cache.boundary = some slot) :
    ∃ recent tail, cache.list.slots = recent ++ slot :: tail ∧
      ∀ other ∈ slot :: tail, cache.payloadAt? other = none := by
  obtain ⟨recent, tail, rfl, front, ghosts⟩ := arranged.ghostTail
  cases tail with
  | nil => simp [front] at boundary
  | cons first rest =>
    obtain rfl : first.1 = slot := by simpa [front] using boundary
    refine ⟨recent.map (·.1), rest.map (·.1), by simp [arranged.holds.slots_eq], ?_⟩
    intro other member
    obtain ⟨⟨_, entry⟩, inTail, rfl⟩ := List.mem_map.mp (show other ∈ (first :: rest).map (·.1)
      from member)
    obtain ⟨upper, lower, split⟩ := List.append_of_mem (List.mem_append_right recent inTail)
    rw [split] at arranged
    rw [arranged.payloadAt?_eq]
    simpa [Entry.isGhost] using ghosts _ inTail

end Arranged

/-- The parts of a cache that agree form a well-formed cache. -/
theorem Consistent.wellFormed {cache : Cache κ ν} (consistent : cache.Consistent) :
    cache.WellFormed := by
  obtain ⟨⟨cells, arranged⟩, within⟩ := consistent
  have live_eq : cache.live = (Entry.live cache.entries).length := by
    rw [arranged.live_eq, arranged.entries_eq]
  have ghost_eq : cache.ghost = (Entry.ghosts cache.entries).length := by
    rw [arranged.ghost_eq, arranged.entries_eq]
  exact
    { list := arranged.holds.wellFormed_list
      keys_nodup := by
        rw [keys, arranged.entries_eq, List.map_map]
        exact arranged.keys_nodup
      indexed := arranged.indexed_entries
      boundary := fun slot => arranged.boundary_slots
      live_eq
      ghost_eq
      size_eq := arranged.size_eq_add
      live_le := live_eq ▸ within.live_le
      ghost_le := ghost_eq ▸ within.ghost_le }

namespace WellFormed

variable {cache : Cache κ ν}

private theorem holds (wellFormed : cache.WellFormed) : cache.list.Holds cache.list.entries :=
  wellFormed.list

private theorem entries_eq (wellFormed : cache.WellFormed) :
    cache.entries = cache.list.entries.map (·.2) := wellFormed.holds.toList_eq

private theorem ghostTail (wellFormed : cache.WellFormed) :
    GhostTail cache.boundary cache.list.entries := by
  cases boundary : cache.boundary with
  | none => exact ⟨cache.list.entries, [], by simp, rfl, by simp⟩
  | some slot =>
    obtain ⟨recent, tail, split, ghosts⟩ := wellFormed.boundary slot boundary
    rw [wellFormed.holds.slots_eq] at split
    obtain ⟨upper, lower, cells, rfl, rest⟩ := List.map_eq_append_iff.mp split
    refine ⟨upper, lower, cells, ?_, fun cell member => ?_⟩
    · obtain ⟨first, behind, rfl, rfl, -⟩ := List.map_eq_cons_iff.mp rest
      rfl
    · have inTail : cell.1 ∈ slot :: tail := rest ▸ List.mem_map_of_mem member
      have inList : (cell.1, cell.2) ∈ cache.list.entries := cells ▸ List.mem_append_right _ member
      have ghost := ghosts cell.1 inTail
      rw [payloadAt?, wellFormed.holds.get?_of_mem inList] at ghost
      exact Option.isNone_iff_eq_none.mpr ghost

/-- All parts of a well-formed cache describe its own entries. -/
theorem arranged (wellFormed : cache.WellFormed) : cache.Arranged cache.list.entries where
  holds := wellFormed.holds
  keys_nodup := by
    have distinct := wellFormed.keys_nodup
    rwa [keys, wellFormed.entries_eq, List.map_map] at distinct
  indexed := fun key slot => (wellFormed.indexed key slot).trans exists_entry_iff
  ghostTail := wellFormed.ghostTail
  live_eq := by rw [wellFormed.live_eq, wellFormed.entries_eq]
  ghost_eq := by rw [wellFormed.ghost_eq, wellFormed.entries_eq]

/-- Whatever is well-formed is consistent, so all that is known of consistent caches holds of it. -/
theorem consistent (wellFormed : cache.WellFormed) : cache.Consistent where
  arranged := ⟨_, wellFormed.arranged⟩
  within := ⟨wellFormed.live_eq ▸ wellFormed.live_le, wellFormed.ghost_eq ▸ wellFormed.ghost_le⟩

end WellFormed

/-- After every sequence of operations on a new cache all its parts belong together. An operation
that faults is one of them. -/
theorem wellFormed_run {maxFrames maxHistory : Nat} {fixed : Bool} {start : Cache κ ν}
    (created : create maxFrames maxHistory fixed = .ok start) (ops : List (Op κ ν)) :
    (start.run ops).WellFormed := by
  obtain ⟨-, rfl⟩ := create_eq_ok_iff.mp created
  exact ((consistent_empty maxFrames maxHistory fixed).run ops).wellFormed

/-- A cache that cannot follow a recommendation to grow is well-formed when it is used on. -/
theorem wellFormed_after_refused_growth :
    (create 1 2 false : Except Fault (Cache Nat String)) = .ok (empty 1 2 false) ∧
      ((empty 1 2 false : Cache Nat String).run
        ([.insert 1 "a", .insert 2 "b"] ++ List.replicate 30 (.lookup 1) ++
          [.setMaxFrames (Count.limit - 1), .adjustSize false, .insert 3 "c", .trim 1 1,
            .remove 1])).WellFormed := by
  have created : (create 1 2 false : Except Fault (Cache Nat String)) = .ok (empty 1 2 false) :=
    create_eq_ok_iff.mpr ⟨by decide, rfl⟩
  exact ⟨created, wellFormed_run created _⟩

end FrameKeep.Cache
