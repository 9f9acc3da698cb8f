import FrameKeep.Proofs.Cache.Entries
import FrameKeep.Proofs.SlotList

/-!
# The arrangement of a cache

The five parts of a cache that have to agree (list, index, boundary and the two counts) describe
one sequence of cells, each with its slot, its key and its payload if there is one. `Arranged` is
that agreement. What an operation does to the cells says at once what it does to all five parts,
and a cache without its slots is the plain cache of the entries in the cells.
-/

namespace FrameKeep.Cache

open SlotList

variable {κ ν : Type}

/-! ### The boundary -/

/-- From the boundary to the back there are only ghosts. -/
def GhostTail (boundary : Option Slot) (cells : List (Slot × Entry κ ν)) : Prop :=
  ∃ recent tail, cells = recent ++ tail ∧ boundary = firstSlot tail none ∧
    ∀ cell ∈ tail, cell.2.isGhost

/-- A cell in front leaves the boundary where it is. -/
theorem GhostTail.cons {boundary : Option Slot} {cells : List (Slot × Entry κ ν)}
    (ghostTail : GhostTail boundary cells) (cell : Slot × Entry κ ν) :
    GhostTail boundary (cell :: cells) := by
  obtain ⟨recent, tail, rfl, rfl, ghosts⟩ := ghostTail
  exact ⟨cell :: recent, tail, rfl, rfl, ghosts⟩

/-- Behind the boundary nothing is live. -/
theorem live_tail_eq_nil {tail : List (Slot × Entry κ ν)}
    (ghosts : ∀ cell ∈ tail, cell.2.isGhost) : Entry.live (tail.map (·.2)) = [] := by
  apply Entry.live_eq_nil_of_ghosts
  intro entry member
  obtain ⟨cell, inTail, rfl⟩ := List.mem_map.mp member
  exact ghosts cell inTail

/-- A cell that leaves the ghost tail at its front end hands the boundary on to the next cell; any
other cell leaves the boundary where it is. -/
theorem GhostTail.remove {boundary : Option Slot} {upper lower : List (Slot × Entry κ ν)}
    {cell : Slot × Entry κ ν} (ghostTail : GhostTail boundary (upper ++ cell :: lower))
    (notAbove : cell.1 ∉ upper.map (·.1)) (notBelow : cell.1 ∉ lower.map (·.1)) :
    GhostTail (if boundary = some cell.1 then firstSlot lower none else boundary)
      (upper ++ lower) := by
  obtain ⟨recent, tail, split, rfl, ghosts⟩ := ghostTail
  rcases List.append_eq_append_iff.mp split with
    ⟨_ | ⟨first, between⟩, rfl, rest⟩ | ⟨_ | ⟨first, between⟩, rfl, rfl⟩
  · -- The cell is the front end of the ghost tail.
    obtain rfl : cell :: lower = tail := rest
    refine ⟨upper, lower, rfl, by simp, fun other member => ?_⟩
    exact ghosts other (List.mem_cons_of_mem _ member)
  · -- The cell lies before the ghost tail.
    simp only [List.cons_append, List.cons.injEq] at rest
    obtain ⟨rfl, rfl⟩ := rest
    refine ⟨upper ++ between, tail, by simp, if_neg fun same => notBelow ?_, ghosts⟩
    have member := (firstSlot_eq_some same).resolve_left (by simp)
    rw [List.map_append]
    exact List.mem_append_right _ member
  · -- The cell is the front end of the ghost tail.
    refine ⟨recent, lower, by simp, by simp, fun other member => ?_⟩
    exact ghosts other (List.mem_cons_of_mem _ member)
  · -- The cell lies behind the front end of the ghost tail.
    have apart : some first.1 ≠ some cell.1 := by
      intro same
      simp [Option.some.inj same] at notAbove
    refine ⟨recent, first :: between ++ lower, by simp, if_neg apart, fun other member => ?_⟩
    exact ghosts other (by simp only [List.mem_append, List.mem_cons] at member ⊢; tauto)

/-- The other cells have other keys. -/
theorem key_apart {upper lower : List (Slot × Entry κ ν)} {cell : Slot × Entry κ ν}
    (distinct : ((upper ++ cell :: lower).map (·.2.key)).Nodup) :
    (∀ other ∈ upper ++ lower, other.2.key ≠ cell.2.key) ∧
      ((upper ++ lower).map (·.2.key)).Nodup := by
  simp only [List.map_append, List.map_cons] at distinct
  obtain ⟨outside, rest⟩ := List.nodup_cons.mp (List.nodup_middle.mp distinct)
  rw [← List.map_append] at outside rest
  exact ⟨fun other member same => outside (List.mem_map.mpr ⟨other, member, same⟩), rest⟩

variable [DecidableEq κ] [Hashable κ]

/-! ### The index -/

/-- The index leads from the key of every cell to its slot, and knows no other key. -/
def Indexes (index : Std.HashMap κ Slot) (cells : List (Slot × Entry κ ν)) : Prop :=
  ∀ key slot, index[key]? = some slot ↔ ∃ payload, (slot, { key, payload }) ∈ cells

private theorem Indexes.of_mem_iff {index : Std.HashMap κ Slot}
    {cells others : List (Slot × Entry κ ν)} (indexed : Indexes index cells)
    (same : ∀ cell, cell ∈ others ↔ cell ∈ cells) : Indexes index others := by
  intro key slot
  simp only [same]
  exact indexed key slot

private theorem Indexes.eq_none_iff {index : Std.HashMap κ Slot} {cells : List (Slot × Entry κ ν)}
    (indexed : Indexes index cells) {key : κ} :
    index[key]? = none ↔ ∀ cell ∈ cells, cell.2.key ≠ key := by
  rw [Option.eq_none_iff_forall_ne_some]
  constructor
  · rintro unknown ⟨slot, key, payload⟩ member rfl
    exact unknown slot ((indexed key slot).mpr ⟨payload, member⟩)
  · intro absent slot found
    obtain ⟨payload, member⟩ := (indexed key slot).mp found
    exact absent _ member rfl

private theorem Indexes.erase {index : Std.HashMap κ Slot} {upper lower : List (Slot × Entry κ ν)}
    {cell : Slot × Entry κ ν} (indexed : Indexes index (upper ++ cell :: lower))
    (distinct : ((upper ++ cell :: lower).map (·.2.key)).Nodup) :
    Indexes (index.erase cell.2.key) (upper ++ lower) := by
  intro key slot
  have others := (key_apart distinct).1
  rw [Std.HashMap.getElem?_erase]
  split
  next same =>
    refine ⟨fun found => (Option.some_ne_none _ found.symm).elim, ?_⟩
    rintro ⟨payload, member⟩
    exact absurd (eq_of_beq same).symm (others _ member)
  next different =>
    rw [indexed key slot]
    apply exists_congr
    intro payload
    have elsewhere : (slot, ({ key, payload } : Entry κ ν)) ≠ cell := by
      rintro rfl
      simp at different
    simp [elsewhere]

/-- A key that no cell has is indexed along with a new cell. -/
theorem Indexes.insert {index : Std.HashMap κ Slot} {cells : List (Slot × Entry κ ν)}
    (indexed : Indexes index cells) {key : κ} (fresh : ∀ cell ∈ cells, cell.2.key ≠ key)
    (slot : Slot) (payload : Option ν) :
    Indexes (index.insert key slot) ((slot, { key, payload }) :: cells) := by
  intro other otherSlot
  rw [Std.HashMap.getElem?_insert]
  split
  next same =>
    obtain rfl := eq_of_beq same
    have absent : ∀ payload?, (otherSlot, ({ key, payload := payload? } : Entry κ ν)) ∉ cells :=
      fun payload? member => fresh _ member rfl
    simp [absent, eq_comm]
  next different =>
    have elsewhere : other ≠ key := by
      rintro rfl
      simp at different
    rw [indexed other otherSlot]
    simp [elsewhere]

/-! ### All parts together -/

/-- All parts of the cache describe the sequence of `cells`. -/
structure Arranged (cache : Cache κ ν) (cells : List (Slot × Entry κ ν)) : Prop where
  holds : cache.list.Holds cells
  keys_nodup : (cells.map (·.2.key)).Nodup
  indexed : Indexes cache.index cells
  ghostTail : GhostTail cache.boundary cells
  live_eq : cache.live = (Entry.live (cells.map (·.2))).length
  ghost_eq : cache.ghost = (Entry.ghosts (cells.map (·.2))).length

/-- A cache without entries describes no cells. -/
theorem arranged_empty (maxFrames maxHistory : Nat) (fixed : Bool) :
    (empty maxFrames maxHistory fixed : Cache κ ν).Arranged [] where
  holds := holds_empty
  keys_nodup := List.nodup_nil
  indexed := by simp [Indexes, empty]
  ghostTail := ⟨[], [], rfl, rfl, by simp⟩
  live_eq := rfl
  ghost_eq := rfl

/-- A cleared cache describes no cells. -/
theorem arranged_clear (cache : Cache κ ν) : cache.clear.Arranged [] where
  holds := holds_empty
  keys_nodup := List.nodup_nil
  indexed := by simp [Indexes, clear]
  ghostTail := ⟨[], [], rfl, rfl, by simp⟩
  live_eq := rfl
  ghost_eq := rfl

namespace Arranged

variable {cache : Cache κ ν} {cells upper lower : List (Slot × Entry κ ν)} {slot : Slot}
  {entry : Entry κ ν}

/-- The entries of a cache are those of its cells. -/
theorem entries_eq (arranged : cache.Arranged cells) : cache.entries = cells.map (·.2) :=
  arranged.holds.toList_eq

/-- As a plain cache it has the entries of its cells. -/
theorem toPlain_eq (arranged : cache.Arranged cells) :
    cache.toPlain =
      { entries := cells.map (·.2)
        maxFrames := cache.maxFrames
        maxHistory := cache.maxHistory
        fixed := cache.fixed
        window := cache.window
        metrics := cache.metrics } := by
  rw [Cache.toPlain, arranged.entries_eq]

/-- A cache counts its cells. -/
theorem size_eq (arranged : cache.Arranged cells) : cache.size = cells.length :=
  arranged.holds.size_eq

/-- Every entry is counted once. -/
theorem size_eq_add (arranged : cache.Arranged cells) : cache.size = cache.live + cache.ghost := by
  rw [arranged.size_eq, arranged.live_eq, arranged.ghost_eq, Entry.length_live_add_length_ghosts,
    List.length_map]

/-- At the slot of a cell stands the payload of its entry. -/
theorem payloadAt?_eq (arranged : cache.Arranged (upper ++ (slot, entry) :: lower)) :
    cache.payloadAt? slot = entry.payload := by
  have member : (slot, entry) ∈ upper ++ (slot, entry) :: lower := by simp
  simp [payloadAt?, arranged.holds.get?_of_mem member]

/-- Either the key is in no cell, or the index leads to the only cell that it is in. -/
theorem index_cases (arranged : cache.Arranged cells) (key : κ) :
    (cache.index[key]? = none ∧ ∀ cell ∈ cells, cell.2.key ≠ key) ∨
      ∃ (upper lower : List (Slot × Entry κ ν)) (slot : Slot) (payload : Option ν),
        cells = upper ++ (slot, { key, payload }) :: lower ∧ cache.index[key]? = some slot := by
  cases found : cache.index[key]? with
  | none => exact .inl ⟨rfl, arranged.indexed.eq_none_iff.mp found⟩
  | some slot =>
    obtain ⟨payload, member⟩ := (arranged.indexed key slot).mp found
    obtain ⟨upper, lower, split⟩ := List.append_of_mem member
    exact .inr ⟨upper, lower, slot, payload, split, rfl⟩

/-- The boundary of the cells without one of them. -/
theorem ghostTail_boundaryWithout (arranged : cache.Arranged (upper ++ (slot, entry) :: lower)) :
    GhostTail (cache.boundaryWithout slot) (upper ++ lower) := by
  obtain ⟨notAbove, notBelow, -⟩ := arranged.holds.apart
  have moved := arranged.ghostTail.remove notAbove notBelow
  rwa [← arranged.holds.next?_eq] at moved

/-- Promoting an entry moves its cell to the front. -/
theorem promote (arranged : cache.Arranged (upper ++ (slot, entry) :: lower)) :
    (cache.promote slot).Arranged ((slot, entry) :: (upper ++ lower)) := by
  unfold Cache.promote
  split
  next first =>
    cases upper with
    | nil => exact arranged
    | cons cell rest =>
      -- The front cell is the only one in its slot, so nothing lies before it.
      rw [arranged.holds.head_eq] at first
      have outside := arranged.holds.apart.1
      simp_all
  next =>
    have moved : ((slot, entry) :: (upper ++ lower)).Perm (upper ++ (slot, entry) :: lower) :=
      List.perm_middle.symm
    exact
      { holds := arranged.holds.moveToFront.2
        keys_nodup := (moved.map (·.2.key)).nodup_iff.mpr arranged.keys_nodup
        indexed := arranged.indexed.of_mem_iff fun cell => moved.mem_iff
        ghostTail := arranged.ghostTail_boundaryWithout.cons _
        live_eq := arranged.live_eq.trans (Entry.length_live_perm (moved.map (·.2))).symm
        ghost_eq := arranged.ghost_eq.trans (Entry.length_ghosts_perm (moved.map (·.2))).symm }

/-- Taking an entry out takes its cell out, and the count that it was part of has one to take
away. -/
theorem exists_unlink (arranged : cache.Arranged (upper ++ (slot, entry) :: lower)) :
    ∃ after, cache.unlink slot = .ok after ∧ after.Arranged (upper ++ lower) ∧
      after.toPlain = { cache.toPlain with entries := (upper ++ lower).map (·.2) } := by
  obtain ⟨list, removed, holds⟩ := arranged.holds.exists_remove
  have rebuilt (live ghost : Nat)
      (live_eq : live = (Entry.live ((upper ++ lower).map (·.2))).length)
      (ghost_eq : ghost = (Entry.ghosts ((upper ++ lower).map (·.2))).length) :
      ({ cache with
          boundary := cache.boundaryWithout slot
          list
          index := cache.index.erase entry.key
          live
          ghost } : Cache κ ν).Arranged (upper ++ lower) :=
    { holds
      keys_nodup := (key_apart arranged.keys_nodup).2
      indexed := arranged.indexed.erase arranged.keys_nodup
      ghostTail := arranged.ghostTail_boundaryWithout
      live_eq
      ghost_eq }
  have liveBefore := arranged.live_eq
  have ghostBefore := arranged.ghost_eq
  obtain ⟨key, _ | payload⟩ := entry
  · have arrangedAfter := rebuilt cache.live (cache.ghost - 1)
      (by simpa using liveBefore) (by simp at ghostBefore ⊢; omega)
    have counted : Count.pred? cache.ghost = .ok (cache.ghost - 1) := by
      rw [Count.pred?_eq_ok_iff]
      simp at ghostBefore
      omega
    refine ⟨_, ?_, arrangedAfter, by rw [arrangedAfter.toPlain_eq]; rfl⟩
    simp only [Cache.unlink, removed, counted]
    rfl
  · have arrangedAfter := rebuilt (cache.live - 1) cache.ghost
      (by simp at liveBefore ⊢; omega) (by simpa using ghostBefore)
    have counted : Count.pred? cache.live = .ok (cache.live - 1) := by
      rw [Count.pred?_eq_ok_iff]
      simp at liveBefore
      omega
    refine ⟨_, ?_, arrangedAfter, by rw [arrangedAfter.toPlain_eq]; rfl⟩
    simp only [Cache.unlink, removed, counted]
    rfl

end Arranged

end FrameKeep.Cache
