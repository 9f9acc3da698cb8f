import FrameKeep.Proofs.Cache.Arrangement
import FrameKeep.Proofs.Cache.Plain

/-!
# Trimming

Extending the ghost tail by one entry and forgetting the last ghost each leave the result of the
whole pass unchanged, so the passes over the links take exactly the payloads and drop exactly the
ghosts that the passes over the plain list do. Neither pass runs out of entries before its bound is
reached: the cells before the ghost tail hold every payload, and there is a step for each of them.
-/

namespace FrameKeep.Cache

open SlotList

variable {κ ν : Type} [DecidableEq κ] [Hashable κ]

/-- The index does not see payloads. -/
theorem Indexes.with_payload {index : Std.HashMap κ Slot} {upper lower : List (Slot × Entry κ ν)}
    {slot : Slot} {key : κ} {payload : Option ν}
    (indexed : Indexes index (upper ++ (slot, { key, payload }) :: lower)) (other : Option ν) :
    Indexes index (upper ++ (slot, { key, payload := other }) :: lower) := by
  intro anyKey anySlot
  rw [indexed anyKey anySlot]
  constructor
  · rintro ⟨held, member⟩
    by_cases here : anySlot = slot ∧ anyKey = key
    · obtain ⟨rfl, rfl⟩ := here
      exact ⟨other, by simp⟩
    · exact ⟨held, by simp_all; tauto⟩
  · rintro ⟨held, member⟩
    by_cases here : anySlot = slot ∧ anyKey = key
    · obtain ⟨rfl, rfl⟩ := here
      exact ⟨payload, by simp⟩
    · exact ⟨held, by simp_all; tauto⟩

namespace Arranged

variable {cache : Cache κ ν} {cells upper recent tail : List (Slot × Entry κ ν)} {slot : Slot}
  {entry : Entry κ ν}

/-- The entry that the ghost tail takes in next is the last one before it. -/
theorem beforeGhostTail?_eq (arranged : cache.Arranged (recent ++ tail))
    (boundary : cache.boundary = firstSlot tail none) :
    cache.beforeGhostTail? = lastSlot none recent := by
  unfold beforeGhostTail?
  cases tail with
  | nil => simp [boundary, arranged.holds.tail_eq]
  | cons first rest =>
    obtain ⟨slot, entry⟩ := first
    simp [boundary, arranged.holds.prev?_eq]

/-- Taking one more entry into the ghost tail changes nothing about where demoting to a bound leads,
as long as there are more live entries than that. -/
theorem exists_absorb (arranged : cache.Arranged (upper ++ (slot, entry) :: tail))
    (ghosts : ∀ cell ∈ tail, cell.2.isGhost) {bound : Nat} (exceeded : bound < cache.live) :
    ∃ after, cache.absorb slot = .ok after ∧
      after.Arranged (upper ++ (slot, { entry with payload := none }) :: tail) ∧
      after.boundary = some slot ∧
      after.toPlain.demote bound = cache.toPlain.demote bound := by
  have newTail : GhostTail (some slot)
      (upper ++ (slot, ({ entry with payload := none } : Entry κ ν)) :: tail) := by
    refine ⟨upper, _, rfl, rfl, fun cell member => ?_⟩
    rcases List.mem_cons.mp member with rfl | member
    · rfl
    · exact ghosts cell member
  have payloadAt := arranged.payloadAt?_eq
  obtain ⟨key, _ | payload⟩ := entry
  · refine ⟨{ cache with boundary := some slot }, ?_, ?_, rfl, rfl⟩
    · simp only [absorb, payloadAt]
    · exact { arranged with ghostTail := newTail }
  · have liveBefore := arranged.live_eq
    have tailLive : Entry.live (tail.map (·.2)) = [] := live_tail_eq_nil ghosts
    have counted : Count.pred? cache.live = .ok (Entry.live (upper.map (·.2))).length := by
      rw [Count.pred?_eq_ok_iff, liveBefore]
      simp [tailLive]
    have ghostBefore := arranged.ghost_eq
    have arrangedAfter : ({ cache with
        boundary := some slot
        list := cache.list.modify slot fun entry => { entry with payload := none }
        live := (Entry.live (upper.map (·.2))).length
        ghost := cache.ghost + 1
        metrics := cache.metrics.recordDemotion } : Cache κ ν).Arranged
          (upper ++ (slot, { key, payload := none }) :: tail) :=
      { holds := arranged.holds.modify fun entry => { entry with payload := none }
        keys_nodup := by simpa using arranged.keys_nodup
        indexed := arranged.indexed.with_payload none
        ghostTail := newTail
        live_eq := by simp [tailLive]
        ghost_eq := by simp [ghostBefore, Nat.add_assoc] }
    refine ⟨_, ?_, arrangedAfter, rfl, ?_⟩
    · simp only [absorb, payloadAt, counted]
      rfl
    · have enough : bound ≤ (Entry.live (upper.map (·.2))).length := by
        simp [tailLive] at liveBefore
        omega
      rw [arrangedAfter.toPlain_eq, arranged.toPlain_eq]
      simp only [PlainCache.demote, Metrics.recordDemotion, List.map_append, List.map_cons,
        Entry.keepLive_demoted enough key payload]
      simp [tailLive]
      omega

private theorem demote_toPlain_eq_self (arranged : cache.Arranged cells) {bound : Nat}
    (enough : cache.live ≤ bound) : cache.toPlain.demote bound = cache.toPlain := by
  apply PlainCache.demote_eq_self
  rw [arranged.live_eq] at enough
  rwa [arranged.toPlain_eq]

private theorem evict_toPlain_eq_self (arranged : cache.Arranged cells) {bound : Nat}
    (enough : cache.ghost ≤ bound) : cache.toPlain.evict bound = cache.toPlain := by
  apply PlainCache.evict_eq_self
  rw [arranged.ghost_eq] at enough
  rwa [arranged.toPlain_eq]

/-- Demoting takes the payloads that the plain cache takes, if there is a step for each cell before
the ghost tail. -/
theorem exists_demote (bound : Nat) {steps : Nat} (arranged : cache.Arranged (recent ++ tail))
    (boundary : cache.boundary = firstSlot tail none) (ghosts : ∀ cell ∈ tail, cell.2.isGhost)
    (enough : recent.length ≤ steps) :
    ∃ after others, Cache.demote bound steps cache = .ok after ∧ after.Arranged others ∧
      after.toPlain = cache.toPlain.demote bound := by
  induction steps generalizing cache recent tail with
  | zero =>
    obtain rfl := List.length_eq_zero_iff.mp (Nat.le_zero.mp enough)
    have noneLive := arranged.live_eq
    rw [List.nil_append, live_tail_eq_nil ghosts] at noneLive
    exact ⟨cache, _, rfl, arranged, (arranged.demote_toPlain_eq_self (by simp [noneLive])).symm⟩
  | succ steps ih =>
    by_cases within : cache.live ≤ bound
    · refine ⟨cache, _, ?_, arranged, (arranged.demote_toPlain_eq_self within).symm⟩
      simp only [Cache.demote, if_pos within]
    · rcases recent.eq_nil_or_concat with rfl | ⟨upper, ⟨slot, entry⟩, rfl⟩
      · -- Nothing is live before the ghost tail, so nothing exceeds the bound.
        have noneLive := arranged.live_eq
        rw [List.nil_append, live_tail_eq_nil ghosts] at noneLive
        simp [noneLive] at within
      · have next := arranged.beforeGhostTail?_eq boundary
        simp only [List.concat_eq_append, List.append_assoc, List.singleton_append,
          lastSlot_append, lastSlot_cons, lastSlot_nil, List.length_append,
          List.length_singleton] at arranged next enough
        obtain ⟨between, absorbed, arrangedBetween, boundaryBetween, same⟩ :=
          arranged.exists_absorb ghosts (Nat.lt_of_not_le within)
        obtain ⟨after, others, demoted, arrangedAfter, plain⟩ :=
          ih arrangedBetween boundaryBetween (by simpa [Entry.isGhost] using ghosts)
            (Nat.le_of_succ_le_succ enough)
        refine ⟨after, others, ?_, arrangedAfter, plain.trans same⟩
        simp only [Cache.demote, if_neg within, next, absorbed]
        exact demoted

/-- Unless there are no ghosts, the search from the back stops at a ghost that has only live entries
behind it. -/
theorem exists_last_ghost (arranged : cache.Arranged cells) (nonempty : 0 < cache.ghost) :
    ∃ (upper lower : List (Slot × Entry κ ν)) (slot : Slot) (key : κ),
      cells = upper ++ (slot, { key, payload := none }) :: lower ∧
        cache.list.findBack? Entry.isGhost = some slot ∧
        Entry.ghosts (lower.map (·.2)) = [] := by
  rw [arranged.holds.findBack?_eq]
  cases found : cells.reverse.find? (·.2.isGhost) with
  | none =>
    have noGhost : Entry.ghosts (cells.map (·.2)) = [] := by
      rw [List.find?_eq_none] at found
      apply List.filter_eq_nil_iff.mpr
      intro entry member
      obtain ⟨cell, inCells, rfl⟩ := List.mem_map.mp member
      exact found cell (List.mem_reverse.mpr inCells)
    have counted := arranged.ghost_eq
    rw [noGhost] at counted
    simp [counted] at nonempty
  | some cell =>
    obtain ⟨slot, key, payload⟩ := cell
    obtain ⟨isGhost, behind, before, split, live⟩ := List.find?_eq_some_iff_append.mp found
    obtain rfl : payload = none := by simpa [Entry.isGhost] using isGhost
    refine ⟨before.reverse, behind.reverse, slot, key, ?_, rfl, ?_⟩
    · rw [← List.reverse_reverse cells, split]
      simp
    · apply List.filter_eq_nil_iff.mpr
      intro entry member
      obtain ⟨cell, inBehind, rfl⟩ := List.mem_map.mp member
      simpa using live cell (List.mem_reverse.mp inBehind)

/-- Evicting drops the ghosts that the plain cache drops. -/
theorem exists_evict (arranged : cache.Arranged cells) {excess : Nat}
    (few : excess ≤ cache.ghost) :
    ∃ after others, Cache.evict excess cache = .ok after ∧ after.Arranged others ∧
      after.toPlain = cache.toPlain.evict (cache.ghost - excess) := by
  induction excess generalizing cache cells with
  | zero =>
    exact ⟨cache, cells, rfl, arranged, (arranged.evict_toPlain_eq_self (Nat.le_refl _)).symm⟩
  | succ excess ih =>
    obtain ⟨upper, lower, slot, key, rfl, oldest, liveBehind⟩ :=
      arranged.exists_last_ghost (by omega)
    obtain ⟨between, unlinked, arrangedBetween, plainBetween⟩ := arranged.exists_unlink
    have counted : Cache.Arranged
        { between with metrics := between.metrics.recordGhostEviction } (upper ++ lower) :=
      { arrangedBetween with }
    have ghostBefore := arranged.ghost_eq
    have ghostBetween := arrangedBetween.ghost_eq
    simp only [List.map_append, List.map_cons, Entry.ghosts_append, Entry.ghosts_cons_none,
      liveBehind, List.length_append, List.length_cons, List.length_nil, Nat.add_zero]
      at ghostBefore ghostBetween
    obtain ⟨after, others, evicted, arrangedAfter, plain⟩ := ih counted (by simp; omega)
    refine ⟨after, others, ?_, arrangedAfter, plain.trans ?_⟩
    · simp only [Cache.evict, oldest, unlinked]
      exact evicted
    · have recorded :
          ({ between with metrics := between.metrics.recordGhostEviction } : Cache κ ν).toPlain =
            { cache.toPlain with
              entries := (upper ++ lower).map (·.2)
              metrics := cache.metrics.recordGhostEviction } := by
        have sameMetrics : between.metrics = cache.metrics :=
          congrArg PlainCache.metrics plainBetween
        change { between.toPlain with metrics := between.metrics.recordGhostEviction } = _
        rw [plainBetween, sameMetrics]
      have enough : between.ghost - excess ≤ (Entry.ghosts (upper.map (·.2))).length := by omega
      have same : cache.ghost - (excess + 1) = between.ghost - excess := by omega
      rw [recorded, arranged.toPlain_eq, same]
      simp only [PlainCache.evict, Metrics.recordGhostEviction, List.map_append, List.map_cons,
        Entry.keepGhosts_evicted enough key]
      simp [liveBehind]
      omega

/-- Trimming takes and drops what the plain cache takes and drops. -/
theorem exists_trim (arranged : cache.Arranged cells) (maxLive maxGhost : Nat) :
    ∃ after others, cache.trim maxLive maxGhost = .ok after ∧ after.Arranged others ∧
      after.toPlain = cache.toPlain.trim maxLive maxGhost := by
  obtain ⟨recent, tail, rfl, boundary, ghosts⟩ := arranged.ghostTail
  have enough : recent.length ≤ cache.size := by
    rw [arranged.size_eq, List.length_append]
    exact Nat.le_add_right ..
  obtain ⟨demoted, between, demotes, arrangedDemoted, plainDemoted⟩ :=
    arranged.exists_demote (min maxLive cache.maxFrames) boundary ghosts enough
  obtain ⟨after, others, evicts, arrangedAfter, plainAfter⟩ :=
    arrangedDemoted.exists_evict (Nat.sub_le demoted.ghost (min maxGhost cache.maxHistory))
  refine ⟨after, others, ?_, arrangedAfter, ?_⟩
  · simp only [Cache.trim, trimTo, demotes]
    exact evicts
  · rw [plainAfter, PlainCache.trim_eq_evict_demote]
    change _ = (cache.toPlain.demote (min maxLive cache.maxFrames)).evict
      (min maxGhost cache.maxHistory)
    rw [← plainDemoted]
    rcases Nat.le_total demoted.ghost (min maxGhost cache.maxHistory) with within | exceeded
    · rw [arrangedDemoted.evict_toPlain_eq_self within,
        arrangedDemoted.evict_toPlain_eq_self (by omega)]
    · rw [Nat.sub_sub_self exceeded]

end Arranged

end FrameKeep.Cache
