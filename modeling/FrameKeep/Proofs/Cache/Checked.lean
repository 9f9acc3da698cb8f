import FrameKeep.Cache.Checked
import FrameKeep.Proofs.Cache.Accounting
import FrameKeep.Proofs.Cache.Policy

/-!
# No hazards

A cache that has seen few operations has small counts, and all its parts belong together, so that
each operation can be carried out on checked counts and comes to the same (`Agrees`). What is left
is the one recommendation that may be impossible to follow.
-/

namespace FrameKeep

private theorem Arena.count_of_insert {α : Type} {arena after : Arena α} {value : α} {slot : Slot}
    (inserted : arena.insert value = .ok (slot, after)) : after.count = arena.count + 1 := by
  unfold Arena.insert at inserted
  split at inserted
  next => cases inserted; rfl
  next =>
    split at inserted
    next => cases inserted; rfl
    next => nomatch inserted

namespace Checked

/-! ### Counters -/

/-- An outcome is recorded on checked counts as long as the tally stays below the limit. -/
theorem record_eq_ok {ν : Type} {tally : Tally} (few : tally.total + 1 < Count.limit)
    (found : Lookup ν) : record tally found = .ok (tally.record found) := by
  unfold Tally.total at few
  cases found with
  | hit payload => simp only [record, Count.succ?_eq_ok (show tally.hits + 1 < _ by omega)]; rfl
  | nearMiss => simp only [record, Count.succ?_eq_ok (show tally.nearMisses + 1 < _ by omega)]; rfl
  | farMiss => simp only [record, Count.succ?_eq_ok (show tally.farMisses + 1 < _ by omega)]; rfl

/-- A resize is recorded on checked counts as long as the resizes stay below the limit. -/
theorem recordResize_eq_ok {metrics : Metrics}
    (few : metrics.clears + metrics.grows + metrics.shrinks + 1 < Count.limit) (action : Action)
    (needMemory : Bool) :
    recordResize metrics action needMemory = .ok (metrics.recordResize action needMemory) := by
  cases action with
  | clear =>
    simp only [recordResize, Count.succ?_eq_ok (show metrics.clears + 1 < _ by omega)]
    rfl
  | grow =>
    cases needMemory with
    | true => rfl
    | false =>
      simp only [recordResize, Count.succ?_eq_ok (show metrics.grows + 1 < _ by omega)]
      rfl
  | shrink =>
    simp only [recordResize, Count.succ?_eq_ok (show metrics.shrinks + 1 < _ by omega)]
    rfl
  | noChange => rfl

/-- A push succeeds on checked counts as long as the list stays below the limit. -/
theorem pushFront_eq_ok {α : Type} {list after : SlotList α} {value : α} {slot : Slot}
    (few : list.size + 1 < Count.limit) (pushed : list.pushFront value = .ok (slot, after)) :
    pushFront list value = .ok (slot, after) := by
  obtain ⟨⟨first, nodes⟩, inserted, rest⟩ := exists_of_bind_eq_ok pushed
  have counted : nodes.count = list.nodes.count + 1 := Arena.count_of_insert inserted
  have same : ({ nodes with count := list.nodes.count + 1 } : Arena _) = nodes := by
    rw [← counted]
  have raised : Count.succ? list.nodes.count = .ok (list.nodes.count + 1) := Count.succ?_eq_ok few
  simp only [pushFront, fill, raised, inserted, bind, Except.bind, same]
  exact rest

end Checked

/-- Only growing can be impossible. -/
theorem PlainCache.targetFrames_eq_error_iff {maxFrames : Nat} {action : Action}
    {needMemory : Bool} {fault : Fault} :
    targetFrames maxFrames action needMemory = .error fault ↔
      action = .grow ∧ needMemory = false ∧ Count.limit - 2 ≤ maxFrames ∧
        fault = .sumTooLarge := by
  have two_le : 2 ≤ Count.limit := by decide
  cases action <;> cases needMemory <;>
    simp only [targetFrames, Count.add?, reduceCtorEq, false_and, and_false, true_and]
  split
  next fits =>
    have small : ¬ Count.limit - 2 ≤ maxFrames := by omega
    simp [small]
  next =>
    have large : Count.limit - 2 ≤ maxFrames := by omega
    simp [large, eq_comm]

namespace Cache

variable {κ ν : Type} [DecidableEq κ] [Hashable κ]

/-- No look-up or resize was counted more than `asked` times. Nothing else was counted more than
`stored` times, including what trimming may yet come to count. -/
structure CountsUpTo (cache : Cache κ ν) (asked stored : Nat) : Prop where
  window_le : cache.window.total ≤ asked
  lookups_le : cache.metrics.lookups.total ≤ asked
  resizes_le : cache.metrics.clears + cache.metrics.grows + cache.metrics.shrinks ≤ asked
  inserts_le : cache.metrics.inserts ≤ stored
  /-- Every live entry may be demoted. -/
  demotions_le : cache.live + cache.metrics.demotions ≤ stored
  /-- Every entry may be evicted. -/
  ghostEvictions_le : cache.live + cache.ghost + cache.metrics.ghostEvictions ≤ stored

/-- A new cache has counted nothing. -/
theorem countsUpTo_empty (maxFrames maxHistory : Nat) (fixed : Bool) :
    (empty maxFrames maxHistory fixed : Cache κ ν).CountsUpTo 0 0 := by
  constructor <;> exact Nat.le_refl 0

namespace CountsUpTo

variable {cache after : Cache κ ν} {asked stored : Nat} {slot : Slot}

/-- What was not counted more often than that was not counted more often than any more. -/
theorem mono (counts : cache.CountsUpTo asked stored) {askedMore storedMore : Nat}
    (asked_le : asked ≤ askedMore) (stored_le : stored ≤ storedMore) :
    cache.CountsUpTo askedMore storedMore where
  window_le := Nat.le_trans counts.window_le asked_le
  lookups_le := Nat.le_trans counts.lookups_le asked_le
  resizes_le := Nat.le_trans counts.resizes_le asked_le
  inserts_le := Nat.le_trans counts.inserts_le stored_le
  demotions_le := Nat.le_trans counts.demotions_le stored_le
  ghostEvictions_le := Nat.le_trans counts.ghostEvictions_le stored_le

/-- Either bound may be raised by one. -/
theorem succ (counts : cache.CountsUpTo asked stored) :
    cache.CountsUpTo (asked + 1) (stored + 1) :=
  counts.mono (Nat.le_succ asked) (Nat.le_succ stored)

/-- Emptying a cache counts nothing and leaves less to trim. -/
theorem clear (counts : cache.CountsUpTo asked stored) : cache.clear.CountsUpTo asked stored :=
  { counts with
    window_le := Nat.zero_le _
    demotions_le := Nat.le_trans (Nat.add_le_add_right (Nat.zero_le _) _) counts.demotions_le
    ghostEvictions_le := by
      have := counts.ghostEvictions_le
      simp only [Cache.clear]
      omega }

/-- The lifetime counters may be set back to zero. -/
theorem resetMetrics (counts : cache.CountsUpTo asked stored) :
    cache.resetMetrics.CountsUpTo asked stored where
  window_le := counts.window_le
  lookups_le := Nat.zero_le _
  resizes_le := Nat.zero_le _
  inserts_le := Nat.zero_le _
  demotions_le := Nat.le_trans (Nat.add_le_add_left (Nat.zero_le _) _) counts.demotions_le
  ghostEvictions_le :=
    Nat.le_trans (Nat.add_le_add_left (Nat.zero_le _) _) counts.ghostEvictions_le

/-- An entry that leaves the cache is no longer counted. -/
theorem unlink (counts : cache.CountsUpTo asked stored) (unlinked : cache.unlink slot = .ok after) :
    after.CountsUpTo asked stored := by
  obtain ⟨⟨removed, list⟩, -, rest⟩ := exists_of_bind_eq_ok unlinked
  have demotions := counts.demotions_le
  have evictions := counts.ghostEvictions_le
  rcases removed with _ | ⟨key, _ | payload⟩
  · cases rest
    exact { counts with }
  · obtain ⟨ghost, less, same⟩ := exists_of_bind_eq_ok rest
    cases same
    rw [Count.pred?_eq_ok_iff] at less
    exact { counts with ghostEvictions_le := by simp only; omega }
  · obtain ⟨live, less, same⟩ := exists_of_bind_eq_ok rest
    cases same
    rw [Count.pred?_eq_ok_iff] at less
    exact { counts with
      demotions_le := by simp only; omega
      ghostEvictions_le := by simp only; omega }

private theorem remove (counts : cache.CountsUpTo asked stored) {key : κ} {found : Bool}
    (removed : cache.remove key = .ok (found, after)) : after.CountsUpTo asked stored := by
  unfold Cache.remove at removed
  split at removed
  next =>
    cases removed
    exact counts
  next slot =>
    obtain ⟨between, unlinked, same⟩ := exists_of_bind_eq_ok removed
    cases same
    exact counts.unlink unlinked

/-- A look-up counts once for the resize policy and once for the lifetime. -/
theorem recordLookup (counts : cache.CountsUpTo asked stored) (found : Lookup ν) :
    (cache.recordLookup found).CountsUpTo (asked + 1) stored :=
  { counts.mono (Nat.le_succ asked) (Nat.le_refl stored) with
    window_le := by
      simp only [Cache.recordLookup, Tally.total_record]
      exact Nat.succ_le_succ counts.window_le
    lookups_le := by
      simp only [Cache.recordLookup, Metrics.recordLookup, Tally.total_record]
      exact Nat.succ_le_succ counts.lookups_le }

private theorem promote (counts : cache.CountsUpTo asked stored) (slot : Slot) :
    (cache.promote slot).CountsUpTo asked stored := by
  unfold Cache.promote
  split
  next => exact counts
  next => exact { counts with }

private theorem recommendSize (counts : cache.CountsUpTo asked stored) :
    ({ cache with window := ∅ } : Cache κ ν).CountsUpTo asked stored :=
  { counts with window_le := Nat.zero_le _ }

/-- A resize counts once. -/
theorem recordResize (counts : cache.CountsUpTo asked stored) (action : Action)
    (needMemory : Bool) :
    ({ cache with metrics := cache.metrics.recordResize action needMemory } :
      Cache κ ν).CountsUpTo (asked + 1) stored := by
  have more := counts.mono (Nat.le_succ asked) (Nat.le_refl stored)
  have resizes := counts.resizes_le
  unfold Metrics.recordResize
  split
  next => exact { more with resizes_le := by simp only; omega }
  next => exact { more with resizes_le := by simp only; omega }
  next => exact more
  next => exact { more with resizes_le := by simp only; omega }
  next => exact more

end CountsUpTo

/-- A look-up can be counted as long as few were. -/
theorem checked_recordLookup {cache : Cache κ ν} {asked stored : Nat}
    (counts : cache.CountsUpTo asked stored) (few : asked + 1 < Count.limit) (found : Lookup ν) :
    Checked.recordLookup cache found = .ok (cache.recordLookup found) := by
  have window := counts.window_le
  have lookups := counts.lookups_le
  simp only [Checked.recordLookup, Checked.record_eq_ok (show cache.window.total + 1 < _ by omega),
    Checked.record_eq_ok (show cache.metrics.lookups.total + 1 < _ by omega)]
  rfl

/-- A look-up is counted twice, once for the resize policy and once for the lifetime. -/
theorem checked_lookup {cache : Cache κ ν} {asked stored : Nat}
    (counts : cache.CountsUpTo asked stored) (few : asked + 1 < Count.limit) (key : κ) :
    Checked.lookup cache key = .ok (cache.lookup key) ∧
      (cache.lookup key).2.CountsUpTo (asked + 1) stored := by
  unfold Checked.lookup lookup
  cases cache.index[key]? with
  | none =>
    simp only [checked_recordLookup counts few]
    exact ⟨rfl, counts.recordLookup _⟩
  | some slot =>
    simp only [checked_recordLookup (counts.promote slot) few]
    exact ⟨rfl, (counts.promote slot).recordLookup _⟩

/-! ### Trimming -/

/-- Taking an entry into the ghost tail needs room for one more count at most. -/
theorem CountsUpTo.checked_absorb {cache after : Cache κ ν} {slot : Slot} {asked stored : Nat}
    (counts : cache.CountsUpTo asked stored) (few : stored < Count.limit)
    (absorbed : cache.absorb slot = .ok after) :
    Checked.absorb cache slot = .ok after ∧ after.CountsUpTo asked stored := by
  unfold absorb at absorbed
  split at absorbed
  next ghost =>
    cases absorbed
    refine ⟨?_, { counts with }⟩
    simp only [Checked.absorb, ghost]
  next payload held =>
    obtain ⟨live, less, same⟩ := exists_of_bind_eq_ok absorbed
    cases same
    have taken := Count.pred?_eq_ok_iff.mp less
    have demotions := counts.demotions_le
    have evictions := counts.ghostEvictions_le
    refine ⟨?_, { counts with demotions_le := ?_, ghostEvictions_le := ?_ }⟩
    · have ghosts : Count.succ? cache.ghost = .ok (cache.ghost + 1) :=
        Count.succ?_eq_ok (by omega)
      have demoted : Count.succ? cache.metrics.demotions = .ok (cache.metrics.demotions + 1) :=
        Count.succ?_eq_ok (by omega)
      simp only [Checked.absorb, held, less, ghosts, demoted]
      rfl
    · simp only [Metrics.recordDemotion]
      omega
    · simp only [Metrics.recordDemotion]
      omega

namespace Arranged

open SlotList

variable {cache after : Cache κ ν} {cells recent tail : List (Slot × Entry κ ν)}
  {asked stored : Nat}

/-- As long as too much is live there is an entry before the ghost tail, so demoting goes on until
its bound is kept. -/
theorem checked_demote {bound steps : Nat} (arranged : cache.Arranged (recent ++ tail))
    (boundary : cache.boundary = firstSlot tail none) (ghosts : ∀ cell ∈ tail, cell.2.isGhost)
    (enough : recent.length ≤ steps) (counts : cache.CountsUpTo asked stored)
    (few : stored < Count.limit) (demoted : demote bound steps cache = .ok after) :
    Checked.demote bound steps cache = .ok after ∧ after.CountsUpTo asked stored := by
  induction steps generalizing cache recent tail with
  | zero =>
    obtain rfl := List.length_eq_zero_iff.mp (Nat.le_zero.mp enough)
    have noneLive := arranged.live_eq
    rw [List.nil_append, live_tail_eq_nil ghosts] at noneLive
    cases demoted
    exact ⟨if_pos (by simp [noneLive]), counts⟩
  | succ steps ih =>
    by_cases within : cache.live ≤ bound
    · simp only [demote, if_pos within] at demoted
      cases demoted
      exact ⟨if_pos within, counts⟩
    · rcases recent.eq_nil_or_concat with rfl | ⟨upper, ⟨slot, entry⟩, rfl⟩
      · have noneLive := arranged.live_eq
        rw [List.nil_append, live_tail_eq_nil ghosts] at noneLive
        simp [noneLive] at within
      · have next := arranged.beforeGhostTail?_eq boundary
        simp only [List.concat_eq_append, List.append_assoc, List.singleton_append,
          lastSlot_append, lastSlot_cons, lastSlot_nil, List.length_append,
          List.length_singleton] at arranged next enough
        obtain ⟨between, absorbed, arrangedBetween, boundaryBetween, -⟩ :=
          arranged.exists_absorb ghosts (Nat.lt_of_not_le within)
        obtain ⟨checked, countsBetween⟩ := counts.checked_absorb few absorbed
        simp only [demote, if_neg within, next, absorbed] at demoted
        simp only [Checked.demote, if_neg within, next, checked]
        exact ih arrangedBetween boundaryBetween (by simpa [Entry.isGhost] using ghosts)
          (Nat.le_of_succ_le_succ enough) countsBetween demoted

/-- As long as there are ghosts the search from the back finds one, so evicting goes on until its
bound is kept. -/
theorem checked_evict {bound steps : Nat} (arranged : cache.Arranged cells)
    (enough : cache.ghost ≤ bound + steps) (counts : cache.CountsUpTo asked stored)
    (few : stored < Count.limit) (evicted : evict (cache.ghost - bound) cache = .ok after) :
    Checked.evict bound steps cache = .ok after ∧ after.CountsUpTo asked stored := by
  induction steps generalizing cache cells with
  | zero =>
    have within : cache.ghost ≤ bound := enough
    rw [Nat.sub_eq_zero_of_le within] at evicted
    cases evicted
    exact ⟨if_pos within, counts⟩
  | succ steps ih =>
    by_cases within : cache.ghost ≤ bound
    · rw [Nat.sub_eq_zero_of_le within] at evicted
      cases evicted
      exact ⟨if_pos within, counts⟩
    · obtain ⟨upper, lower, slot, key, rfl, oldest, -⟩ := arranged.exists_last_ghost (by omega)
      obtain ⟨between, unlinked, arrangedBetween, plain⟩ := arranged.exists_unlink
      -- One ghost is gone, and one more eviction is counted.
      have ghostBefore := arranged.ghost_eq
      have ghostBetween := arrangedBetween.ghost_eq
      simp only [List.map_append, List.map_cons, Entry.ghosts_append, Entry.ghosts_cons_none,
        List.length_append, List.length_cons] at ghostBefore ghostBetween
      have liveBefore := arranged.live_eq
      have liveBetween := arrangedBetween.live_eq
      simp only [List.map_append, List.map_cons, Entry.live_append, Entry.live_cons_none,
        List.length_append] at liveBefore liveBetween
      have sameMetrics : between.metrics = cache.metrics := congrArg PlainCache.metrics plain
      have evictions := counts.ghostEvictions_le
      have raised : Count.succ? between.metrics.ghostEvictions =
          .ok (between.metrics.ghostEvictions + 1) :=
        Count.succ?_eq_ok (by rw [sameMetrics]; omega)
      let next : Cache κ ν := { between with metrics := between.metrics.recordGhostEviction }
      have arrangedNext : next.Arranged (upper ++ lower) := { arrangedBetween with }
      have countsNext : next.CountsUpTo asked stored :=
        { counts.unlink unlinked with
          ghostEvictions_le := by
            simp only [next, Metrics.recordGhostEviction, sameMetrics]
            omega }
      have excess : cache.ghost - bound = between.ghost - bound + 1 := by omega
      rw [excess] at evicted
      simp only [evict, oldest, unlinked] at evicted
      simp only [Checked.evict, if_neg within, oldest, unlinked, Hazard.guard, Except.mapError,
        bind, Except.bind, raised]
      exact ih arrangedNext (by simp only; omega) countsNext evicted

/-- Trimming is never cut short, and counts nothing that was not counted on. -/
theorem checked_trim (arranged : cache.Arranged cells) (counts : cache.CountsUpTo asked stored)
    (few : stored < Count.limit) {maxLive maxGhost : Nat}
    (trimmed : cache.trim maxLive maxGhost = .ok after) :
    Checked.trim cache maxLive maxGhost = .ok after ∧ after.CountsUpTo asked stored := by
  obtain ⟨recent, tail, rfl, boundary, ghosts⟩ := arranged.ghostTail
  have enough : recent.length ≤ cache.size := by
    rw [arranged.size_eq, List.length_append]
    exact Nat.le_add_right ..
  obtain ⟨demoted, others, demotes, arrangedDemoted, -⟩ :=
    arranged.exists_demote (min maxLive cache.maxFrames) boundary ghosts enough
  obtain ⟨checkedDemote, countsDemoted⟩ :=
    arranged.checked_demote boundary ghosts enough counts few demotes
  simp only [trim, trimTo, demotes] at trimmed
  obtain ⟨checkedEvict, countsAfter⟩ :=
    arrangedDemoted.checked_evict (Nat.le_add_left ..) countsDemoted few trimmed
  refine ⟨?_, countsAfter⟩
  simp only [Checked.trim, checkedDemote]
  exact checkedEvict

/-! ### Operations -/

/-- Setting the room for live entries comes to the same on checked counts. -/
theorem checked_setMaxFrames (arranged : cache.Arranged cells)
    (counts : cache.CountsUpTo asked stored) (few : stored < Count.limit) {maxFrames : Nat}
    (set : cache.setMaxFrames maxFrames = .ok after) :
    Checked.setMaxFrames cache maxFrames = .ok after ∧ after.CountsUpTo asked stored := by
  have resized : ({ cache with maxFrames } : Cache κ ν).Arranged cells := { arranged with }
  have sameCounts : ({ cache with maxFrames } : Cache κ ν).CountsUpTo asked stored :=
    { counts with }
  exact resized.checked_trim sameCounts few set

/-- Setting the room for ghosts comes to the same on checked counts. -/
theorem checked_setMaxHistory (arranged : cache.Arranged cells)
    (counts : cache.CountsUpTo asked stored) (few : stored < Count.limit) {maxHistory : Nat}
    (set : cache.setMaxHistory maxHistory = .ok after) :
    Checked.setMaxHistory cache maxHistory = .ok after ∧ after.CountsUpTo asked stored := by
  have resized : ({ cache with maxHistory } : Cache κ ν).Arranged cells := { arranged with }
  have sameCounts : ({ cache with maxHistory } : Cache κ ν).CountsUpTo asked stored :=
    { counts with }
  exact resized.checked_trim sameCounts few set

/-- A payload that is stored raises the counts by one before any trimming. -/
theorem checked_insert (arranged : cache.Arranged cells) (counts : cache.CountsUpTo asked stored)
    (few : stored + 1 < Count.limit) {key : κ} {payload : ν}
    (inserted : cache.insert key payload = .ok after) :
    Checked.insert cache key payload = .ok after ∧ after.CountsUpTo asked (stored + 1) := by
  obtain ⟨removed, rest, removes, arrangedRemoved, fresh, -⟩ := arranged.exists_remove key
  obtain ⟨slot, list, pushed, -, holds⟩ :=
    arrangedRemoved.holds.exists_pushFront { key, payload := some payload }
  have countsRemoved := counts.remove removes
  have inserts := countsRemoved.inserts_le
  have demotions := countsRemoved.demotions_le
  have evictions := countsRemoved.ghostEvictions_le
  have size : removed.list.size = removed.live + removed.ghost := arrangedRemoved.size_eq_add
  have checkedPush := Checked.pushFront_eq_ok (by omega) pushed
  have raised : Count.succ? removed.live = .ok (removed.live + 1) := Count.succ?_eq_ok (by omega)
  have recorded : Count.succ? removed.metrics.inserts = .ok (removed.metrics.inserts + 1) :=
    Count.succ?_eq_ok (by omega)
  have countsPushed : CountsUpTo
      { removed with
        list
        index := removed.index.insert key slot
        live := removed.live + 1
        metrics := removed.metrics.recordInsert } asked (stored + 1) :=
    { countsRemoved.mono (Nat.le_refl asked) (Nat.le_succ stored) with
      inserts_le := by simp only [Metrics.recordInsert]; omega
      demotions_le := by simp only [Metrics.recordInsert]; omega
      ghostEvictions_le := by simp only [Metrics.recordInsert]; omega }
  simp only [insert, removes, pushed, bind, Except.bind] at inserted
  simp only [Checked.insert, Hazard.guard, removes, checkedPush, raised, recorded, Except.mapError,
    bind, Except.bind]
  exact (arrangedRemoved.push fresh holds).checked_trim countsPushed few inserted

/-- An access counts one look-up, and one payload at most. -/
theorem checked_access (arranged : cache.Arranged cells) (counts : cache.CountsUpTo asked stored)
    (fewAsked : asked + 1 < Count.limit) (fewStored : stored + 1 < Count.limit) {key : κ}
    {payload : ν} {found : Lookup ν} (accessed : cache.access key payload = .ok (found, after)) :
    Checked.access cache key payload = .ok (found, after) ∧
      after.CountsUpTo (asked + 1) (stored + 1) := by
  obtain ⟨looked, arrangedLooked, -⟩ := arranged.exists_lookup key
  obtain ⟨checked, countsLooked⟩ := checked_lookup counts fewAsked key
  simp only [access] at accessed
  simp only [Checked.access, checked, Hazard.guard, Except.mapError, bind, Except.bind]
  by_cases hit : (cache.lookup key).1.isHit
  · rw [if_pos hit] at accessed ⊢
    cases accessed
    exact ⟨rfl, countsLooked.mono (Nat.le_refl _) (Nat.le_succ _)⟩
  · rw [if_neg hit] at accessed ⊢
    obtain ⟨inserted, insertion, same⟩ := exists_of_bind_eq_ok accessed
    cases same
    obtain ⟨checkedInsertion, countsAfter⟩ :=
      arrangedLooked.checked_insert countsLooked fewStored insertion
    rw [checkedInsertion]
    exact ⟨rfl, countsAfter⟩

/-- What can be followed can be followed on checked counts. -/
theorem checked_follow (arranged : cache.Arranged cells) (counts : cache.CountsUpTo asked stored)
    (few : stored < Count.limit) {action : Action} {needMemory : Bool}
    (followed : cache.follow action needMemory = .ok after) :
    Checked.follow cache action needMemory = .ok after ∧ after.CountsUpTo asked stored := by
  have emptied := arranged_clear cache
  cases action with
  | clear => exact emptied.checked_setMaxFrames counts.clear few followed
  | grow =>
    cases needMemory with
    | true =>
      cases followed
      exact ⟨rfl, counts⟩
    | false =>
      obtain ⟨maxFrames, raised, set⟩ := exists_of_bind_eq_ok followed
      obtain ⟨checked, countsAfter⟩ := arranged.checked_setMaxFrames counts few set
      refine ⟨?_, countsAfter⟩
      simp only [Checked.follow, raised]
      exact checked
  | shrink => cases needMemory <;> exact arranged.checked_setMaxFrames counts few followed
  | noChange =>
    cases needMemory with
    | false =>
      cases followed
      exact ⟨rfl, counts⟩
    | true =>
      simp only [follow] at followed
      simp only [Checked.follow]
      by_cases small : cache.maxFrames ≤ 1
      · rw [if_pos small] at followed ⊢
        exact emptied.checked_setMaxFrames counts.clear few followed
      · rw [if_neg small] at followed ⊢
        exact arranged.checked_setMaxFrames counts few followed

end Arranged

/-- The operation is to follow a recommendation to grow that leads out of the 64-bit counts. -/
structure RefusesGrowth (cache : Cache κ ν) (op : Op κ ν) : Prop where
  asked : op = .adjustSize false
  loose : cache.fixed = false
  recommended : cache.window.recommend? = .ok .grow
  tooLarge : Count.limit - 2 ≤ cache.maxFrames

/-- Without a hazard the operation has a result, and is the same on checked counts. -/
def Agrees (cache : Cache κ ν) (op : Op κ ν) : Prop :=
  ∃ answer, (cache.perform op).result = .ok answer ∧
    Checked.perform cache op = .ok (answer, (cache.perform op).state)

/-! ### Steps -/

/-- The operation can be carried out on checked counts and comes to the same, and the counts after
it are at most `count`. -/
structure Carried (cache : Cache κ ν) (op : Op κ ν) (count : Nat) : Prop where
  agrees : cache.Agrees op
  counts : (cache.perform op).state.CountsUpTo count count

section Steps

variable {cache after : Cache κ ν} {op : Op κ ν} {count asked stored : Nat}

private theorem Carried.quietly {outcome : Except Fault (Cache κ ν)}
    {checked : Except Hazard (Cache κ ν)} (performs : cache.perform op = cache.quietly outcome)
    (checks : Checked.perform cache op = checked.bind fun after => .ok (.done, after))
    (succeeds : outcome = .ok after) (same : checked = .ok after ∧ after.CountsUpTo count count) :
    cache.Carried op count := by
  obtain ⟨rfl, counts⟩ := same
  subst succeeds
  refine ⟨⟨.done, ?_, ?_⟩, ?_⟩
  · rw [performs]
    rfl
  · rw [performs, checks]
    rfl
  · rw [performs]
    exact counts

/-- A recommendation that can be followed is carried out on an empty window. -/
theorem adjustSize_of_followed {action : Action} {needMemory : Bool} (loose : ¬ cache.fixed)
    (recommended : cache.window.recommend? = .ok action)
    (followed : ({ cache with window := ∅ } : Cache κ ν).follow action needMemory = .ok after) :
    (cache.adjustSize needMemory).result = .ok (some action) ∧
      (cache.adjustSize needMemory).state =
        { after with metrics := after.metrics.recordResize action needMemory } := by
  simp only [adjustSize, if_neg loose, recommendSize, recommended, Step.andThen, followed, and_self]

/-- A recommendation that cannot be followed faults and leaves the window empty. -/
theorem adjustSize_of_not_followed {action : Action} {needMemory : Bool} {fault : Fault}
    (loose : ¬ cache.fixed) (recommended : cache.window.recommend? = .ok action)
    (refused : ({ cache with window := ∅ } : Cache κ ν).follow action needMemory = .error fault) :
    (cache.adjustSize needMemory).result = .error fault ∧
      (cache.adjustSize needMemory).state = { cache with window := ∅ } := by
  simp only [adjustSize, if_neg loose, recommendSize, recommended, Step.andThen, refused, and_self]

private theorem checked_adjustSize_of_followed {action : Action} {needMemory : Bool}
    {metrics : Metrics} (loose : ¬ cache.fixed)
    (recommended : cache.window.recommend? = .ok action)
    (followed : Checked.follow { cache with window := ∅ } action needMemory = .ok after)
    (recorded : Checked.recordResize after.metrics action needMemory = .ok metrics) :
    Checked.adjustSize cache needMemory = .ok (some action, { after with metrics }) := by
  simp only [Checked.adjustSize, if_neg loose, Checked.recommendSize, recommended, Hazard.guard,
    Except.mapError, bind, Except.bind, followed, recorded]

/-- A recommendation that can be followed is followed on checked counts, however the look-ups that
led to it were counted. -/
theorem Consistent.checked_adjustSize (consistent : cache.Consistent)
    (counts : cache.CountsUpTo asked stored) (fewAsked : asked + 1 < Count.limit)
    (fewStored : stored < Count.limit) (loose : ¬ cache.fixed) {action : Action}
    (recommended : cache.window.recommend? = .ok action) {needMemory : Bool}
    (possible : ¬ cache.RefusesGrowth (.adjustSize needMemory)) :
    (cache.adjustSize needMemory).result = .ok (some action) ∧
      Checked.adjustSize cache needMemory =
        .ok (some action, (cache.adjustSize needMemory).state) ∧
      (cache.adjustSize needMemory).state.CountsUpTo (asked + 1) stored := by
  obtain ⟨⟨cells, arranged⟩, within⟩ := consistent
  have arrangedUnused : ({ cache with window := ∅ } : Cache κ ν).Arranged cells :=
    { arranged with }
  rcases arrangedUnused.follow_cases ⟨within.live_le, within.ghost_le⟩ action needMemory with
    ⟨fault, target, -⟩ | ⟨maxFrames, after, others, -, followed, -, -⟩
  · obtain ⟨rfl, rfl, tooLarge, -⟩ := PlainCache.targetFrames_eq_error_iff.mp target
    exact absurd ⟨rfl, by simpa using loose, recommended, tooLarge⟩ possible
  · obtain ⟨checked, countsAfter⟩ :=
      arrangedUnused.checked_follow counts.recommendSize fewStored followed
    have resizes := countsAfter.resizes_le
    have recorded := Checked.recordResize_eq_ok
      (show after.metrics.clears + after.metrics.grows + after.metrics.shrinks + 1 < _ by omega)
      action needMemory
    obtain ⟨answered, adjusted⟩ := adjustSize_of_followed loose recommended followed
    have checkedAdjust := checked_adjustSize_of_followed loose recommended checked recorded
    rw [← adjusted] at checkedAdjust
    refine ⟨answered, checkedAdjust, ?_⟩
    rw [adjusted]
    exact countsAfter.recordResize action needMemory

/-- Adjusting the size meets no hazard without the policy, or with a recommendation that can be
followed. -/
theorem Consistent.carried_adjustSize (consistent : cache.Consistent)
    (counts : cache.CountsUpTo count count) (few : (count + 1) * nearMissGrowRatio < Count.limit)
    {needMemory : Bool} (possible : ¬ cache.RefusesGrowth (.adjustSize needMemory)) :
    cache.Carried (.adjustSize needMemory) (count + 1) := by
  by_cases fixed : cache.fixed
  · have unchanged : cache.perform (.adjustSize needMemory) = .done (.action none) cache :=
      congrArg (Step.map Answer.action) (if_pos fixed)
    have checked : Checked.adjustSize cache needMemory = .ok (none, cache) := if_pos fixed
    refine ⟨⟨.action none, ?_, ?_⟩, ?_⟩
    · rw [unchanged]
      rfl
    · simp only [Checked.perform, checked, unchanged]
      rfl
    · rw [unchanged]
      exact counts.succ
  · have window := counts.window_le
    have more : count + 1 ≤ (count + 1) * nearMissGrowRatio := Nat.le_mul_of_pos_right _ (by decide)
    obtain ⟨action, recommended⟩ : ∃ action, cache.window.recommend? = .ok action :=
      Tally.exists_recommend? (Nat.lt_of_le_of_lt (Nat.mul_le_mul_right _ (by omega)) few)
    obtain ⟨answered, checked, countsAfter⟩ :=
      consistent.checked_adjustSize counts (by omega) (by omega) fixed recommended possible
    refine ⟨⟨.action (some action), ?_, ?_⟩, countsAfter.mono (Nat.le_refl _) (Nat.le_succ _)⟩
    · exact congrArg (Except.map Answer.action) answered
    · simp only [Checked.perform, checked]
      rfl

/-- A few operations after it was new, a cache carries out any operation but that one. -/
theorem Consistent.carried (consistent : cache.Consistent) (counts : cache.CountsUpTo count count)
    (few : (count + 1) * nearMissGrowRatio < Count.limit)
    (possible : ¬ cache.RefusesGrowth op) : cache.Carried op (count + 1) := by
  have more := counts.succ
  have fewer : count + 1 < Count.limit :=
    Nat.lt_of_le_of_lt (Nat.le_mul_of_pos_right _ (by decide)) few
  obtain ⟨⟨cells, arranged⟩, -⟩ := id consistent
  cases op with
  | lookup key =>
    obtain ⟨checked, countsAfter⟩ := checked_lookup counts fewer key
    refine ⟨⟨.found (cache.lookup key).1, rfl, ?_⟩,
      countsAfter.mono (Nat.le_refl _) (Nat.le_succ _)⟩
    simp only [Checked.perform, checked]
    rfl
  | get key =>
    obtain ⟨checked, countsAfter⟩ := checked_lookup counts fewer key
    refine ⟨⟨.payload (cache.get key).1, rfl, ?_⟩,
      countsAfter.mono (Nat.le_refl _) (Nat.le_succ _)⟩
    simp only [Checked.perform, checked]
    rfl
  | peek key => exact ⟨⟨_, rfl, rfl⟩, more⟩
  | contains key => exact ⟨⟨_, rfl, rfl⟩, more⟩
  | isLive key => exact ⟨⟨_, rfl, rfl⟩, more⟩
  | insert key payload =>
    obtain ⟨after, -, inserted, -, -⟩ := arranged.exists_insert key payload
    obtain ⟨checked, countsAfter⟩ := arranged.checked_insert counts fewer inserted
    exact .quietly rfl rfl inserted
      ⟨checked, countsAfter.mono (Nat.le_succ _) (Nat.le_refl _)⟩
  | remove key =>
    obtain ⟨after, -, removed, -, -, -⟩ := arranged.exists_remove key
    have performed : cache.perform (.remove key) =
        .done (.flag (cache.toPlain.remove key).1) after := by
      simp only [Cache.perform, removed]
      rfl
    refine ⟨⟨.flag (cache.toPlain.remove key).1, ?_, ?_⟩, ?_⟩
    · rw [performed]
      rfl
    · simp only [Checked.perform, removed, performed]
      rfl
    · rw [performed]
      exact more.remove removed
  | clear => exact ⟨⟨_, rfl, rfl⟩, more.clear⟩
  | trim maxLive maxGhost =>
    obtain ⟨after, -, trimmed, -, -⟩ := arranged.exists_trim maxLive maxGhost
    exact .quietly rfl rfl trimmed (arranged.checked_trim more fewer trimmed)
  | setMaxFrames maxFrames =>
    obtain ⟨after, -, set, -, -⟩ := arranged.exists_setMaxFrames maxFrames
    exact .quietly rfl rfl set (arranged.checked_setMaxFrames more fewer set)
  | setMaxHistory maxHistory =>
    obtain ⟨after, -, set, -, -⟩ := arranged.exists_setMaxHistory maxHistory
    exact .quietly rfl rfl set (arranged.checked_setMaxHistory more fewer set)
  | recommendSize =>
    obtain ⟨action, recommended⟩ : ∃ action, cache.window.recommend? = .ok action :=
      Tally.exists_recommend? (Nat.lt_of_le_of_lt (Nat.mul_le_mul_right _ more.window_le) few)
    refine ⟨⟨.action (some action), ?_, ?_⟩, ?_⟩
    · simp [Cache.perform, Cache.recommendSize, recommended, Step.map, Except.map]
    · simp [Cache.perform, Cache.recommendSize, Checked.perform, Checked.recommendSize,
        Hazard.guard, Except.mapError, recommended, Step.map, bind, Except.bind]
    · change cache.recommendSize.state.CountsUpTo (count + 1) (count + 1)
      rw [Arranged.recommendSize_state]
      exact more.recommendSize
  | adjustSize needMemory => exact consistent.carried_adjustSize counts few possible
  | resetMetrics => exact ⟨⟨_, rfl, rfl⟩, more.resetMetrics⟩

/-- A growth is refused only where the larger capacity is no 64-bit count. -/
theorem RefusesGrowth.overflow (refused : cache.RefusesGrowth op) :
    Count.add? cache.maxFrames growStep = .error .sumTooLarge := by
  have tooLarge := refused.tooLarge
  have two_le : 2 ≤ Count.limit := by decide
  exact if_neg (by simp only [growStep]; omega)

/-- What growing too large leaves behind is the cache without the look-ups counted. -/
theorem RefusesGrowth.adjustSize {needMemory : Bool}
    (refused : cache.RefusesGrowth (.adjustSize needMemory)) :
    (cache.adjustSize needMemory).result = .error .sumTooLarge ∧
      (cache.adjustSize needMemory).state = { cache with window := ∅ } := by
  have overflow := refused.overflow
  obtain ⟨asked, loose, recommended, -⟩ := refused
  obtain rfl : needMemory = false := Op.adjustSize.inj asked
  have notFollowed : ({ cache with window := ∅ } : Cache κ ν).follow .grow false =
      .error .sumTooLarge := by
    simp only [follow, overflow]
    rfl
  exact adjustSize_of_not_followed (by simp [loose]) recommended notFollowed

/-- The one hazard is an overflow, on checked counts too. -/
theorem RefusesGrowth.perform (refused : cache.RefusesGrowth op) :
    (cache.perform op).result = .error .sumTooLarge ∧
      Checked.perform cache op = .error (.fault .sumTooLarge) ∧
      (cache.perform op).state = { cache with window := ∅ } := by
  obtain ⟨rfl, loose, recommended, -⟩ := id refused
  have notFixed : ¬ cache.fixed := by simp [loose]
  have overflow := refused.overflow
  have notChecked : Checked.follow ({ cache with window := ∅ } : Cache κ ν) .grow false =
      .error (.fault .sumTooLarge) := by
    simp only [Checked.follow, overflow]
    rfl
  obtain ⟨answered, adjusted⟩ := refused.adjustSize
  refine ⟨congrArg (Except.map Answer.action) answered, ?_, adjusted⟩
  simp only [Checked.perform, Checked.adjustSize, if_neg notFixed, Checked.recommendSize,
    recommended, Hazard.guard, Except.mapError, bind, Except.bind, notChecked]

/-- Whether or not it meets the hazard, an operation raises the counts by one at most. -/
theorem Consistent.counts_perform (consistent : cache.Consistent)
    (counts : cache.CountsUpTo count count)
    (few : (count + 1) * nearMissGrowRatio < Count.limit) (op : Op κ ν) :
    (cache.perform op).state.CountsUpTo (count + 1) (count + 1) := by
  by_cases refused : cache.RefusesGrowth op
  · rw [refused.perform.2.2]
    exact counts.succ.recommendSize
  · exact (consistent.carried counts few refused).counts

/-- A run counts at most one more in each of its operations. -/
theorem Consistent.counts_run (consistent : cache.Consistent)
    (counts : cache.CountsUpTo count count) {ops : List (Op κ ν)}
    (few : (count + ops.length) * nearMissGrowRatio < Count.limit) :
    (cache.run ops).CountsUpTo (count + ops.length) (count + ops.length) := by
  induction ops generalizing cache count with
  | nil => exact counts
  | cons op rest ih =>
    have length : count + (op :: rest).length = count + 1 + rest.length := by
      rw [List.length_cons]
      omega
    have fewNow : (count + 1) * nearMissGrowRatio < Count.limit :=
      Nat.lt_of_le_of_lt (Nat.mul_le_mul_right _ (by omega)) few
    rw [length] at few ⊢
    exact ih (consistent.perform op) (consistent.counts_perform counts fewNow op) few

end Steps

/-! ### Runs -/

/-- In a run of at most `(2 ^ 64 - 1) / 20` operations the look-ups counted can always be judged,
and the only operation that meets a hazard is to follow a recommendation to grow that leads out of
the 64-bit counts. Every other one has a result, and is the same on checked counts: no counter
leaves its range, no slot is out of bounds, and trimming is never cut short. -/
theorem only_growth_faults {maxFrames maxHistory : Nat} {fixed : Bool} {start : Cache κ ν}
    (created : create maxFrames maxHistory fixed = .ok start) {ops : List (Op κ ν)}
    (few : ops.length ≤ (Count.limit - 1) / nearMissGrowRatio) {earlier later : List (Op κ ν)}
    {op : Op κ ν} (split : ops = earlier ++ op :: later) :
    let cache := start.run earlier
    (∃ action, cache.window.recommend? = .ok action) ∧
      (cache.RefusesGrowth op →
        (cache.perform op).result = .error .sumTooLarge ∧
          Checked.perform cache op = .error (.fault .sumTooLarge)) ∧
      (¬ cache.RefusesGrowth op → cache.Agrees op) := by
  obtain ⟨-, rfl⟩ := create_eq_ok_iff.mp created
  intro cache
  have newCache := consistent_empty (κ := κ) (ν := ν) maxFrames maxHistory fixed
  have consistent : cache.Consistent := newCache.run earlier
  have positive : 0 < Count.limit := by decide
  have enough : (earlier.length + 1) * nearMissGrowRatio < Count.limit := by
    have bound := (Nat.le_div_iff_mul_le (by decide)).mp few
    have shorter : earlier.length + 1 ≤ ops.length := by
      rw [split, List.length_append, List.length_cons]
      omega
    have := Nat.mul_le_mul_right nearMissGrowRatio shorter
    omega
  have enoughBefore : (0 + earlier.length) * nearMissGrowRatio < Count.limit :=
    Nat.lt_of_le_of_lt (Nat.mul_le_mul_right _ (by omega)) enough
  have counts : cache.CountsUpTo earlier.length earlier.length := by
    have := newCache.counts_run (countsUpTo_empty maxFrames maxHistory fixed) enoughBefore
    rwa [Nat.zero_add] at this
  refine ⟨?_, fun refused => ?_, fun possible => (consistent.carried counts enough possible).agrees⟩
  · rw [Nat.zero_add] at enoughBefore
    exact Tally.exists_recommend?
      (Nat.lt_of_le_of_lt (Nat.mul_le_mul_right _ counts.window_le) enoughBefore)
  · obtain ⟨fault, checked, -⟩ := refused.perform
    exact ⟨fault, checked⟩

/-- A cache whose capacity was set to the largest count, and whose look-ups all promoted one ghost,
is to grow, and is used on afterwards. -/
theorem only_growth_faults_of_promoted_ghost :
    let start : Cache Nat String := .empty 1 2 false
    let earlier : List (Op Nat String) :=
      [.insert 1 "a", .insert 2 "b"] ++ List.replicate 30 (.lookup 1) ++
        [.setMaxFrames (Count.limit - 1)]
    let ops := earlier ++ .adjustSize false :: [.insert 3 "c", .setMaxFrames 1]
    create 1 2 false = .ok start ∧ ops.length ≤ (Count.limit - 1) / nearMissGrowRatio ∧
      ((start.run earlier).perform (.adjustSize false)).result = .error .sumTooLarge ∧
      (start.run (earlier ++ [.adjustSize false])).Agrees (.insert 3 "c") := by
  intro start earlier ops
  have created : create 1 2 false = .ok start := create_eq_ok_iff.mpr ⟨by decide, rfl⟩
  have few : ops.length ≤ (Count.limit - 1) / nearMissGrowRatio := by decide
  have plain : (start.run earlier).toPlain = (PlainCache.empty 1 2 false).run earlier :=
    (consistent_empty 1 2 false).toPlain_run earlier
  have counted : ((PlainCache.empty 1 2 false).run earlier).window = { nearMisses := 30 } := by
    decide +kernel
  have recommended : (start.run earlier).window.recommend? = .ok .grow := by
    rw [Tally.recommend?_eq_ok_iff, ← toPlain_window, plain, counted]
    exact ⟨by decide, fun _ => by decide, by decide, by decide⟩
  have largest : ((PlainCache.empty 1 2 false).run earlier).maxFrames = Count.limit - 1 := by
    decide +kernel
  have tooLarge : Count.limit - 2 ≤ (start.run earlier).maxFrames := by
    rw [← toPlain_maxFrames, plain, largest]
    decide
  have refused : (start.run earlier).RefusesGrowth (.adjustSize false) :=
    ⟨rfl, (consistent_empty 1 2 false).fixed_run earlier, recommended, tooLarge⟩
  refine ⟨created, few, ((only_growth_faults created few rfl).2.1 refused).1, ?_⟩
  have next : ops = (earlier ++ [.adjustSize false]) ++ .insert 3 "c" :: [.setMaxFrames 1] := by
    simp [ops]
  exact (only_growth_faults created few next).2.2 fun impossible => nomatch impossible.asked

end Cache

end FrameKeep
