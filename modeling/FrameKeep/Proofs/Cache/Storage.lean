import Mathlib.Data.List.Infix
import FrameKeep.Proofs.Cache.Adjustment
import FrameKeep.Proofs.Cache.Coherence
import FrameKeep.Proofs.HighWater

/-!
# Bounded storage

The slots that a cache has opened are kept, vacant or not, until the cache is emptied. Only an
insertion opens one, and only if every slot is taken; the cache is within its capacities before the
insertion, and one entry over them for as long as it takes to trim. So one slot more than the
capacities had room for at any time is enough (`Consistent.opened_perform_le`).
-/

namespace FrameKeep

namespace SlotList

variable {α : Type} {list after : SlotList α} {slot : Slot} {value : α}

private theorem opened_of_remove {value? : Option α}
    (removed : list.remove slot = .ok (value?, after)) :
    after.nodes.opened = list.nodes.opened := by
  unfold remove at removed
  split at removed
  next =>
    obtain ⟨⟨node?, nodes⟩, vacated, rest⟩ := exists_of_bind_eq_ok removed
    cases rest
    exact (Arena.opened_of_remove vacated).trans (opened_detach list slot)
  next =>
    cases removed
    rfl

/-- A push opens a slot only if all are occupied. -/
theorem Holds.opened_of_pushFront {cells : List (Slot × α)} (holds : list.Holds cells)
    (pushed : list.pushFront value = .ok (slot, after)) :
    after.nodes.opened = max list.nodes.opened (list.size + 1) := by
  obtain ⟨⟨filled, nodes⟩, inserted, rest⟩ := exists_of_bind_eq_ok pushed
  cases rest
  rw [opened_attachFront]
  exact holds.wellFormed.opened_of_insert inserted

end SlotList

namespace Cache

variable {κ ν : Type} [DecidableEq κ] [Hashable κ]

/-- The number of slots opened for entries, vacant ones included. -/
def opened (cache : Cache κ ν) : Nat := cache.list.nodes.opened

/-- The number of entries that the capacities have room for. -/
def room (cache : Cache κ ν) : Nat := cache.maxFrames + cache.maxHistory

/-- Whether an operation empties the cache. -/
def empties (cache : Cache κ ν) : Op κ ν → Bool
  | .clear => true
  | .adjustSize needMemory => (cache.toPlain.resize? needMemory).any (·.1)
  | _ => false

variable {cache after : Cache κ ν} {slot : Slot} {key : κ}

/-! ### What opens no slot -/

@[simp] theorem opened_promote (cache : Cache κ ν) (slot : Slot) :
    (cache.promote slot).opened = cache.opened := by
  unfold promote
  split
  next => rfl
  next => exact SlotList.opened_moveToFront cache.list slot

@[simp] theorem opened_lookup (cache : Cache κ ν) (key : κ) :
    (cache.lookup key).2.opened = cache.opened := by
  unfold lookup
  split
  next => rfl
  next slot _ => exact opened_promote cache slot

private theorem opened_of_unlink (unlinked : cache.unlink slot = .ok after) :
    after.opened = cache.opened := by
  obtain ⟨⟨removed, list⟩, taken, rest⟩ := exists_of_bind_eq_ok unlinked
  have same : list.nodes.opened = cache.opened := SlotList.opened_of_remove taken
  rcases removed with _ | ⟨key, _ | payload⟩
  · cases rest
    exact same
  · obtain ⟨ghost, -, counted⟩ := exists_of_bind_eq_ok rest
    cases counted
    exact same
  · obtain ⟨live, -, counted⟩ := exists_of_bind_eq_ok rest
    cases counted
    exact same

/-- Removing a key opens no slot. -/
theorem opened_of_remove {found : Bool} (removed : cache.remove key = .ok (found, after)) :
    after.opened = cache.opened := by
  unfold remove at removed
  split at removed
  next =>
    cases removed
    rfl
  next slot _ =>
    obtain ⟨between, unlinked, rest⟩ := exists_of_bind_eq_ok removed
    cases rest
    exact opened_of_unlink unlinked

private theorem opened_of_absorb (absorbed : cache.absorb slot = .ok after) :
    after.opened = cache.opened := by
  unfold absorb at absorbed
  split at absorbed
  next =>
    cases absorbed
    rfl
  next =>
    obtain ⟨live, -, rest⟩ := exists_of_bind_eq_ok absorbed
    cases rest
    exact Arena.opened_modify ..

/-- Demoting opens no slot. -/
theorem opened_of_demote {bound steps : Nat} (demoted : demote bound steps cache = .ok after) :
    after.opened = cache.opened := by
  induction steps generalizing cache with
  | zero =>
    cases demoted
    rfl
  | succ steps ih =>
    rw [demote] at demoted
    split at demoted
    next =>
      cases demoted
      rfl
    next =>
      split at demoted
      next =>
        cases demoted
        rfl
      next slot _ =>
        obtain ⟨between, absorbed, rest⟩ := exists_of_bind_eq_ok demoted
        exact (ih rest).trans (opened_of_absorb absorbed)

/-- Evicting opens no slot. -/
theorem opened_of_evict {excess : Nat} (evicted : evict excess cache = .ok after) :
    after.opened = cache.opened := by
  induction excess generalizing cache with
  | zero =>
    cases evicted
    rfl
  | succ excess ih =>
    rw [evict] at evicted
    split at evicted
    next =>
      cases evicted
      rfl
    next slot _ =>
      obtain ⟨between, unlinked, rest⟩ := exists_of_bind_eq_ok evicted
      have same : between.opened = cache.opened := opened_of_unlink unlinked
      exact (ih rest).trans same

/-- Trimming opens no slot. -/
theorem opened_of_trim {maxLive maxGhost : Nat}
    (trimmed : cache.trim maxLive maxGhost = .ok after) : after.opened = cache.opened := by
  obtain ⟨between, demoted, evicted⟩ := exists_of_bind_eq_ok trimmed
  exact (opened_of_evict evicted).trans (opened_of_demote demoted)

/-- Setting the room for live entries opens no slot. -/
theorem opened_of_setMaxFrames {maxFrames : Nat} (set : cache.setMaxFrames maxFrames = .ok after) :
    after.opened = cache.opened := by
  have same : after.opened = ({ cache with maxFrames } : Cache κ ν).opened := opened_of_trim set
  exact same

/-- Setting the room for ghosts opens no slot. -/
theorem opened_of_setMaxHistory {maxHistory : Nat}
    (set : cache.setMaxHistory maxHistory = .ok after) : after.opened = cache.opened := by
  have same : after.opened = ({ cache with maxHistory } : Cache κ ν).opened := opened_of_trim set
  exact same

/-- What cannot be carried out opens no slot, since it changes nothing. -/
theorem opened_quietly_le {outcome : Except Fault (Cache κ ν)} {bound : Nat}
    (changed : ∀ {after}, outcome = .ok after → after.opened ≤ bound)
    (unchanged : cache.opened ≤ bound) : (cache.quietly outcome).state.opened ≤ bound := by
  cases outcome with
  | error fault => exact unchanged
  | ok after => exact changed rfl

/-! ### One operation -/

namespace Consistent

/-- There are no more entries than there is room for. -/
theorem size_le_room (consistent : cache.Consistent) : cache.size ≤ cache.room := by
  obtain ⟨cells, arranged⟩ := consistent.arranged
  have live : (Entry.live cache.entries).length ≤ cache.maxFrames := consistent.within.live_le
  have ghosts : (Entry.ghosts cache.entries).length ≤ cache.maxHistory := consistent.within.ghost_le
  have total := Entry.length_live_add_length_ghosts cache.entries
  rw [arranged.entries_eq, List.length_map, ← arranged.size_eq, ← arranged.entries_eq] at total
  unfold room
  omega

/-- An entry about to be inserted takes a vacant slot if there is one, and there is one unless all
slots that the capacities have room for are taken. -/
theorem opened_of_pushFront_le (consistent : cache.Consistent) {found : Bool}
    {removed : Cache κ ν} {payload : ν} {list : SlotList (Entry κ ν)}
    (removes : cache.remove key = .ok (found, removed))
    (pushed : removed.list.pushFront { key, payload := some payload } = .ok (slot, list)) :
    list.nodes.opened ≤ max cache.opened (cache.room + 1) := by
  have sameOpened := opened_of_remove removes
  have removedState : (cache.perform (.remove key)).state = removed := by
    simp only [Cache.perform, removes]
    rfl
  have consistentRemoved : removed.Consistent := removedState ▸ consistent.perform (.remove key)
  have sameRoom : removed.room = cache.room := by
    have plain := consistent.toPlain_perform (.remove key)
    rw [removedState] at plain
    unfold room
    rw [← toPlain_maxFrames, ← toPlain_maxHistory, plain]
    rfl
  obtain ⟨cells, arranged⟩ := consistentRemoved.arranged
  have opens := arranged.holds.opened_of_pushFront pushed
  have few : removed.list.size ≤ cache.room := sameRoom ▸ consistentRemoved.size_le_room
  rw [opens]
  change max removed.opened _ ≤ _
  omega

/-- An insertion opens at most one slot more than there is room for. -/
theorem opened_of_insert_le (consistent : cache.Consistent) {payload : ν}
    (inserted : cache.insert key payload = .ok after) :
    after.opened ≤ max cache.opened (cache.room + 1) := by
  obtain ⟨⟨found, removed⟩, removes, rest⟩ := exists_of_bind_eq_ok inserted
  obtain ⟨⟨slot, list⟩, pushed, trimmed⟩ := exists_of_bind_eq_ok rest
  rw [opened_of_trim trimmed]
  exact consistent.opened_of_pushFront_le removes pushed

/-- Adjusting the size opens no slot, and closes all if it empties the cache. -/
theorem opened_adjustSize (consistent : cache.Consistent) (needMemory : Bool) :
    (cache.adjustSize needMemory).state.opened =
      if cache.empties (.adjustSize needMemory) then 0 else cache.opened := by
  have known : cache.empties (.adjustSize needMemory) =
      (cache.toPlain.resize? needMemory).any (·.1) := rfl
  rw [known]
  by_cases fixed : cache.fixed
  · have nothing : cache.toPlain.resize? needMemory = none := if_pos fixed
    have unchanged : cache.adjustSize needMemory = .done none cache := if_pos fixed
    rw [nothing, unchanged]
    rfl
  have asks : cache.toPlain.resize? needMemory = _ := if_neg fixed
  rw [toPlain_window, toPlain_maxFrames] at asks
  cases recommended : cache.window.recommend? with
  | error fault =>
    simp only [recommended] at asks
    rw [asks, adjustSize_of_unjudged fixed recommended]
    rfl
  | ok action =>
    obtain ⟨⟨cells, arranged⟩, within⟩ := consistent
    have asked : ({ cache with window := ∅ } : Cache κ ν).Arranged cells := { arranged with }
    have follows := asked.follow_eq ⟨within.live_le, within.ghost_le⟩ action needMemory
    cases target : PlainCache.targetFrames cache.maxFrames action needMemory with
    | error fault =>
      simp only [recommended, target] at asks follows
      rw [asks, (adjustSize_of_not_followed fixed recommended follows).2]
      rfl
    | ok maxFrames =>
      cases emptied : PlainCache.empties cache.maxFrames action needMemory with
      | true =>
        simp only [recommended, target, emptied] at asks follows
        obtain ⟨after, others, set, -⟩ :=
          (arranged_clear { cache with window := ∅ }).exists_setMaxFrames maxFrames
        have closed := opened_of_setMaxFrames set
        rw [asks, (adjustSize_of_followed fixed recommended (follows.trans set)).2]
        exact closed
      | false =>
        simp only [recommended, target, emptied] at asks follows
        obtain ⟨after, others, set, -⟩ := asked.exists_setMaxFrames maxFrames
        have same := opened_of_setMaxFrames set
        rw [asks, (adjustSize_of_followed fixed recommended (follows.trans set)).2]
        exact same

/-- An operation opens no more slots than the capacities have room for, and one; one that empties
the cache closes all. -/
theorem opened_perform_le (consistent : cache.Consistent) (op : Op κ ν) :
    (cache.perform op).state.opened ≤
      if cache.empties op then 0 else max cache.opened (cache.room + 1) := by
  have unchanged : cache.opened ≤ max cache.opened (cache.room + 1) := Nat.le_max_left ..
  have unopened {after : Cache κ ν} (same : after.opened = cache.opened) :
      after.opened ≤ max cache.opened (cache.room + 1) := same ▸ unchanged
  cases op with
  | lookup key => exact unopened (opened_lookup cache key)
  | get key => exact unopened (opened_lookup cache key)
  | insert key payload => exact opened_quietly_le (consistent.opened_of_insert_le ·) unchanged
  | remove key =>
    have performed : cache.perform (.remove key) = .ofExcept cache
        ((cache.remove key).map fun answer => (.flag answer.1, answer.2)) := rfl
    rw [performed]
    cases removed : cache.remove key with
    | error fault => exact unchanged
    | ok answer => exact unopened (opened_of_remove removed)
  | clear => exact Nat.le_refl 0
  | trim maxLive maxGhost =>
    exact opened_quietly_le (fun trimmed => unopened (opened_of_trim trimmed)) unchanged
  | setMaxFrames maxFrames =>
    exact opened_quietly_le (fun set => unopened (opened_of_setMaxFrames set)) unchanged
  | setMaxHistory maxHistory =>
    exact opened_quietly_le (fun set => unopened (opened_of_setMaxHistory set)) unchanged
  | recommendSize =>
    refine unopened ?_
    change cache.recommendSize.state.opened = _
    rw [Arranged.recommendSize_state]
    rfl
  | adjustSize needMemory =>
    change (cache.adjustSize needMemory).state.opened ≤ _
    rw [consistent.opened_adjustSize needMemory]
    split
    next => exact Nat.le_refl 0
    next => exact unchanged
  | peek | contains | isLive | resetMetrics => exact unchanged

end Consistent

/-! ### Runs -/

/-- The most room that there was along a run since the cache was new or last emptied. -/
def MostRoom (start : Cache κ ν) (ops : List (Op κ ν)) (room : Nat) : Prop :=
  HighWater (fun earlier => (start.run earlier).room)
    (fun earlier op => (start.run earlier).empties op) ops room

/-- One slot more than there was room for has always been enough. -/
theorem Consistent.exists_mostRoom {start : Cache κ ν} (consistent : start.Consistent)
    (new : start.opened = 0) (ops : List (Op κ ν)) :
    ∃ room, start.MostRoom ops room ∧ (start.run ops).opened ≤ room + 1 := by
  induction ops using List.reverseRecOn with
  | nil => exact ⟨start.room, .nil _ _, Nat.le_trans (Nat.le_of_eq new) (Nat.zero_le _)⟩
  | append_singleton earlier op ih =>
    obtain ⟨room, most, few⟩ := ih
    have opens := (consistent.run earlier).opened_perform_le op
    rw [← run_concat] at opens
    by_cases emptied : (start.run earlier).empties op
    · rw [if_pos emptied] at opens
      exact ⟨_, .of_resets emptied, Nat.le_trans opens (Nat.zero_le _)⟩
    · rw [if_neg emptied] at opens
      have roomy : (start.run earlier).room ≤ room := most.level_le
      refine ⟨_, most.concat emptied, ?_⟩
      omega

/-- After any operations on a new cache the slots opened are the entries and the vacant slots, and
there is at most one more of them than the most room that there was since the cache was new or last
emptied, even while a payload is being inserted. While the capacities stay what they are, one slot
more than they have room for is enough. -/
theorem storage_bounded {maxFrames maxHistory : Nat} {fixed : Bool} {start : Cache κ ν}
    (created : create maxFrames maxHistory fixed = .ok start) (ops : List (Op κ ν)) :
    let cache := start.run ops
    cache.opened = cache.size + cache.list.nodes.vacant.length ∧
      ∃ room, start.MostRoom ops room ∧ cache.opened ≤ room + 1 ∧
        (∀ key payload found removed slot list, cache.remove key = .ok (found, removed) →
          removed.list.pushFront { key, payload := some payload } = .ok (slot, list) →
            list.nodes.opened ≤ room + 1) ∧
        ((∀ earlier later, ops = earlier ++ later →
            (start.run earlier).room = maxFrames + maxHistory) →
          cache.opened ≤ maxFrames + maxHistory + 1) := by
  obtain ⟨-, rfl⟩ := create_eq_ok_iff.mp created
  have newCache := consistent_empty (κ := κ) (ν := ν) maxFrames maxHistory fixed
  intro cache
  have consistent : cache.Consistent := newCache.run ops
  obtain ⟨room, most, few⟩ := newCache.exists_mostRoom rfl ops
  refine ⟨?_, room, most, few, ?_, fun constant => ?_⟩
  · obtain ⟨cells, arranged⟩ := consistent.arranged
    exact arranged.holds.wellFormed.opened_eq
  · intro key payload found removed slot list removes pushed
    have opens := consistent.opened_of_pushFront_le removes pushed
    have roomy : cache.room ≤ room := most.level_le
    change cache.opened ≤ room + 1 at few
    omega
  · rwa [most.eq_of_constant constant] at few

/-- Five keys pass through a cache of two frames and one ghost, one of them is taken out on the way,
and four slots are enough. -/
theorem storage_bounded_of_five_keys :
    let start : Cache Nat String := .empty 2 1 false
    let ops : List (Op Nat String) :=
      [.insert 1 "a", .insert 2 "b", .insert 3 "c", .insert 4 "d", .remove 3, .lookup 2,
        .insert 5 "e", .insert 1 "f"]
    create 2 1 false = .ok start ∧
      (∀ earlier later, ops = earlier ++ later → (start.run earlier).room = 2 + 1) ∧
      (start.run ops).opened ≤ 2 + 1 + 1 := by
  intro start ops
  have created : create 2 1 false = .ok start := create_eq_ok_iff.mpr ⟨by decide, rfl⟩
  have constant : ∀ earlier later, ops = earlier ++ later → (start.run earlier).room = 2 + 1 := by
    intro earlier later split
    have plain : (start.run earlier).toPlain = (PlainCache.empty 2 1 false).run earlier :=
      (consistent_empty 2 1 false).toPlain_run earlier
    have capacities : ∀ first ∈ ops.inits, ((PlainCache.empty 2 1 false).run first).maxFrames +
        ((PlainCache.empty 2 1 false).run first).maxHistory = 3 := by
      decide
    rw [room, ← toPlain_maxFrames, ← toPlain_maxHistory, plain]
    exact capacities earlier ((List.mem_inits _ _).mpr ⟨later, split.symm⟩)
  obtain ⟨-, room, -, -, -, few⟩ := storage_bounded created ops
  exact ⟨created, constant, few constant⟩

end Cache

end FrameKeep
