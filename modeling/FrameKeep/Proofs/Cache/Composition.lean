import FrameKeep.Proofs.Cache.Refinement

/-!
# Trims compose

Trimming takes payloads first and drops ghosts second, so a payload that is taken later becomes a
ghost that an earlier trim could not count. What an earlier trim dropped is nevertheless beyond the
bound of a later one, as long as the later trim leaves no more ghosts than the earlier one
(`evict_demote_evict`): the ghosts that stayed lie before those that were dropped, and more can only
have joined them. On this rest the composition of two trims and the order of two capacities.
-/

namespace FrameKeep

variable {κ ν : Type}

namespace Entry

/-- Leaving some payloads and then others is leaving the fewer ones. -/
theorem keepLive_keepLive (first second : Nat) (entries : List (Entry κ ν)) :
    keepLive second (keepLive first entries) = keepLive (min first second) entries := by
  induction entries generalizing first second with
  | nil => simp only [keepLive]
  | cons entry rest ih =>
    obtain ⟨key, _ | payload⟩ := entry
    · simp only [keepLive, ih]
    · cases first with
      | zero => simp only [keepLive, ih, Nat.zero_min]
      | succ first =>
        cases second with
        | zero => simp only [keepLive, ih, Nat.min_zero]
        | succ second => simp only [keepLive, ih, Nat.succ_min_succ]

/-- A ghost that is dropped early would have been dropped late, whatever payloads are taken in
between. -/
theorem keepGhosts_keepLive_keepGhosts {fewer more : Nat} (le : fewer ≤ more) (count : Nat)
    (entries : List (Entry κ ν)) :
    keepGhosts fewer (keepLive count (keepGhosts more entries)) =
      keepGhosts fewer (keepLive count entries) := by
  induction entries generalizing fewer more count with
  | nil => simp only [keepGhosts, keepLive]
  | cons entry rest ih =>
    obtain ⟨key, _ | payload⟩ := entry
    · cases fewer with
      | zero =>
        cases more with
        | zero => simp only [keepGhosts, keepLive, ih le]
        | succ more => simp only [keepGhosts, keepLive, ih (Nat.zero_le more)]
      | succ fewer =>
        obtain ⟨more, rfl⟩ := Nat.exists_eq_add_of_lt le
        simp only [keepGhosts, keepLive, ih (Nat.le_add_right fewer more)]
    · cases count with
      | succ count => simp only [keepGhosts, keepLive, ih le]
      | zero =>
        -- The payload is taken, which makes one ghost more before all that follow.
        cases fewer with
        | zero => simp only [keepGhosts, keepLive, ih le]
        | succ fewer => simp only [keepGhosts, keepLive, ih (Nat.le_of_succ_le le)]

/-- Each payload taken is one ghost more. -/
theorem length_ghosts_keepLive (count : Nat) (entries : List (Entry κ ν)) :
    (ghosts (keepLive count entries)).length =
      (ghosts entries).length + ((live entries).length - count) := by
  have after := length_live_add_length_ghosts (keepLive count entries)
  have before := length_live_add_length_ghosts entries
  rw [length_keepLive, length_live_keepLive] at after
  omega

end Entry

namespace PlainCache

variable {cache : PlainCache κ ν}

/-- Demoting twice leaves as many live entries as the smaller bound does. -/
theorem demote_demote (cache : PlainCache κ ν) (first second : Nat) :
    (cache.demote first).demote second = cache.demote (min first second) := by
  simp only [demote, Entry.keepLive_keepLive, Entry.length_live_keepLive, PlainCache.mk.injEq,
    Metrics.mk.injEq, and_true, true_and]
  omega

/-- An eviction is made up for by a later one that leaves no more ghosts, both in what it drops and
in how many it counts. -/
theorem evict_demote_evict (cache : PlainCache κ ν) {fewer more : Nat} (le : fewer ≤ more)
    (count : Nat) :
    ((cache.evict more).demote count).evict fewer = (cache.demote count).evict fewer := by
  simp only [demote, evict, Entry.keepGhosts_keepLive_keepGhosts le, Entry.live_keepGhosts,
    Entry.length_ghosts_keepLive, Entry.length_ghosts_keepGhosts, PlainCache.mk.injEq,
    Metrics.mk.injEq, and_true, true_and]
  omega

/-- Two trims are one, if the second leaves no more ghosts than the first. -/
theorem trim_trim (cache : PlainCache κ ν) {a b c d : Nat} (le : d ≤ b) :
    (cache.trim a b).trim c d = cache.trim (min a c) d := by
  have clamped : min d cache.maxHistory ≤ min b cache.maxHistory := by omega
  have bound : min (min a cache.maxFrames) (min c cache.maxFrames) =
      min (min a c) cache.maxFrames := by omega
  calc (cache.trim a b).trim c d
    _ = ((((cache.demote (min a cache.maxFrames)).evict (min b cache.maxHistory)).demote
          (min c cache.maxFrames)).evict (min d cache.maxHistory)) := by
      rw [trim_eq_evict_demote, trim_eq_evict_demote]
      rfl
    _ = ((cache.demote (min a cache.maxFrames)).demote (min c cache.maxFrames)).evict
          (min d cache.maxHistory) := evict_demote_evict _ clamped _
    _ = cache.trim (min a c) d := by
      rw [demote_demote, bound, trim_eq_evict_demote]

/-- A ghost that was dropped does not come back when more ghosts are let stay. -/
example : (trim (trim ⟨[⟨1, some "a"⟩], 1, 1, false, ∅, ∅⟩ 0 0) 0 1).entries = [] ∧
    (trim (⟨[⟨1, some "a"⟩], 1, 1, false, ∅, ∅⟩ : PlainCache Nat String) 0 1).entries =
      [⟨1, none⟩] := by
  decide

private theorem setMaxFrames_eq (cache : PlainCache κ ν) (maxFrames : Nat) :
    cache.setMaxFrames maxFrames =
      { (cache.demote maxFrames).evict cache.maxHistory with maxFrames } := by
  rw [setMaxFrames, trimToCapacity, trim_eq_evict_demote]
  simp only [Nat.min_self]
  rfl

private theorem setMaxHistory_eq (cache : PlainCache κ ν) (maxHistory : Nat) :
    cache.setMaxHistory maxHistory =
      { (cache.demote cache.maxFrames).evict maxHistory with maxHistory } := by
  rw [setMaxHistory, trimToCapacity, trim_eq_evict_demote]
  simp only [Nat.min_self]
  rfl

/-- Two capacities may be set in either order, if the history is not extended. -/
theorem Within.setMaxHistory_setMaxFrames (within : cache.Within) (maxFrames : Nat)
    {maxHistory : Nat} (le : maxHistory ≤ cache.maxHistory) :
    (cache.setMaxFrames maxFrames).setMaxHistory maxHistory =
      (cache.setMaxHistory maxHistory).setMaxFrames maxFrames := by
  have roomy : cache.demote cache.maxFrames = cache := demote_eq_self within.live_le
  calc (cache.setMaxFrames maxFrames).setMaxHistory maxHistory
    _ = { (((cache.demote maxFrames).evict cache.maxHistory).demote maxFrames).evict maxHistory with
          maxFrames, maxHistory } := by
      rw [setMaxFrames_eq, setMaxHistory_eq]
      rfl
    _ = { (cache.demote maxFrames).evict maxHistory with maxFrames, maxHistory } := by
      rw [evict_demote_evict _ le, demote_demote, Nat.min_self]
    _ = { ((cache.evict maxHistory).demote maxFrames).evict maxHistory with
          maxFrames, maxHistory } := by
      rw [evict_demote_evict _ (Nat.le_refl maxHistory)]
    _ = (cache.setMaxHistory maxHistory).setMaxFrames maxFrames := by
      rw [setMaxFrames_eq, setMaxHistory_eq, roomy]
      rfl

end PlainCache

namespace Cache

variable [DecidableEq κ] [Hashable κ]

/-- Nothing that is observable tells two caches apart. -/
structure LooksLike (cache other : Cache κ ν) : Prop where
  toPlain_eq : cache.toPlain = other.toPlain
  keys_eq : cache.keys = other.keys
  size_eq : cache.size = other.size
  live_eq : cache.live = other.live
  ghost_eq : cache.ghost = other.ghost

/-- Two changes of a cache can both be carried out, and their results look alike. -/
def SameOutcome (one other : Except Fault (Cache κ ν)) : Prop :=
  ∃ after afterOther, one = .ok after ∧ other = .ok afterOther ∧ after.LooksLike afterOther

/-- A change of a cache can be carried out and leads to what `plain` is a plain cache of. -/
def Reaches (outcome : Except Fault (Cache κ ν)) (plain : PlainCache κ ν) : Prop :=
  ∃ after cells, outcome = .ok after ∧ after.Arranged cells ∧ after.toPlain = plain

/-- What is counted is what is listed. -/
theorem Arranged.looksLike {cache other : Cache κ ν} {cells others : List (Slot × Entry κ ν)}
    (arranged : cache.Arranged cells) (arrangedOther : other.Arranged others)
    (same : cache.toPlain = other.toPlain) : cache.LooksLike other := by
  have entries : cache.entries = other.entries := congrArg PlainCache.entries same
  have listed : cells.map (·.2) = others.map (·.2) := by
    rw [← arranged.entries_eq, ← arrangedOther.entries_eq, entries]
  constructor
  case toPlain_eq => exact same
  case keys_eq => rw [keys, keys, entries]
  case size_eq =>
    rw [arranged.size_eq, arrangedOther.size_eq, ← List.length_map (·.2), listed, List.length_map]
  case live_eq => rw [arranged.live_eq, arrangedOther.live_eq, listed]
  case ghost_eq => rw [arranged.ghost_eq, arrangedOther.ghost_eq, listed]

namespace Reaches

variable {one other : Except Fault (Cache κ ν)} {plain plainNext : PlainCache κ ν}

private theorem bind (reaches : Reaches one plain) {next : Cache κ ν → Except Fault (Cache κ ν)}
    (nextReaches : ∀ {cache cells}, cache.Arranged cells → cache.toPlain = plain →
      Reaches (next cache) plainNext) : Reaches (one.bind next) plainNext := by
  obtain ⟨after, cells, rfl, arranged, same⟩ := reaches
  exact nextReaches arranged same

/-- Two changes that lead to the same plain cache have the same outcome. -/
theorem sameOutcome (reaches : Reaches one plain) (reachesOther : Reaches other plain) :
    SameOutcome one other := by
  obtain ⟨after, cells, rfl, arranged, same⟩ := reaches
  obtain ⟨afterOther, others, rfl, arrangedOther, sameOther⟩ := reachesOther
  exact ⟨after, afterOther, rfl, rfl, arranged.looksLike arrangedOther (same.trans sameOther.symm)⟩

end Reaches

/-- In every state of a cache two trims come to one, if the second leaves no more ghosts than the
first, so that a trim repeated changes nothing; and the two capacities may be set in either order,
if the history is not extended. -/
theorem trims_compose {maxFrames maxHistory : Nat} {fixed : Bool} {start : Cache κ ν}
    (created : create maxFrames maxHistory fixed = .ok start) (ops : List (Op κ ν)) :
    let cache := start.run ops
    (∀ a b c d, d ≤ b →
        SameOutcome ((cache.trim a b).bind (·.trim c d)) (cache.trim (min a c) d)) ∧
      (∀ a b, SameOutcome ((cache.trim a b).bind (·.trim a b)) (cache.trim a b)) ∧
      ∀ n m, m ≤ cache.maxHistory →
        SameOutcome ((cache.setMaxFrames n).bind (·.setMaxHistory m))
          ((cache.setMaxHistory m).bind (·.setMaxFrames n)) := by
  obtain ⟨-, rfl⟩ := create_eq_ok_iff.mp created
  intro cache
  have consistent : cache.Consistent := (consistent_empty maxFrames maxHistory fixed).run ops
  obtain ⟨cells, arranged⟩ := consistent.arranged
  have trims (a b c d : Nat) (le : d ≤ b) :
      SameOutcome ((cache.trim a b).bind (·.trim c d)) (cache.trim (min a c) d) := by
    have twice : Reaches ((cache.trim a b).bind (·.trim c d)) (cache.toPlain.trim (min a c) d) := by
      refine Reaches.bind (arranged.exists_trim a b) fun arrangedAfter same => ?_
      rw [← PlainCache.trim_trim cache.toPlain le, ← same]
      exact arrangedAfter.exists_trim c d
    exact twice.sameOutcome (arranged.exists_trim (min a c) d)
  refine ⟨trims, fun a b => ?_, fun n m le => ?_⟩
  · simpa only [Nat.min_self] using trims a b a b (Nat.le_refl b)
  · have framesFirst : Reaches ((cache.setMaxFrames n).bind (·.setMaxHistory m))
        ((cache.toPlain.setMaxFrames n).setMaxHistory m) := by
      refine Reaches.bind (arranged.exists_setMaxFrames n) fun arrangedAfter same => ?_
      rw [← same]
      exact arrangedAfter.exists_setMaxHistory m
    have historyFirst : Reaches ((cache.setMaxHistory m).bind (·.setMaxFrames n))
        ((cache.toPlain.setMaxHistory m).setMaxFrames n) := by
      refine Reaches.bind (arranged.exists_setMaxHistory m) fun arrangedAfter same => ?_
      rw [← same]
      exact arrangedAfter.exists_setMaxFrames n
    rw [consistent.within.setMaxHistory_setMaxFrames n le] at framesFirst
    exact framesFirst.sameOutcome historyFirst

/-- A ghost that was looked up lies before the live entries, and stays when they are trimmed in two
steps as when they are trimmed in one. -/
theorem trims_compose_of_promoted_ghost :
    let start : Cache Nat String := .empty 2 2 false
    let ops : List (Op Nat String) :=
      [.insert 1 "a", .insert 2 "b", .insert 3 "c", .insert 4 "d", .lookup 1]
    let cache := start.run ops
    create 2 2 false = .ok start ∧
      SameOutcome ((cache.trim 1 2).bind (·.trim 2 1)) (cache.trim 1 1) ∧
      SameOutcome ((cache.setMaxFrames 1).bind (·.setMaxHistory 1))
        ((cache.setMaxHistory 1).bind (·.setMaxFrames 1)) ∧
      ((PlainCache.empty 2 2 false).run (ops ++ [.trim 1 2, .trim 2 1])).entries =
        [⟨1, none⟩, ⟨4, some "d"⟩] := by
  intro start ops cache
  have created : create 2 2 false = .ok start := create_eq_ok_iff.mpr ⟨by decide, rfl⟩
  obtain ⟨trims, -, capacities⟩ := trims_compose created ops
  have history : cache.maxHistory = 2 := by
    have plain : cache.toPlain = (PlainCache.empty 2 2 false).run ops :=
      (consistent_empty 2 2 false).toPlain_run ops
    rw [← toPlain_maxHistory, plain]
    decide
  exact ⟨created, trims 1 2 2 1 (by decide), capacities 1 1 (by rw [history]; decide),
    by decide⟩

end Cache

end FrameKeep
