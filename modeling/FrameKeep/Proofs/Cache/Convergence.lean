import FrameKeep.Proofs.Cache.Checked
import FrameKeep.Proofs.Cache.Stack

/-!
# Growing to a cyclic working set

Accesses that always go to the least recently used key visit all keys in turn. As long as there is
no room for all of them every access is a near miss, so the policy recommends to grow; once there is
room, the keys that are still ghosts become live one after the other and every access is a hit.

What carries this is how many of the keys are live. They are the most recently used ones, each
access makes one more of them live up to the live capacity, and after every round of accesses the
capacity is filled.

All of this is carried out on checked counts. A round that leads to growth must be short enough for
its near misses to be weighted, and all rounds together short enough to be counted.
-/

namespace FrameKeep

variable {κ ν : Type}

namespace PlainCache

/-- The cache remembers exactly `keys`, most recently used first. The first `live` of them are live,
and there is room for all others as ghosts. -/
structure Layered (cache : PlainCache κ ν) (keys : List κ) (live : Nat) : Prop where
  distinct : keys.Nodup
  room : keys.length ≤ live + cache.maxHistory
  live_le : live ≤ cache.maxFrames
  stack : ∃ latest, (∀ key ∈ keys.take live, (latest key).isSome) ∧
    cache.entries = stacked live cache.maxHistory keys latest

namespace Layered

variable {cache : PlainCache κ ν} {keys upper : List κ} {key : κ} {live : Nat}

private theorem map_key (layered : cache.Layered keys live) : cache.entries.map (·.key) = keys := by
  obtain ⟨latest, -, entries⟩ := layered.stack
  rw [entries, map_key_stacked, List.take_of_length_le layered.room]

private theorem within (layered : cache.Layered keys live) : cache.Within := by
  obtain ⟨latest, inserted, entries⟩ := layered.stack
  constructor
  · rw [entries]
    exact Nat.le_trans (length_live_stacked_le ..) layered.live_le
  · rw [entries]
    exact length_ghosts_stacked_le inserted _

private theorem keep {after : PlainCache κ ν} (layered : cache.Layered keys live)
    (kept : Keeps cache after) : after.Layered keys live where
  distinct := layered.distinct
  room := kept.maxHistory_eq ▸ layered.room
  live_le := Nat.le_trans layered.live_le kept.maxFrames_le
  stack := by
    rw [kept.entries_eq, kept.maxHistory_eq]
    exact layered.stack

variable [DecidableEq κ]

/-- Layers are read off the entries. -/
theorem of_entries (distinct : (cache.entries.map (·.key)).Nodup) (within : cache.Within)
    (bounded : live ≤ cache.maxFrames)
    (above : ∀ entry ∈ cache.entries.take live, ¬ entry.isGhost)
    (below : ∀ entry ∈ cache.entries.drop live, entry.isGhost) :
    cache.Layered (cache.entries.map (·.key)) live := by
  have fits : (cache.entries.drop live).length ≤ cache.maxHistory := by
    have allGhosts : Entry.ghosts (cache.entries.drop live) = cache.entries.drop live :=
      List.filter_eq_self.mpr below
    rw [← allGhosts]
    exact Nat.le_trans (Entry.length_ghosts_subperm (List.drop_sublist ..).subperm)
      within.ghost_le
  have entries := eq_stacked distinct below fits
  refine ⟨distinct, ?_, bounded, _, fun key member => ?_, entries⟩
  · rw [List.length_map]
    rw [List.length_drop] at fits
    omega
  · rw [← List.map_take] at member
    obtain ⟨entry, inTake, rfl⟩ := List.mem_map.mp member
    rw [(Entry.find?_eq_some_iff distinct).mpr (List.mem_of_mem_take inTake)]
    simpa [Entry.isGhost, Option.isSome_iff_ne_none] using above entry inTake

/-- The least recently used key is found live if all keys are live, and otherwise as a ghost. -/
theorem lookup_last (layered : cache.Layered (upper ++ [key]) live) :
    if upper.length < live then (cache.lookup key).1.isHit
    else (cache.lookup key).1 = .nearMiss := by
  obtain ⟨latest, inserted, entries⟩ := layered.stack
  have outside : key ∉ upper := by
    intro member
    exact (List.nodup_append.mp layered.distinct).2.2 key member key List.mem_cons_self rfl
  have place : (upper ++ [key]).idxOf key = upper.length := by
    rw [List.idxOf_append_of_notMem outside, List.idxOf_cons_self, Nat.add_zero]
  have remembered := layered.room
  rw [List.length_append, List.length_singleton] at remembered
  have found := find?_stacked live cache.maxHistory (upper ++ [key]) latest key
  rw [← entries, if_pos (by simp), place] at found
  rw [lookup_found, found]
  by_cases above : upper.length < live
  · have member : key ∈ (upper ++ [key]).take live :=
      (List.mem_take_iff_idxOf_lt (by simp)).mpr (by rwa [place])
    obtain ⟨payload, held⟩ := Option.isSome_iff_exists.mp (inserted key member)
    simp only [if_pos above, held]
    rfl
  · simp only [if_neg above, if_pos (show upper.length < live + cache.maxHistory by omega)]
    rfl

/-- An access to the least recently used key makes one more key live, unless all are or the live
capacity is reached. -/
theorem access (layered : cache.Layered (upper ++ [key]) live) (payload : ν) :
    (cache.access key payload).2.Layered (key :: upper) (min (live + 1) cache.maxFrames) := by
  obtain ⟨latest, inserted, entries⟩ := layered.stack
  have distinct : (key :: upper).Nodup :=
    (List.perm_append_singleton key upper).nodup_iff.mp layered.distinct
  have room := layered.room
  have bounded := layered.live_le
  rw [List.length_append, List.length_singleton] at room
  let held := (cache.lookup key).1.payload?.getD payload
  let latest' := Function.update latest key (some held)
  have stored : latest' key = some held := Function.update_self ..
  have unchanged : ∀ other, other ≠ key → latest' other = latest other :=
    fun other apart => Function.update_of_ne apart ..
  refine ⟨distinct, ?_, by simp, latest', fun other member => ?_, ?_⟩
  · rw [maxHistory_access, List.length_cons]
    omega
  · have inFront : other ∈ (key :: upper).take (live + 1) :=
      (List.take_subset_take_left _ (Nat.min_le_left ..)) member
    rw [List.take_succ_cons] at inFront
    rcases List.mem_cons.mp inFront with rfl | inUpper
    · rw [stored]
      rfl
    · have apart : other ≠ key := by
        rintro rfl
        exact (List.nodup_cons.mp distinct).1 (List.mem_of_mem_take inUpper)
      rw [unchanged other apart]
      refine inserted other ?_
      rw [List.take_append]
      exact List.mem_append_left _ inUpper
  · rw [maxHistory_access, layered.within.entries_access, entries,
      keep_cons_without_last layered.distinct (by omega) inserted stored unchanged]

/-- While there is room for all keys, such an access demotes and evicts nothing. -/
theorem metrics_access (layered : cache.Layered (upper ++ [key]) live)
    (roomy : upper.length < cache.maxFrames) (payload : ν) :
    (cache.access key payload).2.metrics.demotions = cache.metrics.demotions ∧
      (cache.access key payload).2.metrics.ghostEvictions = cache.metrics.ghostEvictions := by
  have found := layered.lookup_last
  by_cases above : upper.length < live
  · rw [if_pos above] at found
    have unchanged : (cache.access key payload).2 = (cache.lookup key).2 := by
      simp [PlainCache.access, found]
    rw [unchanged]
    exact ⟨rfl, rfl⟩
  · rw [if_neg above] at found
    have liveBefore : (Entry.live cache.entries).length ≤ live := by
      obtain ⟨latest, -, entries⟩ := layered.stack
      rw [entries]
      exact length_live_stacked_le ..
    have fewer : (Entry.without (cache.lookup key).2.entries key).Subperm cache.entries := by
      rw [without_lookup]
      exact List.filter_sublist.subperm
    have liveRoom := Nat.lt_of_le_of_lt (Entry.length_live_subperm fewer)
      (show (Entry.live cache.entries).length < cache.maxFrames by omega)
    have ghostRoom := Nat.le_trans (Entry.length_ghosts_subperm fewer) layered.within.ghost_le
    have stored : (cache.access key payload).2 = (cache.lookup key).2.insert key payload := by
      simp [PlainCache.access, found, Lookup.isHit]
    rw [stored, insert_of_room liveRoom ghostRoom]
    exact ⟨rfl, rfl⟩

end Layered

end PlainCache

variable [DecidableEq κ] [Hashable κ]

namespace Checked

/-- Accesses the least recently used key once for each payload, which is what to store unless the
access is a hit. -/
def sweep : List ν → Cache κ ν → Except Hazard (List (Lookup ν) × Cache κ ν)
  | [], cache => .ok ([], cache)
  | payload :: rest, cache =>
    match cache.keys.getLast? with
    | none => .ok ([], cache)
    | some key => do
      let (found, cache) ← access cache key payload
      let (outcomes, cache) ← sweep rest cache
      .ok (found :: outcomes, cache)

/-- Sweeps over a cache, and adjusts its size after each sweep. -/
def rounds : List (List ν) → Cache κ ν → Except Hazard (Cache κ ν)
  | [], cache => .ok cache
  | payloads :: rest, cache => do
    let (_, swept) ← sweep payloads cache
    let (_, adjusted) ← adjustSize swept false
    rounds rest adjusted

end Checked

namespace Cache

/-! ### Sweeps -/

/-- What a sweep over a cache with `live` of its `keys` live leaves behind. -/
structure Swept (start : Cache κ ν) (keys : List κ) (live : Nat) (outcomes : List (Lookup ν))
    (cache : Cache κ ν) : Prop where
  consistent : cache.Consistent
  layered : ∃ rotated, rotated.Perm keys ∧
    cache.toPlain.Layered rotated (min (live + outcomes.length) start.maxFrames)
  maxFrames_eq : cache.maxFrames = start.maxFrames
  fixed_eq : cache.fixed = start.fixed
  window_eq : cache.window = outcomes.foldl Tally.record start.window
  /-- Without room for all keys there are only near misses. -/
  nearMisses : start.maxFrames < keys.length → ∀ found ∈ outcomes, found = .nearMiss
  /-- With room for all keys there is one near miss for each ghost, then there are only hits. -/
  hits : keys.length ≤ start.maxFrames →
    ∀ found ∈ outcomes.drop (keys.length - live), found.isHit
  demotions_eq : keys.length ≤ start.maxFrames →
    cache.metrics.demotions = start.metrics.demotions
  ghostEvictions_eq : keys.length ≤ start.maxFrames →
    cache.metrics.ghostEvictions = start.metrics.ghostEvictions

namespace Swept

variable {start between cache : Cache κ ν} {keys rotated : List κ} {live : Nat}
  {outcomes others : List (Lookup ν)}

private theorem nil (consistent : start.Consistent) (layered : start.toPlain.Layered keys live) :
    start.Swept keys live [] start where
  consistent := consistent
  layered := by
    have bounded : live ≤ start.maxFrames := layered.live_le
    refine ⟨keys, .refl _, ?_⟩
    rwa [List.length_nil, Nat.add_zero, Nat.min_eq_left bounded]
  maxFrames_eq := rfl
  fixed_eq := rfl
  window_eq := rfl
  nearMisses := by simp
  hits := by simp
  demotions_eq := fun _ => rfl
  ghostEvictions_eq := fun _ => rfl

/-- Two sweeps in a row over the same keys, in any order, are one. -/
theorem trans (first : start.Swept keys live outcomes between) (rotation : rotated.Perm keys)
    (second : between.Swept rotated (min (live + outcomes.length) start.maxFrames) others cache) :
    start.Swept keys live (outcomes ++ others) cache := by
  have length := rotation.length_eq
  have capacity := first.maxFrames_eq
  refine
    { consistent := second.consistent
      layered := ?_
      maxFrames_eq := second.maxFrames_eq.trans capacity
      fixed_eq := second.fixed_eq.trans first.fixed_eq
      window_eq := ?_
      nearMisses := fun full found member => ?_
      hits := fun roomy found member => ?_
      demotions_eq := fun roomy => ?_
      ghostEvictions_eq := fun roomy => ?_ }
  · obtain ⟨final, rotatedOn, layered⟩ := second.layered
    refine ⟨final, rotatedOn.trans rotation, ?_⟩
    rw [capacity] at layered
    convert layered using 1
    rw [List.length_append]
    omega
  · rw [second.window_eq, first.window_eq, List.foldl_append]
  · rcases List.mem_append.mp member with earlier | later
    · exact first.nearMisses full found earlier
    · exact second.nearMisses (by omega) found later
  · rw [List.drop_append] at member
    rcases List.mem_append.mp member with earlier | later
    · exact first.hits roomy found earlier
    · refine second.hits (by omega) found ?_
      convert later using 2
      omega
  · rw [second.demotions_eq (by omega), first.demotions_eq roomy]
  · rw [second.ghostEvictions_eq (by omega), first.ghostEvictions_eq roomy]

end Swept

/-- One access to a layered cache is a sweep of one access. -/
theorem exists_swept_access {cache : Cache κ ν} {upper : List κ} {key : κ} {live counted : Nat}
    (consistent : cache.Consistent) (layered : cache.toPlain.Layered (upper ++ [key]) live)
    (counts : cache.CountsUpTo counted counted) (few : counted + 1 < Count.limit) (payload : ν) :
    ∃ found after, Checked.access cache key payload = .ok (found, after) ∧
      cache.Swept (upper ++ [key]) live [found] after ∧
      after.CountsUpTo (counted + 1) (counted + 1) := by
  obtain ⟨after, accessed, consistentAfter, plain⟩ := consistent.exists_access key payload
  obtain ⟨cells, arranged⟩ := consistent.arranged
  obtain ⟨checked, countsAfter⟩ := arranged.checked_access counts few few accessed
  have found := layered.lookup_last
  have bounded : live ≤ cache.maxFrames := layered.live_le
  have length : (upper ++ [key]).length = upper.length + 1 := List.length_append
  have quiet (roomy : (upper ++ [key]).length ≤ cache.maxFrames) :=
    layered.metrics_access (by change _ < cache.maxFrames; omega) payload
  refine ⟨_, after, checked, ?_, countsAfter⟩
  exact
    { consistent := consistentAfter
      layered := by
        refine ⟨key :: upper, (List.perm_append_singleton key upper).symm, ?_⟩
        rw [plain]
        exact layered.access payload
      maxFrames_eq :=
        (congrArg PlainCache.maxFrames plain).trans (PlainCache.maxFrames_access ..)
      fixed_eq := (congrArg PlainCache.fixed plain).trans (PlainCache.fixed_access ..)
      window_eq := (congrArg PlainCache.window plain).trans (PlainCache.window_access ..)
      nearMisses := fun full other member => by
        obtain rfl := List.mem_singleton.mp member
        rwa [if_neg (by omega)] at found
      hits := fun roomy other member => by
        have above : upper.length < live := by
          have nonempty := List.length_pos_of_mem member
          simp at nonempty
          omega
        obtain rfl := List.mem_singleton.mp (List.mem_of_mem_drop member)
        rwa [if_pos above] at found
      demotions_eq := fun roomy =>
        (congrArg (fun plain => plain.metrics.demotions) plain).trans (quiet roomy).1
      ghostEvictions_eq := fun roomy =>
        (congrArg (fun plain => plain.metrics.ghostEvictions) plain).trans (quiet roomy).2 }

/-- A sweep over a layered cache accesses as many keys as there are payloads. -/
theorem exists_sweep {cache : Cache κ ν} {keys : List κ} {live counted : Nat}
    (consistent : cache.Consistent) (layered : cache.toPlain.Layered keys live)
    (nonempty : keys ≠ []) (counts : cache.CountsUpTo counted counted) (payloads : List ν)
    (few : counted + payloads.length < Count.limit) :
    ∃ outcomes after, Checked.sweep payloads cache = .ok (outcomes, after) ∧
      outcomes.length = payloads.length ∧ cache.Swept keys live outcomes after ∧
      after.CountsUpTo (counted + payloads.length) (counted + payloads.length) := by
  induction payloads generalizing cache keys live counted with
  | nil => exact ⟨[], cache, rfl, rfl, .nil consistent layered, counts⟩
  | cons payload rest ih =>
    rcases keys.eq_nil_or_concat with rfl | ⟨upper, key, rfl⟩
    · exact absurd rfl nonempty
    · rw [List.concat_eq_append] at layered ⊢
      have length : counted + (payload :: rest).length = counted + 1 + rest.length := by
        rw [List.length_cons]
        omega
      rw [length] at few ⊢
      obtain ⟨found, between, accessed, first, countsBetween⟩ :=
        exists_swept_access consistent layered counts (by omega) payload
      obtain ⟨rotated, rotation, layeredBetween⟩ := first.layered
      have nonemptyBetween : rotated ≠ [] := by
        rintro rfl
        simpa using rotation.length_eq
      obtain ⟨outcomes, after, swept, answered, second, countsAfter⟩ :=
        ih first.consistent layeredBetween nonemptyBetween countsBetween few
      have last : cache.keys.getLast? = some key := by
        have known : cache.keys = upper ++ [key] := layered.map_key
        rw [known, List.getLast?_concat]
      refine ⟨found :: outcomes, after, ?_, by simp [answered], first.trans rotation second,
        countsAfter⟩
      simp only [Checked.sweep, last, accessed, swept, bind, Except.bind]

/-! ### Rounds -/

/-- How often a cache has to grow until there is room for all its entries to be live. -/
def growthsNeeded (cache : Cache κ ν) : Nat := (cache.entries.length - cache.maxFrames + 1) / 2

/-- An adjustment that can be carried out leaves everything that is remembered as it is. -/
structure Adjusts (cache : Cache κ ν) (counted : Nat) (action : Action) (adjusted : Cache κ ν) :
    Prop where
  checked : Checked.adjustSize cache false = .ok (some action, adjusted)
  consistent : adjusted.Consistent
  loose : adjusted.fixed = false
  unused : adjusted.window = ∅
  counts : adjusted.CountsUpTo (counted + 1) (counted + 1)
  keeps : PlainCache.Keeps cache.toPlain adjusted.toPlain

/-- What is recommended and can be followed is carried out. -/
theorem Consistent.adjusts {cache : Cache κ ν} {counted : Nat} {action : Action}
    (consistent : cache.Consistent) (loose : cache.fixed = false)
    (counts : cache.CountsUpTo counted counted) (few : counted + 1 < Count.limit)
    (recommended : cache.window.recommend? = .ok action)
    (possible : ¬ cache.RefusesGrowth (.adjustSize false))
    (keeps : PlainCache.Keeps cache.toPlain (cache.toPlain.adjustSize false).state) :
    cache.Adjusts counted action (cache.adjustSize false).state := by
  obtain ⟨-, checked, countsAfter⟩ := consistent.checked_adjustSize counts few (by omega)
    (by simp [loose]) recommended possible
  constructor
  case checked => exact checked
  case consistent => exact consistent.perform (.adjustSize false)
  case loose => exact (consistent.fixed_perform (.adjustSize false)).trans loose
  case unused =>
    have used := consistent.window_perform (.adjustSize false)
    rwa [loose] at used
  case counts => exact countsAfter.mono (Nat.le_refl _) (Nat.le_succ _)
  case keeps =>
    rw [← consistent.adjustSize_eq] at keeps
    exact keeps

namespace Swept

variable {start cache : Cache κ ν} {keys : List κ} {live counted : Nat}
  {outcomes : List (Lookup ν)}

/-- The window of a cache that was not looked up in counts the outcomes of the sweep. -/
theorem counts (swept : start.Swept keys live outcomes cache) (unused : start.window = ∅) :
    cache.window.Counts outcomes := by
  rw [swept.window_eq, unused]
  exact Tally.counts_empty.foldl_record outcomes

/-- Without room for all keys a sweep counts near misses only. -/
theorem window_of_full (swept : start.Swept keys live outcomes cache) (unused : start.window = ∅)
    (full : start.maxFrames < keys.length) :
    cache.window = { nearMisses := outcomes.length } := by
  have ⟨hits, nearMisses, farMisses⟩ := swept.counts unused
  have allNear := swept.nearMisses full
  have noHits : outcomes.countP (·.isHit) = 0 := by
    rw [List.countP_eq_zero]
    intro found member
    simp [allNear found member, Lookup.isHit]
  have noFarMisses : outcomes.countP (·.isFarMiss) = 0 := by
    rw [List.countP_eq_zero]
    intro found member
    simp [allNear found member, Lookup.isFarMiss]
  have onlyNearMisses : outcomes.countP (·.isNearMiss) = outcomes.length := by
    rw [List.countP_eq_length]
    intro found member
    rw [allNear found member]
    rfl
  calc cache.window
      = ⟨cache.window.hits, cache.window.nearMisses, cache.window.farMisses⟩ := rfl
    _ = { nearMisses := outcomes.length } := by
      rw [hits, nearMisses, farMisses, noHits, onlyNearMisses, noFarMisses]

/-- With room for all keys only the ghosts are near misses. -/
theorem nearMisses_le (swept : start.Swept keys live outcomes cache) (unused : start.window = ∅)
    (roomy : keys.length ≤ start.maxFrames) :
    cache.window.nearMisses ≤ keys.length - live := by
  have laterHits : (outcomes.drop (keys.length - live)).countP (·.isNearMiss) = 0 := by
    rw [List.countP_eq_zero]
    intro found member
    have hit := swept.hits roomy found member
    cases found with
    | hit payload => simp [Lookup.isNearMiss]
    | nearMiss => simp [Lookup.isHit] at hit
    | farMiss => simp [Lookup.isHit] at hit
  rw [(swept.counts unused).nearMisses_eq, ← List.take_append_drop (keys.length - live) outcomes,
    List.countP_append, laterHits, Nat.add_zero]
  exact Nat.le_trans List.countP_le_length (List.length_take_le ..)

/-- After enough near misses, but not too many to be weighted, the cache grows. -/
theorem grows (swept : start.Swept keys live outcomes cache) (unused : start.window = ∅)
    (loose : start.fixed = false) (full : start.maxFrames < keys.length)
    (enough : minSampleSize ≤ outcomes.length)
    (judged : outcomes.length * nearMissGrowRatio < Count.limit)
    (addressable : start.maxFrames + growStep < Count.limit)
    (counts : cache.CountsUpTo counted counted) (few : counted + 1 < Count.limit) :
    ∃ adjusted, cache.Adjusts counted .grow adjusted ∧
      adjusted.maxFrames = start.maxFrames + growStep := by
  have recommended : cache.window.recommend? = .ok .grow := by
    rw [swept.window_of_full unused full, Tally.recommend?_eq_ok_iff, Tally.Recommends, Tally.total]
    simp only [nearMissGrowRatio] at judged ⊢
    omega
  have target : PlainCache.targetFrames cache.toPlain.maxFrames .grow false =
      .ok (start.maxFrames + growStep) := by
    change Count.add? cache.maxFrames growStep = _
    rw [swept.maxFrames_eq]
    exact if_pos addressable
  have larger : cache.toPlain.maxFrames ≤ start.maxFrames + growStep :=
    Nat.le_trans (Nat.le_of_eq swept.maxFrames_eq) (Nat.le_add_right ..)
  have looseAfter : cache.fixed = false := swept.fixed_eq.trans loose
  have within := swept.consistent.within
  have possible : ¬ cache.RefusesGrowth (.adjustSize false) := by
    intro refused
    have tooLarge := refused.tooLarge
    rw [swept.maxFrames_eq] at tooLarge
    simp only [growStep] at addressable
    omega
  have grown := within.adjustSize_of_target looseAfter recommended target rfl larger
  refine ⟨_, swept.consistent.adjusts looseAfter counts few recommended possible
    (within.keeps_of_target looseAfter recommended target rfl larger), ?_⟩
  rw [← swept.consistent.adjustSize_eq] at grown
  exact congrArg (fun step => step.state.maxFrames) grown

/-- After a sweep with hits and few near misses the cache keeps what it has. It may still grow, but
not without near misses. -/
theorem keeps (swept : start.Swept keys live outcomes cache) (unused : start.window = ∅)
    (loose : start.fixed = false) (roomy : keys.length ≤ start.maxFrames)
    (enough : keys.length - live < outcomes.length) (almost : keys.length ≤ live + growStep)
    (addressable : live < keys.length → start.maxFrames + growStep < Count.limit)
    (counts : cache.CountsUpTo counted counted) (few : counted + 1 < Count.limit) :
    ∃ action adjusted, cache.Adjusts counted action adjusted := by
  have looseAfter : cache.fixed = false := swept.fixed_eq.trans loose
  have missed := swept.nearMisses_le unused roomy
  have some : 0 < cache.window.hits := by
    have remaining : outcomes.drop (keys.length - live) ≠ [] := by
      simpa using enough
    obtain ⟨found, member⟩ := List.exists_mem_of_ne_nil _ remaining
    rw [(swept.counts unused).hits_eq, List.countP_pos_iff]
    exact ⟨found, List.mem_of_mem_drop member, swept.hits roomy found member⟩
  have weighted : cache.window.nearMisses * nearMissGrowRatio < Count.limit := by
    have two : cache.window.nearMisses ≤ 2 := by
      simp only [growStep] at almost
      omega
    exact Nat.lt_of_le_of_lt (Nat.mul_le_mul_right _ two) (by decide)
  have window := counts.window_le
  obtain ⟨action, fitting⟩ := cache.window.exists_recommends
  have recommended : cache.window.recommend? = .ok action :=
    Tally.recommend?_eq_ok_iff.mpr ⟨by omega, fun _ => weighted, fitting⟩
  have possible : ¬ cache.RefusesGrowth (.adjustSize false) := by
    intro refused
    have tooLarge := refused.tooLarge
    rw [swept.maxFrames_eq] at tooLarge
    by_cases ghosts : live < keys.length
    · have fits := addressable ghosts
      simp only [growStep] at fits
      omega
    · exact Tally.not_recommends_grow (by omega)
        (Tally.recommend?_eq_ok_iff.mp refused.recommended).2.2
  exact ⟨action, _, swept.consistent.adjusts looseAfter counts few recommended possible
    (swept.consistent.within.keeps_of_hits looseAfter some)⟩

end Swept

/-- What `count` rounds have made of a cache. As long as it has to grow there are at most two frames
to fill after a round; from then on all its keys are live. -/
structure Tuned (start : Cache κ ν) (count : Nat) (keys : List κ) (live : Nat)
    (cache : Cache κ ν) : Prop where
  consistent : cache.Consistent
  loose : cache.fixed = false
  unused : cache.window = ∅
  rotation : keys.Perm start.keys
  layered : cache.toPlain.Layered keys live
  growing : count ≤ start.growthsNeeded →
    cache.maxFrames = start.maxFrames + growStep * count ∧ cache.maxFrames ≤ live + growStep
  settled : start.growthsNeeded < count → keys.length ≤ live

namespace Tuned

variable {start cache after : Cache κ ν} {count live counted : Nat} {keys : List κ}
  {outcomes : List (Lookup ν)}

/-- A cache whose live keys are the most recently used ones, as many as it has frames, is tuned from
there on. -/
theorem initial (wellFormed : start.WellFormed) (loose : start.fixed = false)
    (unused : start.window = ∅)
    (above : ∀ entry ∈ start.entries.take start.maxFrames, ¬ entry.isGhost)
    (below : ∀ entry ∈ start.entries.drop start.maxFrames, entry.isGhost) :
    start.Tuned 0 start.keys start.maxFrames start where
  consistent := wellFormed.consistent
  loose := loose
  unused := unused
  rotation := .refl _
  layered :=
    .of_entries wellFormed.consistent.distinct wellFormed.consistent.within (Nat.le_refl _) above
      below
  growing := fun _ => ⟨rfl, Nat.le_add_right ..⟩
  settled := nofun

private theorem length_keys (tuned : start.Tuned count keys live cache) :
    keys.length = start.entries.length :=
  tuned.rotation.length_eq.trans (List.length_map ..)

/-- A cache that has to grow has no room for all its keys. -/
theorem full (tuned : start.Tuned count keys live cache) (early : count < start.growthsNeeded) :
    cache.maxFrames < keys.length := by
  obtain ⟨capacity, -⟩ := tuned.growing (Nat.le_of_lt early)
  have length := tuned.length_keys
  simp only [growthsNeeded, growStep] at early capacity
  omega

/-- A cache that has grown enough has room for all its keys. -/
theorem roomy (tuned : start.Tuned count keys live cache) (late : start.growthsNeeded ≤ count) :
    keys.length ≤ cache.maxFrames := by
  rcases Nat.eq_or_lt_of_le late with reached | passed
  · obtain ⟨capacity, -⟩ := tuned.growing (Nat.le_of_eq reached.symm)
    have length := tuned.length_keys
    simp only [growthsNeeded, growStep] at reached capacity
    omega
  · exact Nat.le_trans (tuned.settled passed) tuned.layered.live_le

/-- Then no more keys are ghosts than it grew by last. -/
theorem length_le (tuned : start.Tuned count keys live cache)
    (late : start.growthsNeeded ≤ count) : keys.length ≤ live + growStep := by
  have fits := tuned.roomy late
  rcases Nat.eq_or_lt_of_le late with reached | passed
  · obtain ⟨-, filled⟩ := tuned.growing (Nat.le_of_eq reached.symm)
    omega
  · have allLive := tuned.settled passed
    omega

/-- As long as the cache has to grow, a round that can be judged makes it grow. -/
theorem grows (tuned : start.Tuned count keys live cache) (early : count < start.growthsNeeded)
    (swept : cache.Swept keys live outcomes after) (long : minSampleSize ≤ outcomes.length)
    (judged : outcomes.length * nearMissGrowRatio < Count.limit)
    (addressable : start.maxFrames + growStep * (start.growthsNeeded + 1) < Count.limit)
    (counts : after.CountsUpTo counted counted) (few : counted + 1 < Count.limit) :
    ∃ adjusted, after.Adjusts counted .grow adjusted ∧
      adjusted.maxFrames = cache.maxFrames + growStep := by
  obtain ⟨capacity, -⟩ := tuned.growing (Nat.le_of_lt early)
  have within : cache.maxFrames + growStep < Count.limit := by
    simp only [growStep] at capacity addressable ⊢
    omega
  exact swept.grows tuned.unused tuned.loose (tuned.full early) long judged within counts few

/-- A cache that has grown enough keeps what it has after any round. -/
theorem keeps (tuned : start.Tuned count keys live cache) (late : start.growthsNeeded ≤ count)
    (swept : cache.Swept keys live outcomes after) (long : minSampleSize ≤ outcomes.length)
    (addressable : start.maxFrames + growStep * (start.growthsNeeded + 1) < Count.limit)
    (counts : after.CountsUpTo counted counted) (few : counted + 1 < Count.limit) :
    ∃ action adjusted, after.Adjusts counted action adjusted := by
  have almost := tuned.length_le late
  have sample : minSampleSize = 30 := rfl
  refine swept.keeps tuned.unused tuned.loose (tuned.roomy late)
    (by simp only [growStep] at almost; omega) almost (fun ghosts => ?_) counts few
  -- There are ghosts left only in the first round after the growth.
  have reached : count = start.growthsNeeded := by
    by_contra apart
    have allLive := tuned.settled (by omega)
    omega
  obtain ⟨capacity, -⟩ := tuned.growing (Nat.le_of_eq reached)
  simp only [growStep] at capacity addressable ⊢
  omega

/-- One more round. -/
theorem round (tuned : start.Tuned count keys live cache)
    (swept : cache.Swept keys live outcomes after) (long : minSampleSize ≤ outcomes.length)
    (judged : count < start.growthsNeeded →
      outcomes.length * nearMissGrowRatio < Count.limit)
    (addressable : start.maxFrames + growStep * (start.growthsNeeded + 1) < Count.limit)
    (counts : after.CountsUpTo counted counted) (few : counted + 1 < Count.limit) :
    ∃ action adjusted rotated others, after.Adjusts counted action adjusted ∧
      start.Tuned (count + 1) rotated others adjusted := by
  obtain ⟨rotated, rotation, layered⟩ := swept.layered
  have length := rotation.length_eq
  have sample : minSampleSize = 30 := rfl
  by_cases early : count < start.growthsNeeded
  · obtain ⟨capacity, filled⟩ := tuned.growing (Nat.le_of_lt early)
    obtain ⟨adjusted, adjusts, grown⟩ :=
      tuned.grows early swept long (judged early) addressable counts few
    refine ⟨.grow, adjusted, rotated, _, adjusts, adjusts.consistent, adjusts.loose,
      adjusts.unused, rotation.trans tuned.rotation, layered.keep adjusts.keeps, fun _ => ?_,
      fun late => ?_⟩
    · simp only [growStep] at capacity filled grown ⊢
      omega
    · omega
  · have late : start.growthsNeeded ≤ count := Nat.le_of_not_lt early
    have almost : keys.length ≤ live + 2 := tuned.length_le late
    have fits := tuned.roomy late
    obtain ⟨action, adjusted, adjusts⟩ := tuned.keeps late swept long addressable counts few
    refine ⟨action, adjusted, rotated, _, adjusts, adjusts.consistent, adjusts.loose,
      adjusts.unused, rotation.trans tuned.rotation, layered.keep adjusts.keeps, fun early => ?_,
      fun _ => ?_⟩
    · omega
    · omega

/-- A tuned cache that is not empty can be swept as long as the look-ups can be counted. -/
theorem exists_sweep (tuned : start.Tuned count keys live cache) (nonempty : start.keys ≠ [])
    (counts : cache.CountsUpTo counted counted) (payloads : List ν)
    (few : counted + payloads.length < Count.limit) :
    ∃ outcomes after, Checked.sweep payloads cache = .ok (outcomes, after) ∧
      outcomes.length = payloads.length ∧ cache.Swept keys live outcomes after ∧
      after.CountsUpTo (counted + payloads.length) (counted + payloads.length) := by
  refine Cache.exists_sweep tuned.consistent tuned.layered ?_ counts payloads few
  rintro rfl
  exact nonempty tuned.rotation.symm.eq_nil

/-- A run of rounds. -/
theorem exists_rounds (tuned : start.Tuned count keys live cache) (nonempty : start.keys ≠ [])
    (addressable : start.maxFrames + growStep * (start.growthsNeeded + 1) < Count.limit)
    (counts : cache.CountsUpTo counted counted) {past : List (List ν)}
    (few : counted + past.flatten.length + past.length < Count.limit)
    (long : ∀ payloads ∈ past, minSampleSize ≤ payloads.length)
    (judged : ∀ payloads ∈ past.take (start.growthsNeeded - count),
      payloads.length * nearMissGrowRatio < Count.limit) :
    ∃ rotated others after, Checked.rounds past cache = .ok after ∧
      start.Tuned (count + past.length) rotated others after ∧
      after.CountsUpTo (counted + past.flatten.length + past.length)
        (counted + past.flatten.length + past.length) := by
  induction past generalizing count keys live cache counted with
  | nil => exact ⟨keys, live, cache, rfl, tuned, counts⟩
  | cons payloads rest ih =>
    have total : counted + (payloads :: rest).flatten.length + (payloads :: rest).length =
        counted + payloads.length + 1 + rest.flatten.length + rest.length := by
      rw [List.flatten_cons, List.length_append, List.length_cons]
      omega
    rw [total] at few ⊢
    obtain ⟨outcomes, swept, accessed, answered, result, countsSwept⟩ :=
      tuned.exists_sweep nonempty counts payloads (by omega)
    have longFirst := long payloads List.mem_cons_self
    have taken (early : count < start.growthsNeeded) :
        (payloads :: rest).take (start.growthsNeeded - count) =
          payloads :: rest.take (start.growthsNeeded - (count + 1)) := by
      have oneMore : start.growthsNeeded - count = start.growthsNeeded - (count + 1) + 1 := by omega
      rw [oneMore, List.take_succ_cons]
    have judgedFirst (early : count < start.growthsNeeded) :
        outcomes.length * nearMissGrowRatio < Count.limit := by
      rw [answered]
      apply judged
      rw [taken early]
      exact List.mem_cons_self
    have judgedRest : ∀ payloads ∈ rest.take (start.growthsNeeded - (count + 1)),
        payloads.length * nearMissGrowRatio < Count.limit := by
      intro later member
      apply judged
      by_cases early : count < start.growthsNeeded
      · rw [taken early]
        exact List.mem_cons_of_mem _ member
      · rw [Nat.sub_eq_zero_of_le (by omega), List.take_zero] at member
        simp at member
    obtain ⟨action, adjusted, rotated, others, adjusts, next⟩ :=
      tuned.round result (by omega) judgedFirst addressable countsSwept (by omega)
    obtain ⟨final, last, after, repeated, tunedAfter, countsAfter⟩ := ih next adjusts.counts few
      (fun later member => long later (List.mem_cons_of_mem _ member)) judgedRest
    refine ⟨final, last, after, ?_, ?_, countsAfter⟩
    · simp only [Checked.rounds, accessed, adjusts.checked, bind, Except.bind, repeated]
    · rwa [List.length_cons, Nat.add_comm rest.length, ← Nat.add_assoc]

end Tuned

/-- A cache whose most recently used keys are live up to its live capacity, and whose others are
ghosts, is swept in rounds of at least as many accesses as the policy asks for. Until there is room
for all keys every access is a near miss and the cache grows by two frames after each round. From
then on every access is a hit, but for two at most in the first such round, nothing is demoted or
evicted, and no key is forgotten at any time. No hazard is met if the rounds that lead to growth are
short enough for the near misses in them to be weighted, and all accesses and adjustments together
are few enough to be counted. -/
theorem rounds_converge {start : Cache κ ν} (wellFormed : start.WellFormed)
    (loose : start.fixed = false) (unused : start.window = ∅)
    (larger : start.maxFrames < start.entries.length)
    (above : ∀ entry ∈ start.entries.take start.maxFrames, ¬ entry.isGhost)
    (below : ∀ entry ∈ start.entries.drop start.maxFrames, entry.isGhost)
    (addressable : start.maxFrames + growStep * (start.growthsNeeded + 1) < Count.limit)
    {past : List (List ν)} (long : ∀ payloads ∈ past, minSampleSize ≤ payloads.length)
    (judged : ∀ payloads ∈ past.take start.growthsNeeded,
      payloads.length * nearMissGrowRatio < Count.limit)
    (next : List ν) {counted : Nat} (counts : start.CountsUpTo counted counted)
    (few : counted + past.flatten.length + past.length + next.length + 1 < Count.limit) :
    ∃ cache outcomes after, Checked.rounds past start = .ok cache ∧
      Checked.sweep next cache = .ok (outcomes, after) ∧ outcomes.length = next.length ∧
      cache.keys.Perm start.keys ∧ after.keys.Perm start.keys ∧
      (past.length < start.growthsNeeded →
        cache.maxFrames = start.maxFrames + 2 * past.length ∧
        (∀ found ∈ outcomes, found = .nearMiss) ∧
        (minSampleSize ≤ next.length → next.length * nearMissGrowRatio < Count.limit →
          ∃ adjusted, Checked.adjustSize after false = .ok (some .grow, adjusted) ∧
            adjusted.maxFrames = cache.maxFrames + 2 ∧ adjusted.entries = after.entries)) ∧
      (start.growthsNeeded ≤ past.length →
        (∀ found ∈ outcomes.drop (if past.length = start.growthsNeeded then 2 else 0),
          found.isHit) ∧
        after.metrics.demotions = cache.metrics.demotions ∧
        after.metrics.ghostEvictions = cache.metrics.ghostEvictions ∧
        (minSampleSize ≤ next.length →
          ∃ action adjusted, Checked.adjustSize after false = .ok (some action, adjusted) ∧
            adjusted.entries = after.entries ∧
            adjusted.metrics.demotions = after.metrics.demotions ∧
            adjusted.metrics.ghostEvictions = after.metrics.ghostEvictions)) := by
  have nonempty : start.keys ≠ [] := by
    intro none
    rw [List.map_eq_nil_iff.mp none] at larger
    simp at larger
  obtain ⟨keys, live, cache, repeated, tuned, countsCache⟩ :=
    (Tuned.initial wellFormed loose unused above below).exists_rounds nonempty addressable counts
      (by omega) long judged
  rw [Nat.zero_add] at tuned
  obtain ⟨outcomes, after, accessed, answered, swept, countsAfter⟩ :=
    tuned.exists_sweep nonempty countsCache next (by omega)
  have known : cache.keys = keys := tuned.layered.map_key
  refine ⟨cache, outcomes, after, repeated, accessed, answered, known ▸ tuned.rotation, ?_,
    fun early => ?_, fun late => ?_⟩
  · obtain ⟨rotated, rotation, layered⟩ := swept.layered
    have knownAfter : after.keys = rotated := layered.map_key
    rw [knownAfter]
    exact rotation.trans tuned.rotation
  · obtain ⟨capacity, -⟩ := tuned.growing (Nat.le_of_lt early)
    refine ⟨capacity, swept.nearMisses (tuned.full early), fun enough weighted => ?_⟩
    rw [← answered] at enough weighted
    obtain ⟨adjusted, adjusts, grown⟩ :=
      tuned.grows early swept enough weighted addressable countsAfter (by omega)
    exact ⟨adjusted, adjusts.checked, grown, adjusts.keeps.entries_eq⟩
  · have fits := tuned.roomy late
    have almost : keys.length ≤ live + 2 := tuned.length_le late
    refine ⟨fun found member => swept.hits fits found (List.drop_subset_drop_left _ ?_ member),
      swept.demotions_eq fits, swept.ghostEvictions_eq fits, fun enough => ?_⟩
    · split
      next => omega
      next further =>
        have allLive := tuned.settled (by omega)
        omega
    · rw [← answered] at enough
      obtain ⟨action, adjusted, adjusts⟩ :=
        tuned.keeps late swept enough addressable countsAfter (by omega)
      exact ⟨action, adjusted, adjusts.checked, adjusts.keeps.entries_eq,
        adjusts.keeps.demotions_eq, adjusts.keeps.ghostEvictions_eq⟩

/-- With one live key and two ghosts, one round is enough for every later access to be a hit but the
first two. -/
theorem rounds_converge_of_three_keys :
    let start : Cache Nat String :=
      (empty 1 2 false).run [.insert 1 "a", .insert 2 "b", .insert 3 "c"]
    start.WellFormed ∧ start.fixed = false ∧ start.window = ∅ ∧
      start.entries = [⟨3, some "c"⟩, ⟨2, none⟩, ⟨1, none⟩] ∧ start.maxFrames = 1 ∧
      start.growthsNeeded = 1 ∧ start.CountsUpTo 3 3 ∧
      ∃ cache outcomes after, Checked.rounds [List.replicate 30 "d"] start = .ok cache ∧
        Checked.sweep ["e", "f", "g", "h"] cache = .ok (outcomes, after) ∧
        ∀ found ∈ outcomes.drop 2, found.isHit := by
  intro start
  have newCache := consistent_empty (κ := Nat) (ν := String) 1 2 false
  have consistent : start.Consistent := newCache.run _
  have counts : start.CountsUpTo 3 3 :=
    newCache.counts_run (countsUpTo_empty 1 2 false) (by decide)
  have plain : start.toPlain = (PlainCache.empty 1 2 false).run
      [.insert 1 "a", .insert 2 "b", .insert 3 "c"] := newCache.toPlain_run _
  have loose : start.fixed = false := congrArg PlainCache.fixed plain
  have unused : start.window = ∅ := congrArg PlainCache.window plain
  have entries : start.entries = [⟨3, some "c"⟩, ⟨2, none⟩, ⟨1, none⟩] :=
    (congrArg PlainCache.entries plain).trans (by decide +kernel)
  have maxFrames : start.maxFrames = 1 := congrArg PlainCache.maxFrames plain
  have needed : start.growthsNeeded = 1 := by
    rw [growthsNeeded, entries, maxFrames]
    rfl
  have larger : start.maxFrames < start.entries.length := by
    rw [maxFrames, entries]
    decide
  have above : ∀ entry ∈ start.entries.take start.maxFrames, ¬ entry.isGhost := by
    rw [maxFrames, entries]
    decide
  have below : ∀ entry ∈ start.entries.drop start.maxFrames, entry.isGhost := by
    rw [maxFrames, entries]
    decide
  have addressable : start.maxFrames + growStep * (start.growthsNeeded + 1) < Count.limit := by
    rw [maxFrames, needed]
    decide
  have long : ∀ payloads ∈ [List.replicate 30 "d"], minSampleSize ≤ payloads.length := by decide
  have judged : ∀ payloads ∈ [List.replicate 30 "d"].take start.growthsNeeded,
      payloads.length * nearMissGrowRatio < Count.limit := by
    rw [needed]
    decide
  obtain ⟨cache, outcomes, after, repeated, accessed, -, -, -, -, settled⟩ :=
    rounds_converge consistent.wellFormed loose unused larger above below addressable long judged
      ["e", "f", "g", "h"] counts (by decide)
  have hits := (settled (Nat.le_of_eq needed)).1
  rw [needed] at hits
  exact ⟨consistent.wellFormed, loose, unused, entries, maxFrames, needed, counts, cache, outcomes,
    after, repeated, accessed, hits⟩

/-- A cache that has to grow does not if a sweep is one access too long for its near misses to be
weighted, although all of them can be counted. -/
theorem growth_refused_after_long_sweep :
    let start : Cache Nat String := (empty 0 1 false).run [.insert 1 "a"]
    start.WellFormed ∧ start.fixed = false ∧ start.window = ∅ ∧ start.entries = [⟨1, none⟩] ∧
      start.maxFrames = 0 ∧ start.growthsNeeded = 1 ∧
      ∃ outcomes after,
        Checked.sweep (List.replicate (Count.limit / nearMissGrowRatio + 1) "a") start =
          .ok (outcomes, after) ∧
        outcomes.length = Count.limit / nearMissGrowRatio + 1 ∧
        after.window = { nearMisses := Count.limit / nearMissGrowRatio + 1 } ∧
        after.maxFrames = 0 ∧
        Checked.adjustSize after false = .error (.fault .productTooLarge) := by
  intro start
  have newCache := consistent_empty (κ := Nat) (ν := String) 0 1 false
  have consistent : start.Consistent := newCache.run _
  have counts : start.CountsUpTo 1 1 :=
    newCache.counts_run (countsUpTo_empty 0 1 false) (by decide)
  have plain : start.toPlain = (PlainCache.empty 0 1 false).run [.insert 1 "a"] :=
    newCache.toPlain_run _
  have loose : start.fixed = false := congrArg PlainCache.fixed plain
  have unused : start.window = ∅ := congrArg PlainCache.window plain
  have entries : start.entries = [⟨1, none⟩] :=
    (congrArg PlainCache.entries plain).trans (by decide +kernel)
  have maxFrames : start.maxFrames = 0 := congrArg PlainCache.maxFrames plain
  have needed : start.growthsNeeded = 1 := by
    rw [growthsNeeded, entries, maxFrames]
    rfl
  have tuned : start.Tuned 0 start.keys start.maxFrames start :=
    .initial consistent.wellFormed loose unused (by rw [maxFrames, entries]; decide)
      (by rw [maxFrames, entries]; decide)
  have nonempty : start.keys ≠ [] := by
    rw [keys, entries]
    decide
  have few : 1 + (List.replicate (Count.limit / nearMissGrowRatio + 1) "a").length <
      Count.limit := by
    rw [List.length_replicate]
    decide
  obtain ⟨outcomes, after, accessed, answered, swept, -⟩ :=
    tuned.exists_sweep nonempty counts _ few
  rw [List.length_replicate] at answered
  have window := swept.window_of_full unused (tuned.full (by rw [needed]; decide))
  rw [answered] at window
  have unjudged : after.window.recommend? = .error .productTooLarge := by
    rw [window]
    exact Tally.recommend?_of_overflow (by decide) (by decide) (by decide)
  have looseAfter : ¬ after.fixed := by simp [swept.fixed_eq.trans loose]
  refine ⟨consistent.wellFormed, loose, unused, entries, maxFrames, needed, outcomes, after,
    accessed, answered, window, swept.maxFrames_eq.trans maxFrames, ?_⟩
  simp only [Checked.adjustSize, if_neg looseAfter, Checked.recommendSize, unjudged, Hazard.guard,
    Except.mapError, bind, Except.bind]

end Cache

end FrameKeep
