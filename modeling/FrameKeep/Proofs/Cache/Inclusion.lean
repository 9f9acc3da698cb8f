import FrameKeep.Proofs.Cache.LiveEntries

/-!
# Inclusion

A cache with a larger live capacity that is used in the same way has all the live entries of a
smaller one, in the same order. Its live entries need not be longer at one end: a key may be live in
it that the smaller cache knows as a ghost and has put first. What bounds the difference is how many
more entries there are than in the smaller cache, and that is never more than the difference of the
capacities.
-/

namespace FrameKeep

/-- The inner list is a subsequence of the outer one, which has at most `spare` elements more. -/
structure Nested {α : Type} (spare : Nat) (inner outer : List α) : Prop where
  sublist : inner.Sublist outer
  length_le : outer.length ≤ inner.length + spare

namespace Nested

variable {α : Type} {spare : Nat} {inner outer : List α}

private theorem nil (spare : Nat) : Nested spare ([] : List α) [] := ⟨.slnil, Nat.zero_le _⟩

private theorem cons (nested : Nested spare inner outer) (first : α) :
    Nested spare (first :: inner) (first :: outer) := by
  refine ⟨nested.sublist.cons_cons first, ?_⟩
  have := nested.length_le
  simp only [List.length_cons]
  omega

/-- What is taken out of the inner list is taken out of the outer one. -/
theorem filter (nested : Nested spare inner outer) (keep : α → Bool) :
    Nested spare (inner.filter keep) (outer.filter keep) := by
  refine ⟨nested.sublist.filter keep, ?_⟩
  have total := nested.length_le
  have removed := nested.sublist.countP_le (p := fun element => ¬ keep element)
  rw [List.length_eq_countP_add_countP keep, List.length_eq_countP_add_countP keep (l := inner)]
    at total
  rw [← List.countP_eq_length_filter, ← List.countP_eq_length_filter]
  omega

/-- If the outer list is cut back to `spare` more elements than the inner one, no more elements go
from its end than from the end of the inner one. -/
theorem take (nested : Nested spare inner outer) (count : Nat) :
    Nested spare (inner.take count) (outer.take (count + spare)) := by
  obtain ⟨sublist, length_le⟩ := nested
  constructor
  · by_cases short : outer.length ≤ count + spare
    · rw [List.take_of_length_le short]
      exact (List.take_sublist count inner).trans sublist
    · rw [← List.take_append_drop (count + spare) outer, List.sublist_append_iff] at sublist
      obtain ⟨upper, lower, rfl, upperSublist, lowerSublist⟩ := sublist
      have fewer := lowerSublist.length_le
      rw [List.length_drop] at fewer
      rw [List.length_append] at length_le
      rw [List.take_append_of_le_length (by omega)]
      exact (List.take_sublist count upper).trans upperSublist
  · rw [List.length_take, List.length_take]
    omega

end Nested

variable {κ ν : Type} [DecidableEq κ]

/-- A key that is put first may be in the outer list only. -/
theorem Nested.promote {spare : Nat} {inner outer : List (Entry κ ν)}
    (nested : Nested spare inner outer) (distinct : (outer.map (·.key)).Nodup) (key : κ) :
    Nested spare (Entry.promote inner key) (Entry.promote outer key) := by
  have distinctInner : (inner.map (·.key)).Nodup := distinct.sublist (nested.sublist.map _)
  cases found : Entry.find? outer key with
  | none =>
    have absent := Entry.find?_eq_none_iff.mp found
    have absentInner : ∀ entry ∈ inner, entry.key ≠ key :=
      fun entry member => absent entry (nested.sublist.subset member)
    rwa [Entry.promote_eq_self absent, Entry.promote_eq_self absentInner]
  | some entry =>
    obtain rfl := Entry.key_of_find?_eq_some found
    have inOuter := (Entry.find?_eq_some_iff distinct).mp found
    rw [Entry.promote_of_mem distinct inOuter]
    by_cases inInner : entry ∈ inner
    · rw [Entry.promote_of_mem distinctInner inInner]
      exact (nested.filter _).cons entry
    · have absentInner : ∀ other ∈ inner, other.key ≠ entry.key := by
        rintro ⟨_, payload⟩ member rfl
        have alsoFound := (Entry.find?_eq_some_iff distinct).mpr (nested.sublist.subset member)
        have same := Option.some.inj (found.symm.trans alsoFound)
        exact inInner (same ▸ member)
      have untouched := Entry.without_eq_self absentInner
      have moved := (Entry.cons_without_subperm found).length_le
      rw [Entry.promote_eq_self absentInner]
      refine ⟨.cons _ ?_, Nat.le_trans moved nested.length_le⟩
      rw [← untouched]
      exact nested.sublist.filter _

/-- Two operations that are the same and neither trim the cache on request nor resize it, or that
both set how many ghosts to keep. -/
inductive Cache.Op.Alike : Cache.Op κ ν → Cache.Op κ ν → Prop where
  | lookup (key : κ) : Alike (.lookup key) (.lookup key)
  | get (key : κ) : Alike (.get key) (.get key)
  | peek (key : κ) : Alike (.peek key) (.peek key)
  | contains (key : κ) : Alike (.contains key) (.contains key)
  | isLive (key : κ) : Alike (.isLive key) (.isLive key)
  | insert (key : κ) (payload : ν) : Alike (.insert key payload) (.insert key payload)
  | remove (key : κ) : Alike (.remove key) (.remove key)
  | clear : Alike .clear .clear
  | setMaxHistory (first second : Nat) : Alike (.setMaxHistory first) (.setMaxHistory second)
  | recommendSize : Alike .recommendSize .recommendSize

private theorem Tally.hits_record_le {small large : Tally} {found other : Lookup ν}
    (le : small.hits ≤ large.hits) (hit : found.isHit → other.isHit) :
    (small.record found).hits ≤ (large.record other).hits := by
  cases found <;> cases other <;> simp_all [record, Lookup.isHit] <;> omega

namespace PlainCache

/-- The large cache has room for `spare` more live entries than the small one, and includes it. -/
structure Includes (spare : Nat) (small large : PlainCache κ ν) : Prop where
  maxFrames_eq : large.maxFrames = small.maxFrames + spare
  live : Nested spare (Entry.live small.entries) (Entry.live large.entries)
  window : small.window.hits ≤ large.window.hits
  lifetime : small.metrics.lookups.hits ≤ large.metrics.lookups.hits

namespace Includes

variable {spare : Nat} {small large : PlainCache κ ν}

/-- What hits in the smaller cache hits in the larger one, with the same payload. -/
theorem hit (includes : Includes spare small large)
    (distinctSmall : (small.entries.map (·.key)).Nodup)
    (distinctLarge : (large.entries.map (·.key)).Nodup) {key : κ} {payload : ν}
    (hit : (small.lookup key).1 = .hit payload) : (large.lookup key).1 = .hit payload := by
  rw [lookup_eq_hit_iff distinctSmall, ← Entry.mem_live] at hit
  rw [lookup_eq_hit_iff distinctLarge, ← Entry.mem_live]
  exact includes.live.sublist.subset hit

/-- A look-up in both caches keeps the smaller one included. -/
theorem lookup (includes : Includes spare small large)
    (distinctSmall : (small.entries.map (·.key)).Nodup)
    (distinctLarge : (large.entries.map (·.key)).Nodup) (key : κ) :
    Includes spare (small.lookup key).2 (large.lookup key).2 := by
  have alsoHit : (small.lookup key).1.isHit → (large.lookup key).1.isHit := by
    cases found : (small.lookup key).1 with
    | hit payload => rw [includes.hit distinctSmall distinctLarge found]; exact id
    | nearMiss => nofun
    | farMiss => nofun
  refine ⟨includes.maxFrames_eq, ?_, Tally.hits_record_le includes.window alsoHit,
    Tally.hits_record_le includes.lifetime alsoHit⟩
  rw [live_lookup distinctSmall, live_lookup distinctLarge]
  exact includes.live.promote (Entry.nodup_live distinctLarge) key

/-- Operations that are alike keep the inclusion. -/
theorem perform (includes : Includes spare small large)
    (distinctSmall : (small.entries.map (·.key)).Nodup)
    (distinctLarge : (large.entries.map (·.key)).Nodup) {op other : Cache.Op κ ν}
    (alike : op.Alike other) :
    Includes spare (small.perform op).state (large.perform other).state := by
  have ⟨maxFrames_eq, live, window, lifetime⟩ := includes
  cases alike with
  | lookup key => exact includes.lookup distinctSmall distinctLarge key
  | get key => exact includes.lookup distinctSmall distinctLarge key
  | peek key => exact includes
  | contains key => exact includes
  | isLive key => exact includes
  | insert key payload =>
    refine ⟨maxFrames_eq, ?_, window, lifetime⟩
    change Nested spare (Entry.live (small.insert key payload).entries)
      (Entry.live (large.insert key payload).entries)
    rw [live_insert, live_insert, maxFrames_eq]
    exact ((live.filter _).cons _).take _
  | remove key =>
    refine ⟨maxFrames_eq, ?_, window, lifetime⟩
    change Nested spare (Entry.live (Entry.without small.entries key))
      (Entry.live (Entry.without large.entries key))
    rw [Entry.live_without, Entry.live_without]
    exact live.filter _
  | clear => exact ⟨maxFrames_eq, .nil spare, Nat.le_refl 0, lifetime⟩
  | setMaxHistory first second =>
    refine ⟨maxFrames_eq, ?_, window, lifetime⟩
    change Nested spare (Entry.live (small.setMaxHistory first).entries)
      (Entry.live (large.setMaxHistory second).entries)
    rw [setMaxHistory, setMaxHistory, live_trimToCapacity, live_trimToCapacity, maxFrames_eq]
    exact live.take _
  | recommendSize =>
    change Includes spare small.recommendSize.state large.recommendSize.state
    rw [recommendSize_state, recommendSize_state]
    exact ⟨maxFrames_eq, live, Nat.le_refl 0, lifetime⟩

end Includes

end PlainCache

namespace Cache

variable [Hashable κ]

/-- Runs of operations that are alike keep the inclusion. -/
theorem Consistent.includes_run {spare : Nat} {small large : Cache κ ν}
    (consistentSmall : small.Consistent) (consistentLarge : large.Consistent)
    (includes : PlainCache.Includes spare small.toPlain large.toPlain) {ops others : List (Op κ ν)}
    (alike : List.Forall₂ Op.Alike ops others) :
    PlainCache.Includes spare (small.run ops).toPlain (large.run others).toPlain := by
  induction alike generalizing small large with
  | nil => exact includes
  | @cons op other _ _ first _ ih =>
    have next := includes.perform consistentSmall.distinct consistentLarge.distinct first
    rw [← consistentSmall.toPlain_perform, ← consistentLarge.toPlain_perform] at next
    exact ih (consistentSmall.perform op) (consistentLarge.perform other) next

/-- After operations that are alike, the live entries of a new cache are a subsequence of those of
a new cache with at least its live capacity. So every look-up that hits in the small cache hits in
the large one with the same payload, and the large one has counted no fewer hits, both since the
resize policy was last asked and over the lifetime. -/
theorem live_inclusion {maxSmall maxLarge historySmall historyLarge : Nat}
    {fixedSmall fixedLarge : Bool} {newSmall newLarge : Cache κ ν}
    (createdSmall : create maxSmall historySmall fixedSmall = .ok newSmall)
    (createdLarge : create maxLarge historyLarge fixedLarge = .ok newLarge)
    (le : maxSmall ≤ maxLarge) {ops others : List (Op κ ν)}
    (alike : List.Forall₂ Op.Alike ops others) :
    let small := newSmall.run ops
    let large := newLarge.run others
    (Entry.live small.entries).Sublist (Entry.live large.entries) ∧
      (∀ key payload, (small.lookup key).1 = .hit payload →
        (large.lookup key).1 = .hit payload) ∧
      small.window.hits ≤ large.window.hits ∧
      small.metrics.lookups.hits ≤ large.metrics.lookups.hits := by
  obtain ⟨-, rfl⟩ := create_eq_ok_iff.mp createdSmall
  obtain ⟨-, rfl⟩ := create_eq_ok_iff.mp createdLarge
  intro small large
  have newSmallConsistent := consistent_empty (κ := κ) (ν := ν) maxSmall historySmall fixedSmall
  have newLargeConsistent := consistent_empty (κ := κ) (ν := ν) maxLarge historyLarge fixedLarge
  have start : PlainCache.Includes (maxLarge - maxSmall)
      (empty maxSmall historySmall fixedSmall : Cache κ ν).toPlain
      (empty maxLarge historyLarge fixedLarge : Cache κ ν).toPlain :=
    ⟨(Nat.add_sub_of_le le).symm, .nil _, Nat.le_refl 0, Nat.le_refl 0⟩
  have includes := newSmallConsistent.includes_run newLargeConsistent start alike
  have smallConsistent := newSmallConsistent.run ops
  have largeConsistent := newLargeConsistent.run others
  refine ⟨includes.live.sublist, fun key payload hit => ?_, includes.window, includes.lifetime⟩
  rw [smallConsistent.lookup_found] at hit
  rw [largeConsistent.lookup_found]
  exact includes.hit smallConsistent.distinct largeConsistent.distinct hit

/-- A key that the small cache knows as a ghost is put first in both caches, and is live in the
large one only. -/
theorem live_inclusion_of_promoted_ghost :
    let small : Cache Nat String := .empty 1 2 false
    let large : Cache Nat String := .empty 2 0 true
    let ops : List (Op Nat String) :=
      [.insert 1 "a", .insert 2 "b", .lookup 1, .setMaxHistory 1, .get 2, .insert 3 "c"]
    let others : List (Op Nat String) :=
      [.insert 1 "a", .insert 2 "b", .lookup 1, .setMaxHistory 4, .get 2, .insert 3 "c"]
    create 1 2 false = .ok small ∧ create 2 0 true = .ok large ∧ 1 ≤ 2 ∧
      List.Forall₂ Op.Alike ops others ∧
      (Entry.live (small.run ops).entries).Sublist (Entry.live (large.run others).entries) ∧
      (small.run ops).metrics.lookups.hits ≤ (large.run others).metrics.lookups.hits := by
  intro small large ops others
  have createdSmall : create 1 2 false = .ok small := create_eq_ok_iff.mpr ⟨by decide, rfl⟩
  have createdLarge : create 2 0 true = .ok large := create_eq_ok_iff.mpr ⟨by decide, rfl⟩
  have alike : List.Forall₂ Op.Alike ops others :=
    .cons (.insert ..) <| .cons (.insert ..) <| .cons (.lookup 1) <| .cons (.setMaxHistory ..) <|
      .cons (.get 2) <| .cons (.insert ..) .nil
  obtain ⟨sublist, -, -, hits⟩ := live_inclusion createdSmall createdLarge (by decide) alike
  exact ⟨createdSmall, createdLarge, by decide, alike, sublist, hits⟩

end Cache

end FrameKeep
