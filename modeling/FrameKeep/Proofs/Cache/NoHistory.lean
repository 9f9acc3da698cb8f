import FrameKeep.Proofs.Cache.Checked
import FrameKeep.Proofs.Cache.Growth

/-!
# Caches without history

A cache that keeps no ghosts never sees a near miss, and near misses are all that lets a cache
grow. So while nobody sets its capacities its live capacity can only fall, and once it has fallen to
zero the cache stays empty. Both follow from what every operation keeps (`Forgetful.perform`): the
history has no room and no near miss was counted since the resize policy was last asked.
-/

namespace FrameKeep

variable {κ ν : Type}

/-- Whether the operation sets one of the capacities. -/
def Cache.Op.setsCapacity : Cache.Op κ ν → Bool
  | .setMaxFrames _ | .setMaxHistory _ => true
  | _ => false

namespace PlainCache

/-- There is no room for ghosts, and no look-up since the resize policy was last asked met one. -/
structure Forgetful (cache : PlainCache κ ν) : Prop where
  maxHistory_eq : cache.maxHistory = 0
  nearMisses_eq : cache.window.nearMisses = 0

private theorem forgetful_empty (maxFrames : Nat) (fixed : Bool) :
    (empty maxFrames 0 fixed : PlainCache κ ν).Forgetful := ⟨rfl, rfl⟩

namespace Forgetful

variable {cache : PlainCache κ ν}

/-- A cache without history has no ghosts. -/
theorem ghosts_eq_nil (forgetful : cache.Forgetful) (within : cache.Within) :
    Entry.ghosts cache.entries = [] := by
  have few := within.ghost_le
  rw [forgetful.maxHistory_eq] at few
  exact List.eq_nil_of_length_eq_zero (Nat.le_zero.mp few)

/-- What is found is live. -/
theorem payload_ne_none (forgetful : cache.Forgetful) (within : cache.Within) {entry : Entry κ ν}
    (member : entry ∈ cache.entries) : entry.payload ≠ none := by
  intro taken
  have ghost : entry ∈ Entry.ghosts cache.entries :=
    List.mem_filter.mpr ⟨member, by simp [Entry.isGhost, taken]⟩
  rw [forgetful.ghosts_eq_nil within] at ghost
  exact List.not_mem_nil ghost

/-- Without room for live entries either there is nothing to find. -/
theorem entries_eq_nil (forgetful : cache.Forgetful) (within : cache.Within)
    (noFrames : cache.maxFrames = 0) : cache.entries = [] := by
  have live := within.live_le
  have ghosts := forgetful.ghosts_eq_nil within
  have total := Entry.length_live_add_length_ghosts cache.entries
  rw [ghosts, List.length_nil] at total
  exact List.eq_nil_of_length_eq_zero (by omega)

private theorem adjustSize (forgetful : cache.Forgetful) (needMemory : Bool) :
    (cache.adjustSize needMemory).state.Forgetful := by
  constructor
  case maxHistory_eq =>
    rcases cache.adjustSize_cases needMemory with
      ⟨-, window, unchanged⟩ | ⟨emptied, maxFrames, action, -, resized⟩
    · rw [unchanged]
      exact forgetful.maxHistory_eq
    · rw [resized]
      cases emptied <;> exact forgetful.maxHistory_eq
  case nearMisses_eq =>
    rw [(cache.adjustSize_keeps_lookups needMemory).2.2]
    split
    next => exact forgetful.nearMisses_eq
    next => rfl

/-- Adjusting the size of the cache never raises its live capacity. -/
theorem maxFrames_adjustSize_le (forgetful : cache.Forgetful) (needMemory : Bool) :
    (cache.adjustSize needMemory).state.maxFrames ≤ cache.maxFrames := by
  rcases cache.maxFrames_adjustSize needMemory with fewer | ⟨-, -, recommended, -⟩
  · exact fewer
  · exact absurd recommended (Tally.not_recommends_grow forgetful.nearMisses_eq)

/-- A cache without history is never recommended to grow. -/
theorem recommend?_ne_grow (forgetful : cache.Forgetful) : cache.window.recommend? ≠ .ok .grow := by
  intro recommended
  exact Tally.not_recommends_grow forgetful.nearMisses_eq
    (Tally.recommend?_eq_ok_iff.mp recommended).2.2

/-- A recommendation can always be followed. -/
theorem adjustSize_result (forgetful : cache.Forgetful) (loose : cache.fixed = false)
    (needMemory : Bool) :
    (cache.adjustSize needMemory).result = cache.window.recommend?.map some := by
  cases recommended : cache.window.recommend? with
  | error fault =>
    rw [adjustSize_of_unjudged loose recommended]
    rfl
  | ok action =>
    cases target : targetFrames cache.maxFrames action needMemory with
    | error fault =>
      obtain ⟨rfl, -⟩ := targetFrames_eq_error_iff.mp target
      exact absurd recommended forgetful.recommend?_ne_grow
    | ok maxFrames => exact (adjustSize_of_recommended loose recommended target).1

/-- As long as the look-ups can be counted they can be judged. -/
theorem exists_recommend? (forgetful : cache.Forgetful) (few : cache.window.total < Count.limit) :
    ∃ action, action ≠ .grow ∧ cache.window.recommend? = .ok action := by
  obtain ⟨action, fitting⟩ := cache.window.exists_recommends
  have weighted : cache.window.nearMisses * nearMissGrowRatio < Count.limit := by
    rw [forgetful.nearMisses_eq, Nat.zero_mul]
    decide
  refine ⟨action, ?_, Tally.recommend?_eq_ok_iff.mpr ⟨few, fun _ => weighted, fitting⟩⟩
  rintro rfl
  exact Tally.not_recommends_grow forgetful.nearMisses_eq fitting

variable [DecidableEq κ]

/-- A look-up in a cache without history never misses near. -/
theorem lookup_ne_nearMiss (forgetful : cache.Forgetful) (within : cache.Within) (key : κ) :
    (cache.lookup key).1 ≠ .nearMiss := by
  rw [lookup_found]
  cases found : Entry.find? cache.entries key with
  | none => simp
  | some entry =>
    have held := forgetful.payload_ne_none within (List.mem_of_find?_eq_some found)
    obtain ⟨payload, live⟩ := Option.ne_none_iff_exists'.mp held
    simp [live, Lookup.ofRemembered]

private theorem lookup (forgetful : cache.Forgetful) (within : cache.Within) (key : κ) :
    (cache.lookup key).2.Forgetful := by
  refine ⟨forgetful.maxHistory_eq, ?_⟩
  change (cache.window.record (cache.lookup key).1).nearMisses = 0
  have missed := forgetful.lookup_ne_nearMiss within key
  rw [Tally.nearMisses_record, forgetful.nearMisses_eq]
  cases outcome : (cache.lookup key).1 with
  | nearMiss => exact absurd outcome missed
  | hit payload => rfl
  | farMiss => rfl

/-- Whatever is performed other than setting a capacity, there is no room for ghosts and no near
miss, and no frame is added. -/
theorem perform (forgetful : cache.Forgetful) (within : cache.Within) {op : Cache.Op κ ν}
    (untouched : ¬ op.setsCapacity) :
    (cache.perform op).state.Forgetful ∧ (cache.perform op).state.maxFrames ≤ cache.maxFrames := by
  cases op with
  | lookup key => exact ⟨forgetful.lookup within key, Nat.le_refl _⟩
  | get key => exact ⟨forgetful.lookup within key, Nat.le_refl _⟩
  | clear => exact ⟨⟨forgetful.maxHistory_eq, rfl⟩, Nat.le_refl _⟩
  | recommendSize =>
    change cache.recommendSize.state.Forgetful ∧ cache.recommendSize.state.maxFrames ≤ _
    rw [recommendSize_state]
    exact ⟨⟨forgetful.maxHistory_eq, rfl⟩, Nat.le_refl _⟩
  | adjustSize needMemory =>
    exact ⟨forgetful.adjustSize needMemory, forgetful.maxFrames_adjustSize_le needMemory⟩
  | setMaxFrames maxFrames => exact absurd rfl untouched
  | setMaxHistory maxHistory => exact absurd rfl untouched
  | peek | contains | isLive | insert | remove | trim | resetMetrics =>
    exact ⟨⟨forgetful.maxHistory_eq, forgetful.nearMisses_eq⟩, Nat.le_refl _⟩

end Forgetful

end PlainCache

namespace Cache

variable [DecidableEq κ] [Hashable κ]

private theorem recommendSize_result (cache : Cache κ ν) :
    cache.recommendSize.result = cache.window.recommend? := by
  unfold recommendSize
  split
  next judged => rw [judged]
  next judged => rw [judged]

/-- Until a capacity is set, a run keeps no ghosts and adds no frame. -/
theorem Consistent.forgetful_run {cache : Cache κ ν} (consistent : cache.Consistent)
    (forgetful : cache.toPlain.Forgetful) {ops : List (Op κ ν)}
    (untouched : ∀ op ∈ ops, ¬ op.setsCapacity) :
    (cache.run ops).toPlain.Forgetful ∧ (cache.run ops).maxFrames ≤ cache.maxFrames := by
  refine consistent.run_induction
    (fun state => state.toPlain.Forgetful ∧ state.maxFrames ≤ cache.maxFrames)
    ⟨forgetful, Nat.le_refl _⟩ ?_ untouched
  rintro state op consistent untouched ⟨forgetful, le⟩
  obtain ⟨stillForgetful, fewer⟩ := forgetful.perform consistent.within untouched
  rw [← consistent.toPlain_perform op] at stillForgetful fewer
  exact ⟨stillForgetful, Nat.le_trans fewer le⟩

/-- A cache that is created without history, and whose capacities are not set later, has no ghosts
and no near misses, never recommends growth and never adds a frame. Once it has no frames it stays
empty, and every look-up is a far miss. -/
theorem shrinks_without_history {maxFrames : Nat} {start : Cache κ ν}
    (created : create maxFrames 0 false = .ok start) {ops : List (Op κ ν)}
    (untouched : ∀ op ∈ ops, ¬ op.setsCapacity) :
    let cache := start.run ops
    cache.ghost = 0 ∧
      (∀ key, (cache.lookup key).1 ≠ .nearMiss) ∧
      cache.recommendSize.result ≠ .ok .grow ∧
      (∀ needMemory, (cache.adjustSize needMemory).result ≠ .ok (some .grow)) ∧
      (ops.length < Count.limit →
        ∃ action, action ≠ .grow ∧ cache.recommendSize.result = .ok action ∧
          ∀ needMemory, (cache.adjustSize needMemory).result = .ok (some action)) ∧
      ∀ earlier later, ops = earlier ++ later →
        cache.maxFrames ≤ (start.run earlier).maxFrames ∧
          ((start.run earlier).maxFrames = 0 →
            cache.isEmpty ∧ ∀ key, (cache.lookup key).1 = .farMiss) := by
  obtain ⟨-, rfl⟩ := create_eq_ok_iff.mp created
  have newCache := consistent_empty (κ := κ) (ν := ν) maxFrames 0 false
  have newForgetful := PlainCache.forgetful_empty (κ := κ) (ν := ν) maxFrames false
  intro cache
  have consistent : cache.Consistent := newCache.run ops
  have forgetful : cache.toPlain.Forgetful := (newCache.forgetful_run newForgetful untouched).1
  have loose : cache.toPlain.fixed = false := newCache.fixed_run ops
  have adjusts (needMemory : Bool) :
      (cache.adjustSize needMemory).result = cache.window.recommend?.map some :=
    (congrArg Step.result (consistent.adjustSize_eq needMemory)).trans
      (forgetful.adjustSize_result loose needMemory)
  have fewer (earlier later : List (Op κ ν)) (split : ops = earlier ++ later) :
      cache.maxFrames ≤ ((empty maxFrames 0 false : Cache κ ν).run earlier).maxFrames := by
    subst split
    have before := newCache.forgetful_run newForgetful
      fun op member => untouched op (List.mem_append_left _ member)
    have after := (newCache.run earlier).forgetful_run before.1
      fun op member => untouched op (List.mem_append_right _ member)
    rw [← run_append] at after
    exact after.2
  refine ⟨?ghost, fun key => ?nearMiss, ?recommend, fun needMemory => ?adjust, fun few => ?judged,
    fun earlier later split => ⟨fewer earlier later split, fun noFrames => ?stays⟩⟩
  case ghost =>
    obtain ⟨cells, arranged⟩ := consistent.arranged
    have none : Entry.ghosts cache.entries = [] := forgetful.ghosts_eq_nil consistent.within
    rw [arranged.ghost_eq, ← arranged.entries_eq, none, List.length_nil]
  case nearMiss =>
    rw [consistent.lookup_found]
    exact forgetful.lookup_ne_nearMiss consistent.within key
  case recommend =>
    rw [recommendSize_result]
    exact forgetful.recommend?_ne_grow
  case adjust =>
    rw [adjusts]
    have missing := forgetful.recommend?_ne_grow
    rw [toPlain_window] at missing
    cases recommended : cache.window.recommend? with
    | error fault => simp [Except.map]
    | ok action => simpa [Except.map, recommended] using missing
  case judged =>
    have total : cache.window.total ≤ 0 + ops.length := newCache.total_window_run ops
    obtain ⟨action, other, recommended⟩ := forgetful.exists_recommend?
      (show cache.window.total < Count.limit by omega)
    rw [toPlain_window] at recommended
    refine ⟨action, other, by rw [recommendSize_result, recommended], fun needMemory => ?_⟩
    rw [adjusts, recommended]
    rfl
  case stays =>
    have stillNone : cache.maxFrames = 0 :=
      Nat.le_zero.mp (noFrames ▸ fewer earlier later split)
    have nothing : cache.entries = [] := forgetful.entries_eq_nil consistent.within stillNone
    constructor
    · obtain ⟨cells, arranged⟩ := consistent.arranged
      have noCells : cells.length = 0 := by
        rw [← List.length_map (·.2), ← arranged.entries_eq, nothing, List.length_nil]
      exact beq_iff_eq.mpr (arranged.size_eq.trans noCells)
    · intro key
      rw [consistent.lookup_eq_farMiss_iff, keys, nothing]
      exact List.not_mem_nil

/-- A cache of two frames that sees nothing but far misses while memory is needed is left without
frames, and stores nothing any more. -/
theorem shrinks_without_history_of_far_misses :
    let start : Cache Nat String := .empty 2 0 false
    let earlier : List (Op Nat String) :=
      [.insert 1 "a", .insert 2 "b", .insert 3 "c"] ++ List.replicate 30 (.lookup 1) ++
        [.adjustSize true]
    let cache := start.run (earlier ++ [.insert 4 "d"])
    create 2 0 false = .ok start ∧ (∀ op ∈ earlier ++ [.insert 4 "d"], ¬ op.setsCapacity) ∧
      (start.run earlier).maxFrames = 0 ∧ cache.ghost = 0 ∧ cache.isEmpty ∧
      (cache.lookup 4).1 = .farMiss := by
  intro start earlier cache
  have created : create 2 0 false = .ok start := create_eq_ok_iff.mpr ⟨by decide, rfl⟩
  have untouched : ∀ op ∈ earlier ++ [.insert 4 "d"], ¬ op.setsCapacity := by decide
  have noFrames : (start.run earlier).maxFrames = 0 := by
    have plain : (start.run earlier).toPlain = (PlainCache.empty 2 0 false).run earlier :=
      (consistent_empty 2 0 false).toPlain_run earlier
    rw [← toPlain_maxFrames, plain]
    decide +kernel
  obtain ⟨noGhost, -, -, -, -, shrinks⟩ := shrinks_without_history created untouched
  obtain ⟨-, stays⟩ := shrinks earlier [.insert 4 "d"] rfl
  obtain ⟨isEmpty, farMiss⟩ := stays noFrames
  exact ⟨created, untouched, noFrames, noGhost, isEmpty, farMiss 4⟩

end Cache

end FrameKeep
