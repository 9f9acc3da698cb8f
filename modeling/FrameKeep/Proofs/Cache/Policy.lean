import FrameKeep.Proofs.Cache.Plain

/-!
# The resize policy

What the policy recommends is decided by the tally of the look-ups, as long as the counts can be
judged. A cache that is told to grow, or to keep its size, keeps its entries as they are.
-/

namespace FrameKeep

namespace Tally

/-- What has to be true of the look-ups for an action to be recommended. -/
def Recommends (tally : Tally) : Action → Prop
  | .clear => tally.total = 0
  | .grow =>
    minSampleSize ≤ tally.total ∧ tally.total ≤ tally.nearMisses * nearMissGrowRatio
  | .shrink => minSampleSize ≤ tally.total ∧ tally.nearMisses = 0 ∧ tally.hits = 0
  | .noChange =>
    0 < tally.total ∧
      (minSampleSize ≤ tally.total → tally.nearMisses * nearMissGrowRatio < tally.total ∧
        ¬ (tally.nearMisses = 0 ∧ tally.hits = 0))

private theorem total?_eq_ok_iff {tally : Tally} {total : Nat} :
    tally.total? = .ok total ↔ tally.total < Count.limit ∧ tally.total = total := by
  unfold total? Tally.total Count.add?
  by_cases known : tally.hits + tally.nearMisses < Count.limit
  · simp only [if_pos known, bind, Except.bind]
    split <;> grind
  · simp only [if_neg known, bind, Except.bind]
    grind

/-- An action is recommended if it is the one that fits the look-ups and their counts can be
judged. -/
theorem recommend?_eq_ok_iff {tally : Tally} {action : Action} :
    tally.recommend? = .ok action ↔
      tally.total < Count.limit ∧
        (minSampleSize ≤ tally.total →
          tally.nearMisses * nearMissGrowRatio < Count.limit) ∧
        tally.Recommends action := by
  have positive : 0 < minSampleSize := by decide
  unfold recommend?
  cases counted : tally.total? with
  | error fault =>
    have tooMany : ¬ tally.total < Count.limit := by
      intro few
      simp [total?_eq_ok_iff.mpr ⟨few, rfl⟩] at counted
    simp [bind, Except.bind, tooMany]
  | ok total =>
    obtain ⟨few, rfl⟩ := total?_eq_ok_iff.mp counted
    simp only [bind, Except.bind, few, true_and]
    by_cases none : tally.total = 0
    · rw [if_pos none]
      cases action <;> simp [Recommends] <;> omega
    rw [if_neg none]
    by_cases small : tally.total < minSampleSize
    · rw [if_pos small]
      cases action <;> simp [Recommends] <;> omega
    rw [if_neg small]
    unfold Count.mul?
    by_cases fits : tally.nearMisses * nearMissGrowRatio < Count.limit
    · simp only [if_pos fits]
      by_cases enough : tally.total ≤ tally.nearMisses * nearMissGrowRatio
      · -- Then some look-up was a near miss.
        have missed : tally.nearMisses ≠ 0 := by
          intro noneMissed
          rw [noneMissed, Nat.zero_mul] at enough
          omega
        rw [if_pos enough]
        cases action <;> simp [Recommends] <;> omega
      rw [if_neg enough]
      by_cases unused : tally.nearMisses = 0 ∧ tally.hits = 0
      · rw [if_pos unused]
        cases action <;> simp [Recommends] <;> omega
      · rw [if_neg unused]
        cases action <;> simp [Recommends] <;> omega
    · simp [if_neg fits]
      omega

/-- Some action fits any look-ups. -/
theorem exists_recommends (tally : Tally) : ∃ action, tally.Recommends action := by
  by_cases none : tally.total = 0
  · exact ⟨.clear, none⟩
  by_cases grows : minSampleSize ≤ tally.total ∧ tally.total ≤ tally.nearMisses * nearMissGrowRatio
  · exact ⟨.grow, grows⟩
  by_cases shrinks : minSampleSize ≤ tally.total ∧ tally.nearMisses = 0 ∧ tally.hits = 0
  · exact ⟨.shrink, shrinks⟩
  · refine ⟨.noChange, by omega, fun enough => ⟨by omega, fun unused => ?_⟩⟩
    exact shrinks ⟨enough, unused⟩

/-- Growth is not recommended where there are no near misses. -/
theorem not_recommends_grow {tally : Tally} (noNearMiss : tally.nearMisses = 0) :
    ¬ tally.Recommends .grow := by
  rintro ⟨enough, weighted⟩
  have positive : 0 < minSampleSize := by decide
  rw [noNearMiss, Nat.zero_mul] at weighted
  omega

/-- Few look-ups can be judged. -/
theorem exists_recommend? {tally : Tally}
    (few : tally.total * nearMissGrowRatio < Count.limit) :
    ∃ action, tally.recommend? = .ok action := by
  have total_le : tally.total ≤ tally.total * nearMissGrowRatio :=
    Nat.le_mul_of_pos_right _ (by decide)
  have nearMisses_le : tally.nearMisses ≤ tally.total := by
    unfold total
    omega
  have weighted : tally.nearMisses * nearMissGrowRatio < Count.limit :=
    Nat.lt_of_le_of_lt (Nat.mul_le_mul_right _ nearMisses_le) few
  obtain ⟨action, fitting⟩ := tally.exists_recommends
  exact ⟨action, recommend?_eq_ok_iff.mpr ⟨by omega, fun _ => weighted, fitting⟩⟩

/-- Too many near misses to be weighted cannot be judged. -/
theorem recommend?_of_overflow {tally : Tally} (counted : tally.total < Count.limit)
    (enough : minSampleSize ≤ tally.total)
    (tooMany : Count.limit ≤ tally.nearMisses * nearMissGrowRatio) :
    tally.recommend? = .error .productTooLarge := by
  have positive : 0 < minSampleSize := by decide
  have weighted : Count.mul? tally.nearMisses nearMissGrowRatio = .error .productTooLarge :=
    if_neg (Nat.not_lt_of_le tooMany)
  unfold recommend?
  rw [total?_eq_ok_iff.mpr ⟨counted, rfl⟩]
  simp only [bind, Except.bind]
  rw [if_neg (by omega), if_neg (by omega), weighted]

/-- Look-ups that can be counted cannot be judged only for want of room for the weighted near
misses. -/
theorem weighted_of_unjudged {tally : Tally} (counted : tally.total < Count.limit) {fault : Fault}
    (unjudged : tally.recommend? = .error fault) :
    fault = .productTooLarge ∧ Count.limit ≤ tally.nearMisses * nearMissGrowRatio := by
  obtain ⟨action, fitting⟩ := tally.exists_recommends
  have tooMany : minSampleSize ≤ tally.total ∧
      Count.limit ≤ tally.nearMisses * nearMissGrowRatio := by
    by_contra judged
    have recommended := recommend?_eq_ok_iff.mpr
      ⟨counted, fun enough => Nat.lt_of_not_le fun large => judged ⟨enough, large⟩, fitting⟩
    simp [unjudged] at recommended
  rw [recommend?_of_overflow counted tooMany.1 tooMany.2] at unjudged
  exact ⟨(Except.error.inj unjudged).symm, tooMany.2⟩

end Tally

namespace PlainCache

variable {κ ν : Type} {cache : PlainCache κ ν}

/-- A cache within its capacities has nothing to take or drop when it grows. -/
theorem Within.setMaxFrames_of_le (within : cache.Within) {maxFrames : Nat}
    (larger : cache.maxFrames ≤ maxFrames) :
    cache.setMaxFrames maxFrames = { cache with maxFrames } :=
  Within.trimToCapacity_eq_self ⟨Nat.le_trans within.live_le larger, within.ghost_le⟩

/-- There is nothing to take or drop once a cache is cleared. -/
theorem setMaxFrames_clear (cache : PlainCache κ ν) (maxFrames : Nat) :
    cache.clear.setMaxFrames maxFrames = { cache.clear with maxFrames } :=
  Within.trimToCapacity_eq_self ⟨Nat.zero_le _, Nat.zero_le _⟩

/-- A recommendation that is followed to no smaller a capacity, and empties nothing, changes no
entry. -/
theorem Within.adjustSize_of_target (within : cache.Within) (loose : cache.fixed = false)
    {action : Action} {needMemory : Bool} {maxFrames : Nat}
    (recommended : cache.window.recommend? = .ok action)
    (target : targetFrames cache.maxFrames action needMemory = .ok maxFrames)
    (filled : empties cache.maxFrames action needMemory = false)
    (larger : cache.maxFrames ≤ maxFrames) :
    cache.adjustSize needMemory =
      { result := .ok (some action)
        state :=
          { cache with
            maxFrames
            window := ∅
            metrics := cache.metrics.recordResize action needMemory }
        notices := [.recommended action cache.window cache.maxFrames] ++
          if maxFrames = cache.maxFrames then []
          else [.resized cache.maxFrames maxFrames needMemory] } := by
  have asked : ({ cache with window := ∅ } : PlainCache κ ν).Within :=
    ⟨within.live_le, within.ghost_le⟩
  have resized := asked.setMaxFrames_of_le larger
  unfold PlainCache.adjustSize PlainCache.recommendSize
  rw [if_neg (by simp [loose])]
  simp only [recommended, Step.andThen, target, filled, Bool.false_eq_true, if_false, resized]

/-- A recommendation that can be followed is followed. -/
theorem adjustSize_of_recommended (loose : cache.fixed = false) {action : Action}
    {needMemory : Bool} {maxFrames : Nat} (recommended : cache.window.recommend? = .ok action)
    (target : targetFrames cache.maxFrames action needMemory = .ok maxFrames) :
    let asked : PlainCache κ ν := { cache with window := ∅ }
    let start := if empties cache.maxFrames action needMemory then asked.clear else asked
    (cache.adjustSize needMemory).result = .ok (some action) ∧
      (cache.adjustSize needMemory).state =
        { start.setMaxFrames maxFrames with
          metrics := (start.setMaxFrames maxFrames).metrics.recordResize action needMemory } := by
  unfold adjustSize recommendSize
  rw [if_neg (by simp [loose])]
  simp only [recommended, Step.andThen, target, true_and]

/-- Look-ups that cannot be judged are lost all the same, and nothing else changes. -/
theorem adjustSize_of_unjudged (loose : cache.fixed = false) {fault : Fault}
    (unjudged : cache.window.recommend? = .error fault) (needMemory : Bool) :
    cache.adjustSize needMemory =
      { result := .error fault, state := { cache with window := ∅ } } := by
  unfold adjustSize recommendSize
  rw [if_neg (by simp [loose])]
  simp only [unjudged, Step.andThen]

/-- A recommendation that cannot be followed changes nothing but the look-ups counted. -/
theorem adjustSize_of_refused (loose : cache.fixed = false) {action : Action} {needMemory : Bool}
    {fault : Fault} (recommended : cache.window.recommend? = .ok action)
    (refused : targetFrames cache.maxFrames action needMemory = .error fault) :
    cache.adjustSize needMemory =
      { result := .error fault
        state := { cache with window := ∅ }
        notices := [.recommended action cache.window cache.maxFrames] } := by
  unfold adjustSize recommendSize
  rw [if_neg (by simp [loose])]
  simp only [recommended, Step.andThen, refused, List.append_nil]

/-- Nothing that is remembered was taken, dropped or moved, and there is room for no fewer. -/
structure Keeps (before after : PlainCache κ ν) : Prop where
  entries_eq : after.entries = before.entries
  maxFrames_le : before.maxFrames ≤ after.maxFrames
  maxHistory_eq : after.maxHistory = before.maxHistory
  demotions_eq : after.metrics.demotions = before.metrics.demotions
  ghostEvictions_eq : after.metrics.ghostEvictions = before.metrics.ghostEvictions

/-- Nothing is lost by following a recommendation that empties nothing and takes no room. -/
theorem Within.keeps_of_target (within : cache.Within) (loose : cache.fixed = false)
    {action : Action} {needMemory : Bool} {maxFrames : Nat}
    (recommended : cache.window.recommend? = .ok action)
    (target : targetFrames cache.maxFrames action needMemory = .ok maxFrames)
    (filled : empties cache.maxFrames action needMemory = false)
    (larger : cache.maxFrames ≤ maxFrames) :
    Keeps cache (cache.adjustSize needMemory).state := by
  obtain ⟨clears, grows, shrinks, counted⟩ :=
    cache.metrics.exists_recordResize action needMemory
  rw [within.adjustSize_of_target loose recommended target filled larger, counted]
  exact ⟨rfl, larger, rfl, rfl, rfl⟩

/-- A cache with hits that is not short of memory keeps what it has. -/
theorem Within.keeps_of_hits (within : cache.Within) (loose : cache.fixed = false)
    (hits : 0 < cache.window.hits) : Keeps cache (cache.adjustSize false).state := by
  have unchanged : Keeps cache { cache with window := ∅ } :=
    ⟨rfl, Nat.le_refl _, rfl, rfl, rfl⟩
  cases recommended : cache.window.recommend? with
  | error fault =>
    rw [adjustSize_of_unjudged loose recommended]
    exact unchanged
  | ok action =>
    have fitting := (Tally.recommend?_eq_ok_iff.mp recommended).2.2
    cases action with
    | clear => simp only [Tally.Recommends, Tally.total] at fitting; omega
    | shrink => simp only [Tally.Recommends] at fitting; omega
    | noChange => exact within.keeps_of_target loose recommended rfl rfl (Nat.le_refl _)
    | grow =>
      cases target : targetFrames cache.maxFrames .grow false with
      | error fault =>
        rw [adjustSize_of_refused loose recommended target]
        exact unchanged
      | ok maxFrames =>
        obtain ⟨-, rfl⟩ := Count.add?_eq_ok_iff.mp target
        exact within.keeps_of_target loose recommended target rfl (Nat.le_add_right ..)

end PlainCache

end FrameKeep
