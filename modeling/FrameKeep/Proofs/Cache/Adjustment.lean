import Mathlib.Algebra.Group.Nat.Defs
import FrameKeep.Proofs.Cache.Checked

/-!
# Adjusting the size

What becomes of a cache that adjusts its size is told by a table, from what the policy recommends
and whether memory is needed. Shrinking takes the payloads that there is no more room for from the
least recent live entries, and after that the least recent ghosts. The look-ups counted are used up
whatever comes of it, unless the policy is switched off.
-/

namespace FrameKeep

variable {κ ν : Type}

/-! ### What bounds take -/

namespace Entry

/-- The keys of all but the first `count` entries. -/
def beyond (count : Nat) (entries : List (Entry κ ν)) : List κ :=
  (entries.drop count).map (·.key)

variable {entries : List (Entry κ ν)} {key : κ} {count : Nat}

private theorem mem_of_mem_beyond_filter {keeps : Entry κ ν → Bool}
    (member : key ∈ beyond count (entries.filter keeps)) : key ∈ entries.map (·.key) :=
  (((List.drop_sublist ..).trans List.filter_sublist).map _).subset member

variable [DecidableEq κ]

/-- The entries without the payloads of some keys. -/
def demoteAll (entries : List (Entry κ ν)) (keys : List κ) : List (Entry κ ν) :=
  entries.map fun entry => if entry.key ∈ keys then { entry with payload := none } else entry

private theorem demoteAll_cons_key (absent : key ∉ entries.map (·.key)) (keys : List κ) :
    demoteAll entries (key :: keys) = demoteAll entries keys := by
  apply List.map_congr_left
  intro entry member
  have apart : entry.key ≠ key := fun same => absent (same ▸ List.mem_map_of_mem member)
  simp only [List.mem_cons, apart, false_or]

private theorem withoutAll_cons_key (absent : key ∉ entries.map (·.key)) (keys : List κ) :
    withoutAll entries (key :: keys) = withoutAll entries keys := by
  apply List.filter_congr
  intro entry member
  have apart : entry.key ≠ key := fun same => absent (same ▸ List.mem_map_of_mem member)
  simp only [List.mem_cons, apart, false_or]

/-- The payloads that are taken are those of the live entries behind the bound. -/
theorem keepLive_eq_demoteAll (distinct : (entries.map (·.key)).Nodup) (count : Nat) :
    keepLive count entries = demoteAll entries (beyond count (live entries)) := by
  induction entries generalizing count with
  | nil => simp [keepLive, demoteAll]
  | cons entry rest ih =>
    rw [List.map_cons, List.nodup_cons] at distinct
    obtain ⟨outside, distinct⟩ := distinct
    obtain ⟨key, _ | payload⟩ := entry
    · rw [keepLive, ih distinct, live_cons_none, demoteAll, demoteAll, List.map_cons, ite_self]
    · cases count with
      | zero =>
        have keys : beyond 0 (live ({ key, payload := some payload } :: rest)) =
            key :: beyond 0 (live rest) := rfl
        rw [keepLive, ih distinct, keys, ← demoteAll_cons_key outside]
        simp [demoteAll]
      | succ count =>
        have keys : beyond (count + 1) (live ({ key, payload := some payload } :: rest)) =
            beyond count (live rest) := rfl
        have above : key ∉ beyond count (live rest) :=
          fun member => outside (mem_of_mem_beyond_filter member)
        rw [keepLive, ih distinct, keys]
        simp [demoteAll, above]

/-- The ghosts that are dropped are those behind the bound. -/
theorem keepGhosts_eq_withoutAll (distinct : (entries.map (·.key)).Nodup) (count : Nat) :
    keepGhosts count entries = withoutAll entries (beyond count (ghosts entries)) := by
  induction entries generalizing count with
  | nil => simp [keepGhosts, withoutAll]
  | cons entry rest ih =>
    rw [List.map_cons, List.nodup_cons] at distinct
    obtain ⟨outside, distinct⟩ := distinct
    obtain ⟨key, _ | payload⟩ := entry
    · cases count with
      | zero =>
        have keys : beyond 0 (ghosts (({ key, payload := none } : Entry κ ν) :: rest)) =
            key :: beyond 0 (ghosts rest) := rfl
        rw [keepGhosts, ih distinct, keys, ← withoutAll_cons_key outside]
        simp [withoutAll]
      | succ count =>
        have keys : beyond (count + 1) (ghosts (({ key, payload := none } : Entry κ ν) :: rest)) =
            beyond count (ghosts rest) := rfl
        have above : key ∉ beyond count (ghosts rest) :=
          fun member => outside (mem_of_mem_beyond_filter member)
        rw [keepGhosts, ih distinct, keys]
        simp [withoutAll, above]
    · have above : key ∉ beyond count (ghosts rest) :=
        fun member => outside (mem_of_mem_beyond_filter member)
      rw [keepGhosts, ih distinct, ghosts_cons_some]
      simp [withoutAll, above]

end Entry

/-! ### The table -/

namespace PlainCache

variable [DecidableEq κ]

/-- The cache with room for `maxFrames` live entries. The live entries behind those lose their
payload, and of the ghosts that there are then, those behind the history are dropped. -/
def shrunk (cache : PlainCache κ ν) (maxFrames : Nat) : PlainCache κ ν :=
  let demoted := Entry.demoteAll cache.entries (Entry.beyond maxFrames (Entry.live cache.entries))
  { cache with
    entries := Entry.withoutAll demoted (Entry.beyond cache.maxHistory (Entry.ghosts demoted))
    maxFrames
    metrics :=
      { cache.metrics with
        demotions := cache.metrics.demotions + ((Entry.live cache.entries).length - maxFrames)
        ghostEvictions :=
          cache.metrics.ghostEvictions + ((Entry.ghosts demoted).length - cache.maxHistory) } }

/-- What is to become of a cache by what is recommended and whether memory is needed. -/
def adjusted (cache : PlainCache κ ν) : Action → (needMemory : Bool) → PlainCache κ ν
  | .clear, _ =>
    { cache with
      entries := []
      maxFrames := cache.maxFrames - 2
      window := ∅
      metrics := { cache.metrics with clears := cache.metrics.clears + 1 } }
  | .grow, false =>
    { cache with
      maxFrames := cache.maxFrames + 2
      window := ∅
      metrics := { cache.metrics with grows := cache.metrics.grows + 1 } }
  | .grow, true | .noChange, false => { cache with window := ∅ }
  | .shrink, needMemory =>
    let smaller := cache.shrunk (cache.maxFrames - if needMemory then 2 else 1)
    { smaller with
      window := ∅
      metrics := { smaller.metrics with shrinks := cache.metrics.shrinks + 1 } }
  | .noChange, true =>
    if 2 ≤ cache.maxFrames then { cache.shrunk (cache.maxFrames - 1) with window := ∅ }
    else { cache with entries := [], window := ∅ }

variable {cache : PlainCache κ ν}

/-- Setting the room for live entries demotes those behind it and drops the ghosts behind the
history. -/
theorem setMaxFrames_eq_shrunk (distinct : (cache.entries.map (·.key)).Nodup) (maxFrames : Nat) :
    cache.setMaxFrames maxFrames = cache.shrunk maxFrames := by
  have demoted := Entry.keepLive_eq_demoteAll distinct maxFrames
  have distinctAfter := distinct
  rw [← Entry.map_key_keepLive maxFrames, demoted] at distinctAfter
  rw [setMaxFrames, trimToCapacity, trim_eq_evict_demote, Nat.min_self, Nat.min_self]
  simp only [demote, demoted, evict, Entry.keepGhosts_eq_withoutAll distinctAfter, shrunk]

/-- What is recommended is answered and done, as the table has it. -/
theorem adjustSize_eq_adjusted (within : cache.Within)
    (distinct : (cache.entries.map (·.key)).Nodup) (loose : cache.fixed = false) {action : Action}
    {needMemory : Bool} {maxFrames : Nat} (recommended : cache.window.recommend? = .ok action)
    (target : targetFrames cache.maxFrames action needMemory = .ok maxFrames) :
    (cache.adjustSize needMemory).result = .ok (some action) ∧
      (cache.adjustSize needMemory).state = cache.adjusted action needMemory := by
  let asked : PlainCache κ ν := { cache with window := ∅ }
  have askedWithin : asked.Within := ⟨within.live_le, within.ghost_le⟩
  obtain ⟨answered, followed⟩ := adjustSize_of_recommended loose recommended target
  refine ⟨answered, followed.trans ?_⟩
  have askedDistinct : (asked.entries.map (·.key)).Nodup := distinct
  have smaller := setMaxFrames_eq_shrunk askedDistinct
  have same : asked.setMaxFrames cache.maxFrames = asked :=
    askedWithin.setMaxFrames_of_le (Nat.le_refl _)
  cases action with
  | clear =>
    obtain rfl : cache.maxFrames - 2 = maxFrames := Except.ok.inj target
    simp only [empties, if_true, setMaxFrames_clear]
    rfl
  | grow =>
    cases needMemory with
    | false =>
      obtain ⟨-, rfl⟩ := Count.add?_eq_ok_iff.mp target
      simp only [empties, Bool.false_eq_true, if_false]
      rw [askedWithin.setMaxFrames_of_le (Nat.le_add_right ..)]
      rfl
    | true =>
      obtain rfl : cache.maxFrames = maxFrames := Except.ok.inj target
      simp only [empties, Bool.false_eq_true, if_false, asked, same]
      rfl
  | shrink =>
    have reached : cache.maxFrames - (if needMemory then 2 else 1) = maxFrames := by
      cases needMemory <;> exact Except.ok.inj target
    rw [← reached]
    simp only [empties, Bool.false_eq_true, if_false, asked, smaller]
    rfl
  | noChange =>
    cases needMemory with
    | false =>
      obtain rfl : cache.maxFrames = maxFrames := Except.ok.inj target
      simp only [empties, Bool.false_eq_true, if_false, asked, same]
      rfl
    | true =>
      have reached : (if cache.maxFrames ≤ 1 then cache.maxFrames else cache.maxFrames - 1) =
          maxFrames := Except.ok.inj target
      by_cases small : cache.maxFrames ≤ 1
      · have few : ¬ 2 ≤ cache.maxFrames := by omega
        rw [if_pos small] at reached
        simp only [empties, small, decide_true, if_true, setMaxFrames_clear, adjusted, if_neg few,
          ← reached]
        rfl
      · have enough : 2 ≤ cache.maxFrames := by omega
        rw [if_neg small] at reached
        simp only [empties, small, decide_false, Bool.false_eq_true, if_false, adjusted,
          if_pos enough, ← reached, smaller, asked]
        rfl

end PlainCache

/-! ### Runs -/

namespace Cache

variable [DecidableEq κ] [Hashable κ]

/-- Look-ups that cannot be judged are used up, and nothing else changes. -/
theorem adjustSize_of_unjudged {cache : Cache κ ν} (loose : ¬ cache.fixed) {fault : Fault}
    (unjudged : cache.window.recommend? = .error fault) (needMemory : Bool) :
    cache.adjustSize needMemory =
      { result := .error fault, state := { cache with window := ∅ } } := by
  simp only [adjustSize, if_neg loose, recommendSize, unjudged, Step.andThen]

/-- A recommendation that can be followed is answered, and becomes what the table has for it. -/
theorem Consistent.adjustSize_eq_adjusted {cache : Cache κ ν} (consistent : cache.Consistent)
    (loose : cache.fixed = false) {action : Action} {needMemory : Bool}
    (recommended : cache.window.recommend? = .ok action)
    (possible : ¬ (action = .grow ∧ needMemory = false ∧ Count.limit ≤ cache.maxFrames + 2)) :
    (cache.adjustSize needMemory).result = .ok (some action) ∧
      (cache.adjustSize needMemory).state.toPlain = cache.toPlain.adjusted action needMemory := by
  obtain ⟨target, reached⟩ : ∃ target,
      PlainCache.targetFrames cache.maxFrames action needMemory = .ok target := by
    cases follows : PlainCache.targetFrames cache.maxFrames action needMemory with
    | ok target => exact ⟨target, rfl⟩
    | error fault =>
      obtain ⟨grows, spacious, tooLarge, -⟩ := PlainCache.targetFrames_eq_error_iff.mp follows
      exact absurd ⟨grows, spacious, by omega⟩ possible
  have followed := PlainCache.adjustSize_eq_adjusted consistent.within consistent.distinct loose
    recommended reached
  rw [← consistent.adjustSize_eq needMemory] at followed
  exact followed

/-- Without the resize policy, adjusting the size changes nothing. Otherwise it uses up the look-ups
counted and does what the table has for the recommendation, if there is one and it can be followed:
there is none if the weighted near misses leave the range of a 64-bit count, and the one to grow
cannot be followed if the new capacity does. Then the look-ups counted are all that changes. -/
theorem adjusts_as_recommended {maxFrames maxHistory : Nat} {fixed : Bool} {start : Cache κ ν}
    (created : create maxFrames maxHistory fixed = .ok start) {ops : List (Op κ ν)}
    (few : ops.length < 2 ^ 63) (needMemory : Bool) :
    let cache := start.run ops
    let step := cache.adjustSize needMemory
    (cache.fixed → step = .done none cache) ∧
      (¬ cache.fixed →
        step.state.window = ∅ ∧
          (∀ action, cache.window.recommend? = .ok action →
            let refused :=
              action = .grow ∧ needMemory = false ∧ Count.limit ≤ cache.maxFrames + 2
            (¬ refused →
                step.result = .ok (some action) ∧
                  step.state.toPlain = cache.toPlain.adjusted action needMemory) ∧
              (refused →
                step.result = .error .sumTooLarge ∧ step.state = { cache with window := ∅ })) ∧
          ∀ fault, cache.window.recommend? = .error fault →
            fault = .productTooLarge ∧
              Count.limit ≤ cache.window.nearMisses * nearMissGrowRatio ∧
              step.result = .error fault ∧ step.state = { cache with window := ∅ }) := by
  obtain ⟨-, rfl⟩ := create_eq_ok_iff.mp created
  intro cache step
  have newCache := consistent_empty (κ := κ) (ν := ν) maxFrames maxHistory fixed
  have consistent : cache.Consistent := newCache.run ops
  refine ⟨fun policyOff => if_pos policyOff, fun policyOn => ?_⟩
  have loose : cache.fixed = false := by simpa using policyOn
  refine ⟨?_, fun action recommended => ⟨fun possible => ?_, ?_⟩, fun fault unjudged => ?_⟩
  · have usedUp : step.state.window = _ := consistent.window_perform (.adjustSize needMemory)
    rw [usedUp, Op.resetsWindow]
    simp [loose]
  · exact consistent.adjustSize_eq_adjusted loose recommended possible
  · rintro ⟨rfl, rfl, tooLarge⟩
    exact RefusesGrowth.adjustSize ⟨rfl, loose, recommended, by omega⟩
  · have counted : cache.window.total < Count.limit := by
      have total : cache.window.total ≤ 0 + ops.length := newCache.total_window_run ops
      have : 2 ^ 63 < Count.limit := by decide
      omega
    obtain ⟨rfl, tooMany⟩ := Tally.weighted_of_unjudged counted unjudged
    have stops : step = _ := adjustSize_of_unjudged policyOn unjudged needMemory
    rw [stops]
    exact ⟨rfl, tooMany, rfl, rfl⟩

/-- After far misses only, a cache that needs memory gives up two of its three frames, and one of
the two ghosts that are left of them. -/
theorem adjusts_as_recommended_of_far_misses :
    let start : Cache Nat String := .empty 3 1 false
    let ops : List (Op Nat String) :=
      [.insert 1 "a", .insert 2 "b", .insert 3 "c"] ++ List.replicate 30 (.lookup 9)
    let step := (start.run ops).adjustSize true
    create 3 1 false = .ok start ∧ ops.length < 2 ^ 63 ∧
      step.result = .ok (some .shrink) ∧
      step.state.toPlain =
        { entries := [⟨3, some "c"⟩, ⟨2, none⟩]
          maxFrames := 1
          maxHistory := 1
          fixed := false
          metrics :=
            { lookups := { farMisses := 30 }
              inserts := 3
              demotions := 2
              ghostEvictions := 1
              shrinks := 1 } } := by
  intro start ops step
  have created : create 3 1 false = .ok start := create_eq_ok_iff.mpr ⟨by decide, rfl⟩
  have few : ops.length < 2 ^ 63 := by decide
  have plain : (start.run ops).toPlain = (PlainCache.empty 3 1 false).run ops :=
    (consistent_empty 3 1 false).toPlain_run ops
  have loose : (start.run ops).fixed = false := (consistent_empty 3 1 false).fixed_run ops
  have recommended : (start.run ops).window.recommend? = .ok .shrink := by
    have counted : ((PlainCache.empty 3 1 false).run ops).window = { farMisses := 30 } := by
      decide +kernel
    rw [← toPlain_window, plain, counted]
    rfl
  obtain ⟨-, follows, -⟩ := (adjusts_as_recommended created few true).2 (by simp [loose])
  obtain ⟨answered, becomes⟩ := (follows .shrink recommended).1 (by simp)
  have smaller : ((PlainCache.empty 3 1 false).run ops).adjusted .shrink true =
      { entries := [⟨3, some "c"⟩, ⟨2, none⟩]
        maxFrames := 1
        maxHistory := 1
        fixed := false
        metrics :=
          { lookups := { farMisses := 30 }
            inserts := 3
            demotions := 2
            ghostEvictions := 1
            shrinks := 1 } } := by
    decide +kernel
  rw [plain, smaller] at becomes
  exact ⟨created, few, answered, becomes⟩

end Cache

end FrameKeep
