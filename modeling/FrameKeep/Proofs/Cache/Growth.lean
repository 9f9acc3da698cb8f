import FrameKeep.Proofs.Cache.Accounting
import FrameKeep.Proofs.Cache.Policy

/-!
# The price of growth

A cache grows by two frames at the end of a window of at least thirty look-ups, of which at least
two were near misses, and the look-ups of a window are not counted again. So near misses and
look-ups that are still in the window are credit for the next growth, and the others have paid for
the past ones (`Pays`). Whatever else is done can only waste credit or give frames back.
-/

namespace FrameKeep

variable {κ ν : Type}

namespace Cache.Op

/-- Whether the operation looks a key up. -/
def isLookup : Op κ ν → Bool
  | .lookup _ | .get _ => true
  | _ => false

/-- Whether the operation may make the cache grow. -/
def mayGrow : Op κ ν → Bool
  | .adjustSize false => true
  | _ => false

/-- Whether the operation sets the live capacity or starts the lifetime counters afresh. -/
def breaksAccounts : Op κ ν → Bool
  | .setMaxFrames _ | .resetMetrics => true
  | _ => false

end Cache.Op

namespace PlainCache

variable {cache after : PlainCache κ ν} {capacity growths lookups : Nat}

/-! ### One resize -/

/-- The live capacity rises only by following a growth without pressure, and then by one step. -/
theorem targetFrames_le {maxFrames target : Nat} {action : Action} {needMemory : Bool}
    (reached : targetFrames maxFrames action needMemory = .ok target) :
    target ≤ maxFrames ∨
      action = .grow ∧ needMemory = false ∧ target = maxFrames + Cache.growStep := by
  cases action with
  | grow =>
    cases needMemory with
    | false => exact .inr ⟨rfl, rfl, (Count.add?_eq_ok_iff.mp reached).2.symm⟩
    | true =>
      cases reached
      exact .inl (Nat.le_refl _)
  | clear | shrink | noChange =>
    left
    cases needMemory <;> cases reached <;> grind

/-- A resize leads to no more frames, unless the window recommends growth and memory is not
needed. -/
theorem maxFrames_adjustSize (cache : PlainCache κ ν) (needMemory : Bool) :
    (cache.adjustSize needMemory).state.maxFrames ≤ cache.maxFrames ∨
      needMemory = false ∧ cache.fixed = false ∧ cache.window.Recommends .grow ∧
        (cache.adjustSize needMemory).state.maxFrames = cache.maxFrames + Cache.growStep := by
  rcases cache.adjustSize_cases needMemory with
    ⟨-, window, unchanged⟩ | ⟨emptied, target, counted, resize, resized⟩
  · rw [unchanged]
    exact .inl (Nat.le_refl _)
  · have reached : (cache.adjustSize needMemory).state.maxFrames = target := by
      rw [resized]
      rfl
    rw [reached]
    unfold resize? at resize
    by_cases fixed : cache.fixed
    · simp [fixed] at resize
    · rw [if_neg fixed] at resize
      cases recommended : cache.window.recommend? with
      | error fault => simp [recommended] at resize
      | ok action =>
        cases follows : targetFrames cache.maxFrames action needMemory with
        | error fault => simp [recommended, follows] at resize
        | ok frames =>
          obtain ⟨-, rfl⟩ : _ ∧ frames = target := by simpa [recommended, follows] using resize
          refine (targetFrames_le follows).imp_right ?_
          rintro ⟨rfl, quiet, more⟩
          exact ⟨quiet, by simpa using fixed, (Tally.recommend?_eq_ok_iff.mp recommended).2.2, more⟩

/-! ### Accounts -/

/-- The frames beyond `capacity` are paid for, twice over: with near misses and with look-ups. What
is in the window has paid for nothing yet. -/
structure Pays (cache : PlainCache κ ν) (capacity growths lookups : Nat) : Prop where
  growths_le : cache.maxFrames ≤ capacity + Cache.growStep * growths
  nearMisses_le : cache.maxFrames + cache.window.nearMisses ≤
    capacity + cache.metrics.lookups.nearMisses
  lookups_le : 15 * cache.maxFrames + cache.window.total ≤ 15 * capacity + lookups

/-- A cache without entries has no frames to pay for. -/
theorem pays_empty (maxFrames maxHistory : Nat) (fixed : Bool) :
    (empty maxFrames maxHistory fixed : PlainCache κ ν).Pays maxFrames 0 0 :=
  ⟨Nat.le_refl _, Nat.le_refl _, Nat.le_refl _⟩

namespace Pays

/-- Frames may be given back, and the window may be lost. -/
theorem of_le (pays : cache.Pays capacity growths lookups)
    (frames : after.maxFrames ≤ cache.maxFrames)
    (window : after.window = cache.window ∨ after.window = ∅)
    (counted : after.metrics.lookups = cache.metrics.lookups) :
    after.Pays capacity growths lookups := by
  have ⟨growths_le, nearMisses_le, lookups_le⟩ := pays
  have less : after.window.nearMisses ≤ cache.window.nearMisses ∧
      after.window.total ≤ cache.window.total := by
    rcases window with same | lost
    · rw [same]
      exact ⟨Nat.le_refl _, Nat.le_refl _⟩
    · rw [lost]
      exact ⟨Nat.zero_le _, Nat.zero_le _⟩
  exact ⟨by omega, by rw [counted]; omega, by omega⟩

/-- A window that recommends growth has credit for two frames, and is closed by the growth. -/
theorem grow (pays : cache.Pays capacity growths lookups)
    (recommended : cache.window.Recommends .grow)
    (frames : after.maxFrames = cache.maxFrames + Cache.growStep) (window : after.window = ∅)
    (counted : after.metrics.lookups = cache.metrics.lookups) :
    after.Pays capacity (growths + 1) lookups := by
  have ⟨growths_le, nearMisses_le, lookups_le⟩ := pays
  obtain ⟨enough, missed⟩ := recommended
  simp only [minSampleSize, nearMissGrowRatio] at enough missed
  simp only [Cache.growStep] at frames growths_le
  constructor
  · rw [frames, Cache.growStep]
    omega
  · rw [counted, window, Tally.nearMisses_empty]
    omega
  · rw [window, Tally.total_empty]
    omega

/-- Adjusting the size keeps the accounts, and may grow unless memory is needed. -/
theorem adjustSize (pays : cache.Pays capacity growths lookups) (needMemory : Bool) :
    (cache.adjustSize needMemory).state.Pays capacity
      (growths + if needMemory then 0 else 1) lookups := by
  obtain ⟨-, counted, window⟩ := cache.adjustSize_keeps_lookups needMemory
  rcases cache.maxFrames_adjustSize needMemory with fewer | ⟨rfl, loose, recommended, more⟩
  · have kept := pays.of_le fewer (by rw [window]; split <;> simp) counted
    exact { kept with
      growths_le := Nat.le_trans kept.growths_le
        (Nat.add_le_add_left (Nat.mul_le_mul_left _ (Nat.le_add_right ..)) _) }
  · exact pays.grow recommended more (by rw [window, loose]; rfl) counted

variable [DecidableEq κ]

/-- A look-up earns credit. -/
theorem lookup (pays : cache.Pays capacity growths lookups) (key : κ) :
    (cache.lookup key).2.Pays capacity growths (lookups + 1) := by
  have ⟨growths_le, nearMisses_le, lookups_le⟩ := pays
  obtain ⟨found, window, metrics, frames⟩ : ∃ found : Lookup ν,
      (cache.lookup key).2.window = cache.window.record found ∧
        (cache.lookup key).2.metrics.lookups = cache.metrics.lookups.record found ∧
        (cache.lookup key).2.maxFrames = cache.maxFrames := ⟨_, rfl, rfl, rfl⟩
  refine ⟨frames ▸ growths_le, ?_, ?_⟩
  · rw [window, metrics, frames, Tally.nearMisses_record, Tally.nearMisses_record]
    omega
  · rw [window, frames, Tally.total_record]
    omega

/-- Whatever is done, the accounts are kept. -/
theorem perform (pays : cache.Pays capacity growths lookups) {op : Cache.Op κ ν}
    (keeps : ¬ op.breaksAccounts) :
    (cache.perform op).state.Pays capacity (growths + if op.mayGrow then 1 else 0)
      (lookups + if op.isLookup then 1 else 0) := by
  cases op with
  | lookup key => exact pays.lookup key
  | get key => exact pays.lookup key
  | peek | contains | isLive => exact pays
  | insert | remove | trim | setMaxHistory => exact pays.of_le (Nat.le_refl _) (.inl rfl) rfl
  | clear => exact pays.of_le (Nat.le_refl _) (.inr rfl) rfl
  | recommendSize =>
    change cache.recommendSize.state.Pays _ _ _
    rw [recommendSize_state]
    exact pays.of_le (Nat.le_refl _) (.inr rfl) rfl
  | adjustSize needMemory =>
    have adjusted := pays.adjustSize needMemory
    cases needMemory <;> exact adjusted
  | setMaxFrames | resetMetrics => exact absurd rfl keeps

/-- A run keeps the accounts if none of its operations breaks them. -/
theorem run (pays : cache.Pays capacity growths lookups) {ops : List (Cache.Op κ ν)}
    (keeps : ∀ op ∈ ops, ¬ op.breaksAccounts) :
    (cache.run ops).Pays capacity (growths + ops.countP (·.mayGrow))
      (lookups + ops.countP (·.isLookup)) := by
  induction ops generalizing cache growths lookups with
  | nil => exact pays
  | cons op rest ih =>
    have next := ih (pays.perform (keeps op List.mem_cons_self))
      fun later member => keeps later (List.mem_cons_of_mem _ member)
    rw [List.countP_cons, List.countP_cons, Nat.add_comm (rest.countP _),
      Nat.add_comm (rest.countP _), ← Nat.add_assoc, ← Nat.add_assoc]
    exact next

end Pays

/-- Nothing but a resize without need of memory lets a cache grow. -/
theorem maxFrames_perform_le [DecidableEq κ] (cache : PlainCache κ ν) {op : Cache.Op κ ν}
    (keeps : ¬ op.breaksAccounts) (pressed : ¬ op.mayGrow) :
    (cache.perform op).state.maxFrames ≤ cache.maxFrames := by
  cases op with
  | recommendSize =>
    change cache.recommendSize.state.maxFrames ≤ _
    rw [recommendSize_state]
  | adjustSize needMemory =>
    rcases cache.maxFrames_adjustSize needMemory with fewer | ⟨rfl, -⟩
    · exact fewer
    · exact absurd rfl pressed
  | setMaxFrames | resetMetrics => exact absurd rfl keeps
  | _ => exact Nat.le_refl _

end PlainCache

namespace Cache

variable [DecidableEq κ] [Hashable κ]

/-- What was added to the live capacity by the operations `ops` on `start` was paid for. -/
structure PaidGrowth (start : Cache κ ν) (ops : List (Op κ ν)) : Prop where
  /-- With two frames for each resize without need of memory. -/
  resizes_le : (start.run ops).maxFrames ≤ start.maxFrames + 2 * ops.countP (·.mayGrow)
  /-- With one frame for each near miss. -/
  nearMisses_le : (start.run ops).maxFrames ≤
    start.maxFrames + (start.run ops).metrics.lookups.nearMisses
  /-- With one frame for fifteen look-ups. -/
  lookups_le : 15 * ((start.run ops).maxFrames - start.maxFrames) ≤ ops.countP (·.isLookup)
  /-- If memory is always needed, no frame is ever added. -/
  pressed : (∀ op ∈ ops, ¬ op.mayGrow) → ∀ earlier later, ops = earlier ++ later →
    (start.run ops).maxFrames ≤ (start.run earlier).maxFrames

/-- Under pressure throughout, the live capacity never rises. -/
theorem Consistent.maxFrames_run_le {cache : Cache κ ν} (consistent : cache.Consistent)
    {ops : List (Op κ ν)} (keeps : ∀ op ∈ ops, ¬ op.breaksAccounts)
    (pressed : ∀ op ∈ ops, ¬ op.mayGrow) : (cache.run ops).maxFrames ≤ cache.maxFrames := by
  refine consistent.run_induction (·.maxFrames ≤ cache.maxFrames) (Nat.le_refl _) ?_
    fun op member => And.intro (keeps op member) (pressed op member)
  rintro state op consistent ⟨keeps, pressed⟩ le
  rw [← toPlain_maxFrames, consistent.toPlain_perform]
  exact Nat.le_trans (state.toPlain.maxFrames_perform_le keeps pressed) le

/-- A new cache pays for all its growth, until its live capacity is set or its counters are started
afresh. -/
theorem paidGrowth_of_create {maxFrames maxHistory : Nat} {fixed : Bool} {start : Cache κ ν}
    (created : create maxFrames maxHistory fixed = .ok start) {ops : List (Op κ ν)}
    (keeps : ∀ op ∈ ops, ¬ op.breaksAccounts) : start.PaidGrowth ops := by
  obtain ⟨-, rfl⟩ := create_eq_ok_iff.mp created
  have newCache := consistent_empty (κ := κ) (ν := ν) maxFrames maxHistory fixed
  have pays := (PlainCache.pays_empty (κ := κ) (ν := ν) maxFrames maxHistory fixed).run keeps
  have plain : ((empty maxFrames maxHistory fixed : Cache κ ν).run ops).toPlain =
      (PlainCache.empty maxFrames maxHistory fixed).run ops := newCache.toPlain_run ops
  rw [← plain] at pays
  have ⟨growths_le, nearMisses_le, lookups_le⟩ := pays
  rw [toPlain_maxFrames] at growths_le nearMisses_le lookups_le
  rw [toPlain_metrics] at nearMisses_le
  have start : (empty maxFrames maxHistory fixed : Cache κ ν).maxFrames = maxFrames := rfl
  refine ⟨?_, ?_, ?_, fun pressed earlier later split => ?_⟩
  · rw [start]
    rwa [Nat.zero_add] at growths_le
  · rw [start]
    omega
  · rw [start]
    omega
  · subst split
    rw [run_append]
    exact (newCache.run earlier).maxFrames_run_le
      (fun op member => keeps op (List.mem_append_right _ member))
      (fun op member => pressed op (List.mem_append_right _ member))

end Cache

end FrameKeep
