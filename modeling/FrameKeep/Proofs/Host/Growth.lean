import FrameKeep.Proofs.Cache.Growth
import FrameKeep.Proofs.Host.Trace

/-!
# Growth in a host

However the sessions of nodes, the uses of handles and the rounds of the manager are interleaved, a
cache pays for its growth with what its trace has looked up.
-/

namespace FrameKeep.Host

variable {κ ν σ φ ε : Type} [DecidableEq κ] [Hashable κ] [FrameSource σ φ ε] [ToString ε]

/-- While its live capacity is not set and its counters are not started afresh, a cache grows by no
more than two frames for each resize without need of memory, one frame for each near miss, and one
frame for each fifteen look-ups, and it does not grow at all while memory is needed. In a host,
every cache was new once, and what was done with it since then is its trace. -/
theorem growth_is_paid :
    (∀ {maxFrames maxHistory : Nat} {fixed : Bool} {start : Cache κ ν},
      Cache.create maxFrames maxHistory fixed = .ok start →
        ∀ {ops : List (Cache.Op κ ν)}, (∀ op ∈ ops, ¬ op.breaksAccounts) → start.PaidGrowth ops) ∧
      ∀ {ops : List (Op σ φ)} {id : CacheId} {cache : Cache FrameIndex φ},
        ((∅ : Host σ φ ε).run ops).pool.cache? id = some cache →
          ∃ earlier later maxFrames maxHistory fixed start, ops = earlier ++ later ∧
            Cache.create maxFrames maxHistory fixed = .ok start ∧
            ((∅ : Host σ φ ε).run earlier).pool.cache? id = some start ∧
            let trace := ((∅ : Host σ φ ε).run earlier).trace id later
            cache = start.run trace ∧
              ((∀ op ∈ trace, ¬ op.breaksAccounts) → start.PaidGrowth trace) := by
  refine ⟨fun created _ keeps => Cache.paidGrowth_of_create created keeps,
    fun {ops id cache} held => ?_⟩
  obtain ⟨earlier, later, maxFrames, maxHistory, fixed, start, rfl, created, there⟩ :=
    exists_create held
  rw [run_append] at held
  exact ⟨earlier, later, maxFrames, maxHistory, fixed, start, rfl, created, there,
    (sound_run earlier).run_trace there held, Cache.paidGrowth_of_create created⟩

/-- A ghost that is looked up thirty times pays for two frames. In a host, a cache is used by its
node and by the manager. -/
theorem growth_is_paid_of_promoted_ghost :
    let start : Cache Nat String := .empty 1 2 false
    let uses : List (Cache.Op Nat String) :=
      [.insert 1 "a", .insert 2 "b"] ++ List.replicate 30 (.lookup 1) ++ [.adjustSize false]
    let ops : List (Op LabelSource String) :=
      [.createNode .video {} 2 {}, .onNode 0 (.getFrame 3), .onNode 0 (.initial 4),
        .adjustAll false]
    let host : Host LabelSource String String := (∅ : Host LabelSource String String).run ops
    (start.run uses).maxFrames = 3 ∧ start.PaidGrowth uses ∧
      ∃ (cache new : Cache FrameIndex String) (earlier later : List (Op LabelSource String)),
        host.pool.cache? 0 = some cache ∧ ops = earlier ++ later ∧
          cache = new.run (((∅ : Host LabelSource String String).run earlier).trace 0 later) := by
  intro start uses ops host
  have created : Cache.create 1 2 false = .ok start := Cache.create_eq_ok_iff.mpr ⟨by decide, rfl⟩
  have plain : (start.run uses).toPlain = (PlainCache.empty 1 2 false).run uses :=
    (Cache.consistent_empty 1 2 false).toPlain_run uses
  have grown : ((PlainCache.empty 1 2 false).run uses).maxFrames = 3 := by decide +kernel
  obtain ⟨paid, traced⟩ :=
    growth_is_paid (κ := Nat) (ν := String) (σ := LabelSource) (φ := String) (ε := String)
  refine ⟨?_, paid created (by decide), ?_⟩
  · rw [← Cache.toPlain_maxFrames, plain, grown]
  · have owned : 0 < host.owners 0 := by decide +kernel
    obtain ⟨cell, there⟩ := (sound_run ops).exists_cell owned
    have held := Pool.cache?_of_cell? there
    obtain ⟨earlier, later, -, -, -, new, split, -, -, same, -⟩ := traced held
    exact ⟨cell.cache, new, earlier, later, held, split, same⟩

end FrameKeep.Host
