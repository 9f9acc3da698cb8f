import FrameKeep.Cache.Capacity
import FrameKeep.Step

/-!
# Resizing

Asking the resize policy uses up the look-ups counted so far. Following its recommendation changes
the live capacity; while memory is needed the cache never grows, shrinks faster, and gives up a
frame even where no change is recommended.
-/

namespace FrameKeep.Cache

variable {κ ν : Type} [DecidableEq κ] [Hashable κ]

/-- The frames that a cache gains when it grows. -/
def growStep : Nat := 2

/-- Asks the resize policy. The look-ups counted so far are used up even if their counts are too
large to be judged. -/
def recommendSize (cache : Cache κ ν) : Step (Cache κ ν) Action :=
  let state := { cache with window := ∅ }
  match cache.window.recommend? with
  | .error fault => { result := .error fault, state }
  | .ok action =>
    { result := .ok action
      state
      notices := [.recommended action cache.window cache.maxFrames] }

/-- Follows a recommendation. A cache that is down to one frame is emptied rather than shrunk
while memory is needed, and a cache without frames stays without. -/
def follow (cache : Cache κ ν) : Action → (needMemory : Bool) → Except Fault (Cache κ ν)
  | .clear, _ => cache.clear.setMaxFrames (cache.maxFrames - 2)
  | .grow, false => do
    let maxFrames ← Count.add? cache.maxFrames growStep
    cache.setMaxFrames maxFrames
  | .grow, true => .ok cache
  | .shrink, false => cache.setMaxFrames (cache.maxFrames - 1)
  | .shrink, true => cache.setMaxFrames (cache.maxFrames - 2)
  | .noChange, false => .ok cache
  | .noChange, true =>
    let emptied := if cache.maxFrames ≤ 1 then cache.clear else cache
    emptied.setMaxFrames (min (max (cache.maxFrames - 1) 1) cache.maxFrames)

/-- Asks the resize policy and follows it, unless it is switched off. If the recommendation cannot
be followed, nothing but the counted look-ups is changed. -/
def adjustSize (cache : Cache κ ν) (needMemory : Bool) : Step (Cache κ ν) (Option Action) :=
  if cache.fixed then
    .done none cache
  else
    cache.recommendSize.andThen fun action asked =>
      match asked.follow action needMemory with
      | .error fault => { result := .error fault, state := asked }
      | .ok resized =>
        { result := .ok (some action)
          state := { resized with metrics := resized.metrics.recordResize action needMemory }
          notices :=
            if resized.maxFrames = cache.maxFrames then []
            else [.resized cache.maxFrames resized.maxFrames needMemory] }

end FrameKeep.Cache
