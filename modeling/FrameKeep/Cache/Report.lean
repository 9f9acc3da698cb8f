import FrameKeep.Cache.Basic

/-!
# A cache in words

The text of a cache gives its counts, its capacities and the look-ups counted for the resize
policy. Its entries are left out, since there may be many of them.
-/

namespace FrameKeep.Cache

variable {κ ν : Type} [DecidableEq κ] [Hashable κ]

/-- The counts, capacities and counted look-ups of a cache, without its entries. -/
def describe (cache : Cache κ ν) : String :=
  s!"AdaptiveCache \x7b live_len: {cache.live}, ghost_len: {cache.ghost}, "
    ++ s!"max_frames: {cache.maxFrames}, max_history: {cache.maxHistory}, "
    ++ s!"fixed_size: {cache.fixed}, stats: {cache.window.describe} \x7d"

/-- A cache that is held through a shared handle, in words. -/
def describeShared (cache : Cache κ ν) : String :=
  s!"ConcurrentAdaptiveCache({cache.describe})"

end FrameKeep.Cache
