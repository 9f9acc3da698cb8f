import FrameKeep.Cache.Tally
import FrameKeep.FrameIndex

/-!
# Notices

Operations report noteworthy decisions as notices. A notice is a value: its level, message and
fields are read off it, and whoever runs an operation decides what to do with them.
-/

namespace FrameKeep

/-- Something worth telling an observer. -/
inductive Notice where
  /-- The policy was asked about these look-ups, under this live capacity. -/
  | recommended (action : Action) (tally : Tally) (maxFrames : Nat)
  /-- A resize changed the live capacity. -/
  | resized (before after : Nat) (needMemory : Bool)
  /-- A request for `frame` was widened to all frames from `first` on. -/
  | batched (frame first : FrameIndex)
  /-- A frame that was fetched ahead could not be had. -/
  | prefetchFailed (frame : FrameIndex) (reason : String)
  /-- A cache node was set up. -/
  | nodeCreated (name : String) (maxFrames maxHistory : Nat) (fixed linearize : Bool)
  deriving DecidableEq, Repr

namespace Notice

/-- The value of a field of a notice. -/
inductive Value where
  | count (n : Nat)
  | flag (b : Bool)
  | text (s : String)
  deriving DecidableEq, Repr

/-- How detailed a notice is. -/
def level : Notice → String
  | batched .. => "TRACE"
  | recommended .. | resized .. | prefetchFailed .. => "DEBUG"
  | nodeCreated .. => "INFO"

/-- What a notice is about. -/
def message : Notice → String
  | recommended .. => "cache resize recommendation"
  | resized .. => "cache resized"
  | batched .. => "linearizing request into batch"
  | prefetchFailed .. => "prefetched frame not cached"
  | nodeCreated .. => "created cache node"

/-- A text between quotation marks, with a backslash before each quotation mark and backslash. -/
def quote (text : String) : String :=
  "\"" ++ String.ofList (text.toList.flatMap fun c =>
    if c = '"' ∨ c = '\\' then ['\\', c] else [c]) ++ "\""

/-- The particulars of a notice. -/
def fields : Notice → List (String × Value)
  | recommended action tally maxFrames =>
    [("action", .text action.name), ("total", .count tally.total),
      ("far_misses", .count tally.farMisses), ("near_misses", .count tally.nearMisses),
      ("hits", .count tally.hits), ("max_frames", .count maxFrames)]
  | resized before after needMemory =>
    [("from", .count before), ("to", .count after), ("need_memory", .flag needMemory)]
  | batched frame first => [("frame", .count frame.toNat), ("from", .count first.toNat)]
  | prefetchFailed frame reason => [("frame", .count frame.toNat), ("error", .text (quote reason))]
  | nodeCreated name maxFrames maxHistory fixed linearize =>
    [("name", .text name), ("max_frames", .count maxFrames), ("max_history", .count maxHistory),
      ("fixed", .flag fixed), ("linearize", .flag linearize)]

end Notice

end FrameKeep
