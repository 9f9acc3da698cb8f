import FrameKeep.FrameIndex
import FrameKeep.Scheduler.Config

/-!
# Plans

A frame that is not in the cache is asked for alone, or as the last of a batch that starts right
behind the previous request. Frames are counted by integers here, so that the place before frame 0
is `-1`.
-/

namespace FrameKeep

/-- What was asked for on behalf of a frame and has still to be fetched. -/
structure Pending where
  /-- The frame that is wanted. -/
  frame : FrameIndex
  /-- The first frame asked for; `frame` itself if no other is. -/
  first : FrameIndex
  deriving DecidableEq, Repr

namespace Pending

/-- Whether other frames are asked for ahead of the one that is wanted. -/
def isBatch (pending : Pending) : Bool := pending.first < pending.frame

/-- The frames asked for ahead of the one that is wanted. -/
def prefetch (pending : Pending) : List FrameIndex :=
  FrameIndex.range pending.first pending.frame

/-- The first of all frames asked for. -/
def firstRequested (pending : Pending) : FrameIndex :=
  if pending.isBatch then pending.first else pending.frame

/-- All frames asked for. -/
def requested (pending : Pending) : List FrameIndex :=
  FrameIndex.rangeInclusive pending.firstRequested pending.frame

/-- The index right before a batch, which is `-1` before frame 0. -/
def batchMarker? (pending : Pending) : Option Int :=
  if pending.isBatch then some (pending.first.toNat - 1) else none

/-- A pending request in words. -/
def describe (pending : Pending) : String :=
  s!"PendingFrame \x7b frame: {pending.frame}, prefetch: {pending.first}..{pending.frame} \x7d"

end Pending

/-- Whether a request for `target` is catching up with the previous request: it skips at least one
frame, and lands before the end of the window. -/
def Config.catchesUp (config : Config) (previous target : Int) : Bool :=
  config.linearize ∧ previous < target ∧ target < previous + config.lookahead ∧
    target ≠ previous + 1

/-- What to ask for on behalf of `frame`, given the previous request. -/
def Config.plan (config : Config) (last : Option FrameIndex) (frame : FrameIndex) : Pending :=
  let previous : Int := last.elim (-1) fun index => index.toNat
  let first :=
    if config.catchesUp previous frame.toNat then (FrameIndex.ofInt? (previous + 1)).getD frame
    else frame
  { frame, first }

/-- What the first phase of a request comes to. -/
inductive Activation (φ : Type) where
  /-- The frame was in the cache. -/
  | ready (frame : φ)
  /-- The frame has been asked for. -/
  | pending (request : Pending)

namespace Activation

variable {φ : Type}

/-- Whether nothing has to be fetched. -/
def isReady : Activation φ → Bool
  | ready _ => true
  | pending _ => false

/-- What has still to be fetched. -/
def pending? : Activation φ → Option Pending
  | ready _ => none
  | pending request => some request

/-- An activation in words, without the frame. -/
def describe : Activation φ → String
  | ready _ => "Ready"
  | pending request => s!"Pending({request.describe})"

end Activation

end FrameKeep
