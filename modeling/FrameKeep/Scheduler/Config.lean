import FrameKeep.Fault

/-!
# Scheduler settings

Workers ask for frames slightly out of order, and the more of them there are, the further ahead a
request may land that is still only catching up with the others.
-/

namespace FrameKeep

/-- A request this many frames further ahead than there are workers still counts as catching up. -/
def extraFrames : Nat := 7

/-- The settings of a scheduler. -/
structure Config where
  /-- Whether a request a little ahead of the previous one also asks for the frames between. -/
  linearize : Bool
  /-- The number of workers that ask for frames. -/
  workers : UInt32
  workers_ne_zero : workers ≠ 0

namespace Config

/-- Settings, if there is at least one worker. -/
def make? (linearize : Bool) (workers : UInt32) : Except ConfigError Config :=
  if h : workers = 0 then .error .noWorkers else .ok ⟨linearize, workers, h⟩

/-- Settings for a caller who has promised at least one worker. -/
def make (linearize : Bool) (workers : UInt32) : Except Fault Config :=
  (make? linearize workers).mapError .rejected

/-- The width of the window past the previous request in which a request is catching up: the workers
and the extra frames, or the largest 32-bit count if that is less. -/
def lookahead (config : Config) : Nat :=
  min (config.workers.toNat + extraFrames) (UInt32.size - 1)

/-- Settings in words. -/
def describe (config : Config) : String :=
  s!"SchedulerConfig \x7b linearize: {config.linearize}, worker_count: {config.workers} \x7d"

end Config

end FrameKeep
