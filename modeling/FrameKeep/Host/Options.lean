import FrameKeep.Count
import FrameKeep.Scheduler.Config

/-!
# Node options

What a caller may ask of a new cache node, and the capacities that follow from it.
-/

namespace FrameKeep

/-- The live capacity of a node that is told neither a size nor to linearize. -/
def defaultMaxFrames : Nat := 20

/-- The history capacity of a node that is not told another one. -/
def defaultMaxHistory : Nat := 20

/-- The options of a cache node. -/
structure NodeOptions where
  /-- The live capacity; zero asks for the default one. -/
  size : Option Int := none
  /-- Whether the resize policy is switched off. -/
  fixed : Bool := false
  /-- Whether requests that are catching up are batched. -/
  linearize : Bool := false
  /-- The history capacity. -/
  maxHistory : Option Nat := none
  deriving DecidableEq, Repr

namespace NodeOptions

/-- The options of a caller who asks for nothing. -/
def default : NodeOptions := {}

instance : Inhabited NodeOptions := ⟨default⟩

/-- Refuses a negative size. -/
def validate (options : NodeOptions) : Except ConfigError Unit :=
  match options.size with
  | none => .ok ()
  | some size => if size < 0 then .error (.negativeSize size) else .ok ()

/-- The default live capacity of a node that linearizes: twice the catch-up window, or the usual
capacity and one more frame for each worker if that is more. Either holds a whole batch. -/
def linearizedMaxFrames (workers : UInt32) : Nat :=
  max (Count.mulSaturating (Count.addSaturating workers.toNat extraFrames) 2)
    (Count.addSaturating defaultMaxFrames workers.toNat)

/-- The live capacity of a node with a given number of workers. -/
def maxFramesFor (options : NodeOptions) (workers : UInt32) : Nat :=
  match options.size.filter (0 < ·) with
  | some size => size.toNat
  | none => if options.linearize then linearizedMaxFrames workers else defaultMaxFrames

/-- The history capacity of a node. -/
def maxHistoryOrDefault (options : NodeOptions) : Nat :=
  options.maxHistory.getD defaultMaxHistory

end NodeOptions

end FrameKeep
