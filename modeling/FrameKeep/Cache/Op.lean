import FrameKeep.Cache.Resize

/-!
# Cache operations as data

Every operation of a cache and every question to it is a value, so that a whole use of a cache is
a list. A run performs such a list; a fault ends the operation that meets it and not the run.
-/

namespace FrameKeep.Cache

variable {κ ν : Type} [DecidableEq κ] [Hashable κ]

/-- An operation on a cache. -/
inductive Op (κ ν : Type) where
  | lookup (key : κ)
  | get (key : κ)
  | peek (key : κ)
  | contains (key : κ)
  | isLive (key : κ)
  | insert (key : κ) (payload : ν)
  | remove (key : κ)
  | clear
  | trim (maxLive maxGhost : Nat)
  | setMaxFrames (maxFrames : Nat)
  | setMaxHistory (maxHistory : Nat)
  | recommendSize
  | adjustSize (needMemory : Bool)
  | resetMetrics
  deriving DecidableEq, Repr

/-- What an operation on a cache answers. -/
inductive Answer (ν : Type) where
  /-- Nothing to tell. -/
  | done
  /-- How a look-up ended. -/
  | found (outcome : Lookup ν)
  /-- The payload of a key, if it holds one. -/
  | payload (payload? : Option ν)
  /-- Yes or no. -/
  | flag (value : Bool)
  /-- What the resize policy recommended; `none` if it is switched off. -/
  | action (action? : Option Action)
  deriving DecidableEq, Repr

/-- The step of an operation without an answer. -/
def quietly (cache : Cache κ ν) (outcome : Except Fault (Cache κ ν)) :
    Step (Cache κ ν) (Answer ν) :=
  .ofExcept cache (outcome.map (.done, ·))

/-- Performs one operation. -/
def perform (cache : Cache κ ν) : Op κ ν → Step (Cache κ ν) (Answer ν)
  | .lookup key => let (found, cache) := cache.lookup key; .done (.found found) cache
  | .get key => let (payload?, cache) := cache.get key; .done (.payload payload?) cache
  | .peek key => .done (.payload (cache.peek? key)) cache
  | .contains key => .done (.flag (cache.contains key)) cache
  | .isLive key => .done (.flag (cache.isLive key)) cache
  | .insert key payload => cache.quietly (cache.insert key payload)
  | .remove key =>
    .ofExcept cache ((cache.remove key).map fun (found, cache) => (.flag found, cache))
  | .clear => .done .done cache.clear
  | .trim maxLive maxGhost => cache.quietly (cache.trim maxLive maxGhost)
  | .setMaxFrames maxFrames => cache.quietly (cache.setMaxFrames maxFrames)
  | .setMaxHistory maxHistory => cache.quietly (cache.setMaxHistory maxHistory)
  | .recommendSize => cache.recommendSize.map fun action => .action (some action)
  | .adjustSize needMemory => (cache.adjustSize needMemory).map .action
  | .resetMetrics => .done .done cache.resetMetrics

/-- The cache after a list of operations. -/
def run (cache : Cache κ ν) (ops : List (Op κ ν)) : Cache κ ν :=
  ops.foldl (fun cache op => (cache.perform op).state) cache

end FrameKeep.Cache
