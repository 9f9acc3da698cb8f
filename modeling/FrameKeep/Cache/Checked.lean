import FrameKeep.Cache.Op

/-!
# A cache on checked counts

The counters of a cache are natural numbers, and trimming ends without a word when it finds nothing
more to take. Here every counter has to stay a 64-bit count each time it is raised or lowered, and
trimming has to go on until its bounds are kept. What can be carried out in this way meets neither
an overflow nor an underflow, and leaves no loop before its end.
-/

namespace FrameKeep

/-- What may go wrong while an operation is carried out. -/
inductive Hazard where
  /-- A count left its range, or a slot was out of bounds. -/
  | fault (fault : Fault)
  /-- Nothing more could be taken although a bound was still exceeded. -/
  | cutShort
  deriving DecidableEq, Repr

/-- An outcome whose faults are hazards. -/
def Hazard.guard {α : Type} (outcome : Except Fault α) : Except Hazard α := outcome.mapError .fault

namespace Checked

variable {α κ ν : Type} [DecidableEq κ] [Hashable κ]

/-! ### Look-ups -/

/-- Counts one more look-up. -/
def record (tally : Tally) : Lookup ν → Except Fault Tally
  | .hit _ => do
    let hits ← Count.succ? tally.hits
    .ok { tally with hits }
  | .nearMiss => do
    let nearMisses ← Count.succ? tally.nearMisses
    .ok { tally with nearMisses }
  | .farMiss => do
    let farMisses ← Count.succ? tally.farMisses
    .ok { tally with farMisses }

/-- Counts one more look-up, over the lifetime and for the resize policy. -/
def recordLookup (cache : Cache κ ν) (found : Lookup ν) : Except Fault (Cache κ ν) := do
  let window ← record cache.window found
  let lookups ← record cache.metrics.lookups found
  .ok { cache with window, metrics := { cache.metrics with lookups } }

/-- Looks a key up. -/
def lookup (cache : Cache κ ν) (key : κ) : Except Fault (Lookup ν × Cache κ ν) :=
  match cache.index[key]? with
  | none => do
    let cache ← recordLookup cache (.farMiss : Lookup ν)
    .ok (.farMiss, cache)
  | some slot => do
    let found := Lookup.ofRemembered (cache.payloadAt? slot)
    let cache ← recordLookup (cache.promote slot) found
    .ok (found, cache)

/-! ### Trimming -/

/-- Takes an entry into the ghost tail. -/
def absorb (cache : Cache κ ν) (slot : Slot) : Except Fault (Cache κ ν) :=
  match cache.payloadAt? slot with
  | none => .ok { cache with boundary := some slot }
  | some _ => do
    let live ← Count.pred? cache.live
    let ghost ← Count.succ? cache.ghost
    let demotions ← Count.succ? cache.metrics.demotions
    .ok { cache with
      boundary := some slot
      list := cache.list.modify slot fun entry => { entry with payload := none }
      live
      ghost
      metrics := { cache.metrics with demotions } }

/-- Extends the ghost tail, by at most `steps` entries, until at most `bound` live entries are
left. -/
def demote (bound : Nat) : (steps : Nat) → Cache κ ν → Except Hazard (Cache κ ν)
  | 0, cache => if cache.live ≤ bound then .ok cache else .error .cutShort
  | steps + 1, cache =>
    if cache.live ≤ bound then .ok cache
    else
      match cache.beforeGhostTail? with
      | none => .error .cutShort
      | some slot => do
        let cache ← Hazard.guard (absorb cache slot)
        demote bound steps cache

/-- Forgets the least recently used ghosts, at most `steps` of them, until at most `bound` are
left. -/
def evict (bound : Nat) : (steps : Nat) → Cache κ ν → Except Hazard (Cache κ ν)
  | 0, cache => if cache.ghost ≤ bound then .ok cache else .error .cutShort
  | steps + 1, cache =>
    if cache.ghost ≤ bound then .ok cache
    else
      match cache.list.findBack? Entry.isGhost with
      | none => .error .cutShort
      | some slot => do
        let cache ← Hazard.guard (cache.unlink slot)
        let ghostEvictions ← Hazard.guard (Count.succ? cache.metrics.ghostEvictions)
        evict bound steps { cache with metrics := { cache.metrics with ghostEvictions } }

/-- Brings the cache within the bounds given, and within its own capacities where those are
tighter. -/
def trim (cache : Cache κ ν) (maxLive maxGhost : Nat) : Except Hazard (Cache κ ν) := do
  let demoted ← demote (min maxLive cache.maxFrames) cache.size cache
  evict (min maxGhost cache.maxHistory) demoted.ghost demoted

/-- Brings the cache within its own capacities. -/
def trimToCapacity (cache : Cache κ ν) : Except Hazard (Cache κ ν) :=
  trim cache cache.maxFrames cache.maxHistory

/-- Sets the number of live entries to keep. -/
def setMaxFrames (cache : Cache κ ν) (maxFrames : Nat) : Except Hazard (Cache κ ν) :=
  trimToCapacity { cache with maxFrames }

/-- Sets the number of ghosts to keep. -/
def setMaxHistory (cache : Cache κ ν) (maxHistory : Nat) : Except Hazard (Cache κ ν) :=
  trimToCapacity { cache with maxHistory }

/-! ### Insertion -/

/-- Puts a value into a slot of an arena. -/
def fill (arena : Arena α) (value : α) : Except Fault (Slot × Arena α) := do
  let count ← Count.succ? arena.count
  let (slot, arena) ← arena.insert value
  .ok (slot, { arena with count })

/-- Puts a new element at the front. -/
def pushFront (list : SlotList α) (value : α) : Except Fault (Slot × SlotList α) := do
  let (slot, nodes) ← fill list.nodes { value, prev := none, next := none }
  .ok (slot, { list with nodes }.attachFront slot)

/-- Stores a payload as the most recently used one. -/
def insert (cache : Cache κ ν) (key : κ) (payload : ν) : Except Hazard (Cache κ ν) := do
  let (_, cache) ← Hazard.guard (cache.remove key)
  let (slot, list) ← Hazard.guard (pushFront cache.list { key, payload := some payload })
  let live ← Hazard.guard (Count.succ? cache.live)
  let inserts ← Hazard.guard (Count.succ? cache.metrics.inserts)
  trimToCapacity { cache with
    list
    index := cache.index.insert key slot
    live
    metrics := { cache.metrics with inserts } }

/-- Looks a key up, and stores a payload under it unless that is a hit. -/
def access (cache : Cache κ ν) (key : κ) (payload : ν) :
    Except Hazard (Lookup ν × Cache κ ν) := do
  let (found, cache) ← Hazard.guard (lookup cache key)
  if found.isHit then .ok (found, cache)
  else
    let cache ← insert cache key payload
    .ok (found, cache)

/-! ### Resizing -/

/-- Counts one more resize. -/
def recordResize (metrics : Metrics) : Action → (needMemory : Bool) → Except Fault Metrics
  | .clear, _ => do
    let clears ← Count.succ? metrics.clears
    .ok { metrics with clears }
  | .grow, false => do
    let grows ← Count.succ? metrics.grows
    .ok { metrics with grows }
  | .grow, true => .ok metrics
  | .shrink, _ => do
    let shrinks ← Count.succ? metrics.shrinks
    .ok { metrics with shrinks }
  | .noChange, _ => .ok metrics

/-- Asks the resize policy, which uses up the look-ups counted so far. -/
def recommendSize (cache : Cache κ ν) : Except Fault (Action × Cache κ ν) := do
  let action ← cache.window.recommend?
  .ok (action, { cache with window := ∅ })

/-- Follows a recommendation. -/
def follow (cache : Cache κ ν) : Action → (needMemory : Bool) → Except Hazard (Cache κ ν)
  | .clear, _ => setMaxFrames cache.clear (cache.maxFrames - 2)
  | .grow, false => do
    let maxFrames ← Hazard.guard (Count.add? cache.maxFrames Cache.growStep)
    setMaxFrames cache maxFrames
  | .grow, true => .ok cache
  | .shrink, false => setMaxFrames cache (cache.maxFrames - 1)
  | .shrink, true => setMaxFrames cache (cache.maxFrames - 2)
  | .noChange, false => .ok cache
  | .noChange, true =>
    let emptied := if cache.maxFrames ≤ 1 then cache.clear else cache
    setMaxFrames emptied (min (max (cache.maxFrames - 1) 1) cache.maxFrames)

/-- Asks the resize policy and follows it, unless it is switched off. -/
def adjustSize (cache : Cache κ ν) (needMemory : Bool) :
    Except Hazard (Option Action × Cache κ ν) :=
  if cache.fixed then .ok (none, cache)
  else do
    let (action, cache) ← Hazard.guard (recommendSize cache)
    let cache ← follow cache action needMemory
    let metrics ← Hazard.guard (recordResize cache.metrics action needMemory)
    .ok (some action, { cache with metrics })

/-- Performs one operation. -/
def perform (cache : Cache κ ν) : Cache.Op κ ν → Except Hazard (Cache.Answer ν × Cache κ ν)
  | .lookup key => do
    let (found, cache) ← Hazard.guard (lookup cache key)
    .ok (.found found, cache)
  | .get key => do
    let (found, cache) ← Hazard.guard (lookup cache key)
    .ok (.payload found.payload?, cache)
  | .peek key => .ok (.payload (cache.peek? key), cache)
  | .contains key => .ok (.flag (cache.contains key), cache)
  | .isLive key => .ok (.flag (cache.isLive key), cache)
  | .insert key payload => do
    let cache ← insert cache key payload
    .ok (.done, cache)
  | .remove key => do
    let (found, cache) ← Hazard.guard (cache.remove key)
    .ok (.flag found, cache)
  | .clear => .ok (.done, cache.clear)
  | .trim maxLive maxGhost => do
    let cache ← trim cache maxLive maxGhost
    .ok (.done, cache)
  | .setMaxFrames maxFrames => do
    let cache ← setMaxFrames cache maxFrames
    .ok (.done, cache)
  | .setMaxHistory maxHistory => do
    let cache ← setMaxHistory cache maxHistory
    .ok (.done, cache)
  | .recommendSize => do
    let (action, cache) ← Hazard.guard (recommendSize cache)
    .ok (.action (some action), cache)
  | .adjustSize needMemory => do
    let (action?, cache) ← adjustSize cache needMemory
    .ok (.action action?, cache)
  | .resetMetrics => .ok (.done, cache.resetMetrics)

end Checked

end FrameKeep
