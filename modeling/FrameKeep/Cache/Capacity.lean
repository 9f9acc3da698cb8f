import FrameKeep.Cache.Basic

/-!
# Keeping within the capacities

A cache with too many live entries gives up the payloads of the least recently used ones, which
makes them ghosts; a cache with too many ghosts forgets the least recently used ones. Payloads are
given up by moving the front end of the ghost tail toward the front of the list.
-/

namespace FrameKeep.Cache

variable {κ ν : Type} [DecidableEq κ] [Hashable κ]

/-- The entry that the ghost tail takes in next: the one before it, or the least recently used one
if there is no ghost tail. -/
def beforeGhostTail? (cache : Cache κ ν) : Option Slot :=
  match cache.boundary with
  | none => cache.list.tail
  | some slot => cache.list.prev? slot

/-- Takes an entry into the ghost tail. A live entry gives up its payload, and only that is counted
as a demotion: a ghost on the way is taken in as it is. -/
def absorb (cache : Cache κ ν) (slot : Slot) : Except Fault (Cache κ ν) :=
  match cache.payloadAt? slot with
  | none => .ok { cache with boundary := some slot }
  | some _ => do
    let live ← Count.pred? cache.live
    .ok { cache with
      boundary := some slot
      list := cache.list.modify slot fun entry => { entry with payload := none }
      live
      ghost := cache.ghost + 1
      metrics := cache.metrics.recordDemotion }

/-- Extends the ghost tail by at most `steps` entries, until at most `bound` live entries are
left. -/
def demote (bound : Nat) : (steps : Nat) → Cache κ ν → Except Fault (Cache κ ν)
  | 0, cache => .ok cache
  | steps + 1, cache =>
    if cache.live ≤ bound then .ok cache
    else
      match cache.beforeGhostTail? with
      | none => .ok cache
      | some slot => do
        let cache ← cache.absorb slot
        demote bound steps cache

/-- Forgets the `excess` least recently used ghosts. -/
def evict : (excess : Nat) → Cache κ ν → Except Fault (Cache κ ν)
  | 0, cache => .ok cache
  | excess + 1, cache =>
    match cache.list.findBack? Entry.isGhost with
    | none => .ok cache
    | some slot => do
      let cache ← cache.unlink slot
      evict excess { cache with metrics := cache.metrics.recordGhostEviction }

/-- Gives up payloads until at most `maxLive` are left, then forgets ghosts until at most `maxGhost`
are left. The ghost tail never has to be extended more often than there are entries. -/
def trimTo (cache : Cache κ ν) (maxLive maxGhost : Nat) : Except Fault (Cache κ ν) := do
  let cache ← demote maxLive cache.size cache
  evict (cache.ghost - maxGhost) cache

/-- Brings the cache within the bounds given, and within its own capacities where those are
tighter. -/
def trim (cache : Cache κ ν) (maxLive maxGhost : Nat) : Except Fault (Cache κ ν) :=
  cache.trimTo (min maxLive cache.maxFrames) (min maxGhost cache.maxHistory)

/-- Brings the cache within its own capacities. -/
def trimToCapacity (cache : Cache κ ν) : Except Fault (Cache κ ν) :=
  cache.trim cache.maxFrames cache.maxHistory

/-- Stores a payload as the most recently used one, in place of any earlier entry of the key. -/
def insert (cache : Cache κ ν) (key : κ) (payload : ν) : Except Fault (Cache κ ν) := do
  let (_, cache) ← cache.remove key
  let (slot, list) ← cache.list.pushFront { key, payload := some payload }
  trimToCapacity { cache with
    list
    index := cache.index.insert key slot
    live := cache.live + 1
    metrics := cache.metrics.recordInsert }

/-- Stores one payload after the other. -/
def insertAll : List (κ × ν) → Cache κ ν → Except Fault (Cache κ ν)
  | [], cache => .ok cache
  | (key, payload) :: rest, cache => do
    let cache ← cache.insert key payload
    insertAll rest cache

/-- Sets the number of live entries to keep. -/
def setMaxFrames (cache : Cache κ ν) (maxFrames : Nat) : Except Fault (Cache κ ν) :=
  trimToCapacity { cache with maxFrames }

/-- Sets the number of ghosts to keep. -/
def setMaxHistory (cache : Cache κ ν) (maxHistory : Nat) : Except Fault (Cache κ ν) :=
  trimToCapacity { cache with maxHistory }

/-- Looks a key up, and stores `payload` under it unless that was a hit. -/
def access (cache : Cache κ ν) (key : κ) (payload : ν) : Except Fault (Lookup ν × Cache κ ν) := do
  let (found, cache) := cache.lookup key
  if found.isHit then .ok (found, cache)
  else
    let cache ← cache.insert key payload
    .ok (found, cache)

/-- Accesses one key after the other. -/
def accessAll : List (κ × ν) → Cache κ ν → Except Fault (List (Lookup ν) × Cache κ ν)
  | [], cache => .ok ([], cache)
  | (key, payload) :: rest, cache => do
    let (found, cache) ← cache.access key payload
    let (outcomes, cache) ← accessAll rest cache
    .ok (found :: outcomes, cache)

end FrameKeep.Cache
