import Std.Data.HashMap
import FrameKeep.Cache.Metrics
import FrameKeep.SlotList

/-!
# Adaptive cache

A cache keeps its entries in one list by recency. Toward the front lie the live entries, which hold
their payload; toward the back lie ghosts, whose payload was given up and whose key is remembered.
The boundary marks the front end of the ghost tail: from there to the back every entry is a ghost.
A ghost that is looked up moves to the front without a payload, so ghosts also occur among the live
entries, and the ghost tail takes them in when it reaches them.

The module holds the cache itself, the questions that change nothing, and the operations that never
have to make room.
-/

namespace FrameKeep

/-- A remembered key with the payload that it holds, if any. -/
structure Entry (κ ν : Type) where
  key : κ
  payload : Option ν
  deriving DecidableEq, Repr

/-- Whether only the key is remembered. -/
def Entry.isGhost {κ ν : Type} (entry : Entry κ ν) : Bool := entry.payload.isNone

/-- An adaptive cache from keys to payloads. -/
structure Cache (κ ν : Type) [DecidableEq κ] [Hashable κ] where
  /-- The entries, the most recently used first. -/
  list : SlotList (Entry κ ν) := ∅
  /-- The slot of each remembered key. -/
  index : Std.HashMap κ Slot := ∅
  /-- The front end of the ghost tail, if there is one. -/
  boundary : Option Slot := none
  /-- The number of live entries. -/
  live : Nat := 0
  /-- The number of ghosts. -/
  ghost : Nat := 0
  /-- The most live entries to keep. -/
  maxFrames : Nat
  /-- The most ghosts to keep. -/
  maxHistory : Nat
  /-- Whether the resize policy is switched off. -/
  fixed : Bool
  /-- The look-ups since the resize policy was last asked. -/
  window : Tally := ∅
  /-- What happened over the lifetime. -/
  metrics : Metrics := ∅

namespace Cache

variable {κ ν : Type} [DecidableEq κ] [Hashable κ]

/-- An empty cache. -/
def empty (maxFrames maxHistory : Nat) (fixed : Bool) : Cache κ ν :=
  { maxFrames, maxHistory, fixed }

/-- An empty cache, if room can be reserved for all the entries that it may come to hold. -/
def create (maxFrames maxHistory : Nat) (fixed : Bool) : Except Fault (Cache κ ν) :=
  (SlotList.create (maxFrames + maxHistory)).map fun list =>
    { list, maxFrames, maxHistory, fixed }

/-- A cache that could be created is an empty one. -/
theorem create_eq_ok_iff {maxFrames maxHistory : Nat} {fixed : Bool} {cache : Cache κ ν} :
    create maxFrames maxHistory fixed = .ok cache ↔
      maxFrames + maxHistory < Arena.reserveLimit ∧ empty maxFrames maxHistory fixed = cache := by
  unfold create SlotList.create Arena.create
  split
  · next room => simp [Except.map, room, empty]; rfl
  · next full => simp [Except.map, full]

/-- A cache that room cannot be reserved for is not created. -/
theorem create_of_tooLarge {maxFrames maxHistory : Nat}
    (tooLarge : Arena.reserveLimit ≤ maxFrames + maxHistory) (fixed : Bool) :
    (create maxFrames maxHistory fixed : Except Fault (Cache κ ν)) = .error .capacityTooLarge := by
  simp only [create, SlotList.create, Arena.create, if_neg (Nat.not_lt.mpr tooLarge)]
  rfl

/-- The number of entries, live or ghost. -/
def size (cache : Cache κ ν) : Nat := cache.list.size

/-- Whether no entry is remembered. -/
def isEmpty (cache : Cache κ ν) : Bool := cache.list.isEmpty

/-- The entries, the most recently used first. -/
def entries (cache : Cache κ ν) : List (Entry κ ν) := cache.list.toList

/-- The remembered keys, the most recently used first. -/
def keys (cache : Cache κ ν) : List κ := cache.entries.map (·.key)

/-- Whether a key is remembered, live or ghost. -/
def contains (cache : Cache κ ν) (key : κ) : Bool := cache.index.contains key

/-- The payload that the entry in a slot holds. -/
def payloadAt? (cache : Cache κ ν) (slot : Slot) : Option ν :=
  (cache.list.get? slot).bind (·.payload)

/-- The payload of a key. Asking neither promotes the key nor counts as a look-up. -/
def peek? (cache : Cache κ ν) (key : κ) : Option ν :=
  cache.index[key]?.bind cache.payloadAt?

/-- Whether a key still holds its payload. -/
def isLive (cache : Cache κ ν) (key : κ) : Bool := (cache.peek? key).isSome

/-- The front end of the ghost tail once the entry in `slot` has left its place. -/
def boundaryWithout (cache : Cache κ ν) (slot : Slot) : Option Slot :=
  if cache.boundary = some slot then cache.list.next? slot else cache.boundary

/-- Makes an entry the most recently used one. -/
def promote (cache : Cache κ ν) (slot : Slot) : Cache κ ν :=
  if cache.list.head = some slot then cache
  else
    { cache with
      boundary := cache.boundaryWithout slot
      list := (cache.list.moveToFront slot).2 }

/-- Counts one more look-up. -/
def recordLookup (cache : Cache κ ν) (found : Lookup ν) : Cache κ ν :=
  { cache with
    window := cache.window.record found
    metrics := cache.metrics.recordLookup found }

/-- Looks a key up. A remembered key becomes the most recently used one, live or not. -/
def lookup (cache : Cache κ ν) (key : κ) : Lookup ν × Cache κ ν :=
  match cache.index[key]? with
  | none => (.farMiss, cache.recordLookup (.farMiss : Lookup ν))
  | some slot =>
    let found := Lookup.ofRemembered (cache.payloadAt? slot)
    (found, (cache.promote slot).recordLookup found)

/-- Looks a key up for its payload alone. -/
def get (cache : Cache κ ν) (key : κ) : Option ν × Cache κ ν :=
  let (found, cache) := cache.lookup key
  (found.payload?, cache)

/-- Looks up one key after the other. -/
def lookupAll : List κ → Cache κ ν → List (Lookup ν) × Cache κ ν
  | [], cache => ([], cache)
  | key :: rest, cache =>
    let (found, cache) := cache.lookup key
    let (outcomes, cache) := lookupAll rest cache
    (found :: outcomes, cache)

/-- Takes the entry in `slot` out of the cache. -/
def unlink (cache : Cache κ ν) (slot : Slot) : Except Fault (Cache κ ν) := do
  let boundary := cache.boundaryWithout slot
  let (removed, list) ← cache.list.remove slot
  match removed with
  | none => .ok { cache with boundary, list }
  | some entry =>
    let index := cache.index.erase entry.key
    match entry.payload with
    | some _ =>
      let live ← Count.pred? cache.live
      .ok { cache with boundary, list, index, live }
    | none =>
      let ghost ← Count.pred? cache.ghost
      .ok { cache with boundary, list, index, ghost }

/-- Forgets a key, live or ghost, and answers whether it was remembered. -/
def remove (cache : Cache κ ν) (key : κ) : Except Fault (Bool × Cache κ ν) :=
  match cache.index[key]? with
  | none => .ok (false, cache)
  | some slot => do
    let cache ← cache.unlink slot
    .ok (true, cache)

/-- Forgets every key and the look-ups counted for the resize policy. The capacities and the
lifetime counters stay. -/
def clear (cache : Cache κ ν) : Cache κ ν :=
  { cache with list := ∅, index := ∅, boundary := none, live := 0, ghost := 0, window := ∅ }

/-- Starts the lifetime counters afresh. -/
def resetMetrics (cache : Cache κ ν) : Cache κ ν := { cache with metrics := ∅ }

end Cache

end FrameKeep
