import FrameKeep.Sharing.Pool

/-!
# Cache manager

A manager hands out the names of cache nodes and keeps a register of caches, so that all of them
can be resized in one round. Being registered does not keep a cache alive. A registration whose
cache is gone is dead, and is forgotten the next time the register is worked on.
-/

namespace FrameKeep

/-- What kind of media a cache node serves. -/
inductive MediaKind where
  | video
  | audio
  deriving DecidableEq, Repr

/-- The name of a kind of media. -/
def MediaKind.name : MediaKind → String
  | video => "Video"
  | audio => "Audio"

/-- The name of the `number`-th node, if it serves this kind of media. -/
def MediaKind.nodeName (media : MediaKind) (number : Nat) : String :=
  match media with
  | video => s!"VideoCache{number}"
  | audio => s!"AudioCache{number}"

/-- A cache manager. -/
structure Manager where
  /-- The number of the next node. -/
  nextNumber : Nat := 1
  /-- The registrations, the oldest first. A cache may be registered more than once. -/
  registry : List CacheId := []

namespace Manager

variable {κ ν : Type} [DecidableEq κ] [Hashable κ]

/-- The registrations whose cache still has an owner. -/
def alive (manager : Manager) (pool : Pool κ ν) : List CacheId :=
  manager.registry.filter pool.isAlive

/-- The number of registrations whose cache still has an owner. -/
def registered (manager : Manager) (pool : Pool κ ν) : Nat := (manager.alive pool).length

/-- Forgets the dead registrations. -/
def prune (manager : Manager) (pool : Pool κ ν) : Manager :=
  { manager with registry := manager.alive pool }

/-- Registers a cache, which may itself be gone, after forgetting the dead registrations. -/
def register (manager : Manager) (pool : Pool κ ν) (id : CacheId) : Manager :=
  { manager with registry := manager.alive pool ++ [id] }

/-- Hands out the next name. -/
def takeName (manager : Manager) (media : MediaKind) : String × Manager :=
  (media.nodeName manager.nextNumber, { manager with nextNumber := manager.nextNumber + 1 })

/-- Forgets the dead registrations and adjusts the size of each cache that is left, as often as it
is registered. The answer is the number of registrations left; a fault ends the round. -/
def adjustAll (manager : Manager) (pool : Pool κ ν) (needMemory : Bool) :
    Step (Manager × Pool κ ν) Nat :=
  let pruned := manager.prune pool
  let round := Pool.adjustEach needMemory pruned.registry pool
  (round.map fun _ => pruned.registry.length).within (pruned, ·)

/-- A manager in words. -/
def describe (manager : Manager) (pool : Pool κ ν) : String :=
  s!"CacheManager \x7b next_id: {manager.nextNumber}, "
    ++ s!"registered: {manager.registered pool} \x7d"

end Manager

end FrameKeep
