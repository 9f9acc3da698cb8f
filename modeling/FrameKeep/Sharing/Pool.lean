import FrameKeep.Cache.Resize

/-!
# Shared caches

Caches that several owners hold live in a pool, each with the number of its owners. A cache that
loses its last owner is gone for good: its number is never given to another cache.
-/

namespace FrameKeep

/-- The number of a cache in a pool. -/
abbrev CacheId := Nat

/-- A cache and the number of its owners. -/
structure Pool.Cell (κ ν : Type) [DecidableEq κ] [Hashable κ] where
  cache : Cache κ ν
  owners : Nat

/-- Caches by number; `none` stands for a cache that is gone. -/
structure Pool (κ ν : Type) [DecidableEq κ] [Hashable κ] where
  cells : Array (Option (Pool.Cell κ ν)) := #[]

namespace Pool

variable {κ ν : Type} [DecidableEq κ] [Hashable κ]

/-- The pool without caches. -/
def empty : Pool κ ν := {}

instance : EmptyCollection (Pool κ ν) := ⟨empty⟩

/-- The cell of a cache that is not gone. -/
def cell? (pool : Pool κ ν) (id : CacheId) : Option (Cell κ ν) := pool.cells[id]?.join

/-- The cache with a given number, unless it is gone. -/
def cache? (pool : Pool κ ν) (id : CacheId) : Option (Cache κ ν) := (pool.cell? id).map (·.cache)

/-- Whether a cache still has an owner. -/
def isAlive (pool : Pool κ ν) (id : CacheId) : Bool := (pool.cell? id).isSome

/-- Adds a cache with one owner. -/
def add (pool : Pool κ ν) (cache : Cache κ ν) : CacheId × Pool κ ν :=
  (pool.cells.size, { cells := pool.cells.push (some { cache, owners := 1 }) })

/-- Gives a cache one more owner. -/
def retain (pool : Pool κ ν) (id : CacheId) : Pool κ ν :=
  { cells := pool.cells.modify id <| Option.map fun cell =>
      { cell with owners := cell.owners + 1 } }

/-- Takes one owner from a cache, which is gone if that was the last. -/
def release (pool : Pool κ ν) (id : CacheId) : Pool κ ν :=
  { cells := pool.cells.modify id fun cell? =>
      cell?.bind fun cell =>
        if cell.owners ≤ 1 then none else some { cell with owners := cell.owners - 1 } }

/-- Uses a cache, unless it is gone. -/
def onCache {α : Type} (pool : Pool κ ν) (id : CacheId)
    (operation : Cache κ ν → Step (Cache κ ν) α) : Option (Step (Pool κ ν) α) :=
  (pool.cell? id).map fun cell =>
    (operation cell.cache).within fun cache =>
      { cells := pool.cells.setIfInBounds id (some { cell with cache }) }

/-- Adjusts the sizes of caches one after the other, passing over those that are gone. A fault ends
the round. -/
def adjustEach (needMemory : Bool) : List CacheId → Pool κ ν → Step (Pool κ ν) Unit
  | [], pool => .done () pool
  | id :: rest, pool =>
    match pool.onCache id (·.adjustSize needMemory) with
    | none => adjustEach needMemory rest pool
    | some step => step.andThen fun _ pool => adjustEach needMemory rest pool

end Pool

end FrameKeep
