import FrameKeep.Sharing.Pool

/-!
# Handles

A handle owns a cache of the pool until it is dropped. A weak handle does not own its cache: it
reaches the cache only while some owner is left, and keeps its number afterwards.
-/

namespace FrameKeep

/-- A pool of caches with numbered handles to them. -/
structure Handles (κ ν : Type) [DecidableEq κ] [Hashable κ] where
  pool : Pool κ ν := ∅
  /-- The handles; `none` stands for one that was dropped. -/
  owned : Array (Option CacheId) := #[]
  /-- The weak handles. -/
  weak : Array CacheId := #[]

namespace Handles

variable {κ ν : Type} [DecidableEq κ] [Hashable κ]

/-- No caches and no handles. -/
def empty : Handles κ ν := {}

instance : EmptyCollection (Handles κ ν) := ⟨empty⟩

/-- The cache that a handle owns, unless the handle was dropped. -/
def owned? (handles : Handles κ ν) (handle : Nat) : Option CacheId := handles.owned[handle]?.join

/-- Adds a cache and a handle that owns it. -/
def add (handles : Handles κ ν) (cache : Cache κ ν) : Nat × Handles κ ν :=
  let (id, pool) := handles.pool.add cache
  (handles.owned.size, { handles with pool, owned := handles.owned.push (some id) })

/-- Adds a handle to a cache that has an owner already. -/
def share (handles : Handles κ ν) (id : CacheId) : Nat × Handles κ ν :=
  (handles.owned.size,
    { handles with
      pool := handles.pool.retain id
      owned := handles.owned.push (some id) })

/-- Adds a handle to the cache that another handle owns. -/
def clone? (handles : Handles κ ν) (handle : Nat) : Option (Nat × Handles κ ν) :=
  (handles.owned? handle).map handles.share

/-- Drops a handle. -/
def drop? (handles : Handles κ ν) (handle : Nat) : Option (Handles κ ν) :=
  (handles.owned? handle).map fun id =>
    { handles with
      pool := handles.pool.release id
      owned := handles.owned.setIfInBounds handle none }

/-- Adds a weak handle to the cache that a handle owns. -/
def downgrade? (handles : Handles κ ν) (handle : Nat) : Option (Nat × Handles κ ν) :=
  (handles.owned? handle).map fun id =>
    (handles.weak.size, { handles with weak := handles.weak.push id })

/-- Uses a cache by its number, unless it is gone. -/
def onCache {α : Type} (handles : Handles κ ν) (id : CacheId)
    (operation : Cache κ ν → Step (Cache κ ν) α) : Option (Step (Handles κ ν) α) :=
  (handles.pool.onCache id operation).map fun step =>
    step.within fun pool => { handles with pool }

/-- Uses a cache through a handle, unless the handle was dropped. -/
def onOwned {α : Type} (handles : Handles κ ν) (handle : Nat)
    (operation : Cache κ ν → Step (Cache κ ν) α) : Option (Step (Handles κ ν) α) :=
  (handles.owned? handle).bind fun id => handles.onCache id operation

end Handles

end FrameKeep
