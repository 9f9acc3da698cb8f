import FrameKeep.Host.Manager
import FrameKeep.Host.Options
import FrameKeep.Scheduler.Session
import FrameKeep.Sharing.Handles

/-!
# Host

A host holds a manager, the cache nodes that were built through it, and handles to caches. A node
owns its cache, and so does every handle; the manager owns none. Nodes are numbered in the order in
which they were built, and a number is not used again.
-/

namespace FrameKeep

/-- The name of a node and the kind of media that it serves. -/
structure Label where
  name : String
  media : MediaKind
  deriving DecidableEq, Repr

/-- A cache node: a scheduler whose cache is in the pool. -/
structure CacheNode (σ φ ε : Type) where
  /-- The label; `none` once the node has been reduced to its scheduler. -/
  label : Option Label
  controller : Controller σ φ ε
  /-- What the first phases of requests to the node have left pending. -/
  tickets : Array Pending := #[]
  /-- The cache that the node owns. -/
  cacheId : CacheId

/-- A labelled node in words, or the scheduler that is left of a node. -/
def CacheNode.describe {σ φ ε : Type} [ToString σ] (node : CacheNode σ φ ε) : String :=
  match node.label with
  | none => node.controller.describe
  | some { name, media } =>
    s!"CacheNode \x7b name: \"{name}\", media: {media.name}, "
      ++ s!"config: {node.controller.config.describe} \x7d"

/-- A manager with everything that its caller holds. -/
structure Host (σ φ ε : Type) where
  manager : Manager := {}
  handles : Handles FrameIndex φ := ∅
  /-- The nodes; `none` stands for one that was dropped. -/
  nodes : Array (Option (CacheNode σ φ ε)) := #[]

namespace Host

variable {σ φ ε : Type}

/-- A host that holds nothing. -/
def empty : Host σ φ ε := {}

instance : EmptyCollection (Host σ φ ε) := ⟨empty⟩

/-- The pool of caches. -/
def pool (host : Host σ φ ε) : Pool FrameIndex φ := host.handles.pool

/-- The host with another pool of caches. -/
def withPool (host : Host σ φ ε) (pool : Pool FrameIndex φ) : Host σ φ ε :=
  { host with handles := { host.handles with pool } }

/-- A node that was not dropped. -/
def node? (host : Host σ φ ε) (index : Nat) : Option (CacheNode σ φ ε) := host.nodes[index]?.join

/-- The host with a node replaced, or dropped. -/
def withNode (host : Host σ φ ε) (index : Nat) (node? : Option (CacheNode σ φ ε)) : Host σ φ ε :=
  { host with nodes := host.nodes.setIfInBounds index node? }

/-- Builds a node in front of a source and registers its cache. The options are judged before the
number of workers, and a node that is refused, or whose cache cannot be created, uses up neither a
name nor a number. -/
def createNode (host : Host σ φ ε) (media : MediaKind) (options : NodeOptions) (workers : UInt32)
    (source : σ) : Step (Host σ φ ε) (Except ConfigError (Nat × String)) :=
  let settings := do
    options.validate
    Config.make? options.linearize workers
  match settings with
  | .error refusal => .done (.error refusal) host
  | .ok config =>
    let maxFrames := options.maxFramesFor workers
    let maxHistory := options.maxHistoryOrDefault
    match Cache.create maxFrames maxHistory options.fixed with
    | .error fault => { result := .error fault, state := host }
    | .ok cache =>
      let (cacheId, pool) := host.pool.add cache
      let (name, manager) := (host.manager.register pool cacheId).takeName media
      let node :=
        { label := some { name, media }, controller := { config, feed := { source } }, cacheId }
      { result := .ok (.ok (host.nodes.size, name))
        state := { host.withPool pool with manager, nodes := host.nodes.push (some node) }
        notices :=
          [.nodeCreated name maxFrames maxHistory options.fixed options.linearize] }

/-- Drops a node, which gives up its cache. -/
def dropNode? (host : Host σ φ ε) (index : Nat) : Option (Host σ φ ε) :=
  (host.node? index).map fun node =>
    (host.withPool (host.pool.release node.cacheId)).withNode index none

/-- Reduces a node to its scheduler, which goes on owning the cache. -/
def intoScheduler? (host : Host σ φ ε) (index : Nat) : Option (Host σ φ ε) :=
  (host.node? index).map fun node => host.withNode index (some { node with label := none })

/-- Adds a handle to the cache of a node. -/
def keepCache? (host : Host σ φ ε) (index : Nat) : Option (Nat × Host σ φ ε) :=
  (host.node? index).map fun node =>
    let (handle, handles) := host.handles.share node.cacheId
    (handle, { host with handles })

/-- Uses a node, unless it was dropped. -/
def onNode {α : Type} (host : Host σ φ ε) (index : Nat)
    (operation : Session σ φ ε → Step (Session σ φ ε) α) : Option (Step (Host σ φ ε) α) :=
  (host.node? index).bind fun node =>
    (host.pool.cell? node.cacheId).map fun cell =>
      let scheduler := { node.controller with cache := cell.cache }
      (operation { scheduler, tickets := node.tickets }).within fun session =>
        let controller := session.scheduler.toController
        let cells := host.pool.cells.setIfInBounds node.cacheId
          (some { cell with cache := session.scheduler.cache })
        (host.withPool { cells }).withNode index
          (some { node with controller, tickets := session.tickets })

/-- Creates a cache that is not registered, and a handle that owns it. -/
def newCache (host : Host σ φ ε) (maxFrames maxHistory : Nat) (fixed : Bool) :
    Step (Host σ φ ε) Nat :=
  .ofExcept host <| (Cache.create maxFrames maxHistory fixed).map fun cache =>
    let (handle, handles) := host.handles.add cache
    (handle, { host with handles })

/-- Uses a cache through a handle, unless the handle was dropped. -/
def onHandle {α : Type} (host : Host σ φ ε) (handle : Nat)
    (operation : Cache FrameIndex φ → Step (Cache FrameIndex φ) α) :
    Option (Step (Host σ φ ε) α) :=
  (host.handles.onOwned handle operation).map fun step =>
    step.within fun handles => { host with handles }

/-- Adds a handle to the cache that another handle owns. -/
def cloneHandle? (host : Host σ φ ε) (handle : Nat) : Option (Nat × Host σ φ ε) :=
  (host.handles.clone? handle).map fun (copy, handles) => (copy, { host with handles })

/-- Drops a handle. -/
def dropHandle? (host : Host σ φ ε) (handle : Nat) : Option (Host σ φ ε) :=
  (host.handles.drop? handle).map fun handles => { host with handles }

/-- Registers a cache by its number, whether or not it is gone. -/
def register (host : Host σ φ ε) (id : CacheId) : Host σ φ ε :=
  { host with manager := host.manager.register host.pool id }

/-- Registers the cache that a handle owns. -/
def registerHandle? (host : Host σ φ ε) (handle : Nat) : Option (Host σ φ ε) :=
  (host.handles.owned? handle).map host.register

/-- Adjusts the sizes of all registered caches. -/
def adjustAll (host : Host σ φ ε) (needMemory : Bool) : Step (Host σ φ ε) Nat :=
  (host.manager.adjustAll host.pool needMemory).within fun (manager, pool) =>
    { host.withPool pool with manager }

/-- The number of registrations whose cache still has an owner. -/
def registered (host : Host σ φ ε) : Nat := host.manager.registered host.pool

end Host

end FrameKeep
