import FrameKeep.Host.Basic

/-!
# Host operations as data

Everything that the caller of a manager can do is a value, so that a whole use of a host is a list.
What is asked of a node or a handle that was dropped, or that never existed, is answered by saying
so and changes nothing.
-/

namespace FrameKeep.Host

variable {σ φ ε : Type}

/-- Something that is done with a host. -/
inductive Op (σ φ : Type) where
  | createNode (media : MediaKind) (options : NodeOptions) (workers : UInt32) (source : σ)
  | dropNode (index : Nat)
  | intoScheduler (index : Nat)
  /-- Takes a handle to the cache of a node. -/
  | keepCache (index : Nat)
  | onNode (index : Nat) (op : Session.Op φ)
  | newCache (maxFrames maxHistory : Nat) (fixed : Bool)
  | cloneHandle (handle : Nat)
  | dropHandle (handle : Nat)
  | onHandle (handle : Nat) (op : Cache.Op FrameIndex φ)
  /-- Registers a cache by its number, whether or not it is gone. -/
  | register (id : CacheId)
  | registerHandle (handle : Nat)
  | adjustAll (needMemory : Bool)

/-- What a host answers. -/
inductive Answer (φ ε : Type) where
  /-- The node or handle is not there. -/
  | dropped
  /-- Nothing to tell. -/
  | done
  /-- The number and the name of a new node, or why there is none. -/
  | created (outcome : Except ConfigError (Nat × String))
  /-- The number of a new handle. -/
  | handle (handle : Nat)
  /-- The number of registrations that a round went through. -/
  | adjusted (count : Nat)
  | session (answer : Session.Answer φ ε)
  | cache (answer : Cache.Answer φ)

/-- The step of something that is done with what may have been dropped. -/
def orDropped (host : Host σ φ ε) (step? : Option (Step (Host σ φ ε) (Answer φ ε))) :
    Step (Host σ φ ε) (Answer φ ε) :=
  step?.getD (.done .dropped host)

/-- A change of what may have been dropped. -/
def changed (host : Host σ φ ε) (after? : Option (Host σ φ ε)) :
    Step (Host σ φ ε) (Answer φ ε) :=
  host.orDropped (after?.map (.done .done))

/-- A new handle to what may have been dropped. -/
def opened (host : Host σ φ ε) (opened? : Option (Nat × Host σ φ ε)) :
    Step (Host σ φ ε) (Answer φ ε) :=
  host.orDropped (opened?.map fun (handle, host) => .done (.handle handle) host)

variable [FrameSource σ φ ε] [ToString ε]

/-- Does one thing with a host. -/
def perform (host : Host σ φ ε) : Op σ φ → Step (Host σ φ ε) (Answer φ ε)
  | .createNode media options workers source =>
    (host.createNode media options workers source).map .created
  | .dropNode index => host.changed (host.dropNode? index)
  | .intoScheduler index => host.changed (host.intoScheduler? index)
  | .keepCache index => host.opened (host.keepCache? index)
  | .onNode index op =>
    host.orDropped ((host.onNode index (·.perform op)).map (·.map .session))
  | .newCache maxFrames maxHistory fixed => (host.newCache maxFrames maxHistory fixed).map .handle
  | .cloneHandle handle => host.opened (host.cloneHandle? handle)
  | .dropHandle handle => host.changed (host.dropHandle? handle)
  | .onHandle handle op =>
    host.orDropped ((host.onHandle handle (·.perform op)).map (·.map .cache))
  | .register id => .done .done (host.register id)
  | .registerHandle handle => host.changed (host.registerHandle? handle)
  | .adjustAll needMemory => (host.adjustAll needMemory).map .adjusted

/-- The host after a list of things were done with it. -/
def run (host : Host σ φ ε) (ops : List (Op σ φ)) : Host σ φ ε :=
  ops.foldl (fun host op => (host.perform op).state) host

end FrameKeep.Host
