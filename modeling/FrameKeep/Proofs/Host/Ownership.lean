import FrameKeep.Host.Op
import FrameKeep.Proofs.Scheduler.Interleaving
import FrameKeep.Proofs.Sharing.Pool

/-!
# Ownership

Whatever is done with a host is one of a few moves (`Moves`). The number of owners that the pool
keeps for a cache is the number of nodes and handles that own it (`Sound`), so a cache is there
exactly as long as something owns it.
-/

namespace FrameKeep

/-- Overwriting one value changes a count by that value alone. -/
theorem countP_setIfInBounds {α : Type} {p : α → Bool} {values : Array α} {index : Nat} {old : α}
    (there : values[index]? = some old) (new : α) :
    (values.setIfInBounds index new).countP p + (if p old then 1 else 0) =
      values.countP p + if p new then 1 else 0 := by
  obtain ⟨bound, rfl⟩ := Array.getElem?_eq_some_iff.mp there
  have counted := Array.boole_getElem_le_countP (p := p) bound
  rw [Array.setIfInBounds_def, dif_pos bound, Array.countP_set]
  omega

variable {σ φ ε : Type}

/-- The session that is held with a node while its cache is `cache`. -/
def CacheNode.session (node : CacheNode σ φ ε) (cache : Cache FrameIndex φ) : Session σ φ ε :=
  { scheduler := { node.controller with cache }, tickets := node.tickets }

/-- The node after a session. -/
def CacheNode.after (node : CacheNode σ φ ε) (session : Session σ φ ε) : CacheNode σ φ ε :=
  { node with controller := session.scheduler.toController, tickets := session.tickets }

namespace Host

/-! ### Moves -/

/-- The host with another cache in the cell of `id`. -/
def withCache (host : Host σ φ ε) (id : CacheId) (cell : Pool.Cell FrameIndex φ)
    (cache : Cache FrameIndex φ) : Host σ φ ε :=
  host.withPool { cells := host.pool.cells.setIfInBounds id (some { cell with cache }) }

/-- The host with a new node in front of `source`, which owns a new cache. -/
def withNewNode (host : Host σ φ ε) (media : MediaKind) (config : Config) (source : σ)
    (cache : Cache FrameIndex φ) : Host σ φ ε :=
  let (cacheId, pool) := host.pool.add cache
  let (name, manager) := (host.manager.register pool cacheId).takeName media
  let node :=
    { label := some { name, media }, controller := { config, feed := { source } }, cacheId }
  { host.withPool pool with manager, nodes := host.nodes.push (some node) }

/-- The host after a session with a node. -/
def withSession (host : Host σ φ ε) (index : Nat) (node : CacheNode σ φ ε)
    (cell : Pool.Cell FrameIndex φ) (session : Session σ φ ε) : Host σ φ ε :=
  (host.withCache node.cacheId cell session.scheduler.cache).withNode index
    (some (node.after session))

/-- What the operation is to be done with is not there, or may be refused. -/
def Lacks (host : Host σ φ ε) : Op σ φ → Prop
  | .createNode .. | .newCache .. => True
  | .dropNode index | .intoScheduler index | .keepCache index | .onNode index _ =>
    host.node? index = none
  | .cloneHandle handle | .dropHandle handle | .onHandle handle _ | .registerHandle handle =>
    host.handles.owned? handle = none
  | .register _ | .adjustAll _ => False

variable [FrameSource σ φ ε] [ToString ε]

/-- What an operation does to a host. -/
inductive Moves (host : Host σ φ ε) : Op σ φ → Host σ φ ε → Prop where
  /-- Nothing is done. -/
  | idle {op : Op σ φ} (lacks : host.Lacks op) : host.Moves op host
  /-- A node is built. -/
  | createNode {media : MediaKind} {options : NodeOptions} {workers : UInt32} {source : σ}
    {config : Config} {cache : Cache FrameIndex φ}
    (configured : Config.make? options.linearize workers = .ok config)
    (created : Cache.create (options.maxFramesFor workers) options.maxHistoryOrDefault
      options.fixed = .ok cache) :
    host.Moves (.createNode media options workers source)
      (host.withNewNode media config source cache)
  /-- A cache is created for a handle. -/
  | newCache {maxFrames maxHistory : Nat} {fixed : Bool} {cache : Cache FrameIndex φ}
    (created : Cache.create maxFrames maxHistory fixed = .ok cache) :
    host.Moves (.newCache maxFrames maxHistory fixed)
      { host with handles := (host.handles.add cache).2 }
  /-- A cache gets one more handle. -/
  | share {op : Op σ φ} {id : CacheId}
    (asked : (∃ index node, op = .keepCache index ∧ host.node? index = some node ∧
        node.cacheId = id) ∨
      ∃ handle, op = .cloneHandle handle ∧ host.handles.owned? handle = some id) :
    host.Moves op { host with handles := (host.handles.share id).2 }
  /-- A node is dropped. -/
  | dropNode {index : Nat} {node : CacheNode σ φ ε} (there : host.node? index = some node) :
    host.Moves (.dropNode index)
      ((host.withPool (host.pool.release node.cacheId)).withNode index none)
  /-- A handle is dropped. -/
  | dropHandle {handle : Nat} {id : CacheId} (there : host.handles.owned? handle = some id) :
    host.Moves (.dropHandle handle)
      { host with
        handles :=
          { host.handles with
            pool := host.pool.release id
            owned := host.handles.owned.setIfInBounds handle none } }
  /-- A node loses its label. -/
  | intoScheduler {index : Nat} {node : CacheNode σ φ ε} (there : host.node? index = some node) :
    host.Moves (.intoScheduler index) (host.withNode index (some { node with label := none }))
  /-- A node is used. -/
  | onNode {index : Nat} {op : Session.Op φ} {node : CacheNode σ φ ε}
    {cell : Pool.Cell FrameIndex φ} (there : host.node? index = some node)
    (held : host.pool.cell? node.cacheId = some cell) :
    host.Moves (.onNode index op)
      (host.withSession index node cell ((node.session cell.cache).perform op).state)
  /-- A cache is used. -/
  | onHandle {handle : Nat} {op : Cache.Op FrameIndex φ} {id : CacheId}
    {cell : Pool.Cell FrameIndex φ} (there : host.handles.owned? handle = some id)
    (held : host.pool.cell? id = some cell) :
    host.Moves (.onHandle handle op) (host.withCache id cell (cell.cache.perform op).state)
  /-- A cache is registered. -/
  | register {op : Op σ φ} {id : CacheId}
    (asked : op = .register id ∨
      ∃ handle, op = .registerHandle handle ∧ host.handles.owned? handle = some id) :
    host.Moves op (host.register id)
  /-- The sizes of all registered caches are adjusted. -/
  | adjustAll (needMemory : Bool) :
    host.Moves (.adjustAll needMemory) (host.adjustAll needMemory).state

/-! ### Owners -/

omit [FrameSource σ φ ε] [ToString ε]

/-- The number of nodes and handles that own a cache. -/
def owners (host : Host σ φ ε) (id : CacheId) : Nat :=
  host.nodes.countP (·.any (id = ·.cacheId)) + host.handles.owned.countP (some id = ·)

/-- The pool has the right number of owners for every cache, and the caches are in order. -/
structure Sound (host : Host σ φ ε) : Prop where
  pool : host.pool.Sound
  owners_eq : ∀ id, host.pool.owners id = host.owners id

/-- A host without nodes is sound. -/
theorem sound_empty : (∅ : Host σ φ ε).Sound where
  pool := Pool.sound_empty
  owners_eq _ := rfl

/-- A node is there where one was created and not dropped since. -/
theorem node?_eq_some {host : Host σ φ ε} {index : Nat} {node : CacheNode σ φ ε} :
    host.node? index = some node ↔ host.nodes[index]? = some (some node) := Option.join_eq_some_iff

private theorem owned?_eq_some {handles : Handles FrameIndex φ} {handle : Nat} {id : CacheId} :
    handles.owned? handle = some id ↔ handles.owned[handle]? = some (some id) :=
  Option.join_eq_some_iff

namespace Sound

variable {host : Host σ φ ε}

/-- In a sound host every id with an owner leads to a cell. -/
theorem exists_cell (sound : host.Sound) {id : CacheId} (owned : 0 < host.owners id) :
    ∃ cell, host.pool.cell? id = some cell := by
  rw [← sound.owners_eq, ← sound.pool.isAlive_iff] at owned
  exact Pool.isAlive_iff.mp owned

/-- The cache of a node is there. -/
theorem exists_cell_of_node (sound : host.Sound) {index : Nat} {node : CacheNode σ φ ε}
    (there : host.node? index = some node) :
    ∃ cell, host.pool.cell? node.cacheId = some cell := by
  apply sound.exists_cell
  apply Nat.lt_of_lt_of_le _ (Nat.le_add_right ..)
  rw [Array.countP_pos_iff]
  exact ⟨some node, Array.mem_of_getElem? (node?_eq_some.mp there), by simp⟩

/-- The cache of a handle is there. -/
theorem exists_cell_of_handle (sound : host.Sound) {handle : Nat} {id : CacheId}
    (there : host.handles.owned? handle = some id) :
    ∃ cell, host.pool.cell? id = some cell := by
  apply sound.exists_cell
  apply Nat.lt_of_lt_of_le _ (Nat.le_add_left ..)
  rw [Array.countP_pos_iff]
  exact ⟨some id, Array.mem_of_getElem? (owned?_eq_some.mp there), by simp⟩

end Sound

/-! ### Operations as moves -/

variable {host after : Host σ φ ε} {op : Op σ φ}

/-- A node is built with its number and its name, or else nothing is done. -/
theorem createNode_cases (host : Host σ φ ε) (media : MediaKind) (options : NodeOptions)
    (workers : UInt32) (source : σ) :
    let step := host.createNode media options workers source
    (step.state = host ∧ ∀ node, step.result ≠ .ok (.ok node)) ∨
      ∃ config cache, Config.make? options.linearize workers = .ok config ∧
        Cache.create (options.maxFramesFor workers) options.maxHistoryOrDefault options.fixed =
          .ok cache ∧
        step.state = host.withNewNode media config source cache ∧
        step.result = .ok (.ok (host.nodes.size, media.nodeName host.manager.nextNumber)) := by
  cases judged : options.validate with
  | error refusal =>
    simp only [createNode, judged]
    exact .inl ⟨rfl, nofun⟩
  | ok _ =>
    cases configured : Config.make? options.linearize workers with
    | error refusal =>
      simp only [createNode, judged, configured]
      exact .inl ⟨rfl, nofun⟩
    | ok config =>
      cases created : (Cache.create (options.maxFramesFor workers) options.maxHistoryOrDefault
          options.fixed : Except Fault (Cache FrameIndex φ)) with
      | error fault =>
        simp only [createNode, judged, configured, bind, Except.bind, created]
        exact .inl ⟨trivial, nofun⟩
      | ok cache =>
        simp only [createNode, judged, configured, bind, Except.bind, created]
        exact .inr ⟨config, cache, rfl, rfl, rfl, rfl⟩

/-- A node that is answered for was built. -/
theorem exists_withNewNode [FrameSource σ φ ε] [ToString ε] {media : MediaKind}
    {options : NodeOptions} {workers : UInt32} {source : σ} {index : Nat} {name : String}
    (created : (host.perform (.createNode media options workers source)).result =
      .ok (.created (.ok (index, name)))) :
    index = host.nodes.size ∧
      ∃ config cache, Config.make? options.linearize workers = .ok config ∧
        Cache.create (options.maxFramesFor workers) options.maxHistoryOrDefault options.fixed =
          .ok cache ∧
        (host.perform (.createNode media options workers source)).state =
          host.withNewNode media config source cache := by
  change (host.createNode media options workers source).result.map Answer.created = _ at created
  cases outcome : (host.createNode media options workers source).result with
  | error fault => simp [outcome, Except.map] at created
  | ok answer =>
    obtain rfl : answer = .ok (index, name) := by simpa [outcome, Except.map] using created
    rcases host.createNode_cases media options workers source with
      ⟨-, refused⟩ | ⟨config, cache, configured, new, built, answered⟩
    · exact absurd outcome (refused _)
    · have same := outcome.symm.trans answered
      simp only [Except.ok.injEq, Prod.mk.injEq] at same
      exact ⟨same.1, config, cache, configured, new, built⟩

/-- Creating a node is one of the ways a host moves, also where it fails. -/
theorem moves_createNode [FrameSource σ φ ε] [ToString ε] (host : Host σ φ ε) (media : MediaKind)
    (options : NodeOptions) (workers : UInt32) (source : σ) :
    host.Moves (.createNode media options workers source)
      (host.createNode media options workers source).state := by
  rcases host.createNode_cases media options workers source with
    ⟨same, -⟩ | ⟨config, cache, configured, created, built, -⟩
  · rw [same]
    exact .idle trivial
  · rw [built]
    exact .createNode configured created

/-- Every operation is one of the moves. -/
theorem moves_perform [FrameSource σ φ ε] [ToString ε] (sound : host.Sound) (op : Op σ φ) :
    host.Moves op (host.perform op).state := by
  cases op with
  | createNode media options workers source =>
    exact host.moves_createNode media options workers source
  | newCache maxFrames maxHistory fixed =>
    simp only [perform, newCache]
    cases created :
        (Cache.create maxFrames maxHistory fixed : Except Fault (Cache FrameIndex φ)) with
    | error fault => exact .idle trivial
    | ok cache => exact .newCache created
  | dropNode index =>
    cases there : host.node? index <;>
      simp only [perform, changed, orDropped, dropNode?, there]
    · exact .idle there
    · exact .dropNode there
  | intoScheduler index =>
    cases there : host.node? index <;>
      simp only [perform, changed, orDropped, intoScheduler?, there]
    · exact .idle there
    · exact .intoScheduler there
  | keepCache index =>
    cases there : host.node? index <;>
      simp only [perform, opened, orDropped, keepCache?, there]
    · exact .idle there
    · exact .share (.inl ⟨index, _, rfl, there, rfl⟩)
  | onNode index op =>
    cases there : host.node? index with
    | none =>
      simp only [perform, orDropped, onNode, there]
      exact .idle there
    | some node =>
      obtain ⟨cell, held⟩ := sound.exists_cell_of_node there
      simp only [perform, orDropped, onNode, there, Option.bind_some, held]
      exact .onNode there held
  | cloneHandle handle =>
    cases there : host.handles.owned? handle <;>
      simp only [perform, opened, orDropped, cloneHandle?, Handles.clone?, there]
    · exact .idle there
    · exact .share (.inr ⟨handle, rfl, there⟩)
  | dropHandle handle =>
    cases there : host.handles.owned? handle <;>
      simp only [perform, changed, orDropped, dropHandle?, Handles.drop?, there]
    · exact .idle there
    · exact .dropHandle there
  | onHandle handle op =>
    cases there : host.handles.owned? handle with
    | none =>
      simp only [perform, orDropped, onHandle, Handles.onOwned, there]
      exact .idle there
    | some id =>
      obtain ⟨cell, held⟩ := sound.exists_cell_of_handle there
      have here : host.handles.pool.cell? id = some cell := held
      simp only [perform, orDropped, onHandle, Handles.onOwned, there, Option.bind_some,
        Handles.onCache, Pool.onCache, here]
      exact .onHandle there held
  | register id => exact .register (.inl rfl)
  | registerHandle handle =>
    cases there : host.handles.owned? handle <;>
      simp only [perform, changed, orDropped, registerHandle?, there]
    · exact .idle there
    · exact .register (.inr ⟨handle, rfl, there⟩)
  | adjustAll needMemory => exact .adjustAll needMemory

/-! ### Owners are counted -/

private theorem owners_withNode {index : Nat} {node : CacheNode σ φ ε}
    (there : host.node? index = some node) (next? : Option (CacheNode σ φ ε)) (id : CacheId) :
    (host.withNode index next?).owners id + (if id = node.cacheId then 1 else 0) =
      host.owners id + if next?.any (id = ·.cacheId) then 1 else 0 := by
  have counted :=
    countP_setIfInBounds (p := (·.any (id = ·.cacheId))) (node?_eq_some.mp there) next?
  simp only [Option.any_some, decide_eq_true_eq] at counted
  simp only [owners, withNode]
  omega

/-- A node that goes on owning its cache changes nothing about the owners. -/
theorem owners_withNode_same {index : Nat} {node : CacheNode σ φ ε}
    (there : host.node? index = some node) (next : CacheNode σ φ ε)
    (same : next.cacheId = node.cacheId) (id : CacheId) :
    (host.withNode index (some next)).owners id = host.owners id := by
  have counted := owners_withNode there (some next) id
  simp only [Option.any_some, same, decide_eq_true_eq] at counted
  omega

/-- A new node is one more owner of its cache. -/
theorem owners_push_node {node : CacheNode σ φ ε} {id : CacheId}
    (nodes : after.nodes = host.nodes.push (some node)) (owns : node.cacheId = id)
    (owned : after.handles.owned = host.handles.owned) (other : CacheId) :
    after.owners other = host.owners other + if other = id then 1 else 0 := by
  simp only [owners, nodes, owned, Array.countP_push, Option.any_some, owns, decide_eq_true_eq]
  omega

private theorem owners_push_handle {id : CacheId}
    (nodes : after.nodes = host.nodes)
    (owned : after.handles.owned = host.handles.owned.push (some id)) (other : CacheId) :
    after.owners other = host.owners other + if other = id then 1 else 0 := by
  simp only [owners, nodes, owned, Array.countP_push, Option.some.injEq, decide_eq_true_eq]
  omega

/-- A cache that is used keeps its owners. -/
theorem Sound.withCache (sound : host.Sound) {id : CacheId} {cell : Pool.Cell FrameIndex φ}
    (held : host.pool.cell? id = some cell) {cache : Cache FrameIndex φ}
    (consistent : cache.Consistent) : (host.withCache id cell cache).Sound := by
  have same : ({ cell with cache } : Pool.Cell FrameIndex φ).owners = cell.owners := rfl
  refine ⟨sound.pool.set held same consistent, fun other => ?_⟩
  exact (Pool.owners_set held same other).trans (sound.owners_eq other)

/-- A node that goes on owning its cache may be replaced. -/
theorem Sound.withNode (sound : host.Sound) {index : Nat} {node : CacheNode σ φ ε}
    (there : host.node? index = some node) (next : CacheNode σ φ ε)
    (same : next.cacheId = node.cacheId) : (host.withNode index (some next)).Sound :=
  ⟨sound.pool, fun id => (sound.owners_eq id).trans (owners_withNode_same there next same id).symm⟩

variable [FrameSource σ φ ε] [ToString ε]

/-- However a host moves, it stays sound. -/
theorem Moves.sound (moves : host.Moves op after) (sound : host.Sound) : after.Sound := by
  have ⟨pool, owners_eq⟩ := sound
  cases moves with
  | idle => exact sound
  | createNode configured created =>
    obtain ⟨-, rfl⟩ := Cache.create_eq_ok_iff.mp created
    refine ⟨pool.add (Cache.consistent_empty ..), fun id => ?_⟩
    refine (Pool.owners_add host.pool _ id).trans ?_
    rw [owners_eq]
    exact (owners_push_node (by rfl) (by rfl) (by rfl) id).symm
  | newCache created =>
    obtain ⟨-, rfl⟩ := Cache.create_eq_ok_iff.mp created
    refine ⟨pool.add (Cache.consistent_empty ..), fun id => ?_⟩
    refine (Pool.owners_add host.pool _ id).trans ?_
    rw [owners_eq]
    exact (owners_push_handle (by rfl) (by rfl) id).symm
  | @share _ id asked =>
    obtain ⟨cell, held⟩ : ∃ cell, host.pool.cell? id = some cell := by
      rcases asked with ⟨index, node, -, there, rfl⟩ | ⟨handle, -, there⟩
      · exact sound.exists_cell_of_node there
      · exact sound.exists_cell_of_handle there
    refine ⟨pool.retain id, fun other => ?_⟩
    refine (Pool.owners_retain held other).trans ?_
    rw [owners_eq]
    exact (owners_push_handle (by rfl) (by rfl) other).symm
  | @dropNode index node there =>
    obtain ⟨cell, held⟩ := sound.exists_cell_of_node there
    refine ⟨pool.release node.cacheId, fun id => ?_⟩
    have released := pool.owners_release held id
    rw [owners_eq] at released
    exact Nat.add_right_cancel (released.trans (owners_withNode there none id).symm)
  | @dropHandle handle id there =>
    obtain ⟨cell, held⟩ := sound.exists_cell_of_handle there
    refine ⟨pool.release id, fun other => ?_⟩
    have released := pool.owners_release held other
    have counted := countP_setIfInBounds (p := (some other = ·)) (owned?_eq_some.mp there) none
    simp only [Option.some.injEq, decide_eq_true_eq, reduceCtorEq, if_false] at counted
    rw [owners_eq] at released
    change (host.pool.release id).owners other = host.nodes.countP _ + _
    simp only [owners] at released ⊢
    omega
  | intoScheduler there => exact sound.withNode there _ rfl
  | @onNode index op node cell there held =>
    have consistent := (pool _ cell held).consistent
    have moves : (node.session cell.cache).Moves op _ := Session.moves_perform consistent op
    exact (sound.withCache held (moves.consistent consistent)).withNode there _ rfl
  | @onHandle handle op id cell there held =>
    exact sound.withCache held ((pool id cell held).consistent.perform op)
  | register => exact ⟨pool, owners_eq⟩
  | adjustAll needMemory =>
    exact ⟨pool.adjustEach needMemory _,
      fun id => (Pool.owners_adjustEach ..).trans (owners_eq id)⟩

/-! ### Runs -/

/-- A run in two parts is the second part run from where the first ends. -/
theorem run_append (host : Host σ φ ε) (earlier later : List (Op σ φ)) :
    host.run (earlier ++ later) = (host.run earlier).run later := List.foldl_append

/-- The last operation of a run is performed where the others end. -/
theorem run_concat (host : Host σ φ ε) (earlier : List (Op σ φ)) (last : Op σ φ) :
    host.run (earlier ++ [last]) = ((host.run earlier).perform last).state := run_append ..

/-- A host stays sound in any operation. -/
theorem Sound.perform (sound : host.Sound) (op : Op σ φ) : (host.perform op).state.Sound :=
  (moves_perform sound op).sound sound

/-- A host stays sound in any run. -/
theorem Sound.run (sound : host.Sound) (ops : List (Op σ φ)) : (host.run ops).Sound := by
  induction ops generalizing host with
  | nil => exact sound
  | cons op rest ih => exact ih (sound.perform op)

/-- Any run from a host without nodes leaves a sound one. -/
theorem sound_run (ops : List (Op σ φ)) : ((∅ : Host σ φ ε).run ops).Sound := sound_empty.run ops

end Host

end FrameKeep
