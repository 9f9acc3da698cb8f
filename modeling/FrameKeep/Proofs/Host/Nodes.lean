import FrameKeep.Proofs.Host.Ownership

/-!
# What becomes of a node

A node keeps its number, its settings and its cache until it is dropped, and its number is never
given to another node. Every ticket that it has issued stands for a plan made with its settings.
What is done with a node is what is done in a session with it.
-/

namespace FrameKeep

variable {σ φ ε : Type}

/-- Options without a negative size are valid. -/
theorem NodeOptions.validate_of_nonneg {options : NodeOptions}
    (nonneg : ∀ size, options.size = some size → 0 ≤ size) : options.validate = .ok () := by
  unfold validate
  split
  next => rfl
  next size asked => exact if_neg (Int.not_lt.mpr (nonneg size asked))

/-! ### Nodes -/

namespace CacheNode

/-- All tickets of the node stand for plans made with its settings. -/
def Planned (node : CacheNode σ φ ε) : Prop :=
  ∀ (ticket : Nat) (pending : Pending), node.tickets[ticket]? = some pending →
    ∃ last frame, pending = node.controller.config.plan last frame

/-- The node `later` is what became of `node`. -/
structure Continues (later node : CacheNode σ φ ε) : Prop where
  cacheId_eq : later.cacheId = node.cacheId
  config_eq : later.controller.config = node.controller.config
  planned : node.Planned → later.Planned

private theorem Continues.refl (node : CacheNode σ φ ε) : node.Continues node := ⟨rfl, rfl, id⟩

private theorem Continues.trans {node later latest : CacheNode σ φ ε}
    (second : latest.Continues later) (first : later.Continues node) : latest.Continues node :=
  ⟨second.cacheId_eq.trans first.cacheId_eq, second.config_eq.trans first.config_eq,
    second.planned ∘ first.planned⟩

/-- Whatever is done in a session with a node. -/
theorem continues_after [FrameSource σ φ ε] {node : CacheNode σ φ ε} {cache : Cache FrameIndex φ}
    {op : Session.Op φ} {session : Session σ φ ε} (moves : (node.session cache).Moves op session) :
    (node.after session).Continues node := by
  cases moves with
  | use | serve | abandon | collect | ignore | fetch => exact ⟨rfl, rfl, id⟩
  | @ask frame idle =>
    refine ⟨rfl, rfl, fun planned ticket pending issued => ?_⟩
    change (node.tickets.push _)[ticket]? = some pending at issued
    rw [Array.getElem?_push] at issued
    split at issued
    next => exact ⟨_, frame, (Option.some.inj issued).symm⟩
    next => exact planned ticket pending issued

end CacheNode

namespace Host

variable {host after : Host σ φ ε} {index other : Nat} {op : Op σ φ}

/-- A node stands where one was created. -/
theorem lt_size_of_node? {node : CacheNode σ φ ε} (there : host.node? index = some node) :
    index < host.nodes.size :=
  (Array.getElem?_eq_some_iff.mp (node?_eq_some.mp there)).1

private theorem node?_withNode {node : CacheNode σ φ ε} (there : host.node? index = some node)
    (next? : Option (CacheNode σ φ ε)) (other : Nat) :
    (host.withNode index next?).node? other =
      if other = index then next? else host.node? other := by
  have bound := lt_size_of_node? there
  unfold node? withNode
  rw [Array.getElem?_setIfInBounds]
  split
  next same =>
    subst same
    rw [if_pos rfl]
    rfl
  next apart => rw [if_neg (Ne.symm apart)]

/-- A new node stands behind all others. -/
theorem node?_push {node : CacheNode σ φ ε} (nodes : after.nodes = host.nodes.push (some node))
    (index : Nat) :
    after.node? index = if index = host.nodes.size then some node else host.node? index := by
  unfold node?
  rw [nodes, Array.getElem?_push]
  split <;> rfl

/-- If a node is replaced by what became of it, every node is what became of a node. -/
theorem exists_continues_of_withNode {node next later : CacheNode σ φ ε}
    (held : host.node? index = some node) (continues : next.Continues node)
    (there : (host.withNode index (some next)).node? other = some later) :
    ∃ before, host.node? other = some before ∧ later.Continues before := by
  rw [node?_withNode held] at there
  split at there
  next same =>
    obtain rfl := Option.some.inj there
    exact ⟨node, same ▸ held, continues⟩
  next => exact ⟨later, there, .refl later⟩

/-! ### Sessions with nodes -/

/-- The session with a node, unless the node was dropped. -/
def session? (host : Host σ φ ε) (index : Nat) : Option (Session σ φ ε) :=
  (host.node? index).bind fun node => (host.pool.cache? node.cacheId).map node.session

/-- A session is that of a node, on the cache the node owns. -/
theorem session?_eq_some {session : Session σ φ ε} :
    host.session? index = some session ↔
      ∃ node cell, host.node? index = some node ∧ host.pool.cell? node.cacheId = some cell ∧
        node.session cell.cache = session := by
  simp only [session?, Pool.cache?, Option.bind_eq_some_iff, Option.map_eq_some_iff]
  constructor
  · rintro ⟨node, there, cache, ⟨cell, held, rfl⟩, same⟩
    exact ⟨node, cell, there, held, same⟩
  · rintro ⟨node, cell, there, held, same⟩
    exact ⟨node, there, cell.cache, ⟨cell, held, rfl⟩, same⟩

/-- In a sound host all parts of the cache of a session agree. -/
theorem Sound.consistent_session (sound : host.Sound) {session : Session σ φ ε}
    (there : host.session? index = some session) : session.scheduler.cache.Consistent := by
  obtain ⟨node, cell, -, held, rfl⟩ := session?_eq_some.mp there
  exact (sound.pool _ cell held).consistent

/-- The session with a node goes on as it was left. -/
theorem session?_withSession {node : CacheNode σ φ ε} {cell : Pool.Cell FrameIndex φ}
    (there : host.node? index = some node) (held : host.pool.cell? node.cacheId = some cell)
    (session : Session σ φ ε) :
    (host.withSession index node cell session).session? index = some session := by
  have found : (host.withCache node.cacheId cell session.scheduler.cache).node? index = some node :=
    there
  refine session?_eq_some.mpr
    ⟨node.after session, { cell with cache := session.scheduler.cache }, ?_, ?_, rfl⟩
  · exact (node?_withNode found _ index).trans (if_pos rfl)
  · exact (Pool.cell?_set held _ _).trans (if_pos rfl)

variable [FrameSource σ φ ε] [ToString ε]

/-! ### Moves -/

/-- No operation leaves fewer places for nodes than there were. -/
theorem Moves.nodes_size_le (moves : host.Moves op after) :
    host.nodes.size ≤ after.nodes.size := by
  cases moves with
  | createNode =>
    exact Nat.le_of_lt (Nat.lt_of_lt_of_eq (Nat.lt_succ_self _) (Array.size_push _).symm)
  | dropNode | intoScheduler | onNode => exact Array.size_setIfInBounds.ge
  | idle | newCache | share | dropHandle | onHandle | register | adjustAll => exact Nat.le_refl _

/-- A node is what became of a node of the same number, or is new. -/
theorem Moves.node_cases (moves : host.Moves op after) (sound : host.Sound)
    {later : CacheNode σ φ ε} (there : after.node? index = some later) :
    (∃ node, host.node? index = some node ∧ later.Continues node) ∨
      index = host.nodes.size ∧ later.tickets = #[] := by
  cases moves with
  | idle | newCache | share | dropHandle | onHandle | register | adjustAll =>
    exact .inl ⟨later, there, .refl later⟩
  | createNode =>
    rw [node?_push (by rfl)] at there
    split at there
    next newest =>
      obtain rfl := Option.some.inj there
      exact .inr ⟨newest, rfl⟩
    next => exact .inl ⟨later, there, .refl later⟩
  | @dropNode dropped node held =>
    have gone : (host.withNode dropped none).node? index = some later := there
    rw [node?_withNode held] at gone
    split at gone
    next => nomatch gone
    next => exact .inl ⟨later, gone, .refl later⟩
  | intoScheduler held =>
    refine .inl (exists_continues_of_withNode held ?_ there)
    exact ⟨rfl, rfl, id⟩
  | @onNode used op node cell held cached =>
    have consistent := (sound.pool _ cell cached).consistent
    have moves : (node.session cell.cache).Moves op _ := Session.moves_perform consistent op
    exact .inl (exists_continues_of_withNode held (CacheNode.continues_after moves) there)

/-! ### New nodes -/

omit [FrameSource σ φ ε] [ToString ε] in
/-- A node is built unless there are no workers, the size is negative or the cache is too large. -/
theorem exists_createNode (host : Host σ φ ε) (media : MediaKind) (source : σ)
    {options : NodeOptions} {workers : UInt32} (positive : workers ≠ 0)
    (nonneg : ∀ size, options.size = some size → 0 ≤ size)
    (room : options.maxFramesFor workers + options.maxHistoryOrDefault < Arena.reserveLimit) :
    ∃ config cache,
      (host.createNode media options workers source).result =
        .ok (.ok (host.nodes.size, media.nodeName host.manager.nextNumber)) ∧
      (host.createNode media options workers source).state =
        host.withNewNode media config source cache := by
  have judged := NodeOptions.validate_of_nonneg nonneg
  have configured : Config.make? options.linearize workers =
      .ok ⟨options.linearize, workers, positive⟩ := dif_neg positive
  have created : Cache.create (options.maxFramesFor workers) options.maxHistoryOrDefault
      options.fixed = .ok (Cache.empty (κ := FrameIndex) (ν := φ) (options.maxFramesFor workers)
        options.maxHistoryOrDefault options.fixed) :=
    Cache.create_eq_ok_iff.mpr ⟨room, rfl⟩
  simp only [createNode, judged, configured, bind, Except.bind, created]
  exact ⟨_, _, rfl, rfl⟩

/-- Creating a node succeeds with valid options, workers and capacities that can be reserved. -/
theorem exists_created (host : Host σ φ ε) (media : MediaKind) (source : σ)
    {options : NodeOptions} {workers : UInt32} (positive : workers ≠ 0)
    (nonneg : ∀ size, options.size = some size → 0 ≤ size)
    (room : options.maxFramesFor workers + options.maxHistoryOrDefault < Arena.reserveLimit) :
    ∃ name, (host.perform (.createNode media options workers source)).result =
      .ok (.created (.ok (host.nodes.size, name))) := by
  obtain ⟨-, -, answered, -⟩ := host.exists_createNode media source positive nonneg room
  exact ⟨_, congrArg (Except.map Answer.created) answered⟩

/-! ### Runs -/

/-- What is left of a node is what became of it. -/
theorem Sound.exists_continues_run (sound : host.Sound) (known : index < host.nodes.size)
    {ops : List (Op σ φ)} {later : CacheNode σ φ ε}
    (there : (host.run ops).node? index = some later) :
    ∃ node, host.node? index = some node ∧ later.Continues node := by
  induction ops generalizing host with
  | nil => exact ⟨later, there, .refl later⟩
  | cons op rest ih =>
    have moves := moves_perform sound op
    obtain ⟨between, held, second⟩ := ih (sound.perform op)
      (Nat.lt_of_lt_of_le known moves.nodes_size_le) there
    rcases moves.node_cases sound held with ⟨node, before, first⟩ | ⟨new, -⟩
    · exact ⟨node, before, second.trans first⟩
    · exact absurd known (by rw [new]; exact Nat.lt_irrefl _)

/-- Whatever was done with a new host, the tickets of its nodes stand for plans. -/
theorem planned_run {ops : List (Op σ φ)} {node : CacheNode σ φ ε}
    (there : ((∅ : Host σ φ ε).run ops).node? index = some node) : node.Planned := by
  induction ops using List.reverseRecOn generalizing node with
  | nil => nomatch there
  | append_singleton earlier op ih =>
    rw [run_concat] at there
    have sound : ((∅ : Host σ φ ε).run earlier).Sound := sound_run earlier
    rcases (moves_perform sound op).node_cases sound there with ⟨before, held, continues⟩ | ⟨-, new⟩
    · exact continues.planned (ih held)
    · intro ticket pending issued
      simp [new] at issued

/-! ### Use of a node -/

/-- What is done with a node is done in the session with it. -/
theorem perform_onNode {session : Session σ φ ε} (there : host.session? index = some session)
    (op : Session.Op φ) :
    (host.perform (.onNode index op)).result = (session.perform op).result.map .session ∧
      (host.perform (.onNode index op)).state.session? index =
        some (session.perform op).state := by
  obtain ⟨node, cell, found, held, rfl⟩ := session?_eq_some.mp there
  have performed : host.perform (.onNode index op) =
      (((node.session cell.cache).perform op).within (host.withSession index node cell)).map
        .session := by
    simp only [perform, orDropped, onNode, found, Option.bind_some, held]
    rfl
  rw [performed]
  exact ⟨rfl, session?_withSession found held _⟩

/-- Nothing is done with a node that was dropped. -/
theorem perform_onNode_of_dropped (dropped : host.session? index = none) (op : Session.Op φ) :
    host.perform (.onNode index op) = .done .dropped host := by
  have nothing : host.onNode index (·.perform op) = none := by
    simp only [session?, Pool.cache?, Option.map_map, Option.bind_eq_none_iff,
      Option.map_eq_none_iff] at dropped
    simpa only [onNode, Option.bind_eq_none_iff, Option.map_eq_none_iff] using dropped
  simp only [perform, nothing]
  rfl

end Host

end FrameKeep
