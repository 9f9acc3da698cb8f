import FrameKeep.Proofs.Host.Ownership

/-!
# The register of caches

A registration is alive as long as its cache has an owner. Dead registrations are forgotten when
something is registered and when all sizes are adjusted; the ones that are alive keep their order.
A round of adjustments goes through them in that order, and a fault ends it.
-/

namespace FrameKeep.Host

variable {σ φ ε : Type} {host after : Host σ φ ε} {id : CacheId} {needMemory : Bool}

/-- The registrations that are alive. -/
def liveRegistrations (host : Host σ φ ε) : List CacheId :=
  host.manager.registry.filter (0 < host.owners ·)

/-- In a sound host exactly the caches with an owner are alive. -/
theorem Sound.isAlive_iff (sound : host.Sound) : host.pool.isAlive id ↔ 0 < host.owners id := by
  rw [sound.pool.isAlive_iff, sound.owners_eq]

/-- In a sound host the registrations found alive are the live ones. -/
theorem Sound.alive_eq (sound : host.Sound) :
    host.manager.alive host.pool = host.liveRegistrations := by
  apply List.filter_congr
  intro id _
  rw [Bool.eq_iff_iff, sound.isAlive_iff, decide_eq_true_eq]

/-! ### Rounds -/

/-- What is left of a host, and what is answered, when the sizes of all registered caches are
adjusted. -/
structure AdjustsAll (host : Host σ φ ε) (needMemory : Bool) (after : Host σ φ ε)
    (result : Except Fault (Answer φ ε)) : Prop where
  /-- The dead registrations are forgotten, even if the round ends with a fault. -/
  registry_eq : after.manager.registry = host.liveRegistrations
  /-- Nothing but the register and the caches is changed. -/
  others_eq : after =
    { host.withPool after.pool with
      manager := { host.manager with registry := after.manager.registry } }
  /-- Every cache is adjusted as often as it is registered among `done`. These are all that are
  alive, or those up to the first at which a fault arises. -/
  exists_done : ∃ done rest, host.liveRegistrations = done ++ rest ∧
    (∀ id, after.pool.cache? id = (host.pool.cache? id).map
      (·.run (List.replicate (done.count id) (.adjustSize needMemory)))) ∧
    (rest = [] ∧ host.pool.Smooth needMemory done ∧
        result = .ok (.adjusted host.liveRegistrations.length) ∨
      ∃ earlier id fault, done = earlier ++ [id] ∧ host.pool.Smooth needMemory earlier ∧
        host.pool.FaultsAfter needMemory earlier id fault ∧ result = .error fault)

namespace AdjustsAll

variable {result : Except Fault (Answer φ ε)} (adjusts : host.AdjustsAll needMemory after result)

include adjusts

private theorem owners_eq (id : CacheId) : after.owners id = host.owners id := by
  rw [adjusts.others_eq]
  rfl

/-- No registration that is left is dead. -/
theorem owned_of_mem (member : id ∈ after.manager.registry) : 0 < after.owners id := by
  rw [adjusts.registry_eq] at member
  rw [adjusts.owners_eq]
  exact of_decide_eq_true (List.mem_filter.mp member).2

/-- What is registered once is adjusted once. -/
theorem cache?_of_single {count : Nat} (done : result = .ok (.adjusted count))
    {cache : Cache FrameIndex φ} (held : host.pool.cache? id = some cache)
    (single : host.liveRegistrations.count id = 1) :
    after.pool.cache? id = some (cache.adjustSize needMemory).state := by
  obtain ⟨adjusted, rest, split, caches, ⟨rfl, -⟩ | ⟨-, -, fault, -, -, -, failed⟩⟩ :=
    adjusts.exists_done
  · rw [List.append_nil] at split
    rw [caches, held, ← split, single]
    rfl
  · rw [done] at failed
    nomatch failed

end AdjustsAll

/-- In a sound host the live registrations are adjusted, each in its turn. -/
theorem Sound.pool_adjustAll (sound : host.Sound) (needMemory : Bool) :
    (host.adjustAll needMemory).state.pool =
      (Pool.adjustEach needMemory host.liveRegistrations host.pool).state := by
  rw [← sound.alive_eq]
  rfl

variable [FrameSource σ φ ε] [ToString ε]

/-- In a sound host adjusting all caches reaches the live registrations and prunes the others. -/
theorem Sound.adjustsAll (sound : host.Sound) (needMemory : Bool) :
    host.AdjustsAll needMemory (host.perform (.adjustAll needMemory)).state
      (host.perform (.adjustAll needMemory)).result := by
  have alive_eq := sound.alive_eq
  have alive : ∀ id ∈ host.liveRegistrations, host.pool.isAlive id := by
    intro id member
    exact sound.isAlive_iff.mpr (of_decide_eq_true (List.mem_filter.mp member).2)
  have state : (host.perform (.adjustAll needMemory)).state =
      { host.withPool (Pool.adjustEach needMemory host.liveRegistrations host.pool).state with
        manager := { host.manager with registry := host.liveRegistrations } } := by
    rw [← alive_eq]
    rfl
  have result : (host.perform (.adjustAll needMemory)).result =
      (Pool.adjustEach needMemory host.liveRegistrations host.pool).result.map
        fun _ => .adjusted host.liveRegistrations.length := by
    rw [← alive_eq]
    let round := (Pool.adjustEach needMemory (host.manager.alive host.pool) host.pool).result
    change Except.map _ (Except.map _ round) = Except.map _ round
    cases round <;> rfl
  rw [state, result]
  refine ⟨rfl, rfl, ?_⟩
  have caches (done : List CacheId)
      (reached : Pool.reached needMemory host.liveRegistrations host.pool = done) (id : CacheId) :
      (Pool.adjustEach needMemory host.liveRegistrations host.pool).state.cache? id =
        (host.pool.cache? id).map
          (·.run (List.replicate (done.count id) (.adjustSize needMemory))) := by
    rw [Pool.cache?_adjustEach, reached]
  rcases Pool.adjustEach_outcome needMemory alive with
    ⟨done, reached, smooth⟩ | ⟨earlier, id, later, fault, stopped, split, reached, faults, smooth⟩
  · refine ⟨host.liveRegistrations, [], (List.append_nil _).symm, caches _ reached,
      .inl ⟨rfl, smooth, ?_⟩⟩
    rw [done]
    rfl
  · refine ⟨earlier ++ [id], later, ?_, caches _ reached,
      .inr ⟨earlier, id, fault, rfl, smooth, faults, ?_⟩⟩
    · rw [split, List.append_assoc, List.singleton_append]
    · rw [stopped]
      rfl

/-! ### Registrations -/

/-- The operation registers a cache. -/
inductive Registers (host : Host σ φ ε) : Op σ φ → CacheId → Prop where
  | byNumber (id : CacheId) : host.Registers (.register id) id
  | ofHandle {handle : Nat} {id : CacheId} (there : host.handles.owned? handle = some id) :
    host.Registers (.registerHandle handle) id
  | ofNode {media : MediaKind} {options : NodeOptions} {workers : UInt32} {source : σ}
    {index : Nat} {name : String}
    (created : (host.perform (.createNode media options workers source)).result =
      .ok (.created (.ok (index, name)))) :
    host.Registers (.createNode media options workers source) host.pool.cells.size

/-- Registering a cache forgets the dead registrations, and puts the new one behind the others. -/
theorem Registers.registry_eq {op : Op σ φ} (registers : host.Registers op id)
    (sound : host.Sound) :
    (host.perform op).state.manager.registry =
      host.manager.registry.filter (0 < (host.perform op).state.owners ·) ++ [id] := by
  have soundAfter := sound.perform op
  have registered (after : Host σ φ ε) (sound : after.Sound) :
      (host.manager.register after.pool id).registry =
        host.manager.registry.filter (0 < after.owners ·) ++ [id] := by
    simp only [Manager.register, Manager.alive]
    congr 1
    apply List.filter_congr
    intro id _
    rw [Bool.eq_iff_iff, sound.isAlive_iff, decide_eq_true_eq]
  cases registers with
  | byNumber => exact registered host sound
  | @ofHandle handle _ there =>
    have performed : (host.perform (.registerHandle handle)).state = host.register id := by
      simp only [perform, changed, orDropped, registerHandle?, there]
      rfl
    rw [performed]
    exact registered host sound
  | @ofNode media options workers source index name created =>
    obtain ⟨-, config, cache, -, -, built⟩ := exists_withNewNode created
    rw [built] at soundAfter ⊢
    exact registered _ soundAfter

private theorem Registers.owners_le {op : Op σ φ} (registers : host.Registers op id)
    (other : CacheId) :
    host.owners other ≤ (host.perform op).state.owners other := by
  cases registers with
  | byNumber => exact Nat.le_refl _
  | @ofHandle handle _ there =>
    simp only [perform, changed, orDropped, registerHandle?, there]
    exact Nat.le_refl _
  | @ofNode media options workers source index name created =>
    obtain ⟨-, config, cache, -, -, built⟩ := exists_withNewNode created
    have more : (host.withNewNode media config source cache).owners other = host.owners other +
        if other = host.pool.cells.size then 1 else 0 :=
      owners_push_node (by rfl) (by rfl) (by rfl) other
    rw [built, more]
    exact Nat.le_add_right ..

/-- Everything else that is done leaves the register alone. -/
theorem registry_eq_of_not_registers {op : Op σ φ} (sound : host.Sound)
    (quiet : ∀ id, ¬ host.Registers op id) (single : ∀ needMemory, op ≠ .adjustAll needMemory) :
    (host.perform op).state.manager.registry = host.manager.registry := by
  generalize after_eq : (host.perform op).state = after
  have moves := moves_perform sound op
  rw [after_eq] at moves
  cases moves with
  | @createNode media options workers source config cache configured created =>
    rw [← after_eq]
    change (host.createNode media options workers source).state.manager.registry = _
    rcases host.createNode_cases media options workers source with
      ⟨same, -⟩ | ⟨-, -, -, -, -, answered⟩
    · rw [same]
    · exact absurd (.ofNode (congrArg (Except.map Answer.created) answered)) (quiet _)
  | register asked =>
    rcases asked with rfl | ⟨handle, rfl, there⟩
    · exact absurd (.byNumber _) (quiet _)
    · exact absurd (.ofHandle there) (quiet _)
  | adjustAll needMemory => exact absurd rfl (single needMemory)
  | _ => rfl

/-! ### Runs -/

/-- After whatever was done with a new host, a registration is alive exactly as long as its cache
has an owner, and so many are counted. Registering a cache keeps all registrations that are alive,
in their order, and forgets all others, so that at most the new one is dead. Adjusting all sizes
does the same and adjusts each cache as often as it is registered; a cache that is registered once
ends as if it alone had been adjusted. A fault ends the round, which leaves the caches behind it as
they were. Nothing else that is done changes the register. -/
theorem registry_integrity (ops : List (Op σ φ)) :
    let host : Host σ φ ε := (∅ : Host σ φ ε).run ops
    (∀ id, host.pool.isAlive id ↔ 0 < host.owners id) ∧
      host.registered = host.liveRegistrations.length ∧
      (∀ op id, host.Registers op id →
        let after := (host.perform op).state
        after.manager.registry = host.manager.registry.filter (0 < after.owners ·) ++ [id] ∧
          (∀ other, 0 < host.owners other → 0 < after.owners other) ∧
          ∀ other ∈ after.manager.registry, 0 < after.owners other ∨ other = id) ∧
      (∀ needMemory,
        let after := (host.perform (.adjustAll needMemory)).state
        let result := (host.perform (.adjustAll needMemory)).result
        host.AdjustsAll needMemory after result ∧
          (∀ other ∈ after.manager.registry, 0 < after.owners other) ∧
          ∀ id cache count, result = .ok (.adjusted count) → host.pool.cache? id = some cache →
            host.liveRegistrations.count id = 1 →
            after.pool.cache? id = some (cache.adjustSize needMemory).state) ∧
      ∀ op, (∀ id, ¬ host.Registers op id) → (∀ needMemory, op ≠ .adjustAll needMemory) →
        (host.perform op).state.manager.registry = host.manager.registry := by
  intro host
  have sound : host.Sound := sound_run ops
  refine ⟨fun id => sound.isAlive_iff, ?_, fun op id registers => ?_, fun needMemory => ?_,
    fun op quiet single => registry_eq_of_not_registers sound quiet single⟩
  · exact congrArg List.length sound.alive_eq
  · have registry := registers.registry_eq sound
    refine ⟨registry, fun other owned => Nat.lt_of_lt_of_le owned (registers.owners_le other), ?_⟩
    intro other member
    rw [registry, List.mem_append, List.mem_singleton] at member
    rcases member with kept | new
    · exact .inl (of_decide_eq_true (List.mem_filter.mp kept).2)
    · exact .inr new
  · have adjusts := sound.adjustsAll needMemory
    exact ⟨adjusts, fun other => adjusts.owned_of_mem,
      fun id cache count done held => adjusts.cache?_of_single done held⟩

/-- One of two caches that are registered loses its only handle; the other one is registered twice,
and a third one belongs to a node. -/
theorem registry_integrity_of_dropped_handle :
    let ops : List (Op LabelSource String) :=
      [.newCache 1 1 false, .newCache 2 1 false, .registerHandle 0, .registerHandle 1,
        .registerHandle 0, .createNode .video {} 2 {}, .dropHandle 1]
    let host : Host LabelSource String String := (∅ : Host LabelSource String String).run ops
    host.manager.registry = [0, 1, 0, 2] ∧ host.registered = 3 ∧ ¬ 0 < host.owners 1 ∧
      (host.perform (.adjustAll true)).state.manager.registry = [0, 0, 2] := by
  intro ops host
  obtain ⟨-, registered, -, rounds, -⟩ := registry_integrity (ε := String) ops
  have live : host.liveRegistrations = [0, 0, 2] := by decide +kernel
  refine ⟨by decide +kernel, registered.trans (by rw [live]; rfl), by decide +kernel, ?_⟩
  exact (rounds true).1.registry_eq.trans live

end FrameKeep.Host
