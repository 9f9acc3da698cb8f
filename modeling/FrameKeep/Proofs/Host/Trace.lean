import FrameKeep.Proofs.Host.Registry

/-!
# What happens to one cache

A cache may be used by several nodes, through several handles and by the manager. All that comes to
one list of operations, its trace, so that what is known about runs of a cache is known about a
cache in a host. A cache that is gone stays gone.
-/

namespace FrameKeep

variable {σ φ ε : Type} [FrameSource σ φ ε]

/-- The operations that keep what is fetched for a pending request. -/
def Scheduler.stores (scheduler : Scheduler σ φ ε) (pending : Pending) :
    List (Cache.Op FrameIndex φ) :=
  Cache.insertions (successes (scheduler.feed.fetchAll pending.requested).1)

namespace Session

/-- The operations on the cache that something done in a session comes to. -/
def uses (session : Session σ φ ε) : Op φ → List (Cache.Op FrameIndex φ)
  | .initial frame | .abandon frame => [.get frame]
  | .ready ticket => session.tickets[ticket]?.elim [] session.scheduler.stores
  | .getFrame frame =>
    .get frame ::
      if session.scheduler.cache.isLive frame then []
      else ((session.scheduler.use (.get frame)).ask frame).stores (session.scheduler.plan frame)
  | .cache op => [op]

omit [FrameSource σ φ ε] in
/-- A frame is live in the cache exactly if the scheduler serves some payload for it. -/
theorem isLive_iff {session : Session σ φ ε} (consistent : session.scheduler.cache.Consistent)
    {frame : FrameIndex} :
    session.scheduler.cache.isLive frame ↔
      ∃ payload, session.scheduler.Serves frame payload := by
  simp only [Cache.isLive, Option.isSome_iff_exists, consistent.peek?_eq_some_iff,
    Scheduler.Serves]

/-- However a session moves, its cache does what the session uses it for. -/
theorem Moves.cache_eq {session after : Session σ φ ε} {op : Op φ} (moves : session.Moves op after)
    (consistent : session.scheduler.cache.Consistent) :
    after.scheduler.cache = session.scheduler.cache.run (session.uses op) := by
  cases moves with
  | use op => rfl
  | @serve _ frame payload wants live =>
    have isLive := (isLive_iff consistent).mpr ⟨payload, live⟩
    rcases wants with rfl | rfl | rfl
    · rfl
    · rfl
    · simp only [uses, isLive]
      rfl
  | ask => rfl
  | abandon => rfl
  | collect issued =>
    simp only [uses, issued]
    rfl
  | ignore unissued =>
    simp only [uses, unissued]
    rfl
  | @fetch frame idle =>
    have notLive : ¬ session.scheduler.cache.isLive frame := fun live =>
      (isLive_iff consistent).mp live |>.elim idle
    simp only [uses, notLive]
    rfl

end Session

namespace Host

variable [ToString ε] {host after : Host σ φ ε} {op : Op σ φ} {id : CacheId}

/-! ### Traces -/

/-- The operations on the cache `id` that something done with a host comes to. -/
def uses (host : Host σ φ ε) (id : CacheId) : Op σ φ → List (Cache.Op FrameIndex φ)
  | .onNode index op =>
    match host.node? index, host.pool.cache? id with
    | some node, some cache => if node.cacheId = id then (node.session cache).uses op else []
    | _, _ => []
  | .onHandle handle op => if host.handles.owned? handle = some id then [op] else []
  | .adjustAll needMemory =>
    let reached := Pool.reached needMemory host.liveRegistrations host.pool
    List.replicate (reached.count id) (.adjustSize needMemory)
  | _ => []

/-- The operations on the cache `id` that all that is done with a host comes to. -/
def trace (host : Host σ φ ε) (id : CacheId) : List (Op σ φ) → List (Cache.Op FrameIndex φ)
  | [] => []
  | op :: rest => host.uses id op ++ (host.perform op).state.trace id rest

/-- No cache is added to the pool but a new one. -/
theorem Moves.size_cases (moves : host.Moves op after) :
    after.pool.cells.size = host.pool.cells.size ∨
      ∃ maxFrames maxHistory fixed cache, Cache.create maxFrames maxHistory fixed = .ok cache ∧
        after.pool = (host.pool.add cache).2 := by
  cases moves with
  | createNode configured created => exact .inr ⟨_, _, _, _, created, rfl⟩
  | newCache created => exact .inr ⟨_, _, _, _, created, rfl⟩
  | idle | intoScheduler | register => exact .inl rfl
  | share | dropNode | dropHandle => exact .inl Array.size_modify
  | onNode | onHandle => exact .inl Array.size_setIfInBounds
  | adjustAll needMemory =>
    left
    change (Pool.adjustEach needMemory _ host.pool).state.cells.size = _
    exact Pool.size_adjustEach ..

private theorem Moves.size_le (moves : host.Moves op after) :
    host.pool.cells.size ≤ after.pool.cells.size := by
  rcases moves.size_cases with same | ⟨-, -, -, cache, -, added⟩
  · exact same.ge
  · rw [added, Pool.add, Array.size_push]
    exact Nat.le_succ _

/-- A move uses a cache that is there, or it is gone; with one that is gone nothing is done. -/
theorem Moves.cache?_cases (moves : host.Moves op after) (sound : host.Sound)
    (known : id < host.pool.cells.size) :
    after.pool.cache? id = none ∨
      after.pool.cache? id = (host.pool.cache? id).map (·.run (host.uses id op)) := by
  -- Most moves do not use any cache.
  have unused {cache? : Option (Cache FrameIndex φ)} (same : cache? = host.pool.cache? id)
      (nothing : host.uses id op = []) :
      cache? = (host.pool.cache? id).map (·.run (host.uses id op)) := by
    rw [nothing, same]
    exact Option.map_id'.symm
  cases moves with
  | idle lacks =>
    refine .inr (unused rfl ?_)
    cases op with
    | onNode index op =>
      change host.node? index = none at lacks
      simp only [uses, lacks]
    | onHandle handle op =>
      change host.handles.owned? handle = none at lacks
      simp [uses, lacks]
    | register | adjustAll => exact lacks.elim
    | _ => rfl
  | createNode | newCache => exact .inr (unused (Pool.cache?_add _ known) rfl)
  | share asked =>
    refine .inr (unused (Pool.cache?_retain ..) ?_)
    rcases asked with ⟨index, node, rfl, -⟩ | ⟨handle, rfl, -⟩ <;> rfl
  | @dropNode index node there =>
    exact (Pool.cache?_release host.pool node.cacheId id).imp_right (unused · rfl)
  | @dropHandle handle owned there =>
    exact (Pool.cache?_release host.pool owned id).imp_right (unused · rfl)
  | intoScheduler => exact .inr (unused rfl rfl)
  | @onNode index op node cell there held =>
    have consistent := (sound.pool _ cell held).consistent
    have uses : ((node.session cell.cache).perform op).state.scheduler.cache =
        cell.cache.run ((node.session cell.cache).uses op) :=
      (Session.moves_perform consistent op).cache_eq consistent
    refine .inr ((Pool.cache?_set held _ id).trans ?_)
    split
    next same =>
      subst same
      simp only [Host.uses, there, Pool.cache?_of_cell? held, if_pos, Option.map_some, uses]
    next apart =>
      apply unused rfl
      cases there' : host.pool.cache? id <;> simp only [Host.uses, there, there']
      exact if_neg (Ne.symm apart)
  | @onHandle handle op owned cell there held =>
    refine .inr ((Pool.cache?_set held _ id).trans ?_)
    split
    next same =>
      subst same
      simp only [Host.uses, there, Pool.cache?_of_cell? held, if_pos, Option.map_some]
      rfl
    next apart =>
      apply unused rfl
      simp [Host.uses, there, Ne.symm apart]
  | register asked =>
    refine .inr (unused rfl ?_)
    rcases asked with rfl | ⟨handle, rfl, -⟩ <;> rfl
  | adjustAll needMemory =>
    rw [sound.pool_adjustAll, Pool.cache?_adjustEach]
    exact .inr rfl

/-! ### Runs -/

/-- Whatever is done with a host, a cache is gone, or its trace was done with it. -/
theorem Sound.cache?_run (sound : host.Sound) (known : id < host.pool.cells.size)
    (ops : List (Op σ φ)) :
    (host.run ops).pool.cache? id = none ∨
      (host.run ops).pool.cache? id = (host.pool.cache? id).map (·.run (host.trace id ops)) := by
  induction ops generalizing host with
  | nil => exact .inr Option.map_id'.symm
  | cons op rest ih =>
    have moves := moves_perform sound op
    have later := ih (sound.perform op) (Nat.lt_of_lt_of_le known moves.size_le)
    rcases moves.cache?_cases sound known with gone | used
    · rw [gone, Option.map_none, or_self] at later
      exact .inl later
    · rw [used, Option.map_map] at later
      simp only [trace, Cache.run_append]
      exact later

/-- What is left of a cache is what its trace makes of it. -/
theorem Sound.run_trace (sound : host.Sound) {cache later : Cache FrameIndex φ}
    (held : host.pool.cache? id = some cache) {ops : List (Op σ φ)}
    (left : (host.run ops).pool.cache? id = some later) :
    later = cache.run (host.trace id ops) := by
  obtain ⟨cell, there, -⟩ := Option.map_eq_some_iff.mp held
  rcases sound.cache?_run (Pool.lt_size_of_cell? there) ops with gone | used
  · nomatch left.symm.trans gone
  · rw [left, held] at used
    exact Option.some.inj used

/-- Every cache was new once. -/
theorem exists_create {ops : List (Op σ φ)} {cache : Cache FrameIndex φ}
    (held : ((∅ : Host σ φ ε).run ops).pool.cache? id = some cache) :
    ∃ earlier later maxFrames maxHistory fixed start, ops = earlier ++ later ∧
      Cache.create maxFrames maxHistory fixed = .ok start ∧
      ((∅ : Host σ φ ε).run earlier).pool.cache? id = some start := by
  induction ops using List.reverseRecOn generalizing cache with
  | nil => nomatch held
  | append_singleton earlier op ih =>
    have sound : ((∅ : Host σ φ ε).run earlier).Sound := sound_run earlier
    have moves := moves_perform sound op
    rw [run_concat] at held
    -- A cache that was there before the last operation was new even earlier.
    have older {before : Cache FrameIndex φ}
        (there : ((∅ : Host σ φ ε).run earlier).pool.cache? id = some before) :
        ∃ first later maxFrames maxHistory fixed start, earlier ++ [op] = first ++ later ∧
          Cache.create maxFrames maxHistory fixed = .ok start ∧
          ((∅ : Host σ φ ε).run first).pool.cache? id = some start := by
      obtain ⟨first, later, maxFrames, maxHistory, fixed, start, rfl, new⟩ := ih there
      exact ⟨first, later ++ [op], maxFrames, maxHistory, fixed, start, List.append_assoc .., new⟩
    rcases moves.size_cases with same | ⟨maxFrames, maxHistory, fixed, start, created, added⟩
    · obtain ⟨cell, there, -⟩ := Option.map_eq_some_iff.mp held
      have known := Nat.lt_of_lt_of_eq (Pool.lt_size_of_cell? there) same
      rcases moves.cache?_cases sound known with gone | used
      · nomatch held.symm.trans gone
      · obtain ⟨before, there, -⟩ := Option.map_eq_some_iff.mp (used.symm.trans held)
        exact older there
    · rw [added, Pool.cache?, Pool.cell?_add] at held
      split at held
      next newest =>
        refine ⟨earlier ++ [op], [], maxFrames, maxHistory, fixed, start,
          (List.append_nil _).symm, created, ?_⟩
        rw [run_concat, added, Pool.cache?, Pool.cell?_add, if_pos newest]
        rfl
      next => exact older held

end Host

end FrameKeep
