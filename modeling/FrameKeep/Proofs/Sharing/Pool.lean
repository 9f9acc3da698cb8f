import FrameKeep.Proofs.Cache.Refinement
import FrameKeep.Sharing.Pool

/-!
# Pools of caches

What each change of a pool does to the cell of every cache, and what a round of resizes does: the
caches up to the first that faults are adjusted, each as often as it comes up, and no other is
touched.
-/

namespace FrameKeep.Pool

variable {κ ν : Type} [DecidableEq κ] [Hashable κ] {pool : Pool κ ν} {id other : CacheId}

/-! ### Cells -/

/-- A new cache has one owner and an id of its own. -/
theorem cell?_add (pool : Pool κ ν) (cache : Cache κ ν) (other : CacheId) :
    (pool.add cache).2.cell? other =
      if other = pool.cells.size then some { cache, owners := 1 } else pool.cell? other := by
  unfold add cell?
  rw [Array.getElem?_push]
  split <;> rfl

private theorem cell?_retain (pool : Pool κ ν) (id other : CacheId) :
    (pool.retain id).cell? other =
      if other = id then (pool.cell? id).map fun cell => { cell with owners := cell.owners + 1 }
      else pool.cell? other := by
  unfold retain cell?
  rw [Array.getElem?_modify]
  split
  next same =>
    subst same
    rw [if_pos rfl]
    cases pool.cells[id]? <;> rfl
  next apart => rw [if_neg (Ne.symm apart)]

private theorem cell?_release (pool : Pool κ ν) (id other : CacheId) :
    (pool.release id).cell? other =
      if other = id then
        (pool.cell? id).bind fun cell =>
          if cell.owners ≤ 1 then none else some { cell with owners := cell.owners - 1 }
      else pool.cell? other := by
  unfold release cell?
  rw [Array.getElem?_modify]
  split
  next same =>
    subst same
    rw [if_pos rfl]
    cases pool.cells[id]? <;> rfl
  next apart => rw [if_neg (Ne.symm apart)]

/-- An id that leads to a cell was given out. -/
theorem lt_size_of_cell? {cell : Cell κ ν} (held : pool.cell? id = some cell) :
    id < pool.cells.size := by
  unfold cell? at held
  by_contra past
  rw [Array.getElem?_eq_none (Nat.le_of_not_lt past)] at held
  simp at held

/-- The pool with another cell in place of one that holds a cache. -/
theorem cell?_set {cell : Cell κ ν} (held : pool.cell? id = some cell) (next : Cell κ ν)
    (other : CacheId) :
    ({ cells := pool.cells.setIfInBounds id (some next) } : Pool κ ν).cell? other =
      if other = id then some next else pool.cell? other := by
  have bound := lt_size_of_cell? held
  unfold cell?
  rw [Array.getElem?_setIfInBounds]
  split
  next same =>
    subst same
    rw [if_pos rfl]
    rfl
  next apart => rw [if_neg (Ne.symm apart)]

/-- A cache is alive exactly if its id leads to a cell. -/
theorem isAlive_iff : pool.isAlive id ↔ ∃ cell, pool.cell? id = some cell :=
  Option.isSome_iff_exists

/-! ### Caches -/

/-- What is held under an id is the cache of its cell. -/
theorem cache?_of_cell? {cell : Cell κ ν} (held : pool.cell? id = some cell) :
    pool.cache? id = some cell.cache := congrArg (Option.map _) held

/-- A new cache leaves the others as they are. -/
theorem cache?_add (cache : Cache κ ν) (known : other < pool.cells.size) :
    (pool.add cache).2.cache? other = pool.cache? other := by
  rw [cache?, cell?_add, if_neg (Nat.ne_of_lt known), cache?]

/-- One more owner leaves all caches as they are. -/
theorem cache?_retain (pool : Pool κ ν) (id other : CacheId) :
    (pool.retain id).cache? other = pool.cache? other := by
  rw [cache?, cell?_retain, cache?]
  split
  next same =>
    rw [same]
    cases pool.cell? id <;> rfl
  next => rfl

/-- A cache is gone with its last owner, and is not changed by losing another. -/
theorem cache?_release (pool : Pool κ ν) (id other : CacheId) :
    (pool.release id).cache? other = none ∨ (pool.release id).cache? other = pool.cache? other := by
  rw [cache?, cell?_release, cache?]
  split
  next same =>
    rw [same]
    cases pool.cell? id with
    | none => exact .inl rfl
    | some cell =>
      by_cases last : cell.owners ≤ 1
      · simp [last]
      · simp [last]
  next => exact .inr rfl

/-- Replacing the cache of a cell leaves the others as they are. -/
theorem cache?_set {cell : Cell κ ν} (held : pool.cell? id = some cell) (cache : Cache κ ν)
    (other : CacheId) :
    ({ cells := pool.cells.setIfInBounds id (some { cell with cache }) } : Pool κ ν).cache? other =
      if other = id then some cache else pool.cache? other := by
  rw [cache?, cell?_set held]
  split <;> rfl

/-! ### Rounds of resizes -/

/-- The cell with a cache that was adjusted `times` times. -/
def Cell.adjusted (cell : Cell κ ν) (needMemory : Bool) (times : Nat) : Cell κ ν :=
  { cell with cache := cell.cache.run (List.replicate times (.adjustSize needMemory)) }

private theorem Cell.adjusted_adjusted (cell : Cell κ ν) (needMemory : Bool) (times more : Nat) :
    (cell.adjusted needMemory times).adjusted needMemory more =
      cell.adjusted needMemory (times + more) := by
  simp only [adjusted, ← Cache.run_append, List.replicate_append_replicate]

/-- The caches that a round adjusts, among those that it comes to: all that are not gone, up to the
first that faults. -/
def reached (needMemory : Bool) : List CacheId → Pool κ ν → List CacheId
  | [], _ => []
  | id :: rest, pool =>
    match pool.onCache id (·.adjustSize needMemory) with
    | none => reached needMemory rest pool
    | some step =>
      match step.result with
      | .error _ => [id]
      | .ok _ => id :: reached needMemory rest step.state

/-- A round is over at once, passes over the first cache, ends with it or goes on behind it. -/
theorem adjustEach_cons (needMemory : Bool) (id : CacheId) (rest : List CacheId)
    (pool : Pool κ ν) :
    (pool.cell? id = none ∧
        adjustEach needMemory (id :: rest) pool = adjustEach needMemory rest pool ∧
        reached needMemory (id :: rest) pool = reached needMemory rest pool) ∨
      ∃ cell after, pool.cell? id = some cell ∧ after.cells.size = pool.cells.size ∧
        (∀ other, after.cell? other =
          (pool.cell? other).map (·.adjusted needMemory ([id].count other))) ∧
        ((∃ fault, (cell.cache.adjustSize needMemory).result = .error fault ∧
            (adjustEach needMemory (id :: rest) pool).result = .error fault ∧
            (adjustEach needMemory (id :: rest) pool).state = after ∧
            reached needMemory (id :: rest) pool = [id]) ∨
          (∃ action?, (cell.cache.adjustSize needMemory).result = .ok action? ∧
            (adjustEach needMemory (id :: rest) pool).result =
              (adjustEach needMemory rest after).result ∧
            (adjustEach needMemory (id :: rest) pool).state =
              (adjustEach needMemory rest after).state ∧
            reached needMemory (id :: rest) pool = id :: reached needMemory rest after)) := by
  cases held : pool.cell? id with
  | none =>
    left
    have gone : pool.onCache id (·.adjustSize needMemory) = none := by
      rw [onCache, held]
      rfl
    simp only [adjustEach, reached, gone, and_self]
  | some cell =>
    right
    let after : Pool κ ν :=
      { cells := pool.cells.setIfInBounds id
          (some { cell with cache := (cell.cache.adjustSize needMemory).state }) }
    have used : pool.onCache id (·.adjustSize needMemory) =
        some ((cell.cache.adjustSize needMemory).within fun cache =>
          { cells := pool.cells.setIfInBounds id (some { cell with cache }) }) := by
      rw [onCache, held]
      rfl
    refine ⟨cell, after, rfl, Array.size_setIfInBounds, fun other => ?_, ?_⟩
    · rw [cell?_set held]
      split
      next same =>
        subst same
        rw [held, List.count_singleton_self]
        rfl
      next apart =>
        rw [List.count_singleton, if_neg (by simpa using Ne.symm apart)]
        exact Option.map_id'.symm
    · cases answered : (cell.cache.adjustSize needMemory).result with
      | error fault =>
        refine .inl ⟨fault, rfl, ?_, ?_, ?_⟩
        · simp only [adjustEach, used, Step.andThen, Step.within, answered]
        · simp only [adjustEach, used, Step.andThen, Step.within, answered, after]
        · simp only [reached, used, Step.within, answered]
      | ok action? =>
        refine .inr ⟨action?, rfl, ?_, ?_, ?_⟩
        · simp only [adjustEach, used, Step.andThen, Step.within, answered, after]
        · simp only [adjustEach, used, Step.andThen, Step.within, answered, after]
        · simp only [reached, used, Step.within, answered, after]

/-- A round adjusts the caches that it reaches, each as often as it is reached, and no other. -/
theorem cell?_adjustEach (needMemory : Bool) (ids : List CacheId) (pool : Pool κ ν)
    (other : CacheId) :
    (adjustEach needMemory ids pool).state.cell? other =
      (pool.cell? other).map
        (·.adjusted needMemory ((reached needMemory ids pool).count other)) := by
  induction ids generalizing pool with
  | nil => exact Option.map_id'.symm
  | cons id rest ih =>
    rcases adjustEach_cons needMemory id rest pool with
      ⟨-, round, reach⟩ | ⟨cell, after, -, -, cells, stops | goesOn⟩
    · rw [round, reach]
      exact ih pool
    · obtain ⟨fault, -, -, state, reach⟩ := stops
      rw [state, reach]
      exact cells other
    · obtain ⟨action?, -, -, state, reach⟩ := goesOn
      have counted : (id :: reached needMemory rest after).count other =
          [id].count other + (reached needMemory rest after).count other :=
        (List.count_append : ([id] ++ _).count other = _)
      rw [state, reach, counted, ih after, cells, Option.map_map]
      simp only [Function.comp_def, Cell.adjusted_adjusted]

/-- Each cache is adjusted as often as its id is reached. -/
theorem cache?_adjustEach (needMemory : Bool) (ids : List CacheId) (pool : Pool κ ν)
    (other : CacheId) :
    (adjustEach needMemory ids pool).state.cache? other =
      (pool.cache? other).map
        (·.run (List.replicate ((reached needMemory ids pool).count other)
          (.adjustSize needMemory))) := by
  simp only [cache?, cell?_adjustEach, Option.map_map]
  rfl

/-- Adjusting caches gives out no id. -/
theorem size_adjustEach (needMemory : Bool) (ids : List CacheId) (pool : Pool κ ν) :
    (adjustEach needMemory ids pool).state.cells.size = pool.cells.size := by
  induction ids generalizing pool with
  | nil => rfl
  | cons id rest ih =>
    rcases adjustEach_cons needMemory id rest pool with
      ⟨-, round, -⟩ | ⟨cell, after, -, size, -, stops | goesOn⟩
    · rw [round, ih]
    · rw [stops.choose_spec.2.2.1, size]
    · rw [goesOn.choose_spec.2.2.1, ih, size]

/-- Once the caches `earlier` were adjusted, adjusting the cache `id` ends with a fault. -/
def FaultsAfter (pool : Pool κ ν) (needMemory : Bool) (earlier : List CacheId) (id : CacheId)
    (fault : Fault) : Prop :=
  ∃ cell, pool.cell? id = some cell ∧
    ((cell.adjusted needMemory (earlier.count id)).cache.adjustSize needMemory).result =
      .error fault

/-- The caches can be adjusted one after the other without a fault. -/
def Smooth (pool : Pool κ ν) (needMemory : Bool) (ids : List CacheId) : Prop :=
  ∀ earlier id later fault, ids = earlier ++ id :: later →
    ¬ pool.FaultsAfter needMemory earlier id fault

/-- What was adjusted already counts as adjusted earlier. -/
theorem faultsAfter_cons {after : Pool κ ν} {needMemory : Bool}
    (cells : ∀ other, after.cell? other =
      (pool.cell? other).map (·.adjusted needMemory ([id].count other)))
    (earlier : List CacheId) (fault : Fault) :
    pool.FaultsAfter needMemory (id :: earlier) other fault ↔
      after.FaultsAfter needMemory earlier other fault := by
  have counted : (id :: earlier).count other = [id].count other + earlier.count other :=
    (List.count_append : ([id] ++ _).count other = _)
  simp only [FaultsAfter, cells, Option.map_eq_some_iff, counted, ← Cell.adjusted_adjusted]
  constructor
  · rintro ⟨cell, held, faults⟩
    exact ⟨_, ⟨cell, held, rfl⟩, faults⟩
  · rintro ⟨_, ⟨cell, held, rfl⟩, faults⟩
    exact ⟨cell, held, faults⟩

private theorem smooth_cons {after : Pool κ ν} {needMemory : Bool}
    (cells : ∀ other, after.cell? other =
      (pool.cell? other).map (·.adjusted needMemory ([id].count other)))
    (first : ∀ fault, ¬ pool.FaultsAfter needMemory [] id fault) {rest : List CacheId}
    (smooth : after.Smooth needMemory rest) : pool.Smooth needMemory (id :: rest) := by
  intro earlier other later fault split
  cases earlier with
  | nil =>
    obtain ⟨rfl, -⟩ := List.cons.inj split
    exact first fault
  | cons head upper =>
    obtain ⟨rfl, behind⟩ := List.cons.inj split
    rw [faultsAfter_cons cells]
    exact smooth upper other later fault behind

/-- A round over caches that are all there reaches all of them, or stops at the first that faults
after all that was done to it before. -/
theorem adjustEach_outcome (needMemory : Bool) {ids : List CacheId} {pool : Pool κ ν}
    (alive : ∀ id ∈ ids, pool.isAlive id) :
    ((adjustEach needMemory ids pool).result = .ok () ∧ reached needMemory ids pool = ids ∧
        pool.Smooth needMemory ids) ∨
      ∃ earlier id later fault, (adjustEach needMemory ids pool).result = .error fault ∧
        ids = earlier ++ id :: later ∧ reached needMemory ids pool = earlier ++ [id] ∧
        pool.FaultsAfter needMemory earlier id fault ∧ pool.Smooth needMemory earlier := by
  induction ids generalizing pool with
  | nil => exact .inl ⟨rfl, rfl, fun earlier _ _ _ split => by simp at split⟩
  | cons id rest ih =>
    rcases adjustEach_cons needMemory id rest pool with
      ⟨gone, -, -⟩ | ⟨cell, after, held, -, cells, stops | goesOn⟩
    · have here := alive id List.mem_cons_self
      simp [isAlive, gone] at here
    · obtain ⟨fault, faults, result, -, reach⟩ := stops
      refine .inr ⟨[], id, rest, fault, result, rfl, reach, ⟨cell, held, faults⟩, ?_⟩
      intro earlier _ _ _ split
      simp at split
    · obtain ⟨action?, answered, result, -, reach⟩ := goesOn
      have stillAlive : ∀ other ∈ rest, after.isAlive other := by
        intro other member
        rw [isAlive, cells, Option.isSome_map]
        exact alive other (List.mem_cons_of_mem _ member)
      have first : ∀ fault, ¬ pool.FaultsAfter needMemory [] id fault := by
        rintro fault ⟨same, held', faults⟩
        obtain rfl := Option.some.inj (held.symm.trans held')
        have answered' : ((cell.adjusted needMemory 0).cache.adjustSize needMemory).result =
            .ok action? := answered
        nomatch answered'.symm.trans faults
      rcases ih stillAlive with
        ⟨result', reach', smooth⟩ |
          ⟨earlier, other, later, fault, result', rfl, reach', faults, smooth⟩
      · exact .inl ⟨result.trans result', by rw [reach, reach'], smooth_cons cells first smooth⟩
      · refine .inr ⟨id :: earlier, other, later, fault, result.trans result', rfl, ?_,
          (faultsAfter_cons cells earlier fault).mpr faults, smooth_cons cells first smooth⟩
        rw [reach, reach']
        rfl

/-! ### Owners -/

/-- The number of owners that a cache has according to its cell. -/
def owners (pool : Pool κ ν) (id : CacheId) : Nat := (pool.cell? id).elim 0 (·.owners)

/-- The cache has an owner, and all its parts belong together. -/
structure Cell.Sound (cell : Cell κ ν) : Prop where
  owned : 0 < cell.owners
  consistent : cell.cache.Consistent

/-- Every cache that is not gone has an owner, and all its parts belong together. -/
def Sound (pool : Pool κ ν) : Prop := ∀ id cell, pool.cell? id = some cell → cell.Sound

/-- A pool without caches is sound. -/
theorem sound_empty : (∅ : Pool κ ν).Sound := nofun

private theorem cell?_size (pool : Pool κ ν) : pool.cell? pool.cells.size = none := by
  rw [cell?, Array.getElem?_eq_none (Nat.le_refl _)]
  rfl

/-- A new cache has one owner. -/
theorem owners_add (pool : Pool κ ν) (cache : Cache κ ν) (other : CacheId) :
    (pool.add cache).2.owners other =
      pool.owners other + if other = pool.cells.size then 1 else 0 := by
  rw [owners, cell?_add]
  split
  next new => rw [new, owners, cell?_size]; rfl
  next => rfl

/-- Retaining a cache counts one more owner. -/
theorem owners_retain {cell : Cell κ ν} (held : pool.cell? id = some cell) (other : CacheId) :
    (pool.retain id).owners other = pool.owners other + if other = id then 1 else 0 := by
  rw [owners, cell?_retain]
  split
  next same => rw [same, owners, held]; rfl
  next => rfl

/-- Replacing the cache of a cell leaves its owners. -/
theorem owners_set {cell : Cell κ ν} (held : pool.cell? id = some cell) {next : Cell κ ν}
    (same : next.owners = cell.owners) (other : CacheId) :
    ({ cells := pool.cells.setIfInBounds id (some next) } : Pool κ ν).owners other =
      pool.owners other := by
  rw [owners, cell?_set held]
  split
  next here => rw [here, owners, held]; exact same
  next => rfl

namespace Sound

/-- In a sound pool exactly the caches with an owner are alive. -/
theorem isAlive_iff (sound : pool.Sound) : pool.isAlive id ↔ 0 < pool.owners id := by
  unfold isAlive owners
  cases held : pool.cell? id with
  | none => simp
  | some cell => simpa using (sound id cell held).owned

/-- Releasing a cache counts one owner less. -/
theorem owners_release (sound : pool.Sound) {cell : Cell κ ν} (held : pool.cell? id = some cell)
    (other : CacheId) :
    (pool.release id).owners other + (if other = id then 1 else 0) = pool.owners other := by
  rw [owners, cell?_release]
  by_cases same : other = id
  · have positive := (sound id cell held).owned
    rw [if_pos same, if_pos same, same, owners, held]
    by_cases last : cell.owners ≤ 1
    · simp only [Option.bind_some, if_pos last, Option.elim_none, Option.elim_some]
      omega
    · simp only [Option.bind_some, if_neg last, Option.elim_some]
      omega
  · rw [if_neg same, if_neg same]
    rfl

/-- A pool stays sound with a new cache whose parts agree. -/
theorem add (sound : pool.Sound) {cache : Cache κ ν} (consistent : cache.Consistent) :
    (pool.add cache).2.Sound := by
  intro id cell held
  rw [cell?_add] at held
  split at held
  · cases held
    exact ⟨Nat.one_pos, consistent⟩
  · exact sound id cell held

/-- A pool stays sound with one more owner. -/
theorem retain (sound : pool.Sound) (id : CacheId) : (pool.retain id).Sound := by
  intro other cell held
  rw [cell?_retain] at held
  split at held
  · obtain ⟨before, heldBefore, rfl⟩ := Option.map_eq_some_iff.mp held
    exact ⟨Nat.succ_pos _, (sound id before heldBefore).consistent⟩
  · exact sound other cell held

/-- A pool stays sound with one owner less. -/
theorem release (sound : pool.Sound) (id : CacheId) : (pool.release id).Sound := by
  intro other cell held
  rw [cell?_release] at held
  split at held
  · obtain ⟨before, heldBefore, kept⟩ := Option.bind_eq_some_iff.mp held
    split at kept
    next => nomatch kept
    next shared =>
      cases kept
      exact ⟨Nat.sub_pos_of_lt (Nat.lt_of_not_le shared), (sound id before heldBefore).consistent⟩
  · exact sound other cell held

/-- A cache may be used. -/
theorem set (sound : pool.Sound) {cell next : Cell κ ν} (held : pool.cell? id = some cell)
    (same : next.owners = cell.owners) (consistent : next.cache.Consistent) :
    ({ cells := pool.cells.setIfInBounds id (some next) } : Pool κ ν).Sound := by
  intro other found there
  rw [cell?_set held] at there
  split at there
  · cases there
    exact ⟨same ▸ (sound id cell held).owned, consistent⟩
  · exact sound other found there

/-- A pool stays sound when caches are adjusted. -/
theorem adjustEach (sound : pool.Sound) (needMemory : Bool) (ids : List CacheId) :
    (adjustEach needMemory ids pool).state.Sound := by
  intro other cell held
  rw [cell?_adjustEach] at held
  obtain ⟨before, heldBefore, rfl⟩ := Option.map_eq_some_iff.mp held
  have ⟨owned, consistent⟩ := sound other before heldBefore
  exact ⟨owned, consistent.run _⟩

end Sound

/-- Adjusting caches leaves their owners. -/
theorem owners_adjustEach (needMemory : Bool) (ids : List CacheId) (pool : Pool κ ν)
    (other : CacheId) :
    (adjustEach needMemory ids pool).state.owners other = pool.owners other := by
  rw [owners, cell?_adjustEach, owners]
  cases pool.cell? other <;> rfl

end FrameKeep.Pool
