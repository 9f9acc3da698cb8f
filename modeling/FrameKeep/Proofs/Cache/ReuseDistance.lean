import FrameKeep.Proofs.Cache.Access
import FrameKeep.Proofs.Cache.Stack
import FrameKeep.Proofs.Recency

/-!
# Reuse distance

A cache that is only accessed, where an access is a look-up followed by an insertion unless it was a
hit, is the stack of the accessed keys by recency. How an access is answered is therefore decided by
the reuse distance of its key.
-/

namespace FrameKeep

variable {κ ν : Type} [DecidableEq κ]

/-- The payload that the latest access to a key that was not a hit had to store. -/
def latestInsert (accesses : List (κ × ν)) (outcomes : List (Lookup ν)) (key : κ) : Option ν :=
  ((accesses.zip outcomes).reverse.find? fun (access, outcome) =>
    access.1 = key && !outcome.isHit).map fun (access, _) => access.2

private theorem latestInsert_concat {accesses : List (κ × ν)} {outcomes : List (Lookup ν)}
    (answered : outcomes.length = accesses.length) (key other : κ) (payload : ν)
    (found : Lookup ν) :
    latestInsert (accesses ++ [(key, payload)]) (outcomes ++ [found]) other =
      if key = other ∧ found.isHit = false then some payload
      else latestInsert accesses outcomes other := by
  unfold latestInsert
  rw [List.zip_append answered.symm, List.reverse_append]
  simp only [List.zip_cons_cons, List.zip_nil_right, List.reverse_singleton,
    List.singleton_append, List.find?_cons]
  by_cases stored : key = other ∧ found.isHit = false
  · simp [stored]
  · have skipped : (decide (key = other) && !found.isHit) = false := by simpa using stored
    rw [if_neg stored, skipped]

namespace Cache

variable [Hashable κ]

/-- A cache that has answered `accesses` with `outcomes` since it was created. -/
structure Accessed (maxFrames maxHistory : Nat) (accesses : List (κ × ν))
    (outcomes : List (Lookup ν)) (cache : Cache κ ν) : Prop where
  consistent : cache.Consistent
  maxFrames_eq : cache.maxFrames = maxFrames
  maxHistory_eq : cache.maxHistory = maxHistory
  answered : outcomes.length = accesses.length
  inserted : ∀ key ∈ accesses.map (·.1), (latestInsert accesses outcomes key).isSome
  entries_eq : cache.entries = stacked maxFrames maxHistory (recency (accesses.map (·.1)))
    (latestInsert accesses outcomes)

namespace Accessed

variable {maxFrames maxHistory : Nat} {accesses : List (κ × ν)} {outcomes : List (Lookup ν)}
  {cache : Cache κ ν}

private theorem empty (maxFrames maxHistory : Nat) (fixed : Bool) :
    (Cache.empty maxFrames maxHistory fixed : Cache κ ν).Accessed maxFrames maxHistory [] [] where
  consistent := consistent_empty ..
  maxFrames_eq := rfl
  maxHistory_eq := rfl
  answered := rfl
  inserted := by simp
  entries_eq := by simp [recency, stacked]; rfl

/-- The reuse distance of a key decides how a look-up of it ends. -/
theorem lookup_eq (state : cache.Accessed maxFrames maxHistory accesses outcomes) (key : κ) :
    (cache.toPlain.lookup key).1 =
      match reuseDistance (accesses.map (·.1)) key with
      | none => .farMiss
      | some distance =>
        if distance < maxFrames then Lookup.ofRemembered (latestInsert accesses outcomes key)
        else if distance < maxFrames + maxHistory then .nearMiss
        else .farMiss := by
  have found : Entry.find? cache.toPlain.entries key = _ :=
    (congrArg (Entry.find? · key) state.entries_eq).trans (find?_stacked ..)
  rw [PlainCache.lookup_found, found, reuseDistance_eq_idxOf]
  simp only [mem_recency]
  by_cases member : key ∈ accesses.map (·.1)
  · simp only [if_pos member]
    generalize (recency (accesses.map (·.1))).idxOf key = position
    by_cases live : position < maxFrames
    · simp only [if_pos live]
    · by_cases remembered : position < maxFrames + maxHistory
      · simp only [if_neg live, if_pos remembered]
        rfl
      · simp only [if_neg live, if_neg remembered]
  · simp only [if_neg member]

/-- A hit finds the payload that was stored last. -/
theorem latestInsert_of_hit (state : cache.Accessed maxFrames maxHistory accesses outcomes)
    {key : κ} {payload : ν} (hit : (cache.toPlain.lookup key).1 = .hit payload) :
    latestInsert accesses outcomes key = some payload := by
  rw [state.lookup_eq] at hit
  cases distance : reuseDistance (accesses.map (·.1)) key with
  | none => simp [distance] at hit
  | some distance' =>
    simp only [distance] at hit
    split at hit
    · cases latest : latestInsert accesses outcomes key with
      | none => simp [latest, Lookup.ofRemembered] at hit
      | some held => simpa [latest, Lookup.ofRemembered] using hit
    · split at hit <;> simp at hit

/-- Hits, near misses and far misses are told apart by the reuse distance. -/
theorem classified (state : cache.Accessed maxFrames maxHistory accesses outcomes) (key : κ) :
    ((cache.toPlain.lookup key).1.isHit ↔
        ∃ distance, reuseDistance (accesses.map (·.1)) key = some distance ∧
          distance < maxFrames) ∧
      ((cache.toPlain.lookup key).1.isNearMiss ↔
        ∃ distance, reuseDistance (accesses.map (·.1)) key = some distance ∧
          maxFrames ≤ distance ∧ distance < maxFrames + maxHistory) ∧
      ((cache.toPlain.lookup key).1.isFarMiss ↔
        ∀ distance, reuseDistance (accesses.map (·.1)) key = some distance →
          maxFrames + maxHistory ≤ distance) := by
  rw [state.lookup_eq]
  cases reused : reuseDistance (accesses.map (·.1)) key with
  | none => simp [Lookup.isHit, Lookup.isNearMiss, Lookup.isFarMiss]
  | some distance =>
    obtain ⟨held, latest⟩ := Option.isSome_iff_exists.mp
      (state.inserted key (mem_of_reuseDistance_eq_some reused))
    simp only [latest, Option.some.injEq, exists_eq_left', forall_eq']
    by_cases live : distance < maxFrames
    · simp only [if_pos live, Lookup.ofRemembered, Lookup.isHit, Lookup.isNearMiss,
        Lookup.isFarMiss]
      simp
      omega
    · by_cases remembered : distance < maxFrames + maxHistory
      · simp only [if_neg live, if_pos remembered, Lookup.isHit, Lookup.isNearMiss,
          Lookup.isFarMiss]
        simp
        omega
      · simp only [if_neg live, if_neg remembered, Lookup.isHit, Lookup.isNearMiss,
          Lookup.isFarMiss]
        simp
        omega

/-- An access leaves its key with the payload that it found or else stored. -/
theorem latestInsert_access (state : cache.Accessed maxFrames maxHistory accesses outcomes)
    (key : κ) (payload : ν) :
    latestInsert (accesses ++ [(key, payload)]) (outcomes ++ [(cache.toPlain.lookup key).1]) key =
      some ((cache.toPlain.lookup key).1.payload?.getD payload) := by
  rw [latestInsert_concat state.answered]
  cases found : (cache.toPlain.lookup key).1 with
  | hit held => simp [Lookup.isHit, Lookup.payload?, state.latestInsert_of_hit found]
  | nearMiss => simp [Lookup.isHit, Lookup.payload?]
  | farMiss => simp [Lookup.isHit, Lookup.payload?]

/-- An access keeps the cache what it was, with one more access answered. -/
theorem exists_access (state : cache.Accessed maxFrames maxHistory accesses outcomes) (key : κ)
    (payload : ν) :
    ∃ after, cache.access key payload = .ok ((cache.toPlain.lookup key).1, after) ∧
      after.Accessed maxFrames maxHistory (accesses ++ [(key, payload)])
        (outcomes ++ [(cache.toPlain.lookup key).1]) := by
  obtain ⟨after, accessed, consistentAfter, plain⟩ := state.consistent.exists_access key payload
  let latest := latestInsert (accesses ++ [(key, payload)])
    (outcomes ++ [(cache.toPlain.lookup key).1])
  have stored : latest key = some _ := state.latestInsert_access key payload
  have unchanged : ∀ other, other ≠ key → latest other = latestInsert accesses outcomes other := by
    intro other apart
    exact (latestInsert_concat state.answered ..).trans (if_neg (by simp [Ne.symm apart]))
  have entries : after.entries = (cache.toPlain.access key payload).2.entries :=
    congrArg PlainCache.entries plain
  refine ⟨after, accessed, consistentAfter, ?_, ?_, ?_, ?_, ?_⟩
  · rw [← state.maxFrames_eq]
    exact (congrArg PlainCache.maxFrames plain).trans (PlainCache.maxFrames_access ..)
  · rw [← state.maxHistory_eq]
    exact (congrArg PlainCache.maxHistory plain).trans (PlainCache.maxHistory_access ..)
  · simp [state.answered]
  · intro other member
    by_cases same : other = key
    · subst same
      exact Option.isSome_of_eq_some stored
    · have before : other ∈ accesses.map (·.1) := by simpa [same] using member
      exact (congrArg Option.isSome (unchanged other same)).trans (state.inserted other before)
  · have held : cache.toPlain.entries = _ := state.entries_eq
    have maxFrames_eq : cache.toPlain.maxFrames = maxFrames := state.maxFrames_eq
    have maxHistory_eq : cache.toPlain.maxHistory = maxHistory := state.maxHistory_eq
    have inserted : ∀ key ∈ recency (accesses.map (·.1)),
        (latestInsert accesses outcomes key).isSome :=
      fun key member => state.inserted key (mem_recency.mp member)
    rw [entries, state.consistent.within.entries_access, held, maxFrames_eq, maxHistory_eq,
      keep_cons_without_stacked (recency_nodup _) inserted stored unchanged, List.map_append,
      List.map_singleton, recency_concat]

end Accessed

/-- Any accesses of a cache without entries succeed, and leave what the recency of their keys says.
-/
theorem exists_accessAll (maxFrames maxHistory : Nat) (fixed : Bool) (accesses : List (κ × ν)) :
    ∃ outcomes cache,
      accessAll accesses (empty maxFrames maxHistory fixed) = .ok (outcomes, cache) ∧
      cache.Accessed maxFrames maxHistory accesses outcomes := by
  induction accesses using List.reverseRecOn with
  | nil => exact ⟨[], _, rfl, .empty ..⟩
  | append_singleton earlier last ih =>
    obtain ⟨outcomes, cache, accessed, state⟩ := ih
    obtain ⟨after, step, stateAfter⟩ := state.exists_access last.1 last.2
    exact ⟨_, after, accessAll_concat accessed step, stateAfter⟩

/-- A new cache that is only accessed is a stack of the accessed keys by recency, the first
`maxFrames` of them live with the payload stored last and the next `maxHistory` ghosts, and the
reuse distance of a key decides how the next access to it is answered. -/
theorem reuse_distance_law {maxFrames maxHistory : Nat} {fixed : Bool} {start : Cache κ ν}
    (created : create maxFrames maxHistory fixed = .ok start) (accesses : List (κ × ν)) :
    let accessed := accesses.map (·.1)
    ∃ outcomes cache, accessAll accesses start = .ok (outcomes, cache) ∧
      cache.keys = (recency accessed).take (maxFrames + maxHistory) ∧
      cache.entries =
        stacked maxFrames maxHistory (recency accessed) (latestInsert accesses outcomes) ∧
      (∀ key ∈ accessed, (latestInsert accesses outcomes key).isSome) ∧
      ∀ key payload, ∃ found after, cache.access key payload = .ok (found, after) ∧
        after = cache.run (.get key :: if found.isHit then [] else [.insert key payload]) ∧
        (found.isHit ↔
          ∃ distance, reuseDistance accessed key = some distance ∧ distance < maxFrames) ∧
        (found.isNearMiss ↔
          ∃ distance, reuseDistance accessed key = some distance ∧ maxFrames ≤ distance ∧
            distance < maxFrames + maxHistory) ∧
        (found.isFarMiss ↔
          ∀ distance, reuseDistance accessed key = some distance →
            maxFrames + maxHistory ≤ distance) := by
  obtain ⟨-, rfl⟩ := create_eq_ok_iff.mp created
  intro accessed
  obtain ⟨outcomes, cache, answered, state⟩ :=
    exists_accessAll maxFrames maxHistory fixed accesses
  refine ⟨outcomes, cache, answered, ?_, state.entries_eq, state.inserted, fun key payload => ?_⟩
  · rw [keys, state.entries_eq, stacked, List.map_append, List.map_map, List.map_map,
      List.take_add]
    simp [Function.comp_def, accessed]
  · obtain ⟨after, step, -⟩ := state.exists_access key payload
    exact ⟨_, after, step, access_eq_run step, state.classified key⟩

/-- With room for one live entry and one ghost, a key that comes back after one other key is stored
anew, and the key before it is forgotten once a third one is accessed. -/
theorem reuse_distance_law_three_keys :
    (create 1 1 false : Except Fault (Cache Nat String)) = .ok (empty 1 1 false) ∧
      ∃ outcomes cache,
        accessAll [(1, "a"), (2, "b"), (1, "c"), (3, "d")] (empty 1 1 false : Cache Nat String) =
          .ok (outcomes, cache) ∧
        cache.keys = [3, 1] ∧
        ∃ found after, cache.access 2 "e" = .ok (found, after) ∧ found.isFarMiss := by
  have created : (create 1 1 false : Except Fault (Cache Nat String)) = .ok (empty 1 1 false) :=
    create_eq_ok_iff.mpr ⟨by decide, rfl⟩
  obtain ⟨outcomes, cache, answered, keys, -, -, next⟩ :=
    reuse_distance_law created [(1, "a"), (2, "b"), (1, "c"), (3, "d")]
  obtain ⟨found, after, accessed, -, -, -, farMiss⟩ := next 2 "e"
  refine ⟨created, outcomes, cache, answered, keys.trans (by decide), found, after, accessed, ?_⟩
  rw [farMiss]
  intro distance reused
  obtain rfl : 2 = distance := Option.some.inj ((by decide : some 2 = _).trans reused)
  decide

end Cache

end FrameKeep
