import FrameKeep.Proofs.Cache.Refinement

/-!
# Accesses

An access is a look-up followed by an insertion unless it was a hit. On a plain cache that is within
its capacities it puts the key first, with the payload that it had or else the one given, and then
keeps within the capacities.
-/

namespace FrameKeep

variable {κ ν : Type} [DecidableEq κ]

namespace PlainCache

/-- Looks a key up, and stores `payload` under it unless that was a hit. -/
def access (cache : PlainCache κ ν) (key : κ) (payload : ν) : Lookup ν × PlainCache κ ν :=
  let (found, looked) := cache.lookup key
  (found, if found.isHit then looked else looked.insert key payload)

@[simp] theorem maxFrames_access (cache : PlainCache κ ν) (key : κ) (payload : ν) :
    (cache.access key payload).2.maxFrames = cache.maxFrames := by
  unfold access
  dsimp only
  split <;> rfl

@[simp] theorem maxHistory_access (cache : PlainCache κ ν) (key : κ) (payload : ν) :
    (cache.access key payload).2.maxHistory = cache.maxHistory := by
  unfold access
  dsimp only
  split <;> rfl

@[simp] theorem fixed_access (cache : PlainCache κ ν) (key : κ) (payload : ν) :
    (cache.access key payload).2.fixed = cache.fixed := by
  unfold access
  dsimp only
  split <;> rfl

/-- An access is counted as the look-up that it starts with. -/
theorem window_access (cache : PlainCache κ ν) (key : κ) (payload : ν) :
    (cache.access key payload).2.window =
      cache.window.record (cache.access key payload).1 := by
  unfold access
  dsimp only
  split <;> rfl

/-- A look-up misses far on an unknown key and near on a ghost, and hits a live entry. -/
theorem lookup_found (cache : PlainCache κ ν) (key : κ) :
    (cache.lookup key).1 =
      match Entry.find? cache.entries key with
      | none => .farMiss
      | some entry => Lookup.ofRemembered entry.payload := by
  unfold lookup
  cases Entry.find? cache.entries key <;> rfl

/-- An insertion puts its entry first, and both capacities are kept again. -/
theorem entries_insert (cache : PlainCache κ ν) (key : κ) (payload : ν) :
    (cache.insert key payload).entries =
      Entry.keepGhosts cache.maxHistory (Entry.keepLive cache.maxFrames
        ({ key, payload := some payload } :: Entry.without cache.entries key)) := by
  simp only [insert, trimToCapacity, trim, Nat.min_self]

/-- Where there is room for one more payload nothing is taken or dropped to store it. -/
theorem insert_of_room {cache : PlainCache κ ν} {key : κ}
    (liveRoom : (Entry.live (Entry.without cache.entries key)).length < cache.maxFrames)
    (ghostRoom : (Entry.ghosts (Entry.without cache.entries key)).length ≤ cache.maxHistory)
    (payload : ν) :
    cache.insert key payload =
      { cache with
        entries := { key, payload := some payload } :: Entry.without cache.entries key
        metrics := cache.metrics.recordInsert } :=
  Within.trimToCapacity_eq_self ⟨liveRoom, ghostRoom⟩

/-- Looking a key up leaves the entries of all other keys as they were. -/
theorem without_lookup (cache : PlainCache κ ν) (key : κ) :
    Entry.without (cache.lookup key).2.entries key = Entry.without cache.entries key := by
  unfold lookup
  cases found : Entry.find? cache.entries key with
  | none => rfl
  | some entry => simp [Entry.without, Entry.key_of_find?_eq_some found]

/-- What a hit finds is put first. -/
theorem entries_lookup_of_hit {cache : PlainCache κ ν} {key : κ} {payload : ν}
    (hit : (cache.lookup key).1 = .hit payload) :
    (cache.lookup key).2.entries =
      { key, payload := some payload } :: Entry.without cache.entries key := by
  unfold lookup at hit ⊢
  cases found : Entry.find? cache.entries key with
  | none => simp [found] at hit
  | some entry =>
    obtain rfl := Entry.key_of_find?_eq_some found
    obtain ⟨key, _ | held⟩ := entry
    · simp [found, Lookup.ofRemembered] at hit
    · simpa [found, Lookup.ofRemembered] using hit

/-- An access leaves what inserting the fetched payload would leave, except that a hit keeps its
own. -/
theorem Within.entries_access {cache : PlainCache κ ν} (within : cache.Within) (key : κ)
    (payload : ν) :
    (cache.access key payload).2.entries =
      Entry.keepGhosts cache.maxHistory (Entry.keepLive cache.maxFrames
        ({ key, payload := some ((cache.lookup key).1.payload?.getD payload) } ::
          Entry.without cache.entries key)) := by
  have looked : (cache.lookup key).2.Within := within.lookup key
  have missed : (cache.lookup key).1.isHit = false →
      (cache.access key payload).2 = (cache.lookup key).2.insert key payload := by
    intro miss
    simp [access, miss]
  cases found : (cache.lookup key).1 with
  | hit held =>
    have unchanged : (cache.access key payload).2 = (cache.lookup key).2 := by
      simp [access, found, Lookup.isHit]
    change _ = Entry.keepGhosts (cache.lookup key).2.maxHistory
      (Entry.keepLive (cache.lookup key).2.maxFrames ({ key, payload := some held } :: _))
    rw [← entries_lookup_of_hit found, Entry.keepLive_eq_self looked.live_le,
      Entry.keepGhosts_eq_self looked.ghost_le, unchanged]
  | nearMiss =>
    rw [missed (by rw [found]; rfl), entries_insert, without_lookup]
    rfl
  | farMiss =>
    rw [missed (by rw [found]; rfl), entries_insert, without_lookup]
    rfl

end PlainCache

namespace Cache

variable [Hashable κ]

/-- An access is its two operations one after the other. -/
theorem access_eq_run {cache after : Cache κ ν} {key : κ} {payload : ν} {found : Lookup ν}
    (accessed : cache.access key payload = .ok (found, after)) :
    after = cache.run (.get key :: if found.isHit then [] else [.insert key payload]) := by
  rcases looked : cache.lookup key with ⟨outcome, promoted⟩
  have asked : (cache.perform (.get key)).state = promoted := by
    simp [perform, get, looked, Step.done]
  simp only [access, looked] at accessed
  by_cases hit : outcome.isHit
  · obtain ⟨rfl, rfl⟩ : outcome = found ∧ promoted = after := by simpa [hit] using accessed
    simpa [run, hit] using asked.symm
  · cases inserted : promoted.insert key payload with
    | error fault => simp [hit, inserted, bind, Except.bind] at accessed
    | ok stored =>
      obtain ⟨rfl, rfl⟩ : outcome = found ∧ stored = after := by
        simpa [hit, inserted, bind, Except.bind] using accessed
      have kept : (promoted.perform (.insert key payload)).state = stored := by
        simp [perform, quietly, inserted, Step.ofExcept, Step.done, Except.map]
      simp [run, hit, asked, kept]

/-- The last of several accesses is made of the cache the others leave. -/
theorem accessAll_concat {accesses : List (κ × ν)} {start cache after : Cache κ ν}
    {outcomes : List (Lookup ν)} {key : κ} {payload : ν} {found : Lookup ν}
    (earlier : accessAll accesses start = .ok (outcomes, cache))
    (last : cache.access key payload = .ok (found, after)) :
    accessAll (accesses ++ [(key, payload)]) start = .ok (outcomes ++ [found], after) := by
  induction accesses generalizing start outcomes with
  | nil =>
    obtain ⟨rfl, rfl⟩ : [] = outcomes ∧ start = cache := by simpa [accessAll] using earlier
    simp [accessAll, last, bind, Except.bind]
  | cons first rest ih =>
    obtain ⟨firstKey, firstPayload⟩ := first
    simp only [accessAll, List.cons_append] at earlier ⊢
    cases accessed : start.access firstKey firstPayload with
    | error fault => simp [accessed, bind, Except.bind] at earlier
    | ok next =>
      cases remaining : accessAll rest next.2 with
      | error fault => simp [accessed, remaining, bind, Except.bind] at earlier
      | ok result =>
        simp only [accessed, remaining, bind, Except.bind] at earlier
        obtain ⟨rfl, rfl⟩ := Prod.mk.inj (Except.ok.inj earlier)
        simp only [ih remaining, bind, Except.bind, List.cons_append]

/-- An access to a consistent cache is the access to its plain cache, and never faults. -/
theorem Consistent.exists_access {cache : Cache κ ν} (consistent : cache.Consistent) (key : κ)
    (payload : ν) :
    ∃ after, cache.access key payload = .ok ((cache.toPlain.access key payload).1, after) ∧
      after.Consistent ∧ after.toPlain = (cache.toPlain.access key payload).2 := by
  obtain ⟨⟨cells, arranged⟩, within⟩ := consistent
  obtain ⟨lookedCells, arrangedLooked, same⟩ := arranged.exists_lookup key
  have withinLooked := within.lookup key
  rcases looked : cache.lookup key with ⟨outcome, promoted⟩
  rw [looked] at arrangedLooked same
  rw [← same] at withinLooked
  simp only [access, looked, PlainCache.access, ← same]
  by_cases hit : outcome.isHit
  · simp only [if_pos hit]
    exact ⟨promoted, rfl, ⟨⟨_, arrangedLooked⟩, withinLooked⟩, rfl⟩
  · obtain ⟨after, others, inserted, arrangedAfter, plain⟩ :=
      arrangedLooked.exists_insert key payload
    simp only [if_neg hit, inserted]
    refine ⟨after, rfl, ⟨⟨others, arrangedAfter⟩, ?_⟩, plain⟩
    rw [plain]
    exact PlainCache.within_trim _ _ _

end Cache

end FrameKeep
