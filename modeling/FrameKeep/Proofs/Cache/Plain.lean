import FrameKeep.Proofs.Cache.Entries

/-!
# The plain cache

Trimming a plain cache is taking payloads first (`demote`) and dropping ghosts second (`evict`),
each of which counts by how much its bound was exceeded. A plain cache that is within its capacities
stays within them whatever is performed on it.
-/

namespace FrameKeep

/-- A resize is counted among the resizes and nowhere else. -/
theorem Metrics.exists_recordResize (metrics : Metrics) (action : Action) (needMemory : Bool) :
    ∃ clears grows shrinks,
      metrics.recordResize action needMemory = { metrics with clears, grows, shrinks } := by
  unfold recordResize
  split <;> exact ⟨_, _, _, rfl⟩

namespace PlainCache

variable {κ ν : Type}

/-- Takes the payloads of all but the first `maxLive` live entries. -/
def demote (cache : PlainCache κ ν) (maxLive : Nat) : PlainCache κ ν :=
  { cache with
    entries := Entry.keepLive maxLive cache.entries
    metrics :=
      { cache.metrics with
        demotions := cache.metrics.demotions + ((Entry.live cache.entries).length - maxLive) } }

/-- Drops all but the first `maxGhost` ghosts. -/
def evict (cache : PlainCache κ ν) (maxGhost : Nat) : PlainCache κ ν :=
  { cache with
    entries := Entry.keepGhosts maxGhost cache.entries
    metrics :=
      { cache.metrics with
        ghostEvictions :=
          cache.metrics.ghostEvictions + ((Entry.ghosts cache.entries).length - maxGhost) } }

/-- Trimming first demotes and then evicts, each within the capacities. -/
theorem trim_eq_evict_demote (cache : PlainCache κ ν) (maxLive maxGhost : Nat) :
    cache.trim maxLive maxGhost =
      (cache.demote (min maxLive cache.maxFrames)).evict (min maxGhost cache.maxHistory) := by
  have taken := Entry.length_live_keepLive (min maxLive cache.maxFrames) cache.entries
  have kept := Entry.length_ghosts_keepGhosts (min maxGhost cache.maxHistory)
    (Entry.keepLive (min maxLive cache.maxFrames) cache.entries)
  have before := Entry.length_live_add_length_ghosts
    (Entry.keepLive (min maxLive cache.maxFrames) cache.entries)
  have after := Entry.length_live_add_length_ghosts
    (Entry.keepGhosts (min maxGhost cache.maxHistory)
      (Entry.keepLive (min maxLive cache.maxFrames) cache.entries))
  rw [Entry.live_keepGhosts] at after
  simp only [trim, demote, evict, PlainCache.mk.injEq, Metrics.mk.injEq, and_true, true_and]
  omega

/-- The live entries that stay are the first ones. -/
theorem live_trim (cache : PlainCache κ ν) (maxLive maxGhost : Nat) :
    Entry.live (cache.trim maxLive maxGhost).entries =
      (Entry.live cache.entries).take (min maxLive cache.maxFrames) := by
  rw [trim, Entry.live_keepGhosts, Entry.live_keepLive]

/-- Trimming to the capacities leaves as many live entries as there is room for. -/
theorem live_trimToCapacity (cache : PlainCache κ ν) :
    Entry.live cache.trimToCapacity.entries = (Entry.live cache.entries).take cache.maxFrames := by
  rw [trimToCapacity, live_trim, Nat.min_self]

/-- Within its bound, demoting changes nothing. -/
theorem demote_eq_self {cache : PlainCache κ ν} {maxLive : Nat}
    (enough : (Entry.live cache.entries).length ≤ maxLive) : cache.demote maxLive = cache := by
  simp [demote, Entry.keepLive_eq_self enough, Nat.sub_eq_zero_of_le enough]

/-- Within its bound, evicting changes nothing. -/
theorem evict_eq_self {cache : PlainCache κ ν} {maxGhost : Nat}
    (enough : (Entry.ghosts cache.entries).length ≤ maxGhost) : cache.evict maxGhost = cache := by
  simp [evict, Entry.keepGhosts_eq_self enough, Nat.sub_eq_zero_of_le enough]

/-- Both capacities are kept. -/
structure Within (cache : PlainCache κ ν) : Prop where
  live_le : (Entry.live cache.entries).length ≤ cache.maxFrames
  ghost_le : (Entry.ghosts cache.entries).length ≤ cache.maxHistory

/-- A cache without entries keeps any capacities. -/
theorem within_empty (maxFrames maxHistory : Nat) (fixed : Bool) :
    (empty maxFrames maxHistory fixed : PlainCache κ ν).Within :=
  ⟨Nat.zero_le _, Nat.zero_le _⟩

/-- Trimming brings any cache within its capacities. -/
theorem within_trim (cache : PlainCache κ ν) (maxLive maxGhost : Nat) :
    (cache.trim maxLive maxGhost).Within := by
  constructor
  · simp only [trim, Entry.live_keepGhosts, Entry.length_live_keepLive]
    omega
  · simp only [trim, Entry.length_ghosts_keepGhosts]
    omega

/-- Within the capacities, trimming to them changes nothing. -/
theorem Within.trimToCapacity_eq_self {cache : PlainCache κ ν} (within : cache.Within) :
    cache.trimToCapacity = cache := by
  have demoted : cache.demote cache.maxFrames = cache := demote_eq_self within.live_le
  have evicted : cache.evict cache.maxHistory = cache := evict_eq_self within.ghost_le
  rw [trimToCapacity, trim_eq_evict_demote, Nat.min_self, Nat.min_self, demoted, evicted]

/-- Setting the room for live entries keeps both capacities. -/
theorem within_setMaxFrames (cache : PlainCache κ ν) (maxFrames : Nat) :
    (cache.setMaxFrames maxFrames).Within := within_trim _ _ _

/-- What adjusting the size is about to do: whether it empties the cache first, and the live
capacity that it sets. There is nothing to do if the policy is switched off or cannot be
followed. -/
def resize? (cache : PlainCache κ ν) (needMemory : Bool) : Option (Bool × Nat) :=
  if cache.fixed then none
  else
    match cache.window.recommend? with
    | .error _ => none
    | .ok action =>
      match targetFrames cache.maxFrames action needMemory with
      | .error _ => none
      | .ok maxFrames => some (empties cache.maxFrames action needMemory, maxFrames)

/-- A cache that is asked to adjust its size is resized, or else loses at most the look-ups
counted. -/
theorem adjustSize_cases (cache : PlainCache κ ν) (needMemory : Bool) :
    (cache.resize? needMemory = none ∧
        ∃ window, (cache.adjustSize needMemory).state = { cache with window }) ∨
      ∃ emptied maxFrames action, cache.resize? needMemory = some (emptied, maxFrames) ∧
        let asked : PlainCache κ ν := { cache with window := ∅ }
        let resized := (if emptied then asked.clear else asked).setMaxFrames maxFrames
        (cache.adjustSize needMemory).state =
          { resized with metrics := resized.metrics.recordResize action needMemory } := by
  unfold resize? adjustSize
  by_cases fixed : cache.fixed
  · rw [if_pos fixed, if_pos fixed]
    exact .inl ⟨rfl, cache.window, rfl⟩
  · simp only [if_neg fixed, recommendSize]
    cases cache.window.recommend? with
    | error fault => exact .inl ⟨rfl, ∅, rfl⟩
    | ok action =>
      simp only [Step.andThen]
      cases targetFrames cache.maxFrames action needMemory with
      | error fault => exact .inl ⟨rfl, ∅, rfl⟩
      | ok maxFrames => exact .inr ⟨_, maxFrames, action, rfl, rfl⟩

/-- Asking for a recommendation empties the window. -/
theorem recommendSize_state (cache : PlainCache κ ν) :
    cache.recommendSize.state = { cache with window := ∅ } := by
  unfold recommendSize
  split <;> rfl

private theorem Within.recommendSize {cache : PlainCache κ ν} (within : cache.Within) :
    cache.recommendSize.state.Within := by
  rw [recommendSize_state]
  exact ⟨within.live_le, within.ghost_le⟩

/-- Adjusting the size keeps both capacities. -/
theorem Within.adjustSize {cache : PlainCache κ ν} (within : cache.Within) (needMemory : Bool) :
    (cache.adjustSize needMemory).state.Within := by
  rcases cache.adjustSize_cases needMemory with
    ⟨-, window, unchanged⟩ | ⟨emptied, maxFrames, action, -, resized⟩
  · rw [unchanged]
    exact ⟨within.live_le, within.ghost_le⟩
  · rw [resized]
    exact ⟨(within_setMaxFrames _ maxFrames).live_le, (within_setMaxFrames _ maxFrames).ghost_le⟩

variable [DecidableEq κ]

/-- A look-up keeps both capacities. -/
theorem Within.lookup {cache : PlainCache κ ν} (within : cache.Within) (key : κ) :
    (cache.lookup key).2.Within := by
  unfold PlainCache.lookup
  cases found : Entry.find? cache.entries key with
  | none => exact ⟨within.live_le, within.ghost_le⟩
  | some entry =>
    exact ⟨Nat.le_trans (Entry.length_live_subperm (Entry.cons_without_subperm found))
        within.live_le,
      Nat.le_trans (Entry.length_ghosts_subperm (Entry.cons_without_subperm found))
        within.ghost_le⟩

/-- A removal keeps both capacities. -/
theorem Within.remove {cache : PlainCache κ ν} (within : cache.Within) (key : κ) :
    (cache.remove key).2.Within := by
  have fewer : (Entry.without cache.entries key).Subperm cache.entries :=
    List.filter_sublist.subperm
  exact ⟨Nat.le_trans (Entry.length_live_subperm fewer) within.live_le,
    Nat.le_trans (Entry.length_ghosts_subperm fewer) within.ghost_le⟩

/-- Whatever is performed, the capacities are kept. -/
theorem Within.perform {cache : PlainCache κ ν} (within : cache.Within) (op : Cache.Op κ ν) :
    (cache.perform op).state.Within := by
  cases op with
  | lookup key => exact within.lookup key
  | get key => exact within.lookup key
  | peek key => exact within
  | contains key => exact within
  | isLive key => exact within
  | insert key payload => exact within_trim _ _ _
  | remove key => exact within.remove key
  | clear => exact ⟨Nat.zero_le _, Nat.zero_le _⟩
  | trim maxLive maxGhost => exact within_trim _ _ _
  | setMaxFrames maxFrames => exact within_trim _ _ _
  | setMaxHistory maxHistory => exact within_trim _ _ _
  | recommendSize => exact within.recommendSize
  | adjustSize needMemory => exact within.adjustSize needMemory
  | resetMetrics => exact ⟨within.live_le, within.ghost_le⟩

end PlainCache

end FrameKeep
