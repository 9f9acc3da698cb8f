import FrameKeep.Proofs.Cache.Plain

/-!
# Stages of an operation

Whatever an operation does to the entries of a plain cache, it first arranges them anew and then
trims them. The stage of an operation is what lies between: the entries about to be trimmed and the
bounds that they are trimmed to. Which payloads an operation gives up can be read off its stage, and
so can whether a remembered key owes its entry to the operation or was remembered before.
-/

namespace FrameKeep

variable {κ ν : Type}

/-- The operation stores a payload under the key. -/
def Cache.Op.Inserts (op : Cache.Op κ ν) (key : κ) : Prop := ∃ payload, op = .insert key payload

/-- Entries about to be trimmed, with the bounds for live entries and for ghosts. -/
structure Stage (κ ν : Type) where
  entries : List (Entry κ ν)
  maxLive : Nat
  maxGhost : Nat

namespace Stage

/-- The entries once they are trimmed. -/
def trimmed (stage : Stage κ ν) : List (Entry κ ν) :=
  Entry.keepGhosts stage.maxGhost (Entry.keepLive stage.maxLive stage.entries)

/-- The keys that give up their payload. -/
def demoted (stage : Stage κ ν) : List κ :=
  ((Entry.live stage.entries).drop stage.maxLive).map (·.key)

variable {stage : Stage κ ν} {key : κ}

/-- What is live after trimming is among the first live entries before. -/
theorem mem_take_of_live {payload : ν} (live : { key, payload := some payload } ∈ stage.trimmed) :
    { key, payload := some payload } ∈ (Entry.live stage.entries).take stage.maxLive := by
  have kept : { key, payload := some payload } ∈ Entry.live stage.trimmed :=
    List.mem_filter.mpr ⟨live, rfl⟩
  rwa [trimmed, Entry.live_keepGhosts, Entry.live_keepLive] at kept

/-- The live entries that stay are those of the keys that are not demoted. -/
theorem live_mem_trimmed_iff {payload : ν} (distinct : (stage.entries.map (·.key)).Nodup) :
    { key, payload := some payload } ∈ stage.trimmed ↔
      { key, payload := some payload } ∈ stage.entries ∧ key ∉ stage.demoted := by
  have parts := List.take_append_drop stage.maxLive (Entry.live stage.entries)
  constructor
  · intro live
    have kept := mem_take_of_live live
    have distinctLive := Entry.nodup_live distinct
    rw [← parts, List.map_append] at distinctLive
    refine ⟨(List.mem_filter.mp (List.mem_of_mem_take kept)).1, fun demoted => ?_⟩
    exact (List.nodup_append.mp distinctLive).2.2 key (List.mem_map_of_mem kept) key demoted rfl
  · rintro ⟨member, kept⟩
    have live : { key, payload := some payload } ∈ Entry.live stage.entries :=
      List.mem_filter.mpr ⟨member, rfl⟩
    rw [← parts, List.mem_append] at live
    rcases live with first | behind
    · rw [← Entry.live_keepLive, ← Entry.live_keepGhosts stage.maxGhost] at first
      exact (List.mem_filter.mp first).1
    · exact absurd (List.mem_map_of_mem behind) kept

/-- Trimming remembers no key that was not remembered before. -/
theorem mem_keys_of_trimmed (known : key ∈ stage.trimmed.map (·.key)) :
    key ∈ stage.entries.map (·.key) := by
  have kept := ((Entry.keepGhosts_sublist ..).map _).subset known
  rwa [Entry.map_key_keepLive] at kept

/-- Only live entries are demoted. -/
theorem exists_live_of_mem_demoted (demoted : key ∈ stage.demoted) :
    ∃ payload, { key, payload := some payload } ∈ stage.entries := by
  rw [Stage.demoted, List.map_drop] at demoted
  exact Entry.mem_map_key_live.mp (List.mem_of_mem_drop demoted)

/-- A ghost after trimming was a ghost before or was demoted. -/
theorem mem_entries_or_mem_demoted_of_ghost (ghost : { key, payload := none } ∈ stage.trimmed) :
    { key, payload := none } ∈ stage.entries ∨ key ∈ stage.demoted :=
  Entry.mem_keepLive_none ((Entry.keepGhosts_sublist ..).subset ghost)

end Stage

namespace PlainCache

/-- The entries of a cache under its own capacities. -/
def atRest (cache : PlainCache κ ν) : Stage κ ν :=
  { entries := cache.entries, maxLive := cache.maxFrames, maxGhost := cache.maxHistory }

/-- The stage of adjusting the size. -/
def adjustStage (cache : PlainCache κ ν) (needMemory : Bool) : Stage κ ν :=
  match cache.resize? needMemory with
  | none => cache.atRest
  | some (emptied, maxFrames) =>
    { entries := if emptied then [] else cache.entries
      maxLive := maxFrames
      maxGhost := cache.maxHistory }

/-- The stage of an operation. One that trims nothing leaves the cache within its capacities, so
that trimming to these changes nothing. -/
def stage [DecidableEq κ] (cache : PlainCache κ ν) : Cache.Op κ ν → Stage κ ν
  | .lookup key | .get key => (cache.lookup key).2.atRest
  | .peek _ | .contains _ | .isLive _ | .recommendSize | .resetMetrics => cache.atRest
  | .insert key payload =>
    { cache.atRest with
      entries := { key, payload := some payload } :: Entry.without cache.entries key }
  | .remove key => (cache.remove key).2.atRest
  | .clear => cache.clear.atRest
  | .trim maxLive maxGhost =>
    { entries := cache.entries
      maxLive := min maxLive cache.maxFrames
      maxGhost := min maxGhost cache.maxHistory }
  | .setMaxFrames maxFrames => { cache.atRest with maxLive := maxFrames }
  | .setMaxHistory maxHistory => { cache.atRest with maxGhost := maxHistory }
  | .adjustSize needMemory => cache.adjustStage needMemory

/-- The demotions counted before an operation demotes anything. -/
def demotionsBefore (cache : PlainCache κ ν) : Cache.Op κ ν → Nat
  | .resetMetrics => 0
  | _ => cache.metrics.demotions

end PlainCache

/-- What a stage leads to: the entries are trimmed, and one more demotion is counted for each key
demoted. -/
structure Stage.LeadsTo (stage : Stage κ ν) (demotions : Nat) (after : PlainCache κ ν) : Prop where
  entries_eq : after.entries = stage.trimmed
  demotions_eq : after.metrics.demotions = demotions + stage.demoted.length

namespace PlainCache

private theorem leadsTo_trim (cache : PlainCache κ ν) (maxLive maxGhost : Nat) :
    Stage.LeadsTo
      { entries := cache.entries
        maxLive := min maxLive cache.maxFrames
        maxGhost := min maxGhost cache.maxHistory }
      cache.metrics.demotions (cache.trim maxLive maxGhost) where
  entries_eq := rfl
  demotions_eq := by
    simp only [trim, Stage.demoted, Entry.live_keepLive, List.length_take, List.length_map,
      List.length_drop]
    omega

private theorem leadsTo_trimToCapacity (cache : PlainCache κ ν) :
    cache.atRest.LeadsTo cache.metrics.demotions cache.trimToCapacity := by
  have trimmed := cache.leadsTo_trim cache.maxFrames cache.maxHistory
  rwa [Nat.min_self, Nat.min_self] at trimmed

/-- A cache within its capacities is trimmed already. -/
theorem Within.leadsTo {cache : PlainCache κ ν} (within : cache.Within) :
    cache.atRest.LeadsTo cache.metrics.demotions cache := by
  have trimmed := cache.leadsTo_trimToCapacity
  rwa [within.trimToCapacity_eq_self] at trimmed

/-- Adjusting the size demotes as setting the live capacity does. -/
theorem Within.leadsTo_adjustSize {cache : PlainCache κ ν} (within : cache.Within)
    (needMemory : Bool) :
    (cache.adjustStage needMemory).LeadsTo cache.metrics.demotions
      (cache.adjustSize needMemory).state := by
  unfold adjustStage
  rcases cache.adjustSize_cases needMemory with
    ⟨nothing, window, unchanged⟩ | ⟨emptied, maxFrames, action, resize, resized⟩
  · rw [nothing, unchanged]
    exact ⟨within.leadsTo.entries_eq, within.leadsTo.demotions_eq⟩
  · have counted (metrics : Metrics) :
        (metrics.recordResize action needMemory).demotions = metrics.demotions := by
      cases action <;> cases needMemory <;> rfl
    rw [resize, resized]
    cases emptied with
    | true =>
      have trimmed := leadsTo_trimToCapacity { cache.clear with maxFrames }
      exact ⟨trimmed.entries_eq, (counted _).trans trimmed.demotions_eq⟩
    | false =>
      have trimmed := leadsTo_trimToCapacity { cache with maxFrames, window := ∅ }
      exact ⟨trimmed.entries_eq, (counted _).trans trimmed.demotions_eq⟩

variable [DecidableEq κ]

/-- Every operation trims its stage, and counts the demotions of that. -/
theorem Within.leadsTo_perform {cache : PlainCache κ ν} (within : cache.Within)
    (op : Cache.Op κ ν) :
    (cache.stage op).LeadsTo (cache.demotionsBefore op) (cache.perform op).state := by
  cases op with
  | lookup key => exact (within.lookup key).leadsTo
  | get key => exact (within.lookup key).leadsTo
  | peek key => exact within.leadsTo
  | contains key => exact within.leadsTo
  | isLive key => exact within.leadsTo
  | insert key payload =>
    exact leadsTo_trimToCapacity { cache with
      entries := { key, payload := some payload } :: Entry.without cache.entries key
      metrics := cache.metrics.recordInsert }
  | remove key => exact (within.remove key).leadsTo
  | clear => exact (Within.perform within .clear).leadsTo
  | trim maxLive maxGhost => exact leadsTo_trim ..
  | setMaxFrames maxFrames => exact leadsTo_trimToCapacity { cache with maxFrames }
  | setMaxHistory maxHistory => exact leadsTo_trimToCapacity { cache with maxHistory }
  | recommendSize =>
    change cache.atRest.LeadsTo cache.metrics.demotions cache.recommendSize.state
    rw [recommendSize_state]
    exact ⟨within.leadsTo.entries_eq, within.leadsTo.demotions_eq⟩
  | adjustSize needMemory => exact within.leadsTo_adjustSize needMemory
  | resetMetrics =>
    refine ⟨within.leadsTo.entries_eq, ?_⟩
    change 0 = 0 + cache.atRest.demoted.length
    have none := within.leadsTo.demotions_eq
    omega

/-! ### Where entries come from -/

/-- The operation forgets the key: it removes the key or empties the cache. -/
inductive Forgets (cache : PlainCache κ ν) : Cache.Op κ ν → κ → Prop where
  | remove (key : κ) : cache.Forgets (.remove key) key
  | clear (key : κ) : cache.Forgets .clear key
  | adjustSize {needMemory : Bool} {maxFrames : Nat}
      (emptied : cache.resize? needMemory = some (true, maxFrames)) (key : κ) :
      cache.Forgets (.adjustSize needMemory) key

private theorem mem_entries_of_lookup {cache : PlainCache κ ν} {key : κ} {entry : Entry κ ν}
    (member : entry ∈ (cache.lookup key).2.entries) : entry ∈ cache.entries := by
  unfold lookup at member
  cases found : Entry.find? cache.entries key with
  | none => simpa [found] using member
  | some first =>
    simp only [found] at member
    exact (Entry.cons_without_subperm found).subset member

/-- A look-up reorders the entries and loses none. -/
theorem mem_lookup_of_mem_entries {cache : PlainCache κ ν} {entry : Entry κ ν}
    (distinct : (cache.entries.map (·.key)).Nodup) (member : entry ∈ cache.entries) (key : κ) :
    entry ∈ (cache.lookup key).2.entries := by
  unfold lookup
  cases found : Entry.find? cache.entries key with
  | none => exact member
  | some first =>
    by_cases same : entry.key = key
    · subst same
      have only := (Entry.find?_eq_some_iff distinct).mpr member
      obtain rfl := Option.some.inj (found.symm.trans only)
      exact List.mem_cons_self
    · exact List.mem_cons_of_mem _ (List.mem_filter.mpr ⟨member, by simpa using same⟩)

/-- An entry of a stage was stored by the operation, or else was there before and its key neither
stored nor forgotten. -/
theorem mem_stage {cache : PlainCache κ ν} {op : Cache.Op κ ν} {key : κ} {payload? : Option ν}
    (member : { key, payload := payload? } ∈ (cache.stage op).entries) :
    (∃ payload, op = .insert key payload ∧ payload? = some payload) ∨
      ¬ op.Inserts key ∧ ¬ cache.Forgets op key ∧ { key, payload := payload? } ∈ cache.entries := by
  cases op with
  | lookup other => exact .inr ⟨nofun, nofun, mem_entries_of_lookup member⟩
  | get other => exact .inr ⟨nofun, nofun, mem_entries_of_lookup member⟩
  | insert other payload =>
    rcases List.mem_cons.mp member with same | inRest
    · obtain ⟨rfl, rfl⟩ := Entry.mk.inj same
      exact .inl ⟨payload, rfl, rfl⟩
    · obtain ⟨before, apart⟩ := List.mem_filter.mp inRest
      refine .inr ⟨?_, nofun, before⟩
      rintro ⟨-, ⟨⟩⟩
      simp at apart
  | remove other =>
    obtain ⟨before, apart⟩ := List.mem_filter.mp member
    refine .inr ⟨nofun, ?_, before⟩
    rintro ⟨⟩
    simp at apart
  | clear => simp [stage, PlainCache.clear, atRest] at member
  | adjustSize needMemory =>
    change _ ∈ (cache.adjustStage needMemory).entries at member
    cases resize : cache.resize? needMemory with
    | none =>
      simp only [adjustStage, resize, atRest] at member
      refine .inr ⟨nofun, ?_, member⟩
      rintro (_ | _ | ⟨emptied, -⟩)
      simp [resize] at emptied
    | some result =>
      obtain ⟨emptied, maxFrames⟩ := result
      cases emptied with
      | true => simp [adjustStage, resize] at member
      | false =>
        simp only [adjustStage, resize] at member
        refine .inr ⟨nofun, ?_, by simpa using member⟩
        rintro (_ | _ | ⟨emptied, -⟩)
        simp [resize] at emptied
  | peek other | contains other | isLive other | trim maxLive maxGhost | setMaxFrames maxFrames
  | setMaxHistory maxHistory | recommendSize | resetMetrics => exact .inr ⟨nofun, nofun, member⟩

/-- What the operation neither stores nor forgets is in its stage. -/
theorem mem_stage_of_mem {cache : PlainCache κ ν} {op : Cache.Op κ ν} {key : κ}
    {payload? : Option ν} (distinct : (cache.entries.map (·.key)).Nodup)
    (kept : ¬ op.Inserts key) (remembered : ¬ cache.Forgets op key)
    (member : { key, payload := payload? } ∈ cache.entries) :
    { key, payload := payload? } ∈ (cache.stage op).entries := by
  cases op with
  | lookup other => exact mem_lookup_of_mem_entries distinct member other
  | get other => exact mem_lookup_of_mem_entries distinct member other
  | insert other payload =>
    have apart : key ≠ other := by
      rintro rfl
      exact kept ⟨payload, rfl⟩
    exact List.mem_cons_of_mem _ (List.mem_filter.mpr ⟨member, by simpa using apart⟩)
  | remove other =>
    have apart : key ≠ other := by
      rintro rfl
      exact remembered (.remove key)
    exact List.mem_filter.mpr ⟨member, by simpa using apart⟩
  | clear => exact absurd (.clear key) remembered
  | adjustSize needMemory =>
    change _ ∈ (cache.adjustStage needMemory).entries
    unfold adjustStage
    cases resize : cache.resize? needMemory with
    | none => exact member
    | some result =>
      obtain ⟨emptied, maxFrames⟩ := result
      cases emptied with
      | true => exact absurd (.adjustSize resize key) remembered
      | false => exact member
  | peek other | contains other | isLive other | trim maxLive maxGhost | setMaxFrames maxFrames
  | setMaxHistory maxHistory | recommendSize | resetMetrics => exact member

/-- No operation has a key twice when it comes to trim. -/
theorem nodup_stage {cache : PlainCache κ ν} (distinct : (cache.entries.map (·.key)).Nodup)
    (op : Cache.Op κ ν) : ((cache.stage op).entries.map (·.key)).Nodup := by
  have without (key : κ) : ((Entry.without cache.entries key).map (·.key)).Nodup :=
    distinct.sublist (List.filter_sublist.map _)
  have fresh (key : κ) : key ∉ (Entry.without cache.entries key).map (·.key) := by
    simp [Entry.without]
  have looked (key : κ) : ((cache.lookup key).2.entries.map (·.key)).Nodup := by
    unfold lookup
    cases found : Entry.find? cache.entries key with
    | none => exact distinct
    | some entry =>
      obtain rfl := Entry.key_of_find?_eq_some found
      exact List.nodup_cons.mpr ⟨fresh entry.key, without entry.key⟩
  cases op with
  | lookup key => exact looked key
  | get key => exact looked key
  | insert key payload => exact List.nodup_cons.mpr ⟨fresh key, without key⟩
  | remove key => exact without key
  | clear => exact List.nodup_nil
  | adjustSize needMemory =>
    change ((cache.adjustStage needMemory).entries.map _).Nodup
    unfold adjustStage
    split
    next => exact distinct
    next emptied maxFrames _ => cases emptied <;> simp [distinct]
  | peek key | contains key | isLive key | trim maxLive maxGhost | setMaxFrames maxFrames
  | setMaxHistory maxHistory | recommendSize | resetMetrics => exact distinct

end PlainCache

end FrameKeep
