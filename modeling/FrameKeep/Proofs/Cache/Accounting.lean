import Mathlib.Data.List.DropRight
import FrameKeep.Proofs.Cache.Invariant
import FrameKeep.Proofs.Cache.LiveEntries

/-!
# Accounting

Every payload that was stored is live, or was demoted, or was destroyed while live; every payload
that was demoted is remembered by a ghost, or its ghost was evicted, or was destroyed as a ghost. A
`Flow` says so of what happens between two states. Flows compose, and each operation is one, so the
counters of a cache balance after every run. Look-ups are counted once over the lifetime and once
since the resize policy last used them up.
-/

namespace FrameKeep

variable {κ ν : Type}

/-! ### Counts of look-ups -/

namespace Tally

@[simp] theorem total_empty : (∅ : Tally).total = 0 := rfl

@[simp] theorem nearMisses_empty : (∅ : Tally).nearMisses = 0 := rfl

@[simp] theorem total_record (tally : Tally) (found : Lookup ν) :
    (tally.record found).total = tally.total + 1 := by
  cases found <;> simp only [record, total] <;> omega

@[simp] theorem nearMisses_record (tally : Tally) (found : Lookup ν) :
    (tally.record found).nearMisses = tally.nearMisses + if found.isNearMiss then 1 else 0 := by
  cases found <;> rfl

/-- The tally has as many look-ups of each outcome as there are among `outcomes`. -/
structure Counts (tally : Tally) (outcomes : List (Lookup ν)) : Prop where
  hits_eq : tally.hits = outcomes.countP (·.isHit)
  nearMisses_eq : tally.nearMisses = outcomes.countP (·.isNearMiss)
  farMisses_eq : tally.farMisses = outcomes.countP (·.isFarMiss)

/-- An empty tally counts no look-up. -/
theorem counts_empty : (∅ : Tally).Counts ([] : List (Lookup ν)) := ⟨rfl, rfl, rfl⟩

/-- Recording an outcome counts it too. -/
theorem Counts.record {tally : Tally} {outcomes : List (Lookup ν)} (counts : tally.Counts outcomes)
    (found : Lookup ν) : (tally.record found).Counts (outcomes ++ [found]) := by
  have ⟨hits, nearMisses, farMisses⟩ := counts
  constructor
  · rw [List.countP_append, ← hits]
    cases found <;> rfl
  · rw [List.countP_append, ← nearMisses]
    cases found <;> rfl
  · rw [List.countP_append, ← farMisses]
    cases found <;> rfl

/-- Recording outcomes one after the other counts them too. -/
theorem Counts.foldl_record {tally : Tally} {outcomes : List (Lookup ν)}
    (counts : tally.Counts outcomes) (found : List (Lookup ν)) :
    (found.foldl Tally.record tally).Counts (outcomes ++ found) := by
  induction found generalizing tally outcomes with
  | nil => simpa using counts
  | cons first rest ih => simpa using ih (counts.record first)

end Tally

namespace Cache.Op

/-- Whether the operation stores a payload. -/
def isInsert : Op κ ν → Bool
  | .insert _ _ => true
  | _ => false

/-- Whether the operation uses up the look-ups counted for the resize policy. -/
def resetsWindow (fixed : Bool) : Op κ ν → Bool
  | .clear | .recommendSize => true
  | .adjustSize _ => !fixed
  | _ => false

end Cache.Op

/-! ### Flows -/

namespace PlainCache

/-- From one state to the other `stored` payloads were stored and `lost` are the entries that were
destroyed other than by eviction. -/
structure Flow (before after : PlainCache κ ν) (stored : Nat) (lost : List (Entry κ ν)) : Prop where
  inserts_eq : after.metrics.inserts = before.metrics.inserts + stored
  live_eq : (Entry.live after.entries).length + after.metrics.demotions +
      (Entry.live lost).length =
    (Entry.live before.entries).length + before.metrics.demotions + stored
  ghosts_eq : (Entry.ghosts after.entries).length + after.metrics.ghostEvictions +
      (Entry.ghosts lost).length + before.metrics.demotions =
    (Entry.ghosts before.entries).length + before.metrics.ghostEvictions + after.metrics.demotions

namespace Flow

variable {first second third : PlainCache κ ν} {stored more : Nat} {lost others : List (Entry κ ν)}

/-- What two changes in a row store and destroy adds up. -/
theorem trans (earlier : Flow first second stored lost) (later : Flow second third more others) :
    Flow first third (stored + more) (lost ++ others) where
  inserts_eq := by
    rw [later.inserts_eq, earlier.inserts_eq, Nat.add_assoc]
  live_eq := by
    have fromFirst := earlier.live_eq
    have fromSecond := later.live_eq
    rw [Entry.live_append, List.length_append]
    omega
  ghosts_eq := by
    have fromFirst := earlier.ghosts_eq
    have fromSecond := later.ghosts_eq
    rw [Entry.ghosts_append, List.length_append]
    omega

/-- Moving entries around is no flow, whatever is done to the other fields. -/
theorem of_perm {before after : PlainCache κ ν} (moved : after.entries.Perm before.entries)
    (inserts : after.metrics.inserts = before.metrics.inserts)
    (demotions : after.metrics.demotions = before.metrics.demotions)
    (ghostEvictions : after.metrics.ghostEvictions = before.metrics.ghostEvictions) :
    Flow before after 0 [] where
  inserts_eq := inserts
  live_eq := by rw [Entry.length_live_perm moved, demotions, Entry.live_nil, List.length_nil]
  ghosts_eq := by
    rw [Entry.length_ghosts_perm moved, demotions, ghostEvictions, Entry.ghosts_nil,
      List.length_nil, Nat.add_zero]

end Flow

variable {cache : PlainCache κ ν}

/-- A payload that is taken is counted as a demotion and leaves a ghost. -/
theorem flow_demote (cache : PlainCache κ ν) (maxLive : Nat) :
    Flow cache (cache.demote maxLive) 0 [] := by
  have demoted := Entry.length_live_keepLive maxLive cache.entries
  have before := Entry.length_live_add_length_ghosts cache.entries
  have after := Entry.length_live_add_length_ghosts (Entry.keepLive maxLive cache.entries)
  rw [Entry.length_keepLive] at after
  refine ⟨rfl, ?_, ?_⟩
  · simp only [demote, Entry.live_nil, List.length_nil]
    omega
  · simp only [demote, Entry.ghosts_nil, List.length_nil]
    omega

/-- A ghost that is dropped is counted as an eviction. -/
theorem flow_evict (cache : PlainCache κ ν) (maxGhost : Nat) :
    Flow cache (cache.evict maxGhost) 0 [] := by
  have kept := Entry.length_ghosts_keepGhosts maxGhost cache.entries
  refine ⟨rfl, ?_, ?_⟩
  · simp only [evict, Entry.live_keepGhosts, Entry.live_nil, List.length_nil]
  · simp only [evict, Entry.ghosts_nil, List.length_nil]
    omega

/-- Trimming stores nothing and destroys nothing but by eviction. -/
theorem flow_trim (cache : PlainCache κ ν) (maxLive maxGhost : Nat) :
    Flow cache (cache.trim maxLive maxGhost) 0 [] := by
  rw [trim_eq_evict_demote]
  exact (flow_demote ..).trans (flow_evict ..)

private theorem flow_setMaxFrames (cache : PlainCache κ ν) (maxFrames : Nat) :
    Flow cache (cache.setMaxFrames maxFrames) 0 [] := by
  have set : Flow cache { cache with maxFrames } 0 [] := .of_perm (.refl _) rfl rfl rfl
  exact set.trans (flow_trim ..)

private theorem flow_setMaxHistory (cache : PlainCache κ ν) (maxHistory : Nat) :
    Flow cache (cache.setMaxHistory maxHistory) 0 [] := by
  have set : Flow cache { cache with maxHistory } 0 [] := .of_perm (.refl _) rfl rfl rfl
  exact set.trans (flow_trim ..)

/-- Clearing destroys all entries. -/
theorem flow_clear (cache : PlainCache κ ν) : Flow cache cache.clear 0 cache.entries where
  inserts_eq := rfl
  live_eq := by simp [clear]; omega
  ghosts_eq := by simp [clear]; omega

/-- Adjusting the size looks nothing up, and uses up the look-ups counted unless the resize policy
is switched off. -/
theorem adjustSize_keeps_lookups (cache : PlainCache κ ν) (needMemory : Bool) :
    let after := (cache.adjustSize needMemory).state
    after.fixed = cache.fixed ∧ after.metrics.lookups = cache.metrics.lookups ∧
      after.window = if cache.fixed then cache.window else ∅ := by
  unfold adjustSize
  by_cases fixed : cache.fixed
  · simp only [if_pos fixed]
    exact ⟨rfl, rfl, rfl⟩
  · simp only [if_neg fixed, recommendSize]
    cases cache.window.recommend? with
    | error fault => exact ⟨rfl, rfl, rfl⟩
    | ok action =>
      simp only [Step.andThen]
      cases targetFrames cache.maxFrames action needMemory with
      | error fault => exact ⟨rfl, rfl, rfl⟩
      | ok maxFrames =>
        dsimp only
        obtain ⟨clears, grows, shrinks, counted⟩ := Metrics.exists_recordResize
          (setMaxFrames _ maxFrames : PlainCache κ ν).metrics action needMemory
        rw [counted]
        split <;> exact ⟨rfl, rfl, rfl⟩

variable [DecidableEq κ]

/-- A look-up stores and destroys nothing. -/
theorem flow_lookup (distinct : (cache.entries.map (·.key)).Nodup) (key : κ) :
    Flow cache (cache.lookup key).2 0 [] := by
  apply Flow.of_perm
  · rw [entries_lookup]
    exact Entry.promote_perm distinct key
  · rfl
  · rfl
  · rfl

/-- The entries of a key are lost when the key is forgotten. -/
theorem flow_remove (cache : PlainCache κ ν) (key : κ) :
    Flow cache (cache.remove key).2 0 (cache.entries.filter (·.key = key)) := by
  have parts := List.filter_append_perm (fun entry => decide (entry.key = key)) cache.entries
  have live := Entry.length_live_perm parts
  have ghosts := Entry.length_ghosts_perm parts
  simp only [Entry.live_append, Entry.ghosts_append, List.length_append] at live ghosts
  refine ⟨rfl, ?_, ?_⟩
  · simp only [remove, Entry.without, decide_not]
    omega
  · simp only [remove, Entry.without, decide_not]
    omega

/-- An insertion stores one payload and destroys what its key had. -/
theorem flow_insert (cache : PlainCache κ ν) (key : κ) (payload : ν) :
    Flow cache (cache.insert key payload) 1 (cache.entries.filter (·.key = key)) := by
  let replaced := (cache.remove key).2
  let pushed : PlainCache κ ν :=
    { replaced with
      entries := { key, payload := some payload } :: replaced.entries
      metrics := replaced.metrics.recordInsert }
  have push : Flow replaced pushed 1 [] := by
    refine ⟨rfl, ?_, ?_⟩
    · simp only [pushed, Metrics.recordInsert, Entry.live_cons_some, List.length_cons,
        Entry.live_nil, List.length_nil]
      omega
    · simp only [pushed, Metrics.recordInsert, Entry.ghosts_cons_some, Entry.ghosts_nil,
        List.length_nil]
      omega
  have whole := ((flow_remove cache key).trans push).trans
    (flow_trim pushed pushed.maxFrames pushed.maxHistory)
  rw [List.append_nil, List.append_nil] at whole
  exact whole

/-- The entries that are destroyed other than by trimming: that of a key which is removed or
replaced, and all of them where the cache is emptied. -/
def destroyed (cache : PlainCache κ ν) : Cache.Op κ ν → List (Entry κ ν)
  | .insert key _ | .remove key => cache.entries.filter (·.key = key)
  | .clear => cache.entries
  | .adjustSize needMemory =>
    if (cache.resize? needMemory).any (·.1) then cache.entries else []
  | _ => []

/-- Adjusting the size stores nothing and destroys entries only by clearing. -/
theorem flow_adjustSize (cache : PlainCache κ ν) (needMemory : Bool) :
    Flow cache (cache.adjustSize needMemory).state 0
      (cache.destroyed (.adjustSize needMemory)) := by
  rcases cache.adjustSize_cases needMemory with
    ⟨nothing, window, unchanged⟩ | ⟨emptied, maxFrames, action, resize, resized⟩
  · rw [unchanged, destroyed, nothing]
    exact .of_perm (.refl _) rfl rfl rfl
  · rw [resized]
    let asked : PlainCache κ ν := { cache with window := ∅ }
    let start := if emptied then asked.clear else asked
    have emptying : Flow cache start 0 (cache.destroyed (.adjustSize needMemory)) := by
      simp only [destroyed, resize, start]
      cases emptied with
      | false => exact .of_perm (.refl _) rfl rfl rfl
      | true => exact flow_clear cache
    have counting : Flow (start.setMaxFrames maxFrames)
        { start.setMaxFrames maxFrames with
          metrics :=
            (start.setMaxFrames maxFrames).metrics.recordResize action needMemory } 0 [] := by
      obtain ⟨clears, grows, shrinks, counted⟩ :=
        (start.setMaxFrames maxFrames).metrics.exists_recordResize action needMemory
      rw [counted]
      exact .of_perm (.refl _) rfl rfl rfl
    have whole := (emptying.trans (flow_setMaxFrames start maxFrames)).trans counting
    rwa [List.append_nil, List.append_nil] at whole

/-- What an operation stores and destroys is all that flows. -/
theorem flow_perform (distinct : (cache.entries.map (·.key)).Nodup) {op : Cache.Op κ ν}
    (keepMetrics : op ≠ .resetMetrics) :
    Flow cache (cache.perform op).state (if op.isInsert then 1 else 0) (cache.destroyed op) := by
  have same : Flow cache cache 0 [] := .of_perm (.refl _) rfl rfl rfl
  cases op with
  | lookup key => exact flow_lookup distinct key
  | get key => exact flow_lookup distinct key
  | peek key => exact same
  | contains key => exact same
  | isLive key => exact same
  | insert key payload => exact flow_insert cache key payload
  | remove key => exact flow_remove cache key
  | clear => exact flow_clear cache
  | trim maxLive maxGhost => exact flow_trim cache maxLive maxGhost
  | setMaxFrames maxFrames => exact flow_setMaxFrames cache maxFrames
  | setMaxHistory maxHistory => exact flow_setMaxHistory cache maxHistory
  | recommendSize =>
    change Flow cache cache.recommendSize.state 0 []
    rw [recommendSize_state]
    exact .of_perm (.refl _) rfl rfl rfl
  | adjustSize needMemory => exact flow_adjustSize cache needMemory
  | resetMetrics => exact absurd rfl keepMetrics

/-! ### Look-ups -/

/-- How the look-ups of an operation end. -/
def looked (cache : PlainCache κ ν) : Cache.Op κ ν → List (Lookup ν)
  | .lookup key | .get key => [(cache.lookup key).1]
  | _ => []

private theorem fixed_perform (cache : PlainCache κ ν) (op : Cache.Op κ ν) :
    (cache.perform op).state.fixed = cache.fixed := by
  cases op with
  | recommendSize =>
    change cache.recommendSize.state.fixed = cache.fixed
    rw [recommendSize_state]
  | adjustSize needMemory => exact (cache.adjustSize_keeps_lookups needMemory).1
  | _ => rfl

private theorem lookups_perform (cache : PlainCache κ ν) {op : Cache.Op κ ν}
    (keepMetrics : op ≠ .resetMetrics) :
    (cache.perform op).state.metrics.lookups =
      (cache.looked op).foldl Tally.record cache.metrics.lookups := by
  cases op with
  | recommendSize =>
    change cache.recommendSize.state.metrics.lookups = cache.metrics.lookups
    rw [recommendSize_state]
  | adjustSize needMemory => exact (cache.adjustSize_keeps_lookups needMemory).2.1
  | resetMetrics => exact absurd rfl keepMetrics
  | _ => rfl

private theorem window_perform (cache : PlainCache κ ν) (op : Cache.Op κ ν) :
    (cache.perform op).state.window =
      if op.resetsWindow cache.fixed then ∅
      else (cache.looked op).foldl Tally.record cache.window := by
  cases op with
  | recommendSize =>
    change cache.recommendSize.state.window = ∅
    rw [recommendSize_state]
  | adjustSize needMemory =>
    refine (cache.adjustSize_keeps_lookups needMemory).2.2.trans ?_
    cases cache.fixed <;> rfl
  | _ => rfl

end PlainCache

/-! ### Runs -/

namespace Cache

variable [DecidableEq κ] [Hashable κ] {β : Type}

/-- What `part` makes of each operation of a run and the cache that it meets, in order. -/
def gather (part : Cache κ ν → Op κ ν → List β) : Cache κ ν → List (Op κ ν) → List β
  | _, [] => []
  | cache, op :: rest => part cache op ++ gather part (cache.perform op).state rest

/-- How the look-ups of an operation end. -/
def looked (cache : Cache κ ν) : Op κ ν → List (Lookup ν)
  | .lookup key | .get key => [(cache.lookup key).1]
  | _ => []

/-- The entries that an operation destroys other than by trimming. -/
def destroyed (cache : Cache κ ν) (op : Op κ ν) : List (Entry κ ν) := cache.toPlain.destroyed op

namespace Consistent

variable {cache : Cache κ ν} {ops : List (Op κ ν)} {fixed : Bool}

private theorem looked_eq (consistent : cache.Consistent) (op : Op κ ν) :
    cache.looked op = cache.toPlain.looked op := by
  cases op with
  | lookup key => exact congrArg (fun found => [found]) (consistent.lookup_found key)
  | get key => exact congrArg (fun found => [found]) (consistent.lookup_found key)
  | _ => rfl

/-- No operation makes a cache fixed or loose. -/
theorem fixed_perform (consistent : cache.Consistent) (op : Op κ ν) :
    (cache.perform op).state.fixed = cache.fixed :=
  (congrArg PlainCache.fixed (consistent.toPlain_perform op)).trans
    (cache.toPlain.fixed_perform op)

/-- No run makes a cache fixed or loose. -/
theorem fixed_run (consistent : cache.Consistent) (ops : List (Op κ ν)) :
    (cache.run ops).fixed = cache.fixed := by
  induction ops generalizing cache with
  | nil => rfl
  | cons op rest ih => exact (ih (consistent.perform op)).trans (consistent.fixed_perform op)

/-- The metrics gain the look-ups of every operation that does not reset them. -/
theorem lookups_perform (consistent : cache.Consistent) {op : Op κ ν}
    (keepMetrics : op ≠ .resetMetrics) :
    (cache.perform op).state.metrics.lookups =
      (cache.looked op).foldl Tally.record cache.metrics.lookups := by
  rw [consistent.looked_eq]
  exact (congrArg (fun plain => plain.metrics.lookups) (consistent.toPlain_perform op)).trans
    (cache.toPlain.lookups_perform keepMetrics)

/-- The window gains the look-ups of an operation, or is empty after one that resets it. -/
theorem window_perform (consistent : cache.Consistent) (op : Op κ ν) :
    (cache.perform op).state.window =
      if op.resetsWindow cache.fixed then ∅
      else (cache.looked op).foldl Tally.record cache.window := by
  rw [consistent.looked_eq]
  exact (congrArg PlainCache.window (consistent.toPlain_perform op)).trans
    (cache.toPlain.window_perform op)

/-- No more look-ups can be counted for the resize policy than operations were performed. -/
theorem total_window_run (consistent : cache.Consistent) (ops : List (Op κ ν)) :
    (cache.run ops).window.total ≤ cache.window.total + ops.length := by
  induction ops generalizing cache with
  | nil => exact Nat.le_refl _
  | cons op rest ih =>
    have counted : (cache.perform op).state.window.total ≤ cache.window.total + 1 := by
      rw [consistent.window_perform]
      split
      next => exact Nat.zero_le _
      next => cases op <;> simp [looked]
    have more := ih (consistent.perform op)
    change ((cache.perform op).state.run rest).window.total ≤ _
    rw [List.length_cons]
    omega

/-- The lifetime counters count every look-up of a run. -/
theorem lookups_run (consistent : cache.Consistent) (keepMetrics : .resetMetrics ∉ ops)
    {seen : List (Lookup ν)} (counts : cache.metrics.lookups.Counts seen) :
    (cache.run ops).metrics.lookups.Counts (seen ++ cache.gather looked ops) := by
  induction ops generalizing cache seen with
  | nil => rwa [gather, List.append_nil]
  | cons op rest ih =>
    rw [List.mem_cons, not_or] at keepMetrics
    have next := counts.foldl_record (cache.looked op)
    rw [← consistent.lookups_perform (Ne.symm keepMetrics.1)] at next
    rw [gather, ← List.append_assoc]
    exact ih (consistent.perform op) keepMetrics.2 next

/-- As long as they are not used up, so do those for the resize policy. -/
theorem window_run (consistent : cache.Consistent)
    (unused : ∀ op ∈ ops, ¬ op.resetsWindow cache.fixed) {seen : List (Lookup ν)}
    (counts : cache.window.Counts seen) :
    (cache.run ops).window.Counts (seen ++ cache.gather looked ops) := by
  induction ops generalizing cache seen with
  | nil => rwa [gather, List.append_nil]
  | cons op rest ih =>
    have next := counts.foldl_record (cache.looked op)
    have kept := consistent.window_perform op
    rw [if_neg (unused op List.mem_cons_self)] at kept
    rw [← kept] at next
    rw [gather, ← List.append_assoc]
    refine ih (consistent.perform op) (fun later member => ?_) next
    rw [consistent.fixed_perform]
    exact unused later (List.mem_cons_of_mem _ member)

/-- So they count the look-ups since the last operation that used any up. -/
theorem window_run_since (consistent : cache.Consistent) (nothing : cache.window = ∅) :
    (cache.run ops).window.Counts
      ((cache.run (ops.rdropWhile (!·.resetsWindow cache.fixed))).gather looked
        (ops.rtakeWhile (!·.resetsWindow cache.fixed))) := by
  let used := ops.rdropWhile (!·.resetsWindow cache.fixed)
  let unused := ops.rtakeWhile (!·.resetsWindow cache.fixed)
  have whole : used ++ unused = ops := List.rdropWhile_append_rtakeWhile ..
  have usedUp : (cache.run used).window = ∅ := by
    by_cases none : used = []
    · rw [none]
      exact nothing
    · have resets := List.rdropWhile_last_not _ _ none
      rw [← List.dropLast_append_getLast none, run_concat,
        (consistent.run _).window_perform, consistent.fixed_run]
      exact if_pos (by simpa using resets)
  have rest : ∀ op ∈ unused, ¬ op.resetsWindow (cache.run used).fixed := by
    intro op member
    rw [consistent.fixed_run]
    simpa using List.mem_rtakeWhile_imp member
  have counts := (consistent.run used).window_run rest (usedUp ▸ Tally.counts_empty)
  rwa [← run_append, whole] at counts

/-- What the operations of a run store and destroy is all that flows. -/
theorem flow_run (consistent : cache.Consistent) (keepMetrics : .resetMetrics ∉ ops) :
    PlainCache.Flow cache.toPlain (cache.run ops).toPlain (ops.countP (·.isInsert))
      (cache.gather destroyed ops) := by
  induction ops generalizing cache with
  | nil => exact .of_perm (.refl _) rfl rfl rfl
  | cons op rest ih =>
    rw [List.mem_cons, not_or] at keepMetrics
    have first := PlainCache.flow_perform consistent.distinct (Ne.symm keepMetrics.1)
    rw [← consistent.toPlain_perform] at first
    rw [List.countP_cons, Nat.add_comm]
    exact first.trans (ih (consistent.perform op) keepMetrics.2)

end Consistent

/-- After every run that does not start its counters afresh, a cache has counted all look-ups by
their outcome, over its lifetime and since the resize policy last used them up; every payload that
was stored is live, was demoted or was destroyed while live; and every payload that was demoted is
a ghost, was evicted or was destroyed as a ghost. A ghost that is absorbed counts for nothing. -/
theorem exact_accounting {maxFrames maxHistory : Nat} {fixed : Bool} {start : Cache κ ν}
    (created : create maxFrames maxHistory fixed = .ok start) {ops : List (Op κ ν)}
    (keepMetrics : .resetMetrics ∉ ops) :
    let cache := start.run ops
    let used := ops.rdropWhile (!·.resetsWindow fixed)
    let unused := ops.rtakeWhile (!·.resetsWindow fixed)
    let lost := start.gather destroyed ops
    cache.metrics.lookups.Counts (start.gather looked ops) ∧
      cache.window.Counts ((start.run used).gather looked unused) ∧
      cache.metrics.inserts = ops.countP (·.isInsert) ∧
      cache.metrics.inserts =
        cache.live + cache.metrics.demotions + (Entry.live lost).length ∧
      cache.metrics.demotions =
        cache.ghost + cache.metrics.ghostEvictions + (Entry.ghosts lost).length ∧
      ∀ slot, cache.payloadAt? slot = none →
        ∃ after, cache.absorb slot = .ok after ∧ after.toPlain = cache.toPlain ∧
          after.live = cache.live ∧ after.ghost = cache.ghost := by
  obtain ⟨-, rfl⟩ := create_eq_ok_iff.mp created
  intro cache used unused lost
  have newCache := consistent_empty (κ := κ) (ν := ν) maxFrames maxHistory fixed
  have lookups := newCache.lookups_run keepMetrics Tally.counts_empty
  have flow := newCache.flow_run keepMetrics
  have wellFormed : cache.WellFormed := (newCache.run ops).wellFormed
  have stored : cache.metrics.inserts = 0 + ops.countP (·.isInsert) := flow.inserts_eq
  have liveFlow : (Entry.live cache.entries).length + cache.metrics.demotions +
      (Entry.live lost).length = 0 + 0 + ops.countP (·.isInsert) := flow.live_eq
  have ghostFlow : (Entry.ghosts cache.entries).length + cache.metrics.ghostEvictions +
      (Entry.ghosts lost).length + 0 = 0 + 0 + cache.metrics.demotions := flow.ghosts_eq
  rw [← wellFormed.live_eq] at liveFlow
  rw [← wellFormed.ghost_eq] at ghostFlow
  refine ⟨lookups, newCache.window_run_since rfl, by omega, by omega, by omega,
    fun slot ghost => ?_⟩
  refine ⟨{ cache with boundary := some slot }, ?_, rfl, rfl, rfl⟩
  simp only [absorb, ghost]

/-- A run in which a ghost that was looked up is replaced, a ghost removed, a payload replaced, the
cache emptied by adjusting its size, and a ghost evicted. -/
theorem exact_accounting_of_emptied_cache :
    let start : Cache Nat String := .empty 1 2 false
    let ops : List (Op Nat String) :=
      [.insert 1 "a", .insert 2 "b", .lookup 1, .insert 3 "c", .insert 1 "d", .insert 1 "e",
        .remove 2, .recommendSize, .get 1, .adjustSize true, .lookup 1, .insert 4 "f",
        .insert 5 "g", .insert 6 "h", .insert 7 "i"]
    let cache := start.run ops
    let lost := start.gather destroyed ops
    create 1 2 false = .ok start ∧ .resetMetrics ∉ ops ∧
      cache.metrics.toList = [1, 1, 1, 9, 6, 1, 0, 0, 0] ∧
      cache.metrics.inserts = cache.live + cache.metrics.demotions + (Entry.live lost).length ∧
      cache.metrics.demotions =
        cache.ghost + cache.metrics.ghostEvictions + (Entry.ghosts lost).length := by
  intro start ops
  have created : create 1 2 false = .ok start := create_eq_ok_iff.mpr ⟨by decide, rfl⟩
  have keepMetrics : .resetMetrics ∉ ops := by decide
  have ⟨_, _, _, stored, demoted, _⟩ := exact_accounting created keepMetrics
  have counted : ((PlainCache.empty 1 2 false).run ops).metrics.toList =
      [1, 1, 1, 9, 6, 1, 0, 0, 0] := by decide +kernel
  have plain : (start.run ops).toPlain = (PlainCache.empty 1 2 false).run ops :=
    (consistent_empty 1 2 false).toPlain_run ops
  rw [← plain, toPlain_metrics] at counted
  exact ⟨created, keepMetrics, counted, stored, demoted⟩

end Cache

end FrameKeep
