import FrameKeep.Proofs.Cache.Trimming

/-!
# Refinement of the plain cache

What is performed on an arranged cache and what is performed on its plain cache have the same
result, raise the same notices and lead to the same plain cache, and the cache stays arranged
(`Consistent.perform`). By induction this holds along every run.
-/

namespace FrameKeep.Cache

open SlotList

variable {κ ν : Type} [DecidableEq κ] [Hashable κ]

/-- As a plain cache it has the same metrics. -/
theorem toPlain_metrics (cache : Cache κ ν) : cache.toPlain.metrics = cache.metrics := rfl

/-- As a plain cache it has the same window. -/
theorem toPlain_window (cache : Cache κ ν) : cache.toPlain.window = cache.window := rfl

/-- As a plain cache it has the same room for live entries. -/
theorem toPlain_maxFrames (cache : Cache κ ν) : cache.toPlain.maxFrames = cache.maxFrames := rfl

/-- As a plain cache it has the same room for ghosts. -/
theorem toPlain_maxHistory (cache : Cache κ ν) : cache.toPlain.maxHistory = cache.maxHistory := rfl

namespace Arranged

variable {cache : Cache κ ν} {cells upper lower : List (Slot × Entry κ ν)} {slot : Slot}
  {key : κ} {payload : Option ν}

/-! ### Questions -/

private theorem find?_entries
    (arranged : cache.Arranged (upper ++ (slot, { key, payload }) :: lower)) :
    Entry.find? cache.entries key = some { key, payload } := by
  have others := (key_apart arranged.keys_nodup).1
  rw [arranged.entries_eq, List.map_append, List.map_cons]
  apply Entry.find?_append_cons
  intro entry member
  obtain ⟨cell, inUpper, rfl⟩ := List.mem_map.mp member
  exact others cell (List.mem_append_left _ inUpper)

private theorem find?_entries_eq_none (arranged : cache.Arranged cells)
    (absent : ∀ cell ∈ cells, cell.2.key ≠ key) : Entry.find? cache.entries key = none := by
  rw [arranged.entries_eq, Entry.find?_eq_none_iff]
  intro entry member
  obtain ⟨cell, inCells, rfl⟩ := List.mem_map.mp member
  exact absent cell inCells

private theorem without_entries
    (arranged : cache.Arranged (upper ++ (slot, { key, payload }) :: lower)) :
    Entry.without cache.entries key = (upper ++ lower).map (·.2) := by
  have others := (key_apart arranged.keys_nodup).1
  rw [arranged.entries_eq, List.map_append, List.map_cons, List.map_append]
  refine Entry.without_append_cons (fun entry member => ?_) (fun entry member => ?_)
  · obtain ⟨cell, inUpper, rfl⟩ := List.mem_map.mp member
    exact others cell (List.mem_append_left _ inUpper)
  · obtain ⟨cell, inLower, rfl⟩ := List.mem_map.mp member
    exact others cell (List.mem_append_right _ inLower)

private theorem peek?_eq (arranged : cache.Arranged cells) (key : κ) :
    cache.peek? key = cache.toPlain.peek? key := by
  unfold Cache.peek? PlainCache.peek?
  rcases arranged.index_cases key with ⟨unknown, absent⟩ | ⟨upper, lower, slot, payload, rfl, found⟩
  · rw [unknown, toPlain, arranged.find?_entries_eq_none absent]
    rfl
  · rw [found, toPlain, arranged.find?_entries]
    exact arranged.payloadAt?_eq

private theorem contains_eq (arranged : cache.Arranged cells) (key : κ) :
    cache.contains key = cache.toPlain.contains key := by
  rw [Cache.contains, Std.HashMap.contains_eq_isSome_getElem?, PlainCache.contains, toPlain]
  rcases arranged.index_cases key with ⟨unknown, absent⟩ | ⟨upper, lower, slot, payload, rfl, found⟩
  · rw [unknown, arranged.find?_entries_eq_none absent]
    rfl
  · rw [found, arranged.find?_entries]
    rfl

/-! ### Operations -/

/-- Promoting changes nothing but the order of the entries. -/
theorem toPlain_promote (arranged : cache.Arranged (upper ++ (slot, { key, payload }) :: lower)) :
    (cache.promote slot).toPlain =
      { cache.toPlain with entries := { key, payload } :: (upper ++ lower).map (·.2) } := by
  have entries : (cache.promote slot).entries = { key, payload } :: (upper ++ lower).map (·.2) :=
    arranged.promote.entries_eq
  rw [← entries]
  unfold Cache.promote
  split <;> rfl

private theorem toPlain_recordLookup (cache : Cache κ ν) (found : Lookup ν) :
    (cache.recordLookup found).toPlain =
      { cache.toPlain with
        window := cache.toPlain.window.record found
        metrics := cache.toPlain.metrics.recordLookup found } := rfl

/-- A look-up answers and leaves what it does of the plain cache, and all parts agree again. -/
theorem exists_lookup (arranged : cache.Arranged cells) (key : κ) :
    ∃ others, (cache.lookup key).2.Arranged others ∧
      ((cache.lookup key).1, (cache.lookup key).2.toPlain) = cache.toPlain.lookup key := by
  rcases arranged.index_cases key with ⟨unknown, absent⟩ | ⟨upper, lower, slot, payload, rfl, found⟩
  · have looked : cache.lookup key = (.farMiss, cache.recordLookup (.farMiss : Lookup ν)) := by
      simp only [Cache.lookup, unknown]
    have nowhere : Entry.find? cache.toPlain.entries key = none :=
      arranged.find?_entries_eq_none absent
    rw [looked]
    refine ⟨cells, { arranged with }, ?_⟩
    simp only [PlainCache.lookup, nowhere]
    rfl
  · have looked : cache.lookup key = (Lookup.ofRemembered payload,
        (cache.promote slot).recordLookup (Lookup.ofRemembered payload)) := by
      simp only [Cache.lookup, found, arranged.payloadAt?_eq]
    have held : Entry.find? cache.toPlain.entries key = some { key, payload } :=
      arranged.find?_entries
    have others : Entry.without cache.toPlain.entries key = (upper ++ lower).map (·.2) :=
      arranged.without_entries
    rw [looked]
    refine ⟨_, { arranged.promote with }, ?_⟩
    simp only [toPlain_recordLookup, arranged.toPlain_promote, PlainCache.lookup, held, others]

/-- A removal succeeds, answers and leaves what it does of the plain cache, and no cell of the key
remains. -/
theorem exists_remove (arranged : cache.Arranged cells) (key : κ) :
    ∃ after others, cache.remove key = .ok ((cache.toPlain.remove key).1, after) ∧
      after.Arranged others ∧ (∀ cell ∈ others, cell.2.key ≠ key) ∧
      after.toPlain = (cache.toPlain.remove key).2 := by
  rcases arranged.index_cases key with ⟨unknown, absent⟩ | ⟨upper, lower, slot, payload, rfl, found⟩
  · have nowhere : Entry.find? cache.toPlain.entries key = none :=
      arranged.find?_entries_eq_none absent
    refine ⟨cache, cells, ?_, arranged, absent, ?_⟩
    · simp only [Cache.remove, unknown, PlainCache.remove, PlainCache.contains, nowhere]
      rfl
    · have unchanged := Entry.without_eq_self (Entry.find?_eq_none_iff.mp nowhere)
      simp only [PlainCache.remove, unchanged]
  · have held : Entry.find? cache.toPlain.entries key = some { key, payload } :=
      arranged.find?_entries
    have others : Entry.without cache.toPlain.entries key = (upper ++ lower).map (·.2) :=
      arranged.without_entries
    obtain ⟨after, unlinked, arrangedAfter, plain⟩ := arranged.exists_unlink
    refine ⟨after, upper ++ lower, ?_, arrangedAfter, (key_apart arranged.keys_nodup).1, ?_⟩
    · simp only [Cache.remove, found, unlinked, PlainCache.remove, PlainCache.contains, held]
      rfl
    · rw [plain, PlainCache.remove, others]

/-- Putting a payload at the front, under a key that is in no cell, adds a live cell. -/
theorem push (arranged : cache.Arranged cells) (fresh : ∀ cell ∈ cells, cell.2.key ≠ key)
    {list : SlotList (Entry κ ν)} {payload : ν}
    (holds : list.Holds ((slot, { key, payload := some payload }) :: cells)) :
    ({ cache with
        list
        index := cache.index.insert key slot
        live := cache.live + 1
        metrics := cache.metrics.recordInsert } : Cache κ ν).Arranged
      ((slot, { key, payload := some payload }) :: cells) where
  holds := holds
  keys_nodup := by
    refine List.nodup_cons.mpr ⟨fun member => ?_, arranged.keys_nodup⟩
    obtain ⟨cell, inCells, same⟩ := List.mem_map.mp member
    exact fresh cell inCells same
  indexed := arranged.indexed.insert fresh slot (some payload)
  ghostTail := arranged.ghostTail.cons _
  live_eq := by simp [arranged.live_eq]
  ghost_eq := by simp [arranged.ghost_eq]

/-- An insertion succeeds and leaves what it does of the plain cache, and all parts agree again. -/
theorem exists_insert (arranged : cache.Arranged cells) (key : κ) (payload : ν) :
    ∃ after others, cache.insert key payload = .ok after ∧ after.Arranged others ∧
      after.toPlain = cache.toPlain.insert key payload := by
  obtain ⟨removed, rest, removes, arrangedRemoved, fresh, plainRemoved⟩ :=
    arranged.exists_remove key
  obtain ⟨slot, list, pushed, -, holds⟩ :=
    arrangedRemoved.holds.exists_pushFront { key, payload := some payload }
  have arrangedPushed := arrangedRemoved.push fresh holds
  obtain ⟨after, others, trimmed, arrangedAfter, plain⟩ :=
    arrangedPushed.exists_trim removed.maxFrames removed.maxHistory
  refine ⟨after, others, ?_, arrangedAfter, plain.trans ?_⟩
  · simp only [Cache.insert, removes, bind, Except.bind, pushed]
    exact trimmed
  · have stored : ({ removed with
        list
        index := removed.index.insert key slot
        live := removed.live + 1
        metrics := removed.metrics.recordInsert } : Cache κ ν).toPlain =
          { removed.toPlain with
            entries := { key, payload := some payload } :: removed.toPlain.entries
            metrics := removed.toPlain.metrics.recordInsert } := by
      rw [arrangedPushed.toPlain_eq, arrangedRemoved.toPlain_eq]
      rfl
    change PlainCache.trim _ removed.toPlain.maxFrames removed.toPlain.maxHistory = _
    rw [stored, plainRemoved]
    rfl

/-- Setting the live capacity trims to it. -/
theorem exists_setMaxFrames (arranged : cache.Arranged cells) (maxFrames : Nat) :
    ∃ after others, cache.setMaxFrames maxFrames = .ok after ∧ after.Arranged others ∧
      after.toPlain = cache.toPlain.setMaxFrames maxFrames := by
  have resized : ({ cache with maxFrames } : Cache κ ν).Arranged cells := { arranged with }
  exact resized.exists_trim maxFrames cache.maxHistory

/-- Setting the history capacity trims to it. -/
theorem exists_setMaxHistory (arranged : cache.Arranged cells) (maxHistory : Nat) :
    ∃ after others, cache.setMaxHistory maxHistory = .ok after ∧ after.Arranged others ∧
      after.toPlain = cache.toPlain.setMaxHistory maxHistory := by
  have resized : ({ cache with maxHistory } : Cache κ ν).Arranged cells := { arranged with }
  exact resized.exists_trim cache.maxFrames maxHistory

private theorem toPlain_clear (cache : Cache κ ν) : cache.clear.toPlain = cache.toPlain.clear := by
  rw [(arranged_clear cache).toPlain_eq]
  rfl

/-- Setting the live capacity to what it is changes nothing within the capacities. -/
theorem setMaxFrames_self (arranged : cache.Arranged cells) (within : cache.toPlain.Within) :
    cache.setMaxFrames cache.maxFrames = .ok cache := by
  have live_le : cache.live ≤ cache.maxFrames := by
    rw [arranged.live_eq, ← arranged.entries_eq]
    exact within.live_le
  have ghost_le : cache.ghost ≤ cache.maxHistory := by
    rw [arranged.ghost_eq, ← arranged.entries_eq]
    exact within.ghost_le
  have demoted : Cache.demote cache.maxFrames cache.size cache = .ok cache := by
    cases cache.size <;> simp [Cache.demote, live_le]
  simp only [setMaxFrames, trimToCapacity, trim, trimTo, Nat.min_self]
  rw [demoted]
  change Cache.evict (cache.ghost - cache.maxHistory) cache = .ok cache
  rw [Nat.sub_eq_zero_of_le ghost_le]
  rfl

/-- Following a recommendation is setting the live capacity to its target, on a cache that is
emptied first if the recommendation says so. -/
theorem follow_eq (arranged : cache.Arranged cells) (within : cache.toPlain.Within)
    (action : Action) (needMemory : Bool) :
    cache.follow action needMemory =
      (PlainCache.targetFrames cache.maxFrames action needMemory).bind
        (if PlainCache.empties cache.maxFrames action needMemory then cache.clear
          else cache).setMaxFrames := by
  have unchanged := arranged.setMaxFrames_self within
  cases action with
  | clear => rfl
  | grow =>
    cases needMemory with
    | false => rfl
    | true => exact unchanged.symm
  | shrink => cases needMemory <;> rfl
  | noChange =>
    cases needMemory with
    | false => exact unchanged.symm
    | true =>
      by_cases small : cache.maxFrames ≤ 1
      · have target : min (max (cache.maxFrames - 1) 1) cache.maxFrames = cache.maxFrames := by
          omega
        simp only [follow, PlainCache.targetFrames, PlainCache.empties, small, if_true, target]
        rfl
      · have target : min (max (cache.maxFrames - 1) 1) cache.maxFrames = cache.maxFrames - 1 := by
          omega
        simp only [follow, PlainCache.targetFrames, PlainCache.empties, small, if_false, target]
        rfl

/-- A recommendation that cannot be followed has no target. Any other leads to the target of the
plain cache, from an empty cache if that is what the plain cache starts from. -/
theorem follow_cases (arranged : cache.Arranged cells) (within : cache.toPlain.Within)
    (action : Action) (needMemory : Bool) :
    (∃ fault, PlainCache.targetFrames cache.maxFrames action needMemory = .error fault ∧
        cache.follow action needMemory = .error fault) ∨
      ∃ maxFrames after others,
        PlainCache.targetFrames cache.maxFrames action needMemory = .ok maxFrames ∧
          cache.follow action needMemory = .ok after ∧ after.Arranged others ∧
          after.toPlain =
            (if PlainCache.empties cache.maxFrames action needMemory then cache.toPlain.clear
              else cache.toPlain).setMaxFrames maxFrames := by
  rw [arranged.follow_eq within]
  cases PlainCache.targetFrames cache.maxFrames action needMemory with
  | error fault => exact .inl ⟨fault, rfl, rfl⟩
  | ok maxFrames =>
    right
    cases PlainCache.empties cache.maxFrames action needMemory with
    | true =>
      obtain ⟨after, others, set, arrangedAfter, plain⟩ :=
        (arranged_clear cache).exists_setMaxFrames maxFrames
      rw [toPlain_clear] at plain
      exact ⟨maxFrames, after, others, rfl, set, arrangedAfter, plain⟩
    | false =>
      obtain ⟨after, others, set, arrangedAfter, plain⟩ := arranged.exists_setMaxFrames maxFrames
      exact ⟨maxFrames, after, others, rfl, set, arrangedAfter, plain⟩

end Arranged

/-! ### Steps -/

/-- A step of a cache leaves it arranged, and seen from the plain cache it is the step `plain`. -/
structure Tracks {α : Type} (step : Step (Cache κ ν) α) (plain : Step (PlainCache κ ν) α) :
    Prop where
  arranged : ∃ cells, step.state.Arranged cells
  within_eq : step.within toPlain = plain

namespace Tracks

variable {α β : Type} {step : Step (Cache κ ν) α} {plain : Step (PlainCache κ ν) α}

private theorem done {cache : Cache κ ν} {cells : List (Slot × Entry κ ν)}
    (arranged : cache.Arranged cells) (answer : α) :
    Tracks (.done answer cache) (.done answer cache.toPlain) :=
  ⟨⟨cells, arranged⟩, rfl⟩

private theorem map (tracks : Tracks step plain) (f : α → β) :
    Tracks (step.map f) (plain.map f) := by
  obtain ⟨arranged, rfl⟩ := tracks
  exact ⟨arranged, rfl⟩

/-- Two steps in a row track those of the plain cache if each does. -/
theorem andThen (tracks : Tracks step plain) {next : α → Cache κ ν → Step (Cache κ ν) β}
    {nextPlain : α → PlainCache κ ν → Step (PlainCache κ ν) β}
    (nextTracks : ∀ answer, step.result = .ok answer →
      Tracks (next answer step.state) (nextPlain answer step.state.toPlain)) :
    Tracks (step.andThen next) (plain.andThen nextPlain) := by
  obtain ⟨arranged, rfl⟩ := tracks
  obtain ⟨_ | answer, state, notices⟩ := step
  · exact ⟨arranged, rfl⟩
  · obtain ⟨arrangedNext, same⟩ := nextTracks answer rfl
    refine ⟨arrangedNext, ?_⟩
    change _ = Step.andThen { result := .ok answer, state := state.toPlain, notices } nextPlain
    simp only [Step.andThen, ← same]
    rfl

/-- An operation without an answer that cannot fault. -/
theorem quietly {cache : Cache κ ν} {outcome : Except Fault (Cache κ ν)} {target : PlainCache κ ν}
    (succeeds : ∃ after others, outcome = .ok after ∧ after.Arranged others ∧
      after.toPlain = target) :
    Tracks (cache.quietly outcome) (.done .done target) := by
  obtain ⟨after, others, rfl, arranged, rfl⟩ := succeeds
  exact ⟨⟨others, arranged⟩, rfl⟩

end Tracks

namespace Arranged

variable {cache : Cache κ ν} {cells : List (Slot × Entry κ ν)}

/-- Asking for a recommendation empties the window. -/
theorem recommendSize_state (cache : Cache κ ν) :
    cache.recommendSize.state = { cache with window := ∅ } := by
  unfold Cache.recommendSize
  split <;> rfl

private theorem tracks_recommendSize (arranged : cache.Arranged cells) :
    Tracks cache.recommendSize cache.toPlain.recommendSize := by
  refine ⟨⟨cells, ?_⟩, ?_⟩
  · rw [recommendSize_state]
    exact { arranged with }
  · unfold Cache.recommendSize PlainCache.recommendSize
    have same : cache.toPlain.window = cache.window := rfl
    rw [same]
    cases cache.window.recommend? <;> rfl

/-- Adjusting the size tracks adjusting that of the plain cache. -/
theorem tracks_adjustSize (arranged : cache.Arranged cells) (within : cache.toPlain.Within)
    (needMemory : Bool) :
    Tracks (cache.adjustSize needMemory) (cache.toPlain.adjustSize needMemory) := by
  unfold Cache.adjustSize PlainCache.adjustSize
  change Tracks _ (if cache.fixed then _ else _)
  split
  next => exact .done arranged none
  next =>
    refine arranged.tracks_recommendSize.andThen fun action _ => ?_
    rw [recommendSize_state]
    have asked : ({ cache with window := ∅ } : Cache κ ν).Arranged cells := { arranged with }
    have askedWithin : ({ cache with window := ∅ } : Cache κ ν).toPlain.Within :=
      ⟨within.live_le, within.ghost_le⟩
    rcases asked.follow_cases askedWithin action needMemory with
      ⟨fault, target, follows⟩ | ⟨maxFrames, after, others, target, follows, arrangedAfter, plain⟩
    · have plainTarget :
          PlainCache.targetFrames cache.toPlain.maxFrames action needMemory = .error fault := target
      simp only [follows, plainTarget]
      exact ⟨⟨cells, asked⟩, rfl⟩
    · obtain rfl : after.maxFrames = maxFrames := congrArg PlainCache.maxFrames plain
      have plainTarget :
          PlainCache.targetFrames cache.toPlain.maxFrames action needMemory =
            .ok after.maxFrames := target
      simp only [follows, plainTarget]
      refine ⟨⟨others, { arrangedAfter with }⟩, ?_⟩
      change Step.mk _ { after.toPlain with
        metrics := after.toPlain.metrics.recordResize action needMemory } _ = _
      rw [plain]
      rfl

/-- Every operation on an arranged cache within its capacities is the operation on the plain
cache. -/
theorem tracks_perform (arranged : cache.Arranged cells) (within : cache.toPlain.Within)
    (op : Op κ ν) : Tracks (cache.perform op) (cache.toPlain.perform op) := by
  cases op with
  | lookup key =>
    obtain ⟨others, arrangedAfter, same⟩ := arranged.exists_lookup key
    refine ⟨⟨others, arrangedAfter⟩, ?_⟩
    simp only [PlainCache.perform, ← same]
    rfl
  | get key =>
    obtain ⟨others, arrangedAfter, same⟩ := arranged.exists_lookup key
    refine ⟨⟨others, arrangedAfter⟩, ?_⟩
    simp only [PlainCache.perform, ← same]
    rfl
  | peek key =>
    simp only [perform, PlainCache.perform, arranged.peek?_eq]
    exact .done arranged _
  | contains key =>
    simp only [perform, PlainCache.perform, arranged.contains_eq]
    exact .done arranged _
  | isLive key =>
    simp only [perform, PlainCache.perform, isLive, arranged.peek?_eq]
    exact .done arranged _
  | insert key payload => exact .quietly (arranged.exists_insert key payload)
  | remove key =>
    obtain ⟨after, others, removed, arrangedAfter, -, plain⟩ := arranged.exists_remove key
    simp only [perform, PlainCache.perform, removed, ← plain]
    exact ⟨⟨others, arrangedAfter⟩, rfl⟩
  | clear =>
    refine ⟨⟨[], arranged_clear cache⟩, ?_⟩
    simp only [PlainCache.perform, ← toPlain_clear]
    rfl
  | trim maxLive maxGhost => exact .quietly (arranged.exists_trim maxLive maxGhost)
  | setMaxFrames maxFrames => exact .quietly (arranged.exists_setMaxFrames maxFrames)
  | setMaxHistory maxHistory => exact .quietly (arranged.exists_setMaxHistory maxHistory)
  | recommendSize => exact arranged.tracks_recommendSize.map _
  | adjustSize needMemory => exact (arranged.tracks_adjustSize within needMemory).map _
  | resetMetrics => exact ⟨⟨cells, { arranged with }⟩, rfl⟩

end Arranged

/-! ### Runs -/

/-- A run in two parts is the second part run from where the first ends. -/
theorem run_append (cache : Cache κ ν) (earlier later : List (Op κ ν)) :
    cache.run (earlier ++ later) = (cache.run earlier).run later := List.foldl_append

/-- The last operation of a run is performed where the others end. -/
theorem run_concat (cache : Cache κ ν) (earlier : List (Op κ ν)) (last : Op κ ν) :
    cache.run (earlier ++ [last]) = ((cache.run earlier).perform last).state := run_append ..

/-- All parts of the cache agree, and both capacities are kept. -/
structure Consistent (cache : Cache κ ν) : Prop where
  arranged : ∃ cells, cache.Arranged cells
  within : cache.toPlain.Within

/-- All parts of a cache without entries agree. -/
theorem consistent_empty (maxFrames maxHistory : Nat) (fixed : Bool) :
    (empty maxFrames maxHistory fixed : Cache κ ν).Consistent :=
  ⟨⟨[], arranged_empty ..⟩, PlainCache.within_empty ..⟩

namespace Consistent

variable {cache : Cache κ ν}

/-- Every operation tracks the same one on the plain cache. -/
theorem tracks_perform (consistent : cache.Consistent) (op : Op κ ν) :
    Tracks (cache.perform op) (cache.toPlain.perform op) := by
  obtain ⟨⟨cells, arranged⟩, within⟩ := consistent
  exact arranged.tracks_perform within op

/-- An operation leaves what it leaves of the plain cache. -/
theorem toPlain_perform (consistent : cache.Consistent) (op : Op κ ν) :
    (cache.perform op).state.toPlain = (cache.toPlain.perform op).state :=
  congrArg Step.state (consistent.tracks_perform op).within_eq

/-- Adjusting the size answers, leaves and notices what it does of the plain cache. -/
theorem adjustSize_eq (consistent : cache.Consistent) (needMemory : Bool) :
    (cache.adjustSize needMemory).within toPlain = cache.toPlain.adjustSize needMemory := by
  obtain ⟨⟨cells, arranged⟩, within⟩ := consistent
  exact (arranged.tracks_adjustSize within needMemory).within_eq

/-- A look-up ends as it does on the plain cache. -/
theorem lookup_found (consistent : cache.Consistent) (key : κ) :
    (cache.lookup key).1 = (cache.toPlain.lookup key).1 := by
  obtain ⟨cells, arranged⟩ := consistent.arranged
  obtain ⟨-, -, same⟩ := arranged.exists_lookup key
  rw [← same]

/-- Peeking gives what it gives on the plain cache. -/
theorem peek?_eq (consistent : cache.Consistent) (key : κ) :
    cache.peek? key = cache.toPlain.peek? key := by
  obtain ⟨cells, arranged⟩ := consistent.arranged
  exact arranged.peek?_eq key

/-- All parts of a cache agree after any operation. -/
theorem perform (consistent : cache.Consistent) (op : Op κ ν) :
    (cache.perform op).state.Consistent where
  arranged := (consistent.tracks_perform op).arranged
  within := by
    rw [consistent.toPlain_perform]
    exact consistent.within.perform op

/-- All parts of a cache agree after any run. -/
theorem run (consistent : cache.Consistent) (ops : List (Op κ ν)) :
    (cache.run ops).Consistent := by
  induction ops generalizing cache with
  | nil => exact consistent
  | cons op rest ih => exact ih (consistent.perform op)

/-- What every operation of some kind keeps is kept by a run of such operations. -/
theorem run_induction (consistent : cache.Consistent) (holds : Cache κ ν → Prop)
    {allowed : Op κ ν → Prop} {ops : List (Op κ ν)} (initial : holds cache)
    (step : ∀ {state op}, state.Consistent → allowed op → holds state →
      holds (state.perform op).state)
    (all : ∀ op ∈ ops, allowed op) : holds (cache.run ops) := by
  induction ops generalizing cache with
  | nil => exact initial
  | cons op rest ih =>
    apply ih (consistent.perform op) (step consistent (all op List.mem_cons_self) initial)
    intro later member
    exact all later (List.mem_cons_of_mem _ member)

/-- A run leaves what it leaves of the plain cache. -/
theorem toPlain_run (consistent : cache.Consistent) (ops : List (Op κ ν)) :
    (cache.run ops).toPlain = cache.toPlain.run ops := by
  induction ops generalizing cache with
  | nil => rfl
  | cons op rest ih =>
    change ((cache.perform op).state.run rest).toPlain = (cache.toPlain.perform op).state.run rest
    rw [ih (consistent.perform op), consistent.toPlain_perform]

end Consistent

/-- After any operations on a new cache, every observable is that of the plain cache after the same
operations, and so are the result, the notices and the effect of whatever is performed next. -/
theorem run_refines_plain {maxFrames maxHistory : Nat} {fixed : Bool} {start : Cache κ ν}
    (created : create maxFrames maxHistory fixed = .ok start) (ops : List (Op κ ν)) :
    let cache := start.run ops
    let plain := (PlainCache.empty maxFrames maxHistory fixed).run ops
    cache.toPlain = plain ∧
      cache.keys = plain.entries.map (·.key) ∧
      cache.size = plain.entries.length ∧
      cache.isEmpty = plain.entries.isEmpty ∧
      cache.live = (Entry.live plain.entries).length ∧
      cache.ghost = (Entry.ghosts plain.entries).length ∧
      ∀ op, (cache.perform op).within toPlain = plain.perform op := by
  obtain ⟨-, rfl⟩ := create_eq_ok_iff.mp created
  have start := consistent_empty (κ := κ) (ν := ν) maxFrames maxHistory fixed
  intro cache plain
  have consistent : cache.Consistent := start.run ops
  have same : cache.toPlain = plain := start.toPlain_run ops
  obtain ⟨cells, arranged⟩ := consistent.arranged
  have entries : plain.entries = cells.map (·.2) := by
    rw [← same]
    exact arranged.entries_eq
  have size : cache.size = plain.entries.length := by
    rw [arranged.size_eq, entries, List.length_map]
  refine ⟨same, ?_, size, ?_, ?_, ?_, fun op => ?_⟩
  · rw [← same]
    rfl
  · change (cache.size == 0) = _
    rw [size]
    cases plain.entries <;> rfl
  · rw [arranged.live_eq, entries]
  · rw [arranged.ghost_eq, entries]
  · rw [← same]
    exact (consistent.tracks_perform op).within_eq

/-- A cache with a promoted ghost that cannot follow a recommendation to grow, and then has room for
one live entry only. -/
theorem run_refines_plain_after_refused_growth :
    (create 1 1 false : Except Fault (Cache Nat String)) = .ok (empty 1 1 false) ∧
      let ops : List (Op Nat String) :=
        [.insert 1 "a", .insert 2 "b"] ++ List.replicate 30 (.lookup 1) ++
          [.setMaxFrames (Count.limit - 1), .adjustSize false, .insert 3 "c", .setMaxFrames 1]
      ((empty 1 1 false).run ops).toPlain = (PlainCache.empty 1 1 false).run ops ∧
        ((PlainCache.empty 1 1 false).run ops).entries = [⟨3, some "c"⟩, ⟨1, none⟩] := by
  have created : (create 1 1 false : Except Fault (Cache Nat String)) = .ok (empty 1 1 false) :=
    create_eq_ok_iff.mpr ⟨by decide, rfl⟩
  exact ⟨created, (run_refines_plain created _).1, by decide +kernel⟩

end FrameKeep.Cache
