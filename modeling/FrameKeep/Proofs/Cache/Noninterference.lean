import FrameKeep.Proofs.Cache.Inclusion

/-!
# Ghosts are not served

Live entries and ghosts share one list, but no ghost decides which live entry is the next to go. Two
caches of one live capacity that are used in the same way therefore hold the same payloads in the
same order, however many ghosts either of them remembers.
-/

namespace FrameKeep

variable {κ ν : Type}

/-- Two operations that are alike but for how many ghosts they leave. Neither adjusts the size,
which depends on the near misses counted. -/
inductive Cache.Op.AlikeToGhosts : Cache.Op κ ν → Cache.Op κ ν → Prop where
  | alike {op other : Cache.Op κ ν} (alike : op.Alike other) : AlikeToGhosts op other
  | trim (maxLive first second : Nat) : AlikeToGhosts (.trim maxLive first) (.trim maxLive second)
  | setMaxFrames (maxFrames : Nat) :
      AlikeToGhosts (.setMaxFrames maxFrames) (.setMaxFrames maxFrames)

namespace PlainCache

/-- Both caches have the same live capacity and the same live entries. -/
structure SameLive (first second : PlainCache κ ν) : Prop where
  maxFrames_eq : first.maxFrames = second.maxFrames
  live_eq : Entry.live first.entries = Entry.live second.entries

namespace SameLive

variable {first second : PlainCache κ ν} {op other : Cache.Op κ ν}

private theorem mem_entries_iff (same : SameLive first second) {key : κ} {payload : ν} :
    { key, payload := some payload } ∈ first.entries ↔
      { key, payload := some payload } ∈ second.entries := by
  rw [← Entry.mem_live, same.live_eq, Entry.mem_live]

/-- Trimming to the same number of live entries leaves the same ones, whatever becomes of the
ghosts. -/
theorem trim (same : SameLive first second) (maxLive firstGhost secondGhost : Nat) :
    SameLive (first.trim maxLive firstGhost) (second.trim maxLive secondGhost) where
  maxFrames_eq := same.maxFrames_eq
  live_eq := by rw [live_trim, live_trim, same.live_eq, same.maxFrames_eq]

private theorem trimToCapacity (same : SameLive first second) :
    SameLive first.trimToCapacity second.trimToCapacity where
  maxFrames_eq := same.maxFrames_eq
  live_eq := by rw [live_trimToCapacity, live_trimToCapacity, same.live_eq, same.maxFrames_eq]

variable [DecidableEq κ]

/-- A look-up leaves the live entries the same, whichever ghosts it meets. -/
theorem lookup (same : SameLive first second) (distinctFirst : (first.entries.map (·.key)).Nodup)
    (distinctSecond : (second.entries.map (·.key)).Nodup) (key : κ) :
    SameLive (first.lookup key).2 (second.lookup key).2 where
  maxFrames_eq := same.maxFrames_eq
  live_eq := by rw [live_lookup distinctFirst, live_lookup distinctSecond, same.live_eq]

/-- Operations that are alike but for ghosts keep the live entries the same. -/
theorem perform (same : SameLive first second)
    (distinctFirst : (first.entries.map (·.key)).Nodup)
    (distinctSecond : (second.entries.map (·.key)).Nodup) (alike : op.AlikeToGhosts other) :
    SameLive (first.perform op).state (second.perform other).state := by
  have ⟨maxFrames_eq, live_eq⟩ := same
  cases alike with
  | alike alike =>
    cases alike with
    | lookup key => exact same.lookup distinctFirst distinctSecond key
    | get key => exact same.lookup distinctFirst distinctSecond key
    | peek key => exact same
    | contains key => exact same
    | isLive key => exact same
    | insert key payload =>
      refine ⟨maxFrames_eq, ?_⟩
      change Entry.live (first.insert key payload).entries =
        Entry.live (second.insert key payload).entries
      rw [live_insert, live_insert, live_eq, maxFrames_eq]
    | remove key =>
      refine ⟨maxFrames_eq, ?_⟩
      change Entry.live (Entry.without first.entries key) =
        Entry.live (Entry.without second.entries key)
      rw [Entry.live_without, Entry.live_without, live_eq]
    | clear => exact ⟨maxFrames_eq, rfl⟩
    | setMaxHistory firstGhost secondGhost =>
      have resized : SameLive { first with maxHistory := firstGhost }
          { second with maxHistory := secondGhost } := ⟨maxFrames_eq, live_eq⟩
      exact resized.trimToCapacity
    | recommendSize =>
      change SameLive first.recommendSize.state second.recommendSize.state
      rw [recommendSize_state, recommendSize_state]
      exact ⟨maxFrames_eq, live_eq⟩
  | trim maxLive firstGhost secondGhost => exact same.trim maxLive firstGhost secondGhost
  | setMaxFrames maxFrames =>
    have resized : SameLive { first with maxFrames } { second with maxFrames } := ⟨rfl, live_eq⟩
    exact resized.trimToCapacity

end SameLive

end PlainCache

namespace Cache

variable [DecidableEq κ] [Hashable κ]

/-- Runs of operations that are alike but for ghosts keep the live entries the same. -/
theorem Consistent.sameLive_run {first second : Cache κ ν} (consistentFirst : first.Consistent)
    (consistentSecond : second.Consistent)
    (same : PlainCache.SameLive first.toPlain second.toPlain) {ops others : List (Op κ ν)}
    (alike : List.Forall₂ Op.AlikeToGhosts ops others) :
    PlainCache.SameLive (first.run ops).toPlain (second.run others).toPlain := by
  induction alike generalizing first second with
  | nil => exact same
  | @cons op other _ _ head _ ih =>
    have next := same.perform consistentFirst.distinct consistentSecond.distinct head
    rw [← consistentFirst.toPlain_perform, ← consistentSecond.toPlain_perform] at next
    exact ih (consistentFirst.perform op) (consistentSecond.perform other) next

/-- After operations that are alike but for ghosts, two new caches of the same live capacity have
the same live entries in the same order, whatever their history capacities. So a look-up hits in
both or in neither, and finds the same payload. -/
theorem live_independent_of_history {maxFrames historyFirst historySecond : Nat}
    {fixedFirst fixedSecond : Bool} {newFirst newSecond : Cache κ ν}
    (createdFirst : create maxFrames historyFirst fixedFirst = .ok newFirst)
    (createdSecond : create maxFrames historySecond fixedSecond = .ok newSecond)
    {ops others : List (Op κ ν)} (alike : List.Forall₂ Op.AlikeToGhosts ops others) :
    let first := newFirst.run ops
    let second := newSecond.run others
    Entry.live first.entries = Entry.live second.entries ∧
      ∀ key, (∀ payload, (first.lookup key).1 = .hit payload ↔
          (second.lookup key).1 = .hit payload) ∧
        (first.get key).1 = (second.get key).1 ∧ first.peek? key = second.peek? key := by
  obtain ⟨-, rfl⟩ := create_eq_ok_iff.mp createdFirst
  obtain ⟨-, rfl⟩ := create_eq_ok_iff.mp createdSecond
  intro first second
  have newFirstConsistent := consistent_empty (κ := κ) (ν := ν) maxFrames historyFirst fixedFirst
  have newSecondConsistent := consistent_empty (κ := κ) (ν := ν) maxFrames historySecond fixedSecond
  have start : PlainCache.SameLive
      (empty maxFrames historyFirst fixedFirst : Cache κ ν).toPlain
      (empty maxFrames historySecond fixedSecond : Cache κ ν).toPlain := ⟨rfl, rfl⟩
  have same := newFirstConsistent.sameLive_run newSecondConsistent start alike
  have firstConsistent : first.Consistent := newFirstConsistent.run ops
  have secondConsistent : second.Consistent := newSecondConsistent.run others
  refine ⟨same.live_eq, fun key => ⟨fun payload => ?_, ?_, ?_⟩⟩
  · rw [firstConsistent.lookup_eq_hit_iff, secondConsistent.lookup_eq_hit_iff]
    exact same.mem_entries_iff
  · apply Option.ext
    intro payload
    rw [firstConsistent.get_eq_some_iff, secondConsistent.get_eq_some_iff]
    exact same.mem_entries_iff
  · apply Option.ext
    intro payload
    rw [firstConsistent.peek?_eq_some_iff, secondConsistent.peek?_eq_some_iff]
    exact same.mem_entries_iff

/-- A key that one cache has put first as a ghost and the other has forgotten makes no difference to
what is demoted after it. -/
theorem live_independent_of_history_of_promoted_ghost :
    let first : Cache Nat String := .empty 2 3 false
    let second : Cache Nat String := .empty 2 0 true
    let ops : List (Op Nat String) :=
      [.insert 1 "a", .insert 2 "b", .insert 3 "c", .lookup 1, .insert 4 "d", .trim 2 1,
        .setMaxHistory 1, .get 3, .setMaxFrames 1]
    let others : List (Op Nat String) :=
      [.insert 1 "a", .insert 2 "b", .insert 3 "c", .lookup 1, .insert 4 "d", .trim 2 0,
        .setMaxHistory 5, .get 3, .setMaxFrames 1]
    create 2 3 false = .ok first ∧ create 2 0 true = .ok second ∧
      List.Forall₂ Op.AlikeToGhosts ops others ∧
      ((first.run (ops.take 3)).lookup 1).1 ≠ ((second.run (others.take 3)).lookup 1).1 ∧
      Entry.live (first.run ops).entries = Entry.live (second.run others).entries := by
  intro first second ops others
  have createdFirst : create 2 3 false = .ok first := create_eq_ok_iff.mpr ⟨by decide, rfl⟩
  have createdSecond : create 2 0 true = .ok second := create_eq_ok_iff.mpr ⟨by decide, rfl⟩
  have alike : List.Forall₂ Op.AlikeToGhosts ops others :=
    .cons (.alike (.insert ..)) <| .cons (.alike (.insert ..)) <| .cons (.alike (.insert ..)) <|
      .cons (.alike (.lookup 1)) <| .cons (.alike (.insert ..)) <| .cons (.trim ..) <|
      .cons (.alike (.setMaxHistory ..)) <| .cons (.alike (.get 3)) <| .cons (.setMaxFrames 1) .nil
  have apart : ((first.run (ops.take 3)).lookup 1).1 ≠
      ((second.run (others.take 3)).lookup 1).1 := by
    have newFirst := consistent_empty (κ := Nat) (ν := String) 2 3 false
    have newSecond := consistent_empty (κ := Nat) (ν := String) 2 0 true
    rw [(newFirst.run _).lookup_found, (newSecond.run _).lookup_found, newFirst.toPlain_run,
      newSecond.toPlain_run]
    decide
  exact ⟨createdFirst, createdSecond, alike, apart,
    (live_independent_of_history createdFirst createdSecond alike).1⟩

end Cache

end FrameKeep
