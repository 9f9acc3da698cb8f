import FrameKeep.Proofs.Cache.Answers
import FrameKeep.Proofs.Cache.Stage

/-!
# Coherence of payloads with the history

What a cache answers about a key is decided by what happened to the key since it was last stored:
its payload is found if and only if the key was neither forgotten nor demoted since, it is a ghost
only if it was demoted and not forgotten, and a key that was not stored since it was last forgotten
is unknown.
-/

namespace FrameKeep

variable {κ ν : Type} [DecidableEq κ]

namespace PlainCache

variable {cache : PlainCache κ ν} {op : Cache.Op κ ν} {key : κ} {payload : ν}

/-! ### One operation -/

/-- A key is live after an operation that stored it, or before which it was live and which neither
stores nor forgets it, unless the operation demotes it. -/
theorem Within.live_perform_iff (within : cache.Within)
    (distinct : (cache.entries.map (·.key)).Nodup) :
    { key, payload := some payload } ∈ (cache.perform op).state.entries ↔
      key ∉ (cache.stage op).demoted ∧
        (op = .insert key payload ∨
          ¬ op.Inserts key ∧ ¬ cache.Forgets op key ∧
            { key, payload := some payload } ∈ cache.entries) := by
  rw [(within.leadsTo_perform op).entries_eq, Stage.live_mem_trimmed_iff (nodup_stage distinct op),
    and_comm]
  apply and_congr_right
  intro _
  constructor
  · intro member
    rcases mem_stage member with ⟨stored, inserted, same⟩ | before
    · obtain rfl := Option.some.inj same
      exact .inl inserted
    · exact .inr before
  · rintro (rfl | ⟨kept, remembered, before⟩)
    · exact List.mem_cons_self
    · exact mem_stage_of_mem distinct kept remembered before

/-- A ghost after an operation was stored and demoted by it, or else was a ghost before or was live
before and demoted by it. -/
theorem Within.ghost_of_perform (within : cache.Within)
    (ghost : { key, payload := none } ∈ (cache.perform op).state.entries) :
    (∃ payload, op = .insert key payload ∧ key ∈ (cache.stage op).demoted) ∨
      ¬ op.Inserts key ∧ ¬ cache.Forgets op key ∧
        ({ key, payload := none } ∈ cache.entries ∨
          key ∈ (cache.stage op).demoted ∧
            ∃ payload, { key, payload := some payload } ∈ cache.entries) := by
  rw [(within.leadsTo_perform op).entries_eq] at ghost
  rcases Stage.mem_entries_or_mem_demoted_of_ghost ghost with before | demoted
  · rcases mem_stage before with ⟨payload, -, same⟩ | ⟨kept, remembered, member⟩
    · simp at same
    · exact .inr ⟨kept, remembered, .inl member⟩
  · obtain ⟨payload, member⟩ := Stage.exists_live_of_mem_demoted demoted
    rcases mem_stage member with ⟨stored, inserted, -⟩ | ⟨kept, remembered, before⟩
    · exact .inl ⟨stored, inserted, demoted⟩
    · exact .inr ⟨kept, remembered, .inr ⟨demoted, payload, before⟩⟩

/-- A key that is known after an operation was stored by it, or else was known before and is not
forgotten by it. -/
theorem Within.known_of_perform (within : cache.Within)
    (known : key ∈ (cache.perform op).state.entries.map (·.key)) :
    op.Inserts key ∨ ¬ cache.Forgets op key ∧ key ∈ cache.entries.map (·.key) := by
  rw [(within.leadsTo_perform op).entries_eq] at known
  obtain ⟨⟨key, payload?⟩, member, rfl⟩ := List.mem_map.mp (Stage.mem_keys_of_trimmed known)
  rcases mem_stage member with ⟨payload, inserted, -⟩ | ⟨-, remembered, before⟩
  · exact .inl ⟨payload, inserted⟩
  · exact .inr ⟨remembered, List.mem_map_of_mem before⟩

end PlainCache

namespace Cache

variable [Hashable κ] {cache : Cache κ ν} {key : κ} {payload : ν}

/-- The operation takes the payload of the key. -/
def Demotes (cache : Cache κ ν) (op : Op κ ν) (key : κ) : Prop :=
  key ∈ (cache.toPlain.stage op).demoted

/-- The operation forgets the key: it removes the key or empties the cache. -/
def Forgets (cache : Cache κ ν) (op : Op κ ν) (key : κ) : Prop := cache.toPlain.Forgets op key

namespace Consistent

variable {op : Op κ ν}

/-- An operation leaves the entries it leaves of the plain cache. -/
theorem entries_perform (consistent : cache.Consistent) (op : Op κ ν) :
    (cache.perform op).state.entries = (cache.toPlain.perform op).state.entries :=
  congrArg PlainCache.entries (consistent.toPlain_perform op)

/-- After an operation an entry is live if the operation stored it or let it be, and did not take
its payload. -/
theorem live_perform_iff (consistent : cache.Consistent) :
    { key, payload := some payload } ∈ (cache.perform op).state.entries ↔
      ¬ cache.Demotes op key ∧
        (op = .insert key payload ∨
          ¬ op.Inserts key ∧ ¬ cache.Forgets op key ∧
            { key, payload := some payload } ∈ cache.entries) := by
  rw [consistent.entries_perform]
  exact consistent.within.live_perform_iff consistent.distinct

/-- A ghost was a ghost before the operation, or the operation took its payload. -/
theorem ghost_of_perform (consistent : cache.Consistent)
    (ghost : { key, payload := none } ∈ (cache.perform op).state.entries) :
    (∃ payload, op = .insert key payload ∧ cache.Demotes op key) ∨
      ¬ op.Inserts key ∧ ¬ cache.Forgets op key ∧
        ({ key, payload := none } ∈ cache.entries ∨
          cache.Demotes op key ∧ ∃ payload, { key, payload := some payload } ∈ cache.entries) := by
  rw [consistent.entries_perform] at ghost
  exact consistent.within.ghost_of_perform ghost

/-- A key is remembered only if the operation stored it or did not forget it. -/
theorem known_of_perform (consistent : cache.Consistent)
    (known : key ∈ (cache.perform op).state.keys) :
    op.Inserts key ∨ ¬ cache.Forgets op key ∧ key ∈ cache.keys := by
  rw [keys, consistent.entries_perform] at known
  exact consistent.within.known_of_perform known

end Consistent

/-- It holds of every operation in the state that the operation is performed in. -/
def Throughout (holds : Cache κ ν → Op κ ν → Prop) : Cache κ ν → List (Op κ ν) → Prop
  | _, [] => True
  | cache, op :: rest => holds cache op ∧ Throughout holds (cache.perform op).state rest

private theorem Throughout.concat {holds : Cache κ ν → Op κ ν → Prop} {ops : List (Op κ ν)}
    {op : Op κ ν} (earlier : Throughout holds cache ops) (last : holds (cache.run ops) op) :
    Throughout holds cache (ops ++ [op]) := by
  induction ops generalizing cache with
  | nil => exact ⟨last, trivial⟩
  | cons first rest ih => exact ⟨earlier.1, ih earlier.2 last⟩

/-- The operations `ops` on `start` are `before`, then the insertion of a payload under a key, and
then `after`, which neither store nor forget the key again. -/
structure LastInsert (start : Cache κ ν) (ops before : List (Op κ ν)) (key : κ) (payload : ν)
    (after : List (Op κ ν)) : Prop where
  ops_eq : ops = before ++ .insert key payload :: after
  untouched : Throughout (fun state op => ¬ op.Inserts key ∧ ¬ state.Forgets op key)
    (start.run (before ++ [.insert key payload])) after

namespace LastInsert

variable {start : Cache κ ν} {ops before after : List (Op κ ν)} {op : Op κ ν}

private theorem of_insert (start : Cache κ ν) (before : List (Op κ ν)) (key : κ) (payload : ν) :
    start.LastInsert (before ++ [.insert key payload]) before key payload [] := ⟨rfl, trivial⟩

private theorem run_eq (last : start.LastInsert ops before key payload after) :
    (start.run (before ++ [.insert key payload])).run after = start.run ops := by
  rw [last.ops_eq, ← run_append, List.append_assoc]
  rfl

private theorem concat (last : start.LastInsert ops before key payload after)
    (kept : ¬ op.Inserts key) (remembered : ¬ (start.run ops).Forgets op key) :
    start.LastInsert (ops ++ [op]) before key payload (after ++ [op]) where
  ops_eq := by rw [last.ops_eq, List.append_assoc, List.cons_append]
  untouched := by
    refine last.untouched.concat ⟨kept, ?_⟩
    rwa [last.run_eq]

end LastInsert

/-- The operations `ops` on `start` stored the payload under the key, and since then neither stored
nor forgot nor demoted the key. -/
def Retains (start : Cache κ ν) (ops : List (Op κ ν)) (key : κ) (payload : ν) : Prop :=
  ∃ before after, start.LastInsert ops before key payload after ∧
    Throughout (fun state op => ¬ state.Demotes op key) (start.run before)
      (.insert key payload :: after)

namespace Consistent

variable {start : Cache κ ν} {ops : List (Op κ ν)}

/-- A live key stays live with its payload until it is stored anew, forgotten or demoted. -/
theorem live_of_untouched (consistent : cache.Consistent)
    (live : { key, payload := some payload } ∈ cache.entries)
    (untouched : Throughout (fun state op => ¬ op.Inserts key ∧ ¬ state.Forgets op key) cache ops)
    (undemoted : Throughout (fun state op => ¬ state.Demotes op key) cache ops) :
    { key, payload := some payload } ∈ (cache.run ops).entries := by
  induction ops generalizing cache with
  | nil => exact live
  | cons op rest ih =>
    obtain ⟨⟨kept, remembered⟩, untouchedRest⟩ := untouched
    obtain ⟨first, undemotedRest⟩ := undemoted
    have still := consistent.live_perform_iff.mpr ⟨first, .inr ⟨kept, remembered, live⟩⟩
    exact ih (consistent.perform op) still untouchedRest undemotedRest

/-- The live keys are those that the operations stored and retain. -/
theorem live_iff_retains (consistent : start.Consistent) (new : start.entries = []) :
    { key, payload := some payload } ∈ (start.run ops).entries ↔
      start.Retains ops key payload := by
  constructor
  · intro live
    -- The last operation stored the key, or left alone what the earlier ones had stored.
    induction ops using List.reverseRecOn with
    | nil => simp [Cache.run, new] at live
    | append_singleton earlier op ih =>
      rw [run_concat, (consistent.run earlier).live_perform_iff] at live
      obtain ⟨undemoted, rfl | ⟨kept, remembered, before⟩⟩ := live
      · exact ⟨earlier, [], .of_insert .., undemoted, trivial⟩
      · obtain ⟨before, after, last, quiet⟩ := ih before
        refine ⟨before, after ++ [op], last.concat kept remembered, Throughout.concat quiet ?_⟩
        rwa [← run_append, ← last.ops_eq]
  · rintro ⟨before, after, last, undemoted, undemotedAfter⟩
    have stored := (consistent.run before).live_perform_iff.mpr ⟨undemoted, .inl rfl⟩
    rw [← last.run_eq]
    apply (consistent.run _).live_of_untouched _ last.untouched
    · rwa [run_concat]
    · rwa [run_concat]

/-- A ghost was stored, demoted then or later, and neither stored nor forgotten since it was
stored. -/
theorem exists_lastInsert_of_ghost (consistent : start.Consistent) (new : start.entries = [])
    (ghost : { key, payload := none } ∈ (start.run ops).entries) :
    ∃ before payload after, start.LastInsert ops before key payload after ∧
      ∃ earlier op later, .insert key payload :: after = earlier ++ op :: later ∧
        (start.run (before ++ earlier)).Demotes op key := by
  induction ops using List.reverseRecOn with
  | nil => simp [Cache.run, new] at ghost
  | append_singleton earlier op ih =>
    rw [run_concat] at ghost
    rcases (consistent.run earlier).ghost_of_perform ghost with
      ⟨payload, rfl, demoted⟩ | ⟨kept, remembered, before | ⟨demoted, payload, live⟩⟩
    · refine ⟨earlier, payload, [], .of_insert .., [], _, [], rfl, ?_⟩
      rwa [List.append_nil]
    · -- The key was demoted before the last operation.
      obtain ⟨before, payload, after, last, upper, demoting, lower, split, demoted⟩ := ih before
      refine ⟨before, payload, after ++ [op], last.concat kept remembered, upper, demoting,
        lower ++ [op], ?_, demoted⟩
      rw [← List.cons_append, split, List.append_assoc, List.cons_append]
    · -- The last operation is the one that demotes the key.
      obtain ⟨before, after, last, -⟩ := (consistent.live_iff_retains new).mp live
      refine ⟨before, payload, after ++ [op], last.concat kept remembered,
        .insert key payload :: after, op, [], rfl, ?_⟩
      rwa [← last.ops_eq]

/-- A key that is unknown stays so until it is stored. -/
theorem unknown_of_run (consistent : cache.Consistent) (unknown : key ∉ cache.keys)
    (kept : ∀ op ∈ ops, ¬ op.Inserts key) : key ∉ (cache.run ops).keys := by
  refine consistent.run_induction (key ∉ ·.keys) unknown ?_ kept
  rintro state op consistent kept unknown known
  rcases consistent.known_of_perform known with inserted | ⟨-, before⟩
  · exact kept inserted
  · exact unknown before

/-- A key without a payload gets none until it is stored. -/
theorem idle_of_run (consistent : cache.Consistent)
    (idle : ∀ payload, { key, payload := some payload } ∉ cache.entries)
    (kept : ∀ op ∈ ops, ¬ op.Inserts key) :
    ∀ payload, { key, payload := some payload } ∉ (cache.run ops).entries := by
  refine consistent.run_induction
    (fun state => ∀ payload, { key, payload := some payload } ∉ state.entries) idle ?_ kept
  rintro state op consistent kept idle payload live
  rcases consistent.live_perform_iff.mp live with ⟨-, rfl | ⟨-, -, before⟩⟩
  · exact kept ⟨payload, rfl⟩
  · exact idle payload before

end Consistent

/-- Value coherence. After any operations on a new cache, a payload is found if and only if it is
the one that was stored last under its key and the key was neither forgotten nor demoted since; a
key found as a ghost was stored and then demoted, and not forgotten since; a key not stored since it
was last forgotten, or ever, is not found; and a key without a payload has none again before it is
stored anew. -/
theorem value_coherence {maxFrames maxHistory : Nat} {fixed : Bool} {start : Cache κ ν}
    (created : create maxFrames maxHistory fixed = .ok start) (ops : List (Op κ ν)) (key : κ) :
    let cache := start.run ops
    (∀ payload, ((cache.lookup key).1 = .hit payload ↔ start.Retains ops key payload) ∧
        ((cache.get key).1 = some payload ↔ start.Retains ops key payload) ∧
        (cache.peek? key = some payload ↔ start.Retains ops key payload)) ∧
      ((cache.lookup key).1 = .nearMiss →
        ∃ before payload after, start.LastInsert ops before key payload after ∧
          ∃ earlier op later, .insert key payload :: after = earlier ++ op :: later ∧
            (start.run (before ++ earlier)).Demotes op key) ∧
      (∀ before after, ops = before ++ after →
        (before = [] ∨
          ∃ earlier op, before = earlier ++ [op] ∧ (start.run earlier).Forgets op key) →
        (∀ op ∈ after, ¬ op.Inserts key) → (cache.lookup key).1 = .farMiss) ∧
      ∀ more, cache.peek? key = none → (∀ op ∈ more, ¬ op.Inserts key) →
        (cache.run more).peek? key = none := by
  obtain ⟨-, rfl⟩ := create_eq_ok_iff.mp created
  have start := consistent_empty (κ := κ) (ν := ν) maxFrames maxHistory fixed
  intro cache
  have consistent : cache.Consistent := start.run ops
  refine ⟨fun payload => ?_, fun nearMiss => ?_, ?_, fun more nothing kept => ?_⟩
  · have retained : { key, payload := some payload } ∈ cache.entries ↔ _ :=
      start.live_iff_retains rfl
    exact ⟨consistent.lookup_eq_hit_iff.trans retained, consistent.get_eq_some_iff.trans retained,
      consistent.peek?_eq_some_iff.trans retained⟩
  · exact start.exists_lastInsert_of_ghost rfl (consistent.lookup_eq_nearMiss_iff.mp nearMiss)
  · rintro before after rfl forgotten kept
    have unknown : key ∉ ((empty maxFrames maxHistory fixed : Cache κ ν).run before).keys := by
      rcases forgotten with rfl | ⟨earlier, op, rfl, forgets⟩
      · exact List.not_mem_nil
      · rw [run_concat]
        intro known
        rcases (start.run earlier).known_of_perform known with ⟨payload, rfl⟩ | ⟨remembered, -⟩
        · nomatch forgets
        · exact remembered forgets
    have stillUnknown := (start.run before).unknown_of_run unknown kept
    rw [← run_append] at stillUnknown
    exact consistent.lookup_eq_farMiss_iff.mpr stillUnknown
  · have idle (payload : ν) : { key, payload := some payload } ∉ cache.entries := by
      intro live
      rw [← consistent.peek?_eq_some_iff, nothing] at live
      simp at live
    apply Option.eq_none_iff_forall_ne_some.mpr
    intro payload held
    exact consistent.idle_of_run idle kept payload
      ((consistent.run more).peek?_eq_some_iff.mp held)

/-- A payload that lies in the slot of a forgotten key is found under its own key alone. -/
theorem value_coherence_of_reused_slot :
    (create 1 1 false : Except Fault (Cache Nat String)) = .ok (empty 1 1 false) ∧
      let ops : List (Op Nat String) :=
        [.insert 1 "a", .insert 2 "b", .insert 3 "c", .remove 2, .insert 4 "d"]
      let cache := (empty 1 1 false).run ops
      cache.peek? 4 = some "d" ∧ (empty 1 1 false).Retains ops 4 "d" ∧
        (cache.lookup 2).1 = .farMiss := by
  have created : (create 1 1 false : Except Fault (Cache Nat String)) = .ok (empty 1 1 false) :=
    create_eq_ok_iff.mpr ⟨by decide, rfl⟩
  have start := consistent_empty (κ := Nat) (ν := String) 1 1 false
  refine ⟨created, ?_⟩
  intro ops cache
  have held : cache.peek? 4 = some "d" := by
    rw [(start.run ops).peek?_eq, start.toPlain_run]
    decide
  refine ⟨held, ((value_coherence created ops 4).1 "d").2.2.mp held, ?_⟩
  refine (value_coherence created ops 2).2.2.1 (ops.take 4) (ops.drop 4) rfl (.inr ?_) ?_
  · exact ⟨ops.take 3, .remove 2, rfl, .remove 2⟩
  · rintro op member ⟨payload, rfl⟩
    simp [ops] at member

end Cache

end FrameKeep
