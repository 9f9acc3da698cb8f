import FrameKeep.Proofs.Cache.Coherence

/-!
# Caches with room

A cache that has room for every key that is ever stored in it takes no payload back. So it goes on
holding whatever was stored last under each of the keys.
-/

namespace FrameKeep

variable {κ ν : Type}

/-- Nothing is demoted where there is room for all live keys. -/
theorem Stage.demoted_eq_nil {stage : Stage κ ν} {room : List κ}
    (distinct : (stage.entries.map (·.key)).Nodup) (enough : room.length ≤ stage.maxLive)
    (within : ∀ key payload, { key, payload := some payload } ∈ stage.entries → key ∈ room) :
    stage.demoted = [] := by
  have liveWithin : (Entry.live stage.entries).map (·.key) ⊆ room := by
    intro key member
    obtain ⟨payload, held⟩ := Entry.mem_map_key_live.mp member
    exact within key payload held
  have fewer := ((Entry.nodup_live distinct).subperm liveWithin).length_le
  rw [List.length_map] at fewer
  rw [demoted, List.drop_eq_nil_of_le (Nat.le_trans fewer enough), List.map_nil]

namespace Cache

variable [DecidableEq κ] [Hashable κ]

/-- The cache has room for all keys among `room`, no other key is live, and every payload that
`latest` has for a key is held. -/
structure Hoards (cache : Cache κ ν) (room : List κ) (latest : κ → Option ν) : Prop where
  enough : room.length ≤ cache.maxFrames
  within : ∀ key payload, { key, payload := some payload } ∈ cache.entries → key ∈ room
  held : ∀ key payload, latest key = some payload →
    { key, payload := some payload } ∈ cache.entries

namespace Hoards

variable {cache : Cache κ ν} {room : List κ} {latest later : κ → Option ν} {op : Op κ ν}

/-- An operation that trims to the capacities, and stores keys of the room only, demotes nothing. -/
theorem live_perform_iff (hoards : cache.Hoards room latest) (consistent : cache.Consistent)
    (bound : (cache.toPlain.stage op).maxLive = cache.maxFrames)
    (inRoom : ∀ key, op.Inserts key → key ∈ room) {key : κ} {payload : ν} :
    { key, payload := some payload } ∈ (cache.perform op).state.entries ↔
      op = .insert key payload ∨
        ¬ op.Inserts key ∧ ¬ cache.Forgets op key ∧
          { key, payload := some payload } ∈ cache.entries := by
  have nothing : (cache.toPlain.stage op).demoted = [] := by
    apply Stage.demoted_eq_nil (PlainCache.nodup_stage consistent.distinct op)
      (bound ▸ hoards.enough)
    intro other held member
    rcases PlainCache.mem_stage member with ⟨payload, inserted, -⟩ | ⟨-, -, before⟩
    · exact inRoom other ⟨payload, inserted⟩
    · exact hoards.within other held before
  rw [consistent.live_perform_iff, Demotes, nothing]
  simp

/-- Such an operation brings in what it stores, and all other keys stay as they were. -/
theorem perform (hoards : cache.Hoards room latest) (consistent : cache.Consistent)
    (bound : (cache.toPlain.stage op).maxLive = cache.maxFrames)
    (capacity : (cache.toPlain.perform op).state.maxFrames = cache.maxFrames)
    (stored : ∀ key payload, op = .insert key payload → key ∈ room ∧ later key = some payload)
    (others : ∀ key, ¬ op.Inserts key → ¬ cache.Forgets op key ∧ later key = latest key) :
    (cache.perform op).state.Hoards room later := by
  have inRoom (key : κ) : op.Inserts key → key ∈ room := fun ⟨payload, inserted⟩ =>
    (stored key payload inserted).1
  have same : (cache.perform op).state.maxFrames = cache.maxFrames :=
    (congrArg PlainCache.maxFrames (consistent.toPlain_perform op)).trans capacity
  refine ⟨same ▸ hoards.enough, fun key payload live => ?_, fun key payload delivered => ?_⟩
  · rcases (hoards.live_perform_iff consistent bound inRoom).mp live with
      inserted | ⟨-, -, before⟩
    · exact inRoom key ⟨payload, inserted⟩
    · exact hoards.within key payload before
  · rw [hoards.live_perform_iff consistent bound inRoom]
    by_cases inserts : op.Inserts key
    · obtain ⟨newest, inserted⟩ := inserts
      obtain rfl := Option.some.inj ((stored key newest inserted).2.symm.trans delivered)
      exact .inl inserted
    · obtain ⟨remembered, same⟩ := others key inserts
      exact .inr ⟨inserts, remembered, hoards.held key payload (same ▸ delivered)⟩

/-- Getting a key leaves everything that is hoarded. -/
theorem get (hoards : cache.Hoards room latest) (consistent : cache.Consistent) (key : κ) :
    (cache.perform (.get key)).state.Hoards room latest :=
  hoards.perform consistent rfl rfl nofun fun _ _ => ⟨nofun, rfl⟩

/-- Inserting a key within the room leaves the others hoarded and hoards its payload. -/
theorem insert (hoards : cache.Hoards room latest) (consistent : cache.Consistent) {key : κ}
    {payload : ν} (member : key ∈ room) (stored : later key = some payload)
    (others : ∀ other, other ≠ key → later other = latest other) :
    (cache.perform (.insert key payload)).state.Hoards room later := by
  apply hoards.perform consistent rfl rfl
  · rintro _ _ ⟨⟩
    exact ⟨member, stored⟩
  · intro other kept
    refine ⟨nofun, others other ?_⟩
    rintro rfl
    exact kept ⟨payload, rfl⟩

end Hoards

end Cache

end FrameKeep
