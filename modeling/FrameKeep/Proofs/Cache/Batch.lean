import FrameKeep.Proofs.Cache.Coherence
import FrameKeep.Proofs.Cache.LiveEntries
import FrameKeep.Proofs.Cache.Stack
import FrameKeep.Proofs.Scheduler.Phases

/-!
# Batches

What is stored as a batch is put in front of all that was live before, the last payload first, and
as many of these entries stay live as there may be. So a batch of no more payloads than that is live
once it is stored, however full the cache was. It stays live until something is done to one of its
keys.
-/

namespace FrameKeep

variable {κ ν : Type}

namespace Entry

/-- The live entries of payloads that were stored one after the other, the last one in front. -/
def ofStored (stored : List (κ × ν)) : List (Entry κ ν) :=
  stored.reverse.map fun (key, payload) => { key, payload := some payload }

private theorem ofStored_concat (earlier : List (κ × ν)) (key : κ) (payload : ν) :
    ofStored (earlier ++ [(key, payload)]) =
      { key, payload := some payload } :: ofStored earlier := by
  rw [ofStored, List.reverse_concat, List.map_cons, ofStored]

/-- Exactly the payloads that were stored have a live entry. -/
theorem mem_ofStored {stored : List (κ × ν)} {key : κ} {payload : ν} :
    { key, payload := some payload } ∈ ofStored stored ↔ (key, payload) ∈ stored := by
  simp [ofStored]

@[simp] theorem length_ofStored (stored : List (κ × ν)) :
    (ofStored stored).length = stored.length := by
  simp [ofStored]

@[simp] theorem map_key_ofStored (stored : List (κ × ν)) :
    (ofStored stored).map (·.key) = (stored.map (·.1)).reverse := by
  simp [ofStored, Function.comp_def]

variable [DecidableEq κ]

/-- A batch without repeated keys has no key in common with what it is put in front of. -/
theorem nodup_key_ofStored_append {stored : List (κ × ν)}
    (storedDistinct : (stored.map (·.1)).Nodup) {entries : List (Entry κ ν)}
    (distinct : (entries.map (·.key)).Nodup) :
    ((ofStored stored ++ withoutAll entries (stored.map (·.1))).map (·.key)).Nodup := by
  rw [List.map_append, map_key_ofStored, List.nodup_append]
  refine ⟨List.nodup_reverse.mpr storedDistinct,
    distinct.sublist (List.filter_sublist.map _), ?_⟩
  rintro key fresh other old rfl
  obtain ⟨entry, member, rfl⟩ := List.mem_map.mp old
  have outside : entry.key ∉ stored.map (·.1) := by simpa using (List.mem_filter.mp member).2
  exact outside (List.mem_reverse.mp fresh)

/-- Which entries come first once one is put in front is decided by those that came first before. -/
theorem take_cons_without_take {entries : List (Entry κ ν)}
    (distinct : (entries.map (·.key)).Nodup) (front : Entry κ ν) (key : κ) (count : Nat) :
    (front :: without (entries.take count) key).take count =
      (front :: without entries key).take count := by
  have once := countP_eq_key_le_one distinct key
  rw [List.countP_map] at once
  exact take_cons_filter_take once front count

end Entry

variable [DecidableEq κ]

namespace PlainCache

/-- Storing payloads changes neither how many may be live nor what is known of the look-ups. -/
theorem run_insertions_keeps (cache : PlainCache κ ν) (stored : List (κ × ν)) :
    let after := cache.run (Cache.insertions stored)
    after.maxFrames = cache.maxFrames ∧ after.window = cache.window ∧
      after.metrics.lookups = cache.metrics.lookups := by
  induction stored generalizing cache with
  | nil => exact ⟨rfl, rfl, rfl⟩
  | cons first rest ih => exact ih _

private theorem run_insertions_concat (cache : PlainCache κ ν) (earlier : List (κ × ν)) (key : κ)
    (payload : ν) :
    cache.run (Cache.insertions (earlier ++ [(key, payload)])) =
      (cache.run (Cache.insertions earlier)).insert key payload := by
  rw [Cache.insertions, List.map_append]
  exact List.foldl_append

/-- What is live once a batch is stored is the batch, the last payload in front, and behind it what
was live before under other keys, up to as many entries as may be live. Payloads that earlier ones
of the batch were demoted for make no difference. -/
theorem live_run_insertions {cache : PlainCache κ ν} (within : cache.Within)
    (distinct : (cache.entries.map (·.key)).Nodup) {stored : List (κ × ν)}
    (storedDistinct : (stored.map (·.1)).Nodup) :
    Entry.live (cache.run (Cache.insertions stored)).entries =
      (Entry.ofStored stored ++
          Entry.withoutAll (Entry.live cache.entries) (stored.map (·.1))).take
        cache.maxFrames := by
  induction stored using List.reverseRecOn with
  | nil =>
    rw [List.map_nil, Entry.withoutAll_nil]
    exact (List.take_of_length_le within.live_le).symm
  | append_singleton earlier last ih =>
    obtain ⟨key, payload⟩ := last
    rw [List.map_append, List.nodup_append] at storedDistinct
    obtain ⟨earlierDistinct, -, apart⟩ := storedDistinct
    have fresh : ∀ entry ∈ Entry.ofStored earlier, entry.key ≠ key := by
      intro entry member
      have stored := List.mem_map_of_mem (f := (·.key)) member
      rw [Entry.map_key_ofStored, List.mem_reverse] at stored
      exact apart _ stored key List.mem_cons_self
    let older := Entry.live cache.entries
    let keys := earlier.map (·.1)
    have rest : Entry.without (Entry.ofStored earlier ++ Entry.withoutAll older keys) key =
        Entry.ofStored earlier ++ Entry.withoutAll older (keys ++ [key]) := by
      rw [Entry.without_append, Entry.without_eq_self fresh, Entry.without_withoutAll]
    have earlierLive := ih earlierDistinct
    calc Entry.live (cache.run (Cache.insertions (earlier ++ [(key, payload)]))).entries
        = ({ key, payload := some payload } :: Entry.without
              ((Entry.ofStored earlier ++ Entry.withoutAll older keys).take cache.maxFrames)
              key).take cache.maxFrames := by
          rw [run_insertions_concat, live_insert, (run_insertions_keeps cache earlier).1,
            earlierLive]
      _ = ({ key, payload := some payload } :: Entry.without
              (Entry.ofStored earlier ++ Entry.withoutAll older keys) key).take
            cache.maxFrames :=
          Entry.take_cons_without_take
            (Entry.nodup_key_ofStored_append earlierDistinct (Entry.nodup_live distinct)) ..
      _ = _ := by
          rw [rest, Entry.ofStored_concat, List.map_append]
          rfl

end PlainCache

namespace Cache

variable [Hashable κ] {cache : Cache κ ν} {keys : List κ} {ops : List (Op κ ν)}

/-- What is live once a batch is stored, on a cache with an arena. -/
theorem Consistent.live_run_insertions (consistent : cache.Consistent) {stored : List (κ × ν)}
    (storedDistinct : (stored.map (·.1)).Nodup) :
    Entry.live (cache.run (insertions stored)).entries =
      (Entry.ofStored stored ++
          Entry.withoutAll (Entry.live cache.entries) (stored.map (·.1))).take
        cache.maxFrames := by
  have entries : (cache.run (insertions stored)).entries =
      (cache.toPlain.run (insertions stored)).entries :=
    congrArg PlainCache.entries (consistent.toPlain_run _)
  rw [entries]
  exact PlainCache.live_run_insertions consistent.within consistent.distinct storedDistinct

/-- A batch that there is room for is live once it is stored. -/
theorem Consistent.mem_run_insertions (consistent : cache.Consistent) {stored : List (κ × ν)}
    (distinct : (stored.map (·.1)).Nodup) (room : stored.length ≤ cache.maxFrames) {key : κ}
    {payload : ν} (member : (key, payload) ∈ stored) :
    { key, payload := some payload } ∈ (cache.run (insertions stored)).entries := by
  rw [← Entry.mem_live, consistent.live_run_insertions distinct, List.take_append]
  apply List.mem_append_left
  rw [List.take_of_length_le (by simpa using room)]
  exact Entry.mem_ofStored.mpr member

/-- The operation neither stores nor forgets nor demotes any of the keys. -/
def Spares (keys : List κ) (cache : Cache κ ν) (op : Op κ ν) : Prop :=
  ∀ key ∈ keys, ¬ op.Inserts key ∧ ¬ cache.Forgets op key ∧ ¬ cache.Demotes op key

private theorem Throughout.imp {holds weaker : Cache κ ν → Op κ ν → Prop}
    (implies : ∀ {state op}, holds state op → weaker state op)
    (throughout : Throughout holds cache ops) : Throughout weaker cache ops := by
  induction ops generalizing cache with
  | nil => trivial
  | cons op rest ih => exact ⟨implies throughout.1, ih throughout.2⟩

/-- What is live stays live while it is spared. -/
theorem Consistent.live_of_spared (consistent : cache.Consistent) {key : κ} {payload : ν}
    (live : { key, payload := some payload } ∈ cache.entries) (member : key ∈ keys)
    (spared : Throughout (Spares keys) cache ops) :
    { key, payload := some payload } ∈ (cache.run ops).entries :=
  consistent.live_of_untouched live
    (spared.imp fun spares => ⟨(spares key member).1, (spares key member).2.1⟩)
    (spared.imp fun spares => (spares key member).2.2)

/-- A look-up leaves live what is live. -/
theorem Consistent.live_get (consistent : cache.Consistent) {key : κ} {payload : ν}
    (live : { key, payload := some payload } ∈ cache.entries) (other : κ) :
    { key, payload := some payload } ∈ (cache.perform (.get other)).state.entries := by
  rw [consistent.entries_perform]
  exact PlainCache.mem_lookup_of_mem_entries consistent.distinct live other

end Cache

end FrameKeep
