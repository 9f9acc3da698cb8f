import FrameKeep.Proofs.Cache.Batch
import FrameKeep.Proofs.Cache.Invariant

/-!
# The second phase

A second phase keeps what comes back, whatever else fails. The frames that came back are put before
all that was live, the last one in front, and as many stay live as there may be. Nothing is gained
for a frame that failed.
-/

namespace FrameKeep

namespace Scheduler

variable {σ φ ε : Type}

/-- The frames that came back, the last one first. -/
def delivered (answers : List (FrameIndex × Except ε φ)) : List FrameIndex :=
  ((successes answers).map (·.1)).reverse

/-- The frames that are live once what came back is kept, by recency: those that came back and
behind them the others that were live, up to as many as there may be. -/
def recent (scheduler : Scheduler σ φ ε) (answers : List (FrameIndex × Except ε φ)) :
    List FrameIndex :=
  (delivered answers ++
      ((Entry.live scheduler.cache.entries).map (·.key)).filter (· ∉ delivered answers)).take
    scheduler.cache.maxFrames

/-- What becomes of a scheduler that fetches frames and keeps those that come back. -/
structure Gathers (before after : Scheduler σ φ ε) (answers : List (FrameIndex × Except ε φ)) :
    Prop where
  /-- The frames are fetched one after the other, and nothing else is asked of the source. -/
  calls : after.feed.calls.toList = before.feed.calls.toList ++ fetchCalls answers
  requests : after.feed.requests = before.feed.requests
  /-- What came back is put before what was live, up to as many frames as may be live. -/
  live : (Entry.live after.cache.entries).map (·.key) = before.recent answers
  /-- A frame that came back is served as it came back, if it is live. -/
  fresh : ∀ frame payload, (frame, .ok payload) ∈ answers → frame ∈ before.recent answers →
    after.Serves frame payload
  /-- A frame that did not come back is served as before, or no more. -/
  stale : ∀ frame, frame ∉ delivered answers → ∀ payload,
    after.Serves frame payload ↔ before.Serves frame payload ∧ frame ∈ before.recent answers
  last_eq : after.last = before.last
  window_eq : after.cache.window = before.cache.window
  lookups_eq : after.cache.metrics.lookups = before.cache.metrics.lookups

private theorem mem_delivered {answers : List (FrameIndex × Except ε φ)} {frame : FrameIndex} :
    frame ∈ delivered answers ↔ ∃ payload, (frame, .ok payload) ∈ answers := by
  simp [delivered, mem_successes]

/-- What is fetched once either comes back or fails. -/
theorem not_mem_delivered {answers : List (FrameIndex × Except ε φ)}
    (distinct : (answers.map (·.1)).Nodup) {frame : FrameIndex} {reason : ε}
    (failed : (frame, .error reason) ∈ answers) : frame ∉ delivered answers := by
  intro came
  obtain ⟨payload, answered⟩ := mem_delivered.mp came
  have same := List.inj_on_of_nodup_map distinct failed answered rfl
  simp at same

/-- What is fetched in rising order comes back in rising order. -/
theorem pairwise_delivered {answers : List (FrameIndex × Except ε φ)}
    (rising : (answers.map (·.1)).Pairwise (· < ·)) : (delivered answers).Pairwise (· > ·) :=
  List.pairwise_reverse.mpr (rising.sublist (map_fst_successes_sublist answers))

/-! ### Collections -/

/-- The entries that would be live by recency if there were room for all of them. -/
def lineUp (scheduler : Scheduler σ φ ε) (answers : List (FrameIndex × Except ε φ)) :
    List (Entry FrameIndex φ) :=
  Entry.ofStored (successes answers) ++
    Entry.withoutAll (Entry.live scheduler.cache.entries) ((successes answers).map (·.1))

variable {scheduler : Scheduler σ φ ε} {answers : List (FrameIndex × Except ε φ)}
  {frame : FrameIndex} {payload : φ}

private theorem take_map_key_lineUp :
    ((scheduler.lineUp answers).map (·.key)).take scheduler.cache.maxFrames =
      scheduler.recent answers := by
  rw [lineUp, List.map_append, Entry.map_key_ofStored, Entry.withoutAll, recent, delivered,
    List.filter_map]
  simp only [List.mem_reverse, Function.comp_def]

private theorem mem_lineUp_of_ok (came : (frame, .ok payload) ∈ answers) :
    { key := frame, payload := some payload } ∈ scheduler.lineUp answers :=
  List.mem_append_left _ (Entry.mem_ofStored.mpr (mem_successes.mpr came))

/-- What did not come back can only be old. -/
theorem mem_lineUp_iff_of_failed (failed : frame ∉ delivered answers) :
    { key := frame, payload := some payload } ∈ scheduler.lineUp answers ↔
      scheduler.Serves frame payload := by
  have outside : frame ∉ (successes answers).map (·.1) := by simpa [delivered] using failed
  have notStored : { key := frame, payload := some payload } ∉
      Entry.ofStored (successes answers) :=
    fun member => outside (List.mem_map_of_mem (Entry.mem_ofStored.mp member))
  rw [lineUp, List.mem_append, or_iff_right notStored, Entry.withoutAll, List.mem_filter,
    Entry.mem_live]
  simp [outside, Serves]

variable [FrameSource σ φ ε]

private theorem pairwise_fetchAll (scheduler : Scheduler σ φ ε) (pending : Pending) :
    ((scheduler.feed.fetchAll pending.requested).1.map (·.1)).Pairwise (· < ·) := by
  rw [Feed.map_fst_fetchAll]
  exact pending.pairwise_requested

private theorem nodup_key_successes (scheduler : Scheduler σ φ ε) (pending : Pending) :
    ((successes (scheduler.feed.fetchAll pending.requested).1).map (·.1)).Nodup :=
  ((scheduler.pairwise_fetchAll pending).sublist (map_fst_successes_sublist _)).imp
    UInt32.ne_of_lt

/-- As many of the line-up stay live as there may be. -/
theorem live_collect (consistent : scheduler.cache.Consistent) (pending : Pending) :
    Entry.live (scheduler.collect pending).cache.entries =
      (scheduler.lineUp (scheduler.feed.fetchAll pending.requested).1).take
        scheduler.cache.maxFrames :=
  consistent.live_run_insertions (scheduler.nodup_key_successes pending)

/-- After collecting a pending request, the entries lined up first are served. -/
theorem serves_collect_iff (consistent : scheduler.cache.Consistent) (pending : Pending) :
    (scheduler.collect pending).Serves frame payload ↔
      { key := frame, payload := some payload } ∈
          scheduler.lineUp (scheduler.feed.fetchAll pending.requested).1 ∧
        frame ∈ scheduler.recent (scheduler.feed.fetchAll pending.requested).1 := by
  let answers := (scheduler.feed.fetchAll pending.requested).1
  have distinct : ((scheduler.lineUp answers).map (·.key)).Nodup :=
    Entry.nodup_key_ofStored_append (scheduler.nodup_key_successes pending)
      (Entry.nodup_live consistent.distinct)
  rw [Serves, ← Entry.mem_live, live_collect consistent, Entry.mem_take_iff distinct,
    take_map_key_lineUp]

/-- Whatever fails of what a pending request asked for, the rest of it is kept. -/
theorem gathers_collect (consistent : scheduler.cache.Consistent) (pending : Pending) :
    scheduler.Gathers (scheduler.collect pending)
      (scheduler.feed.fetchAll pending.requested).1 := by
  let stored := successes (scheduler.feed.fetchAll pending.requested).1
  have plain := consistent.toPlain_run (Cache.insertions stored)
  have kept := PlainCache.run_insertions_keeps scheduler.cache.toPlain stored
  rw [← plain] at kept
  exact
    { calls := Feed.calls_fetchAll ..
      requests := scheduler.requests_collect pending
      live := by rw [live_collect consistent, List.map_take, take_map_key_lineUp]
      fresh := fun frame payload came inFront =>
        (serves_collect_iff consistent pending).mpr ⟨mem_lineUp_of_ok came, inFront⟩
      stale := by
        intro frame failed payload
        rw [serves_collect_iff consistent, mem_lineUp_iff_of_failed failed]
      last_eq := rfl
      window_eq := kept.2.1
      lookups_eq := kept.2.2 }

/-! ### The phase -/

/-- A second phase fetches each frame that was asked for once, in rising order. Those that come back
are kept, also if the wanted one fails, and are put before all that was live, up to as many frames
as may be live; a frame that fails gains nothing. The answer is what was fetched for the wanted
frame. -/
theorem ready_keeps_delivered [ToString ε] (wellFormed : scheduler.cache.WellFormed)
    (pending : Pending) :
    let answers := (scheduler.feed.fetchAll pending.requested).1
    let step := scheduler.ready pending
    answers.map (·.1) = pending.requested ∧ pending.requested.Pairwise (· < ·) ∧
      (∀ frame, frame ∈ delivered answers ↔ ∃ payload, (frame, .ok payload) ∈ answers) ∧
      (∀ frame reason, (frame, .error reason) ∈ answers → frame ∉ delivered answers) ∧
      (delivered answers).Pairwise (· > ·) ∧
      (∃ ahead answer, answers = ahead ++ [(pending.frame, answer)] ∧ step.result = .ok answer ∧
        ∀ reason, answer = .error reason → delivered answers = delivered ahead) ∧
      scheduler.Gathers step.state answers := by
  intro answers step
  obtain ⟨ahead, answer, all, result, state⟩ :=
    exists_ready_eq_collect wellFormed.consistent pending
  have rising : (answers.map (·.1)).Pairwise (· < ·) := scheduler.pairwise_fetchAll pending
  have distinct : (answers.map (·.1)).Nodup := rising.imp UInt32.ne_of_lt
  have gathers : scheduler.Gathers step.state answers :=
    state ▸ gathers_collect wellFormed.consistent pending
  refine ⟨Feed.map_fst_fetchAll .., pending.pairwise_requested, fun frame => mem_delivered,
    fun frame reason failed => not_mem_delivered distinct failed, pairwise_delivered rising,
    ⟨ahead, answer, all, result, ?_⟩, gathers⟩
  rintro reason rfl
  rw [delivered, show answers = _ from all, successes_concat_error, delivered]

/-- A frame that fails keeps its old payload while there is room behind those that came back, which
are kept although the wanted frame fails. -/
theorem ready_keeps_delivered_of_failed_frames :
    let new : Cache FrameIndex String := .empty 3 1 false
    let scheduler : Scheduler LabelSource String String :=
      .start ⟨true, 4, by decide⟩ { broken := [1, 3] }
        (new.run [.insert 9 "nine", .insert 1 "one"])
    let step := scheduler.ready { frame := 3, first := 0 }
    scheduler.cache.WellFormed ∧ step.result = .ok (.error "frame 3 failed") ∧
      (Entry.live step.state.cache.entries).map (·.key) = [2, 0, 1] ∧
      step.state.Serves 1 "one" ∧ step.state.Serves 2 "2@2" := by
  intro new scheduler step
  have created : Cache.create 3 1 false = .ok new := Cache.create_eq_ok_iff.mpr ⟨by decide, rfl⟩
  have wellFormed : scheduler.cache.WellFormed := Cache.wellFormed_run created _
  have plain : scheduler.cache.toPlain =
      (PlainCache.empty 3 1 false).run [.insert 9 "nine", .insert 1 "one"] :=
    (Cache.consistent_empty 3 1 false).toPlain_run _
  have fetched : (scheduler.feed.fetchAll (Pending.requested { frame := 3, first := 0 })).1 =
      [(0, .ok "0@0"), (1, .error "frame 1 failed"), (2, .ok "2@2"),
        (3, .error "frame 3 failed")] := by
    decide +kernel
  have entries : scheduler.cache.entries = [⟨1, some "one"⟩, ⟨9, some "nine"⟩] :=
    (congrArg PlainCache.entries plain).trans (by decide +kernel)
  have room : scheduler.cache.maxFrames = 3 := congrArg PlainCache.maxFrames plain
  have front : scheduler.recent [(0, .ok "0@0"), (1, .error "frame 1 failed"), (2, .ok "2@2"),
      (3, .error "frame 3 failed")] = [2, 0, 1] := by
    rw [recent, entries, room]
    decide
  have one : scheduler.Serves 1 "one" := by
    rw [Serves, entries]
    exact List.mem_cons_self
  obtain ⟨-, -, -, -, -, ⟨ahead, answer, all, result, -⟩, gathers⟩ :=
    ready_keeps_delivered wellFormed { frame := 3, first := 0 }
  rw [fetched] at all gathers
  have failed : answer = .error "frame 3 failed" := by
    have last := congrArg List.getLast? all
    simpa using last.symm
  refine ⟨wellFormed, failed ▸ result, gathers.live.trans front, ?_, ?_⟩
  · exact (gathers.stale 1 (by decide) "one").mpr ⟨one, by simp [front]⟩
  · exact gathers.fresh 2 "2@2" (by simp) (by simp [front])

end Scheduler

end FrameKeep
