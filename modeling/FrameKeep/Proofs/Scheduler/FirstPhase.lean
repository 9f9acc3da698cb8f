import Mathlib.Algebra.Group.Nat.Defs
import FrameKeep.Proofs.Scheduler.Phases

/-!
# The first phase

A first phase serves a live frame and does nothing else. For any other frame it decides by integers,
among which the place before frame 0 is `-1`, whether the frame catches up with the previous
request, and asks for a run of frames that ends with the one that is wanted. Going back from the
integers to frame indices loses nothing, so what a pending request tells about itself is what was
decided.
-/

namespace FrameKeep

/-- The integers from `first` up to, but not including, `stop`, in rising order. -/
def interval (first stop : Int) : List Int :=
  (List.range (stop - first).toNat).map fun (offset : Nat) => first + offset

namespace FrameIndex

/-- The place of a frame among the integers. -/
def place (frame : FrameIndex) : Int := frame.toNat

private theorem place_injective : Function.Injective place :=
  fun _ _ same => UInt32.toNat_inj.mp (Int.ofNat_inj.mp same)

private theorem lt_iff_place_lt {frame other : FrameIndex} :
    frame < other ↔ frame.place < other.place := by
  rw [UInt32.lt_iff_toNat_lt, place, place, Int.ofNat_lt]

/-- Consecutive places that are places of frames belong to consecutive frames. -/
theorem map_place_ofNat_range' {first count : Nat} (bounded : first + count ≤ UInt32.size) :
    ((List.range' first count).map UInt32.ofNat).map place =
      (List.range count).map fun (offset : Nat) => (first + offset : Int) := by
  rw [List.range'_eq_map_range, List.map_map, List.map_map]
  apply List.map_congr_left
  intro offset member
  have small : first + offset < UInt32.size := by
    have := List.mem_range.mp member
    omega
  simp only [Function.comp_apply, place, UInt32.toNat_ofNat_of_lt' small, Int.natCast_add]

private theorem map_place_range (first stop : FrameIndex) :
    (range first stop).map place = interval first.place stop.place := by
  have bounded : stop.toNat < UInt32.size := stop.toNat_lt
  have count : stop.toNat - first.toNat = (stop.place - first.place).toNat := by
    unfold place
    omega
  by_cases le : first.toNat ≤ stop.toNat
  · rw [range, map_place_ofNat_range' (by omega), count]
    rfl
  · have none : stop.toNat - first.toNat = 0 := by omega
    rw [range, interval, ← count, none]
    rfl

private theorem map_place_rangeInclusive {first last : FrameIndex} (le : first.place ≤ last.place) :
    (rangeInclusive first last).map place = interval first.place (last.place + 1) := by
  have bounded : last.toNat < UInt32.size := last.toNat_lt
  unfold place at le
  have count : last.toNat + 1 - first.toNat = (last.place + 1 - first.place).toNat := by
    unfold place
    omega
  rw [rangeInclusive, map_place_ofNat_range' (by omega), count]
  rfl

end FrameIndex

/-! ### Plans -/

namespace Pending

variable {pending : Pending}

private theorem isBatch_iff : pending.isBatch ↔ pending.first.place < pending.frame.place := by
  rw [isBatch, decide_eq_true_eq, FrameIndex.lt_iff_place_lt]

private theorem map_place_prefetch (pending : Pending) :
    pending.prefetch.map FrameIndex.place = interval pending.first.place pending.frame.place :=
  FrameIndex.map_place_range ..

/-- All that is asked for is a run of frames from the first one on. -/
theorem map_place_requested (ordered : pending.first.place ≤ pending.frame.place) :
    pending.requested.map FrameIndex.place =
      interval pending.first.place (pending.frame.place + 1) := by
  have start : pending.firstRequested = pending.first := by
    unfold firstRequested
    split
    next => rfl
    next single =>
      rw [isBatch_iff] at single
      exact FrameIndex.place_injective (by omega)
  rw [requested, start, FrameIndex.map_place_rangeInclusive ordered]

end Pending

namespace Config

variable {config : Config} {last : Option FrameIndex} {frame : FrameIndex}

/-- A plan that catches up starts with the frame after the last one. -/
theorem first_plan_of_catchesUp
    (catchesUp : config.catchesUp (previousIndex last) frame.place) :
    (config.plan last frame).first.place = previousIndex last + 1 := by
  obtain ⟨first, found, place⟩ := exists_ofInt?_of_catchesUp catchesUp
  have planned : (config.plan last frame).first = first :=
    (if_pos catchesUp).trans (congrArg (Option.getD · frame) found)
  rw [planned]
  exact place

/-- A plan that does not catch up starts at its own frame. -/
theorem first_plan_of_apart (apart : ¬ config.catchesUp (previousIndex last) frame.place) :
    (config.plan last frame).first = frame := if_neg apart

/-- A plan starts at the frame that is wanted or before it. -/
theorem first_plan_le (config : Config) (last : Option FrameIndex) (frame : FrameIndex) :
    (config.plan last frame).first.place ≤ frame.place := by
  by_cases catchesUp : config.catchesUp (previousIndex last) frame.place
  · obtain ⟨-, skips, -⟩ := catchesUp_iff.mp catchesUp
    rw [first_plan_of_catchesUp catchesUp]
    omega
  · rw [first_plan_of_apart catchesUp]

/-- A batch is planned for the frames that catch up, and for no others. -/
theorem isBatch_plan :
    (config.plan last frame).isBatch = config.catchesUp (previousIndex last) frame.place := by
  rw [Bool.eq_iff_iff, Pending.isBatch_iff]
  change (config.plan last frame).first.place < frame.place ↔ _
  by_cases catchesUp : config.catchesUp (previousIndex last) frame.place
  · obtain ⟨-, skips, -⟩ := catchesUp_iff.mp catchesUp
    rw [first_plan_of_catchesUp catchesUp]
    simp only [catchesUp, iff_true]
    omega
  · simp [first_plan_of_apart catchesUp, catchesUp]

/-- There is always room in the window for a worker and the extra frames. -/
theorem extraFrames_lt_lookahead (config : Config) : extraFrames < config.lookahead := by
  have positive : config.workers.toNat ≠ 0 := by
    rw [Ne, ← UInt32.toNat_zero, UInt32.toNat_inj]
    exact config.workers_ne_zero
  simp only [lookahead, extraFrames, UInt32.size]
  omega

end Config

/-! ### Activations -/

/-- Whether a frame is served is decided by the payload that the cache holds for it, whether or not
the parts of the cache agree with each other. -/
theorem Cache.fst_get {κ ν : Type} [DecidableEq κ] [Hashable κ] (cache : Cache κ ν) (key : κ) :
    (cache.get key).1 = cache.peek? key := by
  unfold get lookup peek?
  cases cache.index[key]? with
  | none => rfl
  | some slot =>
    change (Lookup.ofRemembered (cache.payloadAt? slot)).payload? = cache.payloadAt? slot
    cases cache.payloadAt? slot <;> rfl

namespace Scheduler

variable {σ φ ε : Type} [FrameSource σ φ ε] {scheduler : Scheduler σ φ ε} {frame : FrameIndex}

/-- A frame that is held is ready at once, and counts as used. -/
theorem initial_of_peek? {payload : φ} (held : scheduler.cache.peek? frame = some payload) :
    scheduler.initial frame =
      .done (.ready payload) { scheduler with cache := (scheduler.cache.get frame).2 } := by
  rw [← Cache.fst_get] at held
  simp only [initial, held]

/-- A frame that is not held is left pending, and its plan is requested. -/
theorem initial_of_not_held (missing : scheduler.cache.peek? frame = none) :
    (scheduler.initial frame).result = .ok (.pending (scheduler.plan frame)) ∧
      (scheduler.initial frame).state =
        { scheduler with
          cache := (scheduler.cache.get frame).2
          last := some frame
          feed := scheduler.feed.requestAll (scheduler.plan frame).requested } := by
  rw [← Cache.fst_get] at missing
  simp only [initial, missing]
  exact ⟨rfl, rfl⟩

/-- A live frame is served without a request. For any other frame the first phase remembers the
request and asks for nothing but the frames of one pending request: for all frames behind the
previous request up to this one if the frame lies inside the window and skips some, and else for
this one alone. The bounds of the window are compared as integers, and every first frame of a batch
is a frame index. -/
theorem initial_window (scheduler : Scheduler σ φ ε) (frame : FrameIndex) :
    let step := scheduler.initial frame
    let previous := previousIndex scheduler.last
    let lookahead := min (scheduler.config.workers.toNat + 7) (2 ^ 32 - 1)
    let catchesUp := scheduler.config.linearize ∧ previous + 1 < frame.place ∧
      frame.place < previous + lookahead
    (∀ payload, scheduler.cache.peek? frame = some payload →
        step.result = .ok (.ready payload) ∧ step.state.feed = scheduler.feed ∧
          step.state.last = scheduler.last) ∧
      (scheduler.cache.peek? frame = none →
        ∃ pending, step.result = .ok (.pending pending) ∧ step.state.last = some frame ∧
          step.state.feed.calls.toList =
            scheduler.feed.calls.toList ++ pending.requested.map .request ∧
          pending.frame = frame ∧
          (catchesUp →
            (∃ first, FrameIndex.ofInt? (previous + 1) = some first ∧ pending.first = first) ∧
              pending.requested.map FrameIndex.place =
                interval (previous + 1) (frame.place + 1) ∧
              pending.prefetch.map FrameIndex.place = interval (previous + 1) frame.place ∧
              pending.batchMarker? = some previous) ∧
          (¬ catchesUp →
            pending.first = frame ∧ pending.requested = [frame] ∧ pending.prefetch = [] ∧
              pending.batchMarker? = none) ∧
          (pending.isBatch ↔ catchesUp) ∧
          (∃ first ≤ frame.place,
            pending.requested.map FrameIndex.place = interval first (frame.place + 1)) ∧
          pending.requested.length ≤ lookahead - 1) := by
  intro step previous lookahead catchesUp
  have decided : scheduler.config.catchesUp previous frame.place ↔ catchesUp :=
    Config.catchesUp_iff
  refine ⟨fun payload held => ?_, fun missing => ?_⟩
  · have served : step = _ := initial_of_peek? held
    rw [served]
    exact ⟨rfl, rfl, rfl⟩
  obtain ⟨result, state⟩ := initial_of_not_held missing
  have ordered : (scheduler.plan frame).first.place ≤ frame.place :=
    Config.first_plan_le scheduler.config scheduler.last frame
  have asked : (scheduler.plan frame).requested.map FrameIndex.place = _ :=
    Pending.map_place_requested ordered
  have ahead : (scheduler.plan frame).prefetch.map FrameIndex.place = _ :=
    Pending.map_place_prefetch (scheduler.plan frame)
  have batch : (scheduler.plan frame).isBatch ↔ catchesUp := by
    rw [← decided]
    exact Bool.eq_iff_iff.mp Config.isBatch_plan
  refine ⟨scheduler.plan frame, result, congrArg (·.last) state, ?_, rfl, fun near => ?_,
    fun apart => ?_, batch, ⟨_, ordered, asked⟩, ?_⟩
  · rw [congrArg (·.feed) state]
    exact Feed.calls_requestAll ..
  · have start : (scheduler.plan frame).first.place = previous + 1 :=
      Config.first_plan_of_catchesUp (decided.mpr near)
    obtain ⟨first, found, place⟩ := Config.exists_ofInt?_of_catchesUp (decided.mpr near)
    rw [start] at asked ahead
    refine ⟨⟨first, found, FrameIndex.place_injective (start.trans place.symm)⟩, asked, ahead, ?_⟩
    rw [Pending.batchMarker?, if_pos (batch.mpr near)]
    change some ((scheduler.plan frame).first.place - 1) = _
    rw [start, Int.add_sub_cancel]
  · have alone := mt decided.mp apart
    have start : (scheduler.plan frame).first = frame := Config.first_plan_of_apart alone
    refine ⟨start, Config.requested_plan_of_apart alone, ?_, if_neg (mt batch.mp apart)⟩
    rw [← List.map_eq_nil_iff (f := FrameIndex.place), ahead, start]
    simp [interval, plan, Config.plan]
  · have bounded := Config.length_requested_plan_le scheduler.config scheduler.last frame
    have room := scheduler.config.extraFrames_lt_lookahead
    have same : scheduler.config.lookahead = lookahead := rfl
    rw [same] at bounded room
    unfold extraFrames at room
    exact Nat.le_trans bounded (by omega)

/-- However wide the window is, it ends with the last frame there is. -/
theorem initial_window_of_last_frame :
    let scheduler : Scheduler LabelSource String String :=
      { config := ⟨true, 4294967295, by decide⟩
        last := some 4294967292
        feed := { source := {} }
        cache := .empty 3 2 false }
    ∃ pending, (scheduler.initial 4294967295).result = .ok (.pending pending) ∧
      pending.requested = [4294967293, 4294967294, 4294967295] ∧
      pending.batchMarker? = some 4294967292 := by
  intro scheduler
  have missing : scheduler.cache.peek? 4294967295 = none :=
    (Cache.consistent_empty 3 2 false).peek?_eq _
  obtain ⟨pending, result, -, -, -, near, -⟩ :=
    (initial_window scheduler 4294967295).2 missing
  obtain ⟨-, requested, -, marker⟩ := near ⟨rfl, by decide, by decide⟩
  have places : interval (4294967292 + 1) (FrameIndex.place 4294967295 + 1) =
      [4294967293, 4294967294, 4294967295].map FrameIndex.place := by decide
  exact ⟨pending, result, List.map_injective_iff.mpr FrameIndex.place_injective
    (requested.trans places), marker⟩

end Scheduler

end FrameKeep
