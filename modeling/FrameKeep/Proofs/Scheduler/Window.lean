import Mathlib.Data.List.Basic
import FrameKeep.Scheduler.Plan

/-!
# The catch-up window

A plan asks for the frame that is wanted and, if that catches up with the previous request, for
every frame between the two. The frames are asked for in rising order.
-/

namespace FrameKeep

namespace FrameIndex

/-- A range has exactly the frames between its bounds. -/
theorem mem_rangeInclusive {first last frame : FrameIndex} :
    frame ∈ rangeInclusive first last ↔ first ≤ frame ∧ frame ≤ last := by
  have bounded : last.toNat < UInt32.size := last.toNat_lt
  simp only [rangeInclusive, List.mem_map, List.mem_range'_1, UInt32.le_iff_toNat_le]
  constructor
  · rintro ⟨index, ⟨lower, upper⟩, rfl⟩
    rw [UInt32.toNat_ofNat_of_lt' (by omega)]
    omega
  · rintro ⟨lower, upper⟩
    exact ⟨frame.toNat, by omega, by simp⟩

private theorem pairwise_rangeInclusive (first last : FrameIndex) :
    (rangeInclusive first last).Pairwise (· < ·) := by
  have bounded : last.toNat < UInt32.size := last.toNat_lt
  rw [rangeInclusive, List.pairwise_map]
  refine List.Pairwise.imp_of_mem (fun {lower upper} inLower inUpper less => ?_)
    List.pairwise_lt_range'
  rw [List.mem_range'_1] at inLower inUpper
  rw [UInt32.lt_iff_toNat_lt, UInt32.toNat_ofNat_of_lt' (by omega),
    UInt32.toNat_ofNat_of_lt' (by omega)]
  exact less

private theorem rangeInclusive_self (frame : FrameIndex) :
    rangeInclusive frame frame = [frame] := by
  simp [rangeInclusive]

/-- The last index may be put behind the others. -/
theorem range_concat {first last : FrameIndex} (le : first ≤ last) :
    range first last ++ [last] = rangeInclusive first last := by
  rw [UInt32.le_iff_toNat_le] at le
  have more : last.toNat + 1 - first.toNat = last.toNat - first.toNat + 1 := by omega
  have next : first.toNat + (last.toNat - first.toNat) = last.toNat := by omega
  rw [range, rangeInclusive, more, List.range'_concat, List.map_append, Nat.one_mul, next]
  simp

/-- Two ranges of which one follows the other make up one range. -/
theorem rangeInclusive_append {first middle next last : FrameIndex}
    (follows : next.toNat = middle.toNat + 1) (lower : first.toNat ≤ next.toNat)
    (upper : middle ≤ last) :
    rangeInclusive first middle ++ rangeInclusive next last = rangeInclusive first last := by
  rw [UInt32.le_iff_toNat_le] at upper
  have start : first.toNat + (middle.toNat + 1 - first.toNat) = next.toNat := by omega
  have all : middle.toNat + 1 - first.toNat + (last.toNat + 1 - next.toNat) =
      last.toNat + 1 - first.toNat := by
    omega
  have joined := List.range'_append_1 (s := first.toNat) (m := middle.toNat + 1 - first.toNat)
    (n := last.toNat + 1 - next.toNat)
  rw [start, all] at joined
  rw [rangeInclusive, rangeInclusive, rangeInclusive, ← List.map_append, joined]

end FrameIndex

namespace Pending

/-- The frames of a plan rise. -/
theorem pairwise_requested (pending : Pending) : pending.requested.Pairwise (· < ·) :=
  FrameIndex.pairwise_rangeInclusive ..

/-- No frame of a plan lies past its own. -/
theorem le_frame_of_mem_requested {pending : Pending} {frame : FrameIndex}
    (member : frame ∈ pending.requested) : frame ≤ pending.frame :=
  (FrameIndex.mem_rangeInclusive.mp member).2

/-- What is fetched ahead and the frame itself are all that was asked for. -/
theorem prefetch_concat_frame (pending : Pending) :
    pending.prefetch ++ [pending.frame] = pending.requested := by
  unfold prefetch requested firstRequested
  by_cases batch : pending.isBatch
  · have ahead : pending.first < pending.frame := by simpa [isBatch] using batch
    rw [if_pos batch, FrameIndex.range_concat (UInt32.le_of_lt ahead)]
  · have alone : pending.frame.toNat ≤ pending.first.toNat := by
      simpa [isBatch, UInt32.lt_iff_toNat_lt] using batch
    rw [if_neg batch, FrameIndex.rangeInclusive_self, FrameIndex.range,
      Nat.sub_eq_zero_of_le alone]
    rfl

end Pending

/-- The place of the previous request, which is `-1` before the first one. -/
def previousIndex (last : Option FrameIndex) : Int := last.elim (-1) fun index => index.toNat

private theorem neg_one_le_previousIndex (last : Option FrameIndex) : -1 ≤ previousIndex last := by
  cases last with
  | none => exact Int.le_refl _
  | some index => exact Int.le_trans (by decide) (Int.natCast_nonneg index.toNat)

namespace Config

variable {config : Config} {last : Option FrameIndex} {frame other : FrameIndex}

/-- A gap is caught up with in a linear scheduler, if it skips a frame and stays inside the
lookahead. -/
theorem catchesUp_iff {previous target : Int} :
    config.catchesUp previous target ↔
      config.linearize ∧ previous + 1 < target ∧ target < previous + config.lookahead := by
  simp only [catchesUp, decide_eq_true_eq, and_congr_right_iff]
  intro linearize
  omega

/-- A frame that does not catch up is asked for alone. -/
theorem requested_plan_of_apart (apart : ¬ config.catchesUp (previousIndex last) frame.toNat) :
    (config.plan last frame).requested = [frame] := by
  have alone : (config.plan last frame).first = frame := if_neg apart
  have first : (config.plan last frame).firstRequested = frame := by
    rw [Pending.firstRequested, alone]
    exact ite_self frame
  rw [Pending.requested, first]
  exact FrameIndex.rangeInclusive_self frame

/-- The index right behind the previous request of a frame that catches up is always there. -/
theorem exists_ofInt?_of_catchesUp
    (catchesUp : config.catchesUp (previousIndex last) frame.toNat) :
    ∃ first : FrameIndex, FrameIndex.ofInt? (previousIndex last + 1) = some first ∧
      (first.toNat : Int) = previousIndex last + 1 := by
  have start := neg_one_le_previousIndex last
  have bounded : frame.toNat < UInt32.size := frame.toNat_lt
  obtain ⟨-, skips, -⟩ := catchesUp_iff.mp catchesUp
  let first := UInt32.ofNat (previousIndex last + 1).toNat
  have place : (first.toNat : Int) = previousIndex last + 1 := by
    rw [UInt32.toNat_ofNat_of_lt' (by omega), Int.toNat_of_nonneg (by omega)]
  exact ⟨first, by rw [← place, FrameIndex.ofInt?_toNat], place⟩

/-- A frame that catches up is asked for with all frames since the previous request. -/
theorem requested_plan_of_catchesUp
    (catchesUp : config.catchesUp (previousIndex last) frame.toNat) :
    ∃ first : FrameIndex, (first.toNat : Int) = previousIndex last + 1 ∧
      (config.plan last frame).requested = FrameIndex.rangeInclusive first frame := by
  obtain ⟨first, found, place⟩ := exists_ofInt?_of_catchesUp catchesUp
  obtain ⟨-, skips, -⟩ := catchesUp_iff.mp catchesUp
  have planned : (config.plan last frame).first = first :=
    (if_pos catchesUp).trans (congrArg (Option.getD · frame) found)
  have batch : (config.plan last frame).isBatch := by
    rw [Pending.isBatch, planned]
    apply decide_eq_true
    change first < frame
    rw [UInt32.lt_iff_toNat_lt]
    omega
  refine ⟨first, place, ?_⟩
  rw [Pending.requested, Pending.firstRequested, if_pos batch, planned]
  rfl

/-- A frame that lies inside the window is asked for with all frames since the previous request,
of which there are none if it follows right behind. -/
theorem requested_plan_of_near (linearize : config.linearize)
    (ahead : previousIndex last < frame.toNat)
    (near : (frame.toNat : Int) - previousIndex last < config.lookahead) :
    ∃ first : FrameIndex, (first.toNat : Int) = previousIndex last + 1 ∧
      (config.plan last frame).requested = FrameIndex.rangeInclusive first frame := by
  by_cases skips : previousIndex last + 1 < frame.toNat
  · exact requested_plan_of_catchesUp (catchesUp_iff.mpr ⟨linearize, skips, by omega⟩)
  · have apart : ¬ config.catchesUp (previousIndex last) frame.toNat :=
      fun catchesUp => skips (catchesUp_iff.mp catchesUp).2.1
    refine ⟨frame, by omega, ?_⟩
    rw [requested_plan_of_apart apart, FrameIndex.rangeInclusive_self]

/-- No more frames are asked for than lie inside the window. -/
theorem length_requested_plan_le (config : Config) (last : Option FrameIndex)
    (frame : FrameIndex) :
    (config.plan last frame).requested.length ≤ max 1 (config.lookahead - 1) := by
  by_cases catchesUp : config.catchesUp (previousIndex last) frame.toNat
  · obtain ⟨first, place, requested⟩ := requested_plan_of_catchesUp catchesUp
    obtain ⟨-, -, near⟩ := catchesUp_iff.mp catchesUp
    rw [requested, FrameIndex.length_rangeInclusive]
    omega
  · rw [requested_plan_of_apart catchesUp]
    exact Nat.le_max_left ..

/-- A plan has its own frame and, if it catches up, all frames after the last one. -/
theorem mem_requested_plan :
    other ∈ (config.plan last frame).requested ↔
      other = frame ∨ config.catchesUp (previousIndex last) frame.toNat ∧
        previousIndex last < other.toNat ∧ other < frame := by
  by_cases catchesUp : config.catchesUp (previousIndex last) frame.toNat
  · obtain ⟨first, place, requested⟩ := requested_plan_of_catchesUp catchesUp
    obtain ⟨-, skips, -⟩ := catchesUp_iff.mp catchesUp
    rw [requested, FrameIndex.mem_rangeInclusive, UInt32.le_iff_toNat_le, UInt32.le_iff_toNat_le,
      UInt32.lt_iff_toNat_lt, ← UInt32.toNat_inj]
    simp only [catchesUp, true_and]
    omega
  · rw [requested_plan_of_apart catchesUp]
    simp [catchesUp]

end Config

end FrameKeep
