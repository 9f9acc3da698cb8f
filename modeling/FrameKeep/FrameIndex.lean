/-!
# Frame indices

A frame is addressed by a 32-bit index. Ranges of indices rise by one.
-/

namespace FrameKeep

/-- The index of a frame within a clip. -/
abbrev FrameIndex := UInt32

namespace FrameIndex

/-- The number of frame indices. -/
def count : Nat := UInt32.size

/-- The frame index with a given value, if there is one. -/
def ofInt? (value : Int) : Option FrameIndex :=
  if 0 ≤ value ∧ value < count then some (UInt32.ofNat value.toNat) else none

/-- The indices from `first` up to, but not including, `stop`. -/
def range (first stop : FrameIndex) : List FrameIndex :=
  (List.range' first.toNat (stop.toNat - first.toNat)).map UInt32.ofNat

/-- The indices from `first` up to and including `last`. -/
def rangeInclusive (first last : FrameIndex) : List FrameIndex :=
  (List.range' first.toNat (last.toNat + 1 - first.toNat)).map UInt32.ofNat

/-- The number of a frame is read back as that frame. -/
theorem ofInt?_toNat (frame : FrameIndex) : ofInt? frame.toNat = some frame := by
  have small : (frame.toNat : Int) < count := Int.ofNat_lt.mpr frame.toNat_lt
  simp [ofInt?, small]

/-- A range has as many frames as its bounds span, none if the first bound is past the last. -/
@[simp]
theorem length_rangeInclusive (first last : FrameIndex) :
    (rangeInclusive first last).length = last.toNat + 1 - first.toNat := by
  simp [rangeInclusive]

end FrameIndex

end FrameKeep
