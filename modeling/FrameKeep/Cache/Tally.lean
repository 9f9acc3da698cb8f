import FrameKeep.Count
import FrameKeep.Cache.Lookup

/-!
# Tallies and the resize policy

A tally counts look-ups by outcome. From the tally of the look-ups since it was last asked, and
from nothing else, the resize policy recommends what to do with the live capacity.
-/

namespace FrameKeep

/-- What the policy recommends. -/
inductive Action where
  /-- Nothing was looked up: drop everything. -/
  | clear
  /-- Enough near misses for a slightly larger cache to catch them. -/
  | grow
  /-- Every look-up was a far miss: nothing is being reused. -/
  | shrink
  /-- Keep the size. -/
  | noChange
  deriving DecidableEq, Repr

/-- The name of a recommendation. -/
def Action.name : Action → String
  | clear => "Clear"
  | grow => "Grow"
  | shrink => "Shrink"
  | noChange => "NoChange"

/-- From fewer look-ups than this, unless there were none, the policy recommends no change. -/
def minSampleSize : Nat := 30

/-- The policy recommends to grow if at least one look-up in this many was a near miss. -/
def nearMissGrowRatio : Nat := 20

/-- Look-ups counted by outcome. -/
structure Tally where
  hits : Nat := 0
  nearMisses : Nat := 0
  farMisses : Nat := 0
  deriving DecidableEq, Repr

namespace Tally

/-- The tally of no look-ups. -/
def empty : Tally := {}

instance : EmptyCollection Tally := ⟨empty⟩

/-- Counts one more look-up. -/
def record {ν : Type} (tally : Tally) : Lookup ν → Tally
  | .hit _ => { tally with hits := tally.hits + 1 }
  | .nearMiss => { tally with nearMisses := tally.nearMisses + 1 }
  | .farMiss => { tally with farMisses := tally.farMisses + 1 }

/-- The number of look-ups. -/
def total (tally : Tally) : Nat := tally.hits + tally.nearMisses + tally.farMisses

/-- The number of look-ups, if it is a 64-bit count. -/
def total? (tally : Tally) : Except Fault Nat := do
  let known ← Count.add? tally.hits tally.nearMisses
  Count.add? known tally.farMisses

/-- What the policy recommends after these look-ups. Growing is considered before shrinking. -/
def recommend? (tally : Tally) : Except Fault Action := do
  let total ← tally.total?
  if total = 0 then
    .ok .clear
  else if total < minSampleSize then
    .ok .noChange
  else
    let weighted ← Count.mul? tally.nearMisses nearMissGrowRatio
    if total ≤ weighted then .ok .grow
    else if tally.nearMisses = 0 ∧ tally.hits = 0 then .ok .shrink
    else .ok .noChange

/-- The counts by outcome. -/
def toList (tally : Tally) : List Nat := [tally.hits, tally.nearMisses, tally.farMisses]

/-- A tally in words. -/
def describe (tally : Tally) : String :=
  s!"LookupStats \x7b hits: {tally.hits}, near_misses: {tally.nearMisses}, "
    ++ s!"far_misses: {tally.farMisses} \x7d"

end Tally

end FrameKeep
