import FrameKeep.Cache.Tally
import FrameKeep.Decimal.Fixed

/-!
# Lifetime counters

Unlike the tally that the resize policy consumes, the lifetime counters of a cache go on counting
through every resize.
-/

namespace FrameKeep

/-- The lifetime counters of a cache. -/
structure Metrics where
  /-- Look-ups by outcome. -/
  lookups : Tally := ∅
  /-- Payloads stored. -/
  inserts : Nat := 0
  /-- Payloads given up by trimming, their keys being remembered. -/
  demotions : Nat := 0
  /-- Remembered keys forgotten by trimming. -/
  ghostEvictions : Nat := 0
  /-- Resizes that dropped everything. -/
  clears : Nat := 0
  /-- Resizes that raised the live capacity. -/
  grows : Nat := 0
  /-- Resizes that lowered the live capacity for want of reuse. -/
  shrinks : Nat := 0
  deriving DecidableEq, Repr

namespace Metrics

/-- Counters that have counted nothing. -/
def empty : Metrics := {}

instance : EmptyCollection Metrics := ⟨empty⟩

/-- Counts one more look-up. -/
def recordLookup {ν : Type} (metrics : Metrics) (found : Lookup ν) : Metrics :=
  { metrics with lookups := metrics.lookups.record found }

/-- Counts one more payload stored. -/
def recordInsert (metrics : Metrics) : Metrics :=
  { metrics with inserts := metrics.inserts + 1 }

/-- Counts one more payload given up. -/
def recordDemotion (metrics : Metrics) : Metrics :=
  { metrics with demotions := metrics.demotions + 1 }

/-- Counts one more key forgotten. -/
def recordGhostEviction (metrics : Metrics) : Metrics :=
  { metrics with ghostEvictions := metrics.ghostEvictions + 1 }

/-- Counts one more resize. A recommendation to grow counts only if memory was not needed, since
only then was it followed. -/
def recordResize (metrics : Metrics) : Action → (needMemory : Bool) → Metrics
  | .clear, _ => { metrics with clears := metrics.clears + 1 }
  | .grow, false => { metrics with grows := metrics.grows + 1 }
  | .grow, true => metrics
  | .shrink, _ => { metrics with shrinks := metrics.shrinks + 1 }
  | .noChange, _ => metrics

/-- The counters in the order in which they are reported. -/
def toList (metrics : Metrics) : List Nat :=
  metrics.lookups.toList ++ [metrics.inserts, metrics.demotions, metrics.ghostEvictions,
    metrics.clears, metrics.grows, metrics.shrinks]

/-- The percentage of `total` look-ups that were hits; zero if there were none. -/
def hitRate (hits total : Nat) : Float :=
  if total = 0 then 0.0 else hits.toUInt64.toFloat / total.toUInt64.toFloat * 100.0

/-- The counters in words, with the hit rate to two places. -/
def describe? (metrics : Metrics) : Except Fault String := do
  let { hits, nearMisses, farMisses } := metrics.lookups
  let total ← metrics.lookups.total?
  let rate := Decimal.renderFixed 2 (hitRate hits total)
  .ok <| s!"AdaptiveMetrics \x7b hits: {hits}, near_misses: {nearMisses}, "
    ++ s!"far_misses: {farMisses}, hit_rate: {rate}%, inserts: {metrics.inserts}, "
    ++ s!"demotions: {metrics.demotions}, ghost_evictions: {metrics.ghostEvictions}, "
    ++ s!"clears: {metrics.clears}, grows: {metrics.grows}, shrinks: {metrics.shrinks} \x7d"

end Metrics

end FrameKeep
