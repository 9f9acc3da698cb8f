import FrameKeep.Cache.Op

/-!
# Plain cache

A plain cache says what an adaptive cache does without saying how: it is the list of entries by
recency with the capacities and the counters, and has no slots, no index, no boundary and no stored
counts. Trimming is two passes over that list. The first leaves the payloads of the most recently
used live entries and takes all others; the second leaves the most recently used ghosts and drops
all others.
-/

namespace FrameKeep

/-- A cache as a list of entries, the most recently used first. -/
structure PlainCache (κ ν : Type) where
  entries : List (Entry κ ν) := []
  maxFrames : Nat
  maxHistory : Nat
  fixed : Bool
  window : Tally := ∅
  metrics : Metrics := ∅
  deriving DecidableEq

/-- What is observable of a cache. -/
def Cache.toPlain {κ ν : Type} [DecidableEq κ] [Hashable κ] (cache : Cache κ ν) :
    PlainCache κ ν :=
  { entries := cache.entries
    maxFrames := cache.maxFrames
    maxHistory := cache.maxHistory
    fixed := cache.fixed
    window := cache.window
    metrics := cache.metrics }

namespace Entry

variable {κ ν : Type}

/-- The entries that hold a payload. -/
def live (entries : List (Entry κ ν)) : List (Entry κ ν) := entries.filter (!·.isGhost)

/-- The entries that hold none. -/
def ghosts (entries : List (Entry κ ν)) : List (Entry κ ν) := entries.filter (·.isGhost)

/-- Leaves the payloads of the first `count` live entries and takes all others. -/
def keepLive : (count : Nat) → List (Entry κ ν) → List (Entry κ ν)
  | _, [] => []
  | count, { key, payload := none } :: rest => { key, payload := none } :: keepLive count rest
  | 0, { key, payload := some _ } :: rest => { key, payload := none } :: keepLive 0 rest
  | count + 1, entry@{ payload := some _, .. } :: rest => entry :: keepLive count rest

/-- Leaves the first `count` ghosts and drops all others. -/
def keepGhosts : (count : Nat) → List (Entry κ ν) → List (Entry κ ν)
  | _, [] => []
  | count, entry@{ payload := some _, .. } :: rest => entry :: keepGhosts count rest
  | 0, { payload := none, .. } :: rest => keepGhosts 0 rest
  | count + 1, entry@{ payload := none, .. } :: rest => entry :: keepGhosts count rest

/-- The first entry of a key. -/
def find? [DecidableEq κ] (entries : List (Entry κ ν)) (key : κ) : Option (Entry κ ν) :=
  entries.find? (·.key = key)

/-- The entries of all other keys. -/
def without [DecidableEq κ] (entries : List (Entry κ ν)) (key : κ) : List (Entry κ ν) :=
  entries.filter (·.key ≠ key)

end Entry

namespace PlainCache

variable {κ ν : Type} [DecidableEq κ]

/-- An empty cache. -/
def empty (maxFrames maxHistory : Nat) (fixed : Bool) : PlainCache κ ν :=
  { maxFrames, maxHistory, fixed }

/-- Whether a key is remembered, live or ghost. -/
def contains (cache : PlainCache κ ν) (key : κ) : Bool := (Entry.find? cache.entries key).isSome

/-- The payload of a key. -/
def peek? (cache : PlainCache κ ν) (key : κ) : Option ν :=
  (Entry.find? cache.entries key).bind (·.payload)

/-- Looks a key up and puts its entry, if there is one, first. -/
def lookup (cache : PlainCache κ ν) (key : κ) : Lookup ν × PlainCache κ ν :=
  let (found, entries) :=
    match Entry.find? cache.entries key with
    | none => (.farMiss, cache.entries)
    | some entry => (Lookup.ofRemembered entry.payload, entry :: Entry.without cache.entries key)
  (found,
    { cache with
      entries
      window := cache.window.record found
      metrics := cache.metrics.recordLookup found })

/-- Forgets a key, and answers whether it was remembered. -/
def remove (cache : PlainCache κ ν) (key : κ) : Bool × PlainCache κ ν :=
  (cache.contains key, { cache with entries := Entry.without cache.entries key })

/-- Forgets every key and the look-ups counted for the resize policy. -/
def clear (cache : PlainCache κ ν) : PlainCache κ ν := { cache with entries := [], window := ∅ }

/-- Starts the lifetime counters afresh. -/
def resetMetrics (cache : PlainCache κ ν) : PlainCache κ ν := { cache with metrics := ∅ }

/-- Takes the payloads of all but the first `maxLive` live entries, then drops all but the first
`maxGhost` ghosts; bounds above the capacities mean the capacities. -/
def trim (cache : PlainCache κ ν) (maxLive maxGhost : Nat) : PlainCache κ ν :=
  let demoted := Entry.keepLive (min maxLive cache.maxFrames) cache.entries
  let entries := Entry.keepGhosts (min maxGhost cache.maxHistory) demoted
  let demotions := (Entry.live cache.entries).length - (Entry.live demoted).length
  let evictions := demoted.length - entries.length
  { cache with
    entries
    metrics :=
      { cache.metrics with
        demotions := cache.metrics.demotions + demotions
        ghostEvictions := cache.metrics.ghostEvictions + evictions } }

/-- Takes and drops what the capacities have no room for. -/
def trimToCapacity (cache : PlainCache κ ν) : PlainCache κ ν :=
  cache.trim cache.maxFrames cache.maxHistory

/-- Puts a payload first, in place of any earlier entry of its key. -/
def insert (cache : PlainCache κ ν) (key : κ) (payload : ν) : PlainCache κ ν :=
  trimToCapacity { cache with
    entries := { key, payload := some payload } :: Entry.without cache.entries key
    metrics := cache.metrics.recordInsert }

/-- Sets the number of live entries to keep. -/
def setMaxFrames (cache : PlainCache κ ν) (maxFrames : Nat) : PlainCache κ ν :=
  trimToCapacity { cache with maxFrames }

/-- Sets the number of ghosts to keep. -/
def setMaxHistory (cache : PlainCache κ ν) (maxHistory : Nat) : PlainCache κ ν :=
  trimToCapacity { cache with maxHistory }

/-- Asks the resize policy, which uses up the look-ups counted so far. -/
def recommendSize (cache : PlainCache κ ν) : Step (PlainCache κ ν) Action :=
  let state := { cache with window := ∅ }
  match cache.window.recommend? with
  | .error fault => { result := .error fault, state }
  | .ok action =>
    { result := .ok action
      state
      notices := [.recommended action cache.window cache.maxFrames] }

/-- The live capacity that a recommendation leads to. -/
def targetFrames (maxFrames : Nat) : Action → (needMemory : Bool) → Except Fault Nat
  | .clear, _ => .ok (maxFrames - 2)
  | .grow, false => Count.add? maxFrames 2
  | .grow, true => .ok maxFrames
  | .shrink, false => .ok (maxFrames - 1)
  | .shrink, true => .ok (maxFrames - 2)
  | .noChange, false => .ok maxFrames
  | .noChange, true => .ok (if maxFrames ≤ 1 then maxFrames else maxFrames - 1)

/-- Whether following a recommendation empties the cache first. -/
def empties (maxFrames : Nat) : Action → (needMemory : Bool) → Bool
  | .clear, _ => true
  | .noChange, true => maxFrames ≤ 1
  | .noChange, false | .grow, _ | .shrink, _ => false

/-- Asks the resize policy and follows it, unless it is switched off. -/
def adjustSize (cache : PlainCache κ ν) (needMemory : Bool) :
    Step (PlainCache κ ν) (Option Action) :=
  if cache.fixed then
    .done none cache
  else
    cache.recommendSize.andThen fun action asked =>
      match targetFrames cache.maxFrames action needMemory with
      | .error fault => { result := .error fault, state := asked }
      | .ok maxFrames =>
        let start := if empties cache.maxFrames action needMemory then asked.clear else asked
        let resized := start.setMaxFrames maxFrames
        { result := .ok (some action)
          state := { resized with metrics := resized.metrics.recordResize action needMemory }
          notices :=
            if maxFrames = cache.maxFrames then []
            else [.resized cache.maxFrames maxFrames needMemory] }

/-- Performs one operation. -/
def perform (cache : PlainCache κ ν) : Cache.Op κ ν → Step (PlainCache κ ν) (Cache.Answer ν)
  | .lookup key => let (found, cache) := cache.lookup key; .done (.found found) cache
  | .get key => let (found, cache) := cache.lookup key; .done (.payload found.payload?) cache
  | .peek key => .done (.payload (cache.peek? key)) cache
  | .contains key => .done (.flag (cache.contains key)) cache
  | .isLive key => .done (.flag (cache.peek? key).isSome) cache
  | .insert key payload => .done .done (cache.insert key payload)
  | .remove key => let (found, cache) := cache.remove key; .done (.flag found) cache
  | .clear => .done .done cache.clear
  | .trim maxLive maxGhost => .done .done (cache.trim maxLive maxGhost)
  | .setMaxFrames maxFrames => .done .done (cache.setMaxFrames maxFrames)
  | .setMaxHistory maxHistory => .done .done (cache.setMaxHistory maxHistory)
  | .recommendSize => cache.recommendSize.map fun action => .action (some action)
  | .adjustSize needMemory => (cache.adjustSize needMemory).map .action
  | .resetMetrics => .done .done cache.resetMetrics

/-- The cache after a list of operations. -/
def run (cache : PlainCache κ ν) (ops : List (Cache.Op κ ν)) : PlainCache κ ν :=
  ops.foldl (fun cache op => (cache.perform op).state) cache

end PlainCache

end FrameKeep
