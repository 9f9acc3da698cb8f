import Mathlib.Data.List.Nodup
import FrameKeep.Proofs.Cache.Entries

/-!
# Stacks of keys

A stack is the entries that a list of keys by recency calls for: the first `maxFrames` keys are live
and the next `maxHistory` are ghosts. Moving a key to the front with a payload and keeping within
the bounds turns a stack into the stack of the keys with that one in front.
-/

namespace FrameKeep

variable {κ ν : Type}

/-- The first `maxFrames` of the keys with the payload that `latest` has for them, and behind them
the next `maxHistory` keys as ghosts. -/
def stacked (maxFrames maxHistory : Nat) (keys : List κ) (latest : κ → Option ν) :
    List (Entry κ ν) :=
  (keys.take maxFrames).map (fun key => { key, payload := latest key }) ++
    ((keys.drop maxFrames).take maxHistory).map fun key => { key, payload := none }

namespace Entry

variable {latest : κ → Option ν}

@[simp] theorem live_map_none (keys : List κ) :
    live (keys.map fun key => ({ key, payload := none } : Entry κ ν)) = [] := by
  induction keys with
  | nil => rfl
  | cons key rest ih => simpa using ih

@[simp] theorem ghosts_map_latest {keys : List κ} (inserted : ∀ key ∈ keys, (latest key).isSome) :
    ghosts (keys.map fun key => ({ key, payload := latest key } : Entry κ ν)) = [] := by
  apply List.filter_eq_nil_iff.mpr
  intro entry member
  obtain ⟨key, inKeys, rfl⟩ := List.mem_map.mp member
  simpa [isGhost] using (Option.isSome_iff_ne_none.mp (inserted key inKeys))

/-- Of live entries, those behind the bound become ghosts. -/
theorem keepLive_map_latest (count : Nat) {keys : List κ}
    (inserted : ∀ key ∈ keys, (latest key).isSome) :
    keepLive count (keys.map fun key => { key, payload := latest key }) =
      (keys.take count).map (fun key => { key, payload := latest key }) ++
        (keys.drop count).map fun key => { key, payload := none } := by
  induction keys generalizing count with
  | nil => simp [keepLive]
  | cons key rest ih =>
    obtain ⟨payload, held⟩ := Option.isSome_iff_exists.mp (inserted key List.mem_cons_self)
    have restInserted : ∀ other ∈ rest, (latest other).isSome :=
      fun other inRest => inserted other (List.mem_cons_of_mem _ inRest)
    cases count with
    | zero => simpa [keepLive, held] using ih 0 restInserted
    | succ count => simpa [keepLive, held] using ih count restInserted

/-- Of ghosts, those behind the bound are dropped. -/
theorem keepGhosts_map_none (count : Nat) (keys : List κ) :
    keepGhosts count (keys.map fun key => ({ key, payload := none } : Entry κ ν)) =
      (keys.take count).map fun key => { key, payload := none } := by
  induction keys generalizing count with
  | nil => simp [keepGhosts]
  | cons key rest ih =>
    cases count with
    | zero => simpa [keepGhosts] using ih 0
    | succ count => simpa [keepGhosts] using ih count

/-- Keeping within both bounds makes a stack of live entries with ghosts behind them. -/
theorem keep_stack {maxFrames maxHistory : Nat} {upper lower : List κ} {latest : κ → Option ν}
    (inserted : ∀ key ∈ upper, (latest key).isSome) :
    keepGhosts maxHistory (keepLive maxFrames
        (upper.map (fun key => { key, payload := latest key }) ++
          lower.map fun key => { key, payload := none })) =
      (upper.take maxFrames).map (fun key => { key, payload := latest key }) ++
        ((upper.drop maxFrames ++ lower).take maxHistory).map
          fun key => { key, payload := none } := by
  have noGhosts := ghosts_map_latest fun key (member : key ∈ upper.take maxFrames) =>
    inserted key (List.mem_of_mem_take member)
  have ghostsBelow (count : Nat) : keepLive count
      (lower.map fun key => ({ key, payload := none } : Entry κ ν)) =
        lower.map fun key => { key, payload := none } :=
    keepLive_eq_self (by simp)
  rw [keepLive_append, keepLive_map_latest _ inserted, ghostsBelow, List.append_assoc,
    ← List.map_append, keepGhosts_append, noGhosts,
    keepGhosts_eq_self (by rw [noGhosts]; exact Nat.zero_le _), List.length_nil, Nat.sub_zero,
    keepGhosts_map_none]

private theorem find?_map_key [DecidableEq κ] (keys : List κ) (payload? : κ → Option ν) (key : κ) :
    find? (keys.map fun key => { key, payload := payload? key }) key =
      if key ∈ keys then some { key, payload := payload? key } else none := by
  induction keys with
  | nil => rfl
  | cons other rest ih =>
    by_cases same : other = key
    · simp [find?, same]
    · have ih' := ih
      unfold find? at ih' ⊢
      rw [List.map_cons, List.find?_cons_of_neg (by simpa using same), ih']
      simp [Ne.symm same]

end Entry

/-- The stacked entries have the first keys, as many as there is room for. -/
theorem map_key_stacked (maxFrames maxHistory : Nat) (keys : List κ) (latest : κ → Option ν) :
    (stacked maxFrames maxHistory keys latest).map (·.key) =
      keys.take (maxFrames + maxHistory) := by
  rw [stacked, List.map_append, List.map_map, List.map_map, List.take_add]
  exact congrArg₂ (· ++ ·) (List.map_id _) (List.map_id _)

/-- No more stacked entries are live than there is room for. -/
theorem length_live_stacked_le (maxFrames maxHistory : Nat) (keys : List κ)
    (latest : κ → Option ν) :
    (Entry.live (stacked maxFrames maxHistory keys latest)).length ≤ maxFrames := by
  rw [stacked, Entry.live_append, Entry.live_map_none, List.append_nil]
  refine Nat.le_trans (List.length_filter_le ..) ?_
  rw [List.length_map]
  exact List.length_take_le ..

/-- No more stacked entries are ghosts than there is room for, if the live ones were inserted. -/
theorem length_ghosts_stacked_le {maxFrames : Nat} {keys : List κ} {latest : κ → Option ν}
    (inserted : ∀ key ∈ keys.take maxFrames, (latest key).isSome) (maxHistory : Nat) :
    (Entry.ghosts (stacked maxFrames maxHistory keys latest)).length ≤ maxHistory := by
  rw [stacked, Entry.ghosts_append, Entry.ghosts_map_latest inserted, List.nil_append]
  refine Nat.le_trans (List.length_filter_le ..) ?_
  rw [List.length_map]
  exact List.length_take_le ..

/-- What is dropped from a front part and all that is behind it lie behind the shorter of the two
bounds. -/
theorem drop_take_append_drop_min (keys : List κ) (front bound : Nat) :
    (keys.take front).drop bound ++ keys.drop front = keys.drop (min front bound) := by
  induction keys generalizing front bound with
  | nil => simp
  | cons key rest ih =>
    cases front with
    | zero => simp
    | succ front =>
      cases bound with
      | zero => simp
      | succ bound => simpa [Nat.succ_min_succ] using ih front bound

variable [DecidableEq κ]

/-- Entries with only ghosts behind the first `live` of them are a stack of their keys. -/
theorem eq_stacked {entries : List (Entry κ ν)} (distinct : (entries.map (·.key)).Nodup)
    {live maxHistory : Nat} (below : ∀ entry ∈ entries.drop live, entry.isGhost)
    (fits : (entries.drop live).length ≤ maxHistory) :
    entries = stacked live maxHistory (entries.map (·.key))
      fun key => (Entry.find? entries key).bind (·.payload) := by
  have upperKept : ∀ entry ∈ entries.take live, ({
      key := entry.key
      payload := (Entry.find? entries entry.key).bind (·.payload) } : Entry κ ν) = entry := by
    intro entry member
    rw [(Entry.find?_eq_some_iff distinct).mpr (List.mem_of_mem_take member)]
    rfl
  have lowerKept : ∀ entry ∈ entries.drop live,
      ({ key := entry.key, payload := none } : Entry κ ν) = entry := by
    intro entry member
    rw [← Option.isNone_iff_eq_none.mp (below entry member)]
  rw [← List.length_map (·.key)] at fits
  rw [stacked, ← List.map_take, ← List.map_drop, List.take_of_length_le fits, List.map_map,
    List.map_map]
  calc entries
      = entries.take live ++ entries.drop live := (List.take_append_drop ..).symm
    _ = _ := congrArg₂ (· ++ ·) ((List.map_congr_left upperKept).trans (List.map_id _)).symm
      ((List.map_congr_left lowerKept).trans (List.map_id _)).symm

/-- Where no key occurs twice, one at most is left out for being a given key. -/
theorem countP_eq_key_le_one {keys : List κ} (distinct : keys.Nodup) (key : κ) :
    keys.countP (fun other => !decide (other ≠ key)) ≤ 1 := by
  have once := List.nodup_iff_count_le_one.mp distinct key
  simpa [List.count, beq_eq_decide] using once

/-- If one item is left out at most, all but one of the first `count` items are left. -/
theorem le_length_filter_take {α : Type} {items : List α} {stays : α → Bool}
    (once : items.countP (fun item => !stays item) ≤ 1) {count : Nat}
    (enough : count ≤ items.length) : count ≤ ((items.take count).filter stays).length + 1 := by
  have missing : (items.take count).countP (fun item => !stays item) ≤ 1 :=
    Nat.le_trans (List.take_sublist ..).countP_le once
  have all := List.length_eq_countP_add_countP stays (l := items.take count)
  rw [List.length_take_of_le enough, List.countP_eq_length_filter] at all
  simp only [Bool.not_eq_true, Bool.decide_eq_false] at all
  omega

/-- Which items come first once another one is put in front and one is left out is decided by those
that came first before. -/
theorem take_cons_filter_take {α : Type} {items : List α} {stays : α → Bool}
    (once : items.countP (fun item => !stays item) ≤ 1) (front : α) (count : Nat) :
    (front :: (items.take count).filter stays).take count =
      (front :: items.filter stays).take count := by
  cases count with
  | zero => rfl
  | succ count =>
    have parts := List.take_append_drop (count + 1) items
    rw [List.take_succ_cons, List.take_succ_cons]
    congr 1
    conv_rhs => rw [← parts, List.filter_append]
    by_cases short : items.length ≤ count + 1
    · rw [List.drop_eq_nil_of_le short, List.filter_nil, List.append_nil]
    · have full : count ≤ ((items.take (count + 1)).filter stays).length :=
        Nat.le_of_succ_le_succ (le_length_filter_take once (by omega))
      rw [List.take_append_of_le_length full]

/-- Which keys come next is decided by those that came first and next before. -/
theorem take_drop_cons_filter {keys : List κ} (distinct : keys.Nodup) (key : κ)
    (maxFrames maxHistory : Nat) :
    ((key :: (keys.take maxFrames).filter (· ≠ key)).drop maxFrames ++
        ((keys.drop maxFrames).take maxHistory).filter (· ≠ key)).take maxHistory =
      ((key :: keys.filter (· ≠ key)).drop maxFrames).take maxHistory := by
  have once := countP_eq_key_le_one distinct key
  let upper := key :: (keys.take maxFrames).filter (· ≠ key)
  let lower := ((keys.drop maxFrames).take maxHistory).filter (· ≠ key)
  have together : upper ++ lower =
      key :: (keys.take (maxFrames + maxHistory)).filter (· ≠ key) := by
    rw [List.take_add, List.filter_append]
    rfl
  have dropped : upper.drop maxFrames ++ lower = (upper ++ lower).drop maxFrames := by
    -- If there are fewer than `maxFrames` keys above, there are none below.
    by_cases short : keys.length ≤ maxFrames
    · have nothing : lower = [] := by simp [lower, List.drop_eq_nil_of_le short]
      rw [nothing, List.append_nil, List.append_nil]
    · have full : maxFrames ≤ upper.length := le_length_filter_take once (by omega)
      rw [List.drop_append_of_le_length full]
  change (upper.drop maxFrames ++ lower).take maxHistory = _
  rw [dropped, together, List.take_drop, take_cons_filter_take once, List.take_drop]

private theorem without_stacked (maxFrames maxHistory : Nat) (keys : List κ) (latest : κ → Option ν)
    (key : κ) :
    Entry.without (stacked maxFrames maxHistory keys latest) key =
      ((keys.take maxFrames).filter (· ≠ key)).map (fun key => { key, payload := latest key }) ++
        (((keys.drop maxFrames).take maxHistory).filter (· ≠ key)).map
          fun key => { key, payload := none } := by
  simp only [Entry.without, stacked, List.filter_append, List.filter_map]
  rfl

/-- Moving a key to the front of a stack with a payload and keeping within bounds takes what is
live and what is not from the keys above and below. -/
theorem keep_cons_without {live maxFrames maxHistory : Nat} {keys : List κ}
    {latest latest' : κ → Option ν} {key : κ} {payload : ν}
    (inserted : ∀ key ∈ keys.take live, (latest key).isSome) (stored : latest' key = some payload)
    (unchanged : ∀ other, other ≠ key → latest' other = latest other) :
    let upper := key :: (keys.take live).filter (· ≠ key)
    let lower := ((keys.drop live).take maxHistory).filter (· ≠ key)
    Entry.keepGhosts maxHistory (Entry.keepLive maxFrames
        ({ key, payload := some payload } ::
          Entry.without (stacked live maxHistory keys latest) key)) =
      (upper.take maxFrames).map (fun key => { key, payload := latest' key }) ++
        ((upper.drop maxFrames ++ lower).take maxHistory).map
          fun key => { key, payload := none } := by
  intro upper lower
  have insertedUpper : ∀ other ∈ upper, (latest' other).isSome := by
    intro other inUpper
    rcases List.mem_cons.mp inUpper with rfl | inRest
    · simp [stored]
    · obtain ⟨inTake, apart⟩ := List.mem_filter.mp inRest
      rw [unchanged other (by simpa using apart)]
      exact inserted other inTake
  have moved : { key, payload := some payload } ::
        Entry.without (stacked live maxHistory keys latest) key =
      upper.map (fun key => { key, payload := latest' key }) ++
        lower.map fun key => { key, payload := none } := by
    have same : ∀ other ∈ (keys.take live).filter (· ≠ key),
        ({ key := other, payload := latest other } : Entry κ ν) =
          { key := other, payload := latest' other } := by
      intro other member
      rw [unchanged other (by simpa using (List.mem_filter.mp member).2)]
    rw [without_stacked, List.map_congr_left same, ← stored]
    rfl
  rw [moved, Entry.keep_stack insertedUpper]

/-- Moving a key to the front of the stack with a payload and keeping within both bounds makes the
stack with the key in front. -/
theorem keep_cons_without_stacked {maxFrames maxHistory : Nat} {keys : List κ}
    {latest latest' : κ → Option ν} {key : κ} {payload : ν} (distinct : keys.Nodup)
    (inserted : ∀ key ∈ keys, (latest key).isSome) (stored : latest' key = some payload)
    (unchanged : ∀ other, other ≠ key → latest' other = latest other) :
    Entry.keepGhosts maxHistory (Entry.keepLive maxFrames
        ({ key, payload := some payload } ::
          Entry.without (stacked maxFrames maxHistory keys latest) key)) =
      stacked maxFrames maxHistory (key :: keys.filter (· ≠ key)) latest' := by
  rw [keep_cons_without (fun other member => inserted other (List.mem_of_mem_take member)) stored
    unchanged, take_cons_filter_take (countP_eq_key_le_one distinct key),
    take_drop_cons_filter distinct]
  rfl

/-- With ghosts for all keys that are not live, moving the last key to the front makes one more key
live if there is room for it, and otherwise a ghost of the last live one. -/
theorem keep_cons_without_last {live maxFrames maxHistory : Nat} {upper : List κ}
    {latest latest' : κ → Option ν} {key : κ} {payload : ν} (distinct : (upper ++ [key]).Nodup)
    (room : upper.length < live + maxHistory)
    (inserted : ∀ other ∈ (upper ++ [key]).take live, (latest other).isSome)
    (stored : latest' key = some payload)
    (unchanged : ∀ other, other ≠ key → latest' other = latest other) :
    Entry.keepGhosts maxHistory (Entry.keepLive maxFrames
        ({ key, payload := some payload } ::
          Entry.without (stacked live maxHistory (upper ++ [key]) latest) key)) =
      stacked (min (live + 1) maxFrames) maxHistory (key :: upper) latest' := by
  have outside : key ∉ upper := by
    intro member
    exact (List.nodup_append.mp distinct).2.2 key member key List.mem_cons_self rfl
  have othersKept {others : List κ} (among : others ⊆ upper) :
      others.filter (· ≠ key) = others :=
    List.filter_eq_self.mpr fun other member => by
      simpa using fun same : other = key => outside (same ▸ among member)
  have aloneDropped {alone : List κ} (among : alone ⊆ [key]) : alone.filter (· ≠ key) = [] :=
    List.filter_eq_nil_iff.mpr fun other member => by simpa using among member
  have above : ((upper ++ [key]).take live).filter (· ≠ key) = upper.take live := by
    rw [List.take_append, List.filter_append, othersKept (List.take_subset ..),
      aloneDropped (List.take_subset ..), List.append_nil]
  have below : (((upper ++ [key]).drop live).take maxHistory).filter (· ≠ key) =
      upper.drop live := by
    rw [List.take_of_length_le (by simp; omega), List.drop_append, List.filter_append,
      othersKept (List.drop_subset ..), aloneDropped (List.drop_subset ..), List.append_nil]
  have behind : upper.drop live = (key :: upper).drop (live + 1) := List.drop_succ_cons.symm
  rw [keep_cons_without inserted stored unchanged, above, below, ← List.take_succ_cons, behind,
    List.take_take, drop_take_append_drop_min, Nat.min_comm maxFrames]
  rfl

/-- The place of a key decides what the stack has of it. -/
theorem find?_stacked (maxFrames maxHistory : Nat) (keys : List κ) (latest : κ → Option ν)
    (key : κ) :
    Entry.find? (stacked maxFrames maxHistory keys latest) key =
      if key ∈ keys then
        if keys.idxOf key < maxFrames then some { key, payload := latest key }
        else if keys.idxOf key < maxFrames + maxHistory then some { key, payload := none }
        else none
      else none := by
  have upper := Entry.find?_map_key (keys.take maxFrames) latest key
  have lower := Entry.find?_map_key (ν := ν) ((keys.drop maxFrames).take maxHistory)
    (fun _ => none) key
  have found : Entry.find? (stacked maxFrames maxHistory keys latest) key =
      if key ∈ keys.take maxFrames then some { key, payload := latest key }
      else if key ∈ (keys.drop maxFrames).take maxHistory then some { key, payload := none }
      else none := by
    unfold Entry.find? at upper lower ⊢
    rw [stacked, List.find?_append, upper, lower]
    split <;> simp
  rw [found]
  by_cases member : key ∈ keys
  · have placed (count : Nat) : key ∈ keys.take count ↔ keys.idxOf key < count :=
      List.mem_take_iff_idxOf_lt member
    have within := placed (maxFrames + maxHistory)
    rw [List.take_add, List.mem_append, placed maxFrames] at within
    simp only [if_pos member, placed maxFrames]
    by_cases live : keys.idxOf key < maxFrames
    · simp only [if_pos live]
    · simp only [live, false_or] at within
      simp only [if_neg live, within]
  · have nowhere : key ∉ keys.take maxFrames := fun held => member (List.mem_of_mem_take held)
    have nowhereBelow : key ∉ (keys.drop maxFrames).take maxHistory :=
      fun held => member (List.mem_of_mem_drop (List.mem_of_mem_take held))
    rw [if_neg member, if_neg nowhere, if_neg nowhereBelow]

end FrameKeep
