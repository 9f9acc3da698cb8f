import Mathlib.Data.List.Nodup
import Mathlib.Data.List.Perm.Subperm
import FrameKeep.Cache.Plain

/-!
# Keeping entries within bounds

`keepLive` and `keepGhosts` on two lists one after the other, on lists that are within the bound,
and at an entry behind which nothing more can be kept; and what a look-up finds in a list that has
an entry of its key.
-/

namespace FrameKeep

namespace Entry

variable {κ ν : Type}

@[simp] theorem live_nil : live ([] : List (Entry κ ν)) = [] := rfl

@[simp] theorem ghosts_nil : ghosts ([] : List (Entry κ ν)) = [] := rfl

@[simp] theorem live_cons_some (key : κ) (payload : ν) (rest : List (Entry κ ν)) :
    live ({ key, payload := some payload } :: rest) =
      { key, payload := some payload } :: live rest := rfl

@[simp] theorem live_cons_none (key : κ) (rest : List (Entry κ ν)) :
    live ({ key, payload := none } :: rest) = live rest := rfl

@[simp] theorem ghosts_cons_some (key : κ) (payload : ν) (rest : List (Entry κ ν)) :
    ghosts ({ key, payload := some payload } :: rest) = ghosts rest := rfl

@[simp] theorem ghosts_cons_none (key : κ) (rest : List (Entry κ ν)) :
    ghosts ({ key, payload := none } :: rest) = { key, payload := none } :: ghosts rest := rfl

@[simp] theorem live_append (upper lower : List (Entry κ ν)) :
    live (upper ++ lower) = live upper ++ live lower := List.filter_append ..

@[simp] theorem ghosts_append (upper lower : List (Entry κ ν)) :
    ghosts (upper ++ lower) = ghosts upper ++ ghosts lower := List.filter_append ..

/-- Exactly the entries with a payload are live. -/
theorem mem_live {entries : List (Entry κ ν)} {key : κ} {payload : ν} :
    { key, payload := some payload } ∈ live entries ↔
      { key, payload := some payload } ∈ entries := by
  simp [live, isGhost]

/-- A key is that of a live entry if some payload is held under it. -/
theorem mem_map_key_live {entries : List (Entry κ ν)} {key : κ} :
    key ∈ (live entries).map (·.key) ↔
      ∃ payload, { key, payload := some payload } ∈ entries := by
  rw [List.mem_map]
  constructor
  · rintro ⟨⟨key, _ | payload⟩, member, rfl⟩
    · simp [live, isGhost] at member
    · exact ⟨payload, mem_live.mp member⟩
  · rintro ⟨payload, member⟩
    exact ⟨_, mem_live.mpr member, rfl⟩

/-- No key is live twice if none is remembered twice. -/
theorem nodup_live {entries : List (Entry κ ν)} (distinct : (entries.map (·.key)).Nodup) :
    ((live entries).map (·.key)).Nodup :=
  distinct.sublist (List.filter_sublist.map _)

/-- Where no key has two entries, what comes first is told by the keys that come first. -/
theorem mem_take_iff {entries : List (Entry κ ν)} (distinct : (entries.map (·.key)).Nodup)
    {entry : Entry κ ν} {count : Nat} :
    entry ∈ entries.take count ↔
      entry ∈ entries ∧ entry.key ∈ (entries.map (·.key)).take count := by
  rw [← List.map_take]
  constructor
  · intro first
    exact ⟨List.mem_of_mem_take first, List.mem_map_of_mem first⟩
  · rintro ⟨member, first⟩
    obtain ⟨other, inFirst, same⟩ := List.mem_map.mp first
    have alone := List.inj_on_of_nodup_map distinct (List.mem_of_mem_take inFirst) member same
    exact alone ▸ inFirst

/-- Among ghosts alone there is no live entry. -/
theorem live_eq_nil_of_ghosts {entries : List (Entry κ ν)}
    (allGhosts : ∀ entry ∈ entries, entry.isGhost) : live entries = [] :=
  List.filter_eq_nil_iff.mpr fun entry member => by simp [allGhosts entry member]

/-- Every entry is live or a ghost, and none is both. -/
theorem length_live_add_length_ghosts (entries : List (Entry κ ν)) :
    (live entries).length + (ghosts entries).length = entries.length := by
  induction entries with
  | nil => rfl
  | cons entry rest ih =>
    obtain ⟨key, _ | payload⟩ := entry <;> simp <;> omega

/-- Moving entries leaves the number of live ones. -/
theorem length_live_perm {entries others : List (Entry κ ν)} (moved : entries.Perm others) :
    (live entries).length = (live others).length := (moved.filter _).length_eq

/-- Moving entries leaves the number of ghosts. -/
theorem length_ghosts_perm {entries others : List (Entry κ ν)} (moved : entries.Perm others) :
    (ghosts entries).length = (ghosts others).length := (moved.filter _).length_eq

/-- Fewer entries have no more live ones. -/
theorem length_live_subperm {entries others : List (Entry κ ν)} (fewer : entries.Subperm others) :
    (live entries).length ≤ (live others).length := (fewer.filter _).length_le

/-- Fewer entries have no more ghosts. -/
theorem length_ghosts_subperm {entries others : List (Entry κ ν)} (fewer : entries.Subperm others) :
    (ghosts entries).length ≤ (ghosts others).length := (fewer.filter _).length_le

/-- What the upper entries leave of the count goes to the payloads of the lower ones. -/
theorem keepLive_append (count : Nat) (upper lower : List (Entry κ ν)) :
    keepLive count (upper ++ lower) =
      keepLive count upper ++ keepLive (count - (live upper).length) lower := by
  induction upper generalizing count with
  | nil => simp [keepLive]
  | cons entry rest ih =>
    obtain ⟨key, _ | payload⟩ := entry
    · simp [keepLive, ih]
    · cases count with
      | zero => simp [keepLive, ih]
      | succ count => simp [keepLive, ih, Nat.add_sub_add_right]

/-- What the upper entries leave of the count goes to the ghosts among the lower ones. -/
theorem keepGhosts_append (count : Nat) (upper lower : List (Entry κ ν)) :
    keepGhosts count (upper ++ lower) =
      keepGhosts count upper ++ keepGhosts (count - (ghosts upper).length) lower := by
  induction upper generalizing count with
  | nil => simp [keepGhosts]
  | cons entry rest ih =>
    obtain ⟨key, _ | payload⟩ := entry
    · cases count with
      | zero => simp [keepGhosts, ih]
      | succ count => simp [keepGhosts, ih, Nat.add_sub_add_right]
    · simp [keepGhosts, ih]

/-- Live entries within the bound all keep their payload. -/
theorem keepLive_eq_self {count : Nat} {entries : List (Entry κ ν)}
    (enough : (live entries).length ≤ count) : keepLive count entries = entries := by
  induction entries generalizing count with
  | nil => simp [keepLive]
  | cons entry rest ih =>
    obtain ⟨key, _ | payload⟩ := entry
    · simp [keepLive, ih enough]
    · cases count with
      | zero => simp at enough
      | succ count => simp [keepLive, ih (Nat.le_of_succ_le_succ enough)]

/-- Ghosts within the bound all stay. -/
theorem keepGhosts_eq_self {count : Nat} {entries : List (Entry κ ν)}
    (enough : (ghosts entries).length ≤ count) : keepGhosts count entries = entries := by
  induction entries generalizing count with
  | nil => simp [keepGhosts]
  | cons entry rest ih =>
    obtain ⟨key, _ | payload⟩ := entry
    · cases count with
      | zero => simp at enough
      | succ count => simp [keepGhosts, ih (Nat.le_of_succ_le_succ enough)]
    · simp [keepGhosts, ih enough]

@[simp] theorem map_key_keepLive (count : Nat) (entries : List (Entry κ ν)) :
    (keepLive count entries).map (·.key) = entries.map (·.key) := by
  fun_induction keepLive count entries <;> simp_all

@[simp] theorem length_keepLive (count : Nat) (entries : List (Entry κ ν)) :
    (keepLive count entries).length = entries.length := by
  rw [← List.length_map (·.key), map_key_keepLive, List.length_map]

/-- The live entries that stay are the first ones. -/
theorem live_keepLive (count : Nat) (entries : List (Entry κ ν)) :
    live (keepLive count entries) = (live entries).take count := by
  fun_induction keepLive count entries <;> simp_all

/-- As many live entries remain as there were, up to the count. -/
theorem length_live_keepLive (count : Nat) (entries : List (Entry κ ν)) :
    (live (keepLive count entries)).length = min count (live entries).length := by
  rw [live_keepLive, List.length_take]

/-- A ghost that is left was one before or comes from a live entry behind the bound. -/
theorem mem_keepLive_none {count : Nat} {entries : List (Entry κ ν)} {key : κ}
    (member : { key, payload := none } ∈ keepLive count entries) :
    { key, payload := none } ∈ entries ∨ key ∈ ((live entries).drop count).map (·.key) := by
  induction entries generalizing count with
  | nil => simp [keepLive] at member
  | cons entry rest ih =>
    obtain ⟨other, _ | payload⟩ := entry
    · simp only [keepLive, List.mem_cons] at member ⊢
      rcases member with same | later
      · exact .inl (.inl same)
      · exact (ih later).imp .inr id
    · cases count with
      | zero =>
        simp only [keepLive, List.mem_cons] at member
        rcases member with same | later
        · exact .inr (by simp_all)
        · exact (ih later).imp (List.mem_cons_of_mem _) (List.mem_cons_of_mem _)
      | succ count =>
        simp only [keepLive, List.mem_cons] at member
        rcases member with same | later
        · simp at same
        · exact (ih later).imp (List.mem_cons_of_mem _) id

/-- A payload behind as many live entries as are to be kept is taken anyway. -/
theorem keepLive_demoted {count : Nat} {upper : List (Entry κ ν)}
    (full : count ≤ (live upper).length) (key : κ) (payload : ν) (lower : List (Entry κ ν)) :
    keepLive count (upper ++ { key, payload := some payload } :: lower) =
      keepLive count (upper ++ { key, payload := none } :: lower) := by
  rw [keepLive_append, keepLive_append, Nat.sub_eq_zero_of_le full]
  rfl

/-- Dropping ghosts leaves the other entries in their order. -/
theorem keepGhosts_sublist (count : Nat) (entries : List (Entry κ ν)) :
    (keepGhosts count entries).Sublist entries := by
  fun_induction keepGhosts count entries <;> grind

@[simp] theorem live_keepGhosts (count : Nat) (entries : List (Entry κ ν)) :
    live (keepGhosts count entries) = live entries := by
  fun_induction keepGhosts count entries <;> simp_all

/-- As many ghosts remain as there were, up to the count. -/
theorem length_ghosts_keepGhosts (count : Nat) (entries : List (Entry κ ν)) :
    (ghosts (keepGhosts count entries)).length = min count (ghosts entries).length := by
  fun_induction keepGhosts count entries <;> simp_all

/-- A ghost behind as many ghosts as are to be kept is dropped anyway. -/
theorem keepGhosts_evicted {count : Nat} {upper : List (Entry κ ν)}
    (full : count ≤ (ghosts upper).length) (key : κ) (lower : List (Entry κ ν)) :
    keepGhosts count (upper ++ { key, payload := none } :: lower) =
      keepGhosts count (upper ++ lower) := by
  rw [keepGhosts_append, keepGhosts_append, Nat.sub_eq_zero_of_le full]
  rfl

section Lookup

variable [DecidableEq κ]

/-- Nothing is found for exactly the keys that no entry has. -/
theorem find?_eq_none_iff {entries : List (Entry κ ν)} {key : κ} :
    find? entries key = none ↔ ∀ entry ∈ entries, entry.key ≠ key := by
  simp [find?]

/-- The entry found is the first one of its key. -/
theorem find?_append_cons {upper lower : List (Entry κ ν)} {key : κ} {payload : Option ν}
    (first : ∀ entry ∈ upper, entry.key ≠ key) :
    find? (upper ++ { key, payload } :: lower) key = some { key, payload } := by
  have nowhere : upper.find? (·.key = key) = none := find?_eq_none_iff.mpr first
  simp [find?, List.find?_append, nowhere]

/-- Without a key that no entry has, all entries remain. -/
theorem without_eq_self {entries : List (Entry κ ν)} {key : κ}
    (absent : ∀ entry ∈ entries, entry.key ≠ key) : without entries key = entries :=
  List.filter_eq_self.mpr fun entry member => by simp [absent entry member]

/-- The entries of other keys are those above and those below. -/
theorem without_append (upper lower : List (Entry κ ν)) (key : κ) :
    without (upper ++ lower) key = without upper key ++ without lower key := List.filter_append ..

/-- A key may be left out before or after the ghosts are. -/
theorem live_without (entries : List (Entry κ ν)) (key : κ) :
    live (without entries key) = without (live entries) key := by
  rw [live, without, live, without, List.filter_filter, List.filter_filter]
  simp only [Bool.and_comm]

/-- What is found for a key is an entry of that key. -/
theorem key_of_find?_eq_some {entries : List (Entry κ ν)} {key : κ} {entry : Entry κ ν}
    (found : find? entries key = some entry) : entry.key = key := by
  simpa using List.find?_some found

/-- Where no key has two entries, the entry found is the only one. -/
theorem find?_eq_some_iff {entries : List (Entry κ ν)}
    (distinct : (entries.map (·.key)).Nodup) {key : κ} {payload : Option ν} :
    find? entries key = some { key, payload } ↔ { key, payload } ∈ entries := by
  constructor
  · exact List.mem_of_find?_eq_some
  · intro member
    obtain ⟨upper, lower, rfl⟩ := List.append_of_mem member
    rw [List.map_append, List.map_cons] at distinct
    apply find?_append_cons
    intro entry inUpper
    exact (List.nodup_append.mp distinct).2.2 entry.key (List.mem_map_of_mem inUpper) key
      List.mem_cons_self

/-- Putting the entry of a key first makes no list longer. -/
theorem cons_without_subperm {entries : List (Entry κ ν)} {key : κ} {entry : Entry κ ν}
    (found : find? entries key = some entry) : (entry :: without entries key).Subperm entries := by
  obtain ⟨upper, lower, rfl⟩ := List.append_of_mem (List.mem_of_find?_eq_some found)
  have removed :
      without (upper ++ entry :: lower) key = without upper key ++ without lower key := by
    rw [without_append]
    simp [without, key_of_find?_eq_some found]
  refine ⟨without upper key ++ entry :: without lower key, ?_, ?_⟩
  · rw [removed]
    exact List.perm_middle
  · exact List.filter_sublist.append (List.filter_sublist.cons_cons entry)

/-- Without its key, the only entry of a key is gone and the others stay in their order. -/
theorem without_append_cons {upper lower : List (Entry κ ν)} {key : κ} {payload : Option ν}
    (above : ∀ entry ∈ upper, entry.key ≠ key) (below : ∀ entry ∈ lower, entry.key ≠ key) :
    without (upper ++ { key, payload } :: lower) key = upper ++ lower := by
  have removed : without ({ key, payload } :: lower) key = without lower key :=
    List.filter_cons_of_neg (by simp)
  rw [without_append, removed, without_eq_self above, without_eq_self below]

/-- The entries of other keys than these. -/
def withoutAll (entries : List (Entry κ ν)) (keys : List κ) : List (Entry κ ν) :=
  entries.filter (·.key ∉ keys)

@[simp] theorem withoutAll_nil (entries : List (Entry κ ν)) : withoutAll entries [] = entries := by
  simp [withoutAll]

/-- Keys may be left out one after the other. -/
theorem without_withoutAll (entries : List (Entry κ ν)) (keys : List κ) (key : κ) :
    without (withoutAll entries keys) key = withoutAll entries (keys ++ [key]) := by
  simp [without, withoutAll, List.filter_filter, Bool.and_comm]

end Lookup

end Entry

end FrameKeep
