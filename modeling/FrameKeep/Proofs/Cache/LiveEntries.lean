import FrameKeep.Proofs.Cache.Answers

/-!
# Live entries

What an operation does to the live entries depends on the live entries alone: where ghosts lie
between them makes no difference to which of them come first, and which are the first to go.
-/

namespace FrameKeep

variable {κ ν : Type} [DecidableEq κ]

namespace Entry

variable {entries : List (Entry κ ν)} {key : κ}

/-- The entries with that of a key put first, if there is one. -/
def promote (entries : List (Entry κ ν)) (key : κ) : List (Entry κ ν) :=
  match find? entries key with
  | none => entries
  | some entry => entry :: without entries key

/-- Promoting a key that no entry has moves nothing. -/
theorem promote_eq_self (absent : ∀ entry ∈ entries, entry.key ≠ key) :
    promote entries key = entries := by
  rw [promote, find?_eq_none_iff.mpr absent]

/-- Promoting a key puts its entry first and leaves the others in their order. -/
theorem promote_of_mem (distinct : (entries.map (·.key)).Nodup) {payload : Option ν}
    (member : { key, payload } ∈ entries) :
    promote entries key = { key, payload } :: without entries key := by
  rw [promote, (find?_eq_some_iff distinct).mpr member]

/-- Putting an entry first loses none and adds none. -/
theorem promote_perm (distinct : (entries.map (·.key)).Nodup) (key : κ) :
    (promote entries key).Perm entries := by
  cases found : find? entries key with
  | none => rw [promote_eq_self (find?_eq_none_iff.mp found)]
  | some entry =>
    obtain rfl := key_of_find?_eq_some found
    have member := List.mem_of_find?_eq_some found
    rw [promote_of_mem distinct member]
    obtain ⟨upper, lower, rfl⟩ := List.append_of_mem member
    rw [List.map_append, List.map_cons] at distinct
    have outside := (List.nodup_cons.mp (List.nodup_middle.mp distinct)).1
    rw [← List.map_append] at outside
    have apart : ∀ other ∈ upper ++ lower, other.key ≠ entry.key :=
      fun other inOthers same => outside (List.mem_map.mpr ⟨other, inOthers, same⟩)
    rw [without_append_cons (fun other inUpper => apart other (List.mem_append_left _ inUpper))
      (fun other inLower => apart other (List.mem_append_right _ inLower))]
    exact List.perm_middle.symm

/-- Putting a ghost first does not change the order of the live entries. -/
theorem live_promote (distinct : (entries.map (·.key)).Nodup) (key : κ) :
    live (promote entries key) = promote (live entries) key := by
  cases found : find? entries key with
  | none =>
    have absent := find?_eq_none_iff.mp found
    have absentLive : ∀ entry ∈ live entries, entry.key ≠ key :=
      fun entry member => absent entry (List.mem_filter.mp member).1
    rw [promote_eq_self absent, promote_eq_self absentLive]
  | some entry =>
    obtain rfl := key_of_find?_eq_some found
    obtain ⟨key, _ | payload⟩ := entry
    · have ghost := (find?_eq_some_iff distinct).mp found
      have absentLive : ∀ entry ∈ live entries, entry.key ≠ key := by
        rintro ⟨_, _ | payload⟩ member rfl
        · simp [live, isGhost] at member
        · have held := (find?_eq_some_iff distinct).mpr (mem_live.mp member)
          simp [found] at held
      rw [promote_of_mem distinct ghost, live_cons_none, live_without, promote_eq_self absentLive,
        without_eq_self absentLive]
    · have held := (find?_eq_some_iff distinct).mp found
      rw [promote_of_mem distinct held, promote_of_mem (nodup_live distinct) (mem_live.mpr held),
        live_cons_some, live_without]

end Entry

namespace PlainCache

variable {cache : PlainCache κ ν}

/-- A look-up promotes its key. -/
theorem entries_lookup (cache : PlainCache κ ν) (key : κ) :
    (cache.lookup key).2.entries = Entry.promote cache.entries key := by
  unfold lookup Entry.promote
  cases Entry.find? cache.entries key <;> rfl

/-- Among the live entries a look-up promotes its key as among all. -/
theorem live_lookup (distinct : (cache.entries.map (·.key)).Nodup) (key : κ) :
    Entry.live (cache.lookup key).2.entries = Entry.promote (Entry.live cache.entries) key := by
  rw [entries_lookup, Entry.live_promote distinct]

/-- An insertion puts its entry first among the live ones, as many as there is room for. -/
theorem live_insert (cache : PlainCache κ ν) (key : κ) (payload : ν) :
    Entry.live (cache.insert key payload).entries =
      ({ key, payload := some payload } :: Entry.without (Entry.live cache.entries) key).take
        cache.maxFrames := by
  rw [entries_insert, Entry.live_keepGhosts, Entry.live_keepLive, Entry.live_cons_some,
    Entry.live_without]

end PlainCache

end FrameKeep
