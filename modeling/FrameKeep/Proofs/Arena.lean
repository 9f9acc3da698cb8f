import Mathlib.Data.List.Perm.Subperm
import FrameKeep.Arena

/-!
# Well-formed arenas

An arena is well-formed when its vacant slots are the opened slots without a value, each listed
once, and its count is the number of the others. `WellFormed.exists_insert` and
`WellFormed.exists_remove` say what filling and vacating a slot do to the map from slots to values;
neither can meet a fault in a well-formed arena. Slots are opened only to fill them, and only if
none is vacant (`WellFormed.opened_of_insert`).
-/

namespace FrameKeep

/-- Two steps in a row succeed only if the first does, and the second on its answer. -/
theorem exists_of_bind_eq_ok {ε α β : Type} {outcome : Except ε α} {next : α → Except ε β}
    {result : β} (done : outcome.bind next = .ok result) :
    ∃ answer, outcome = .ok answer ∧ next answer = .ok result := by
  cases outcome with
  | error fault => nomatch done
  | ok answer => exact ⟨answer, rfl, done⟩

namespace Arena

variable {α : Type}

/-- The vacant slots are listed completely and once, and the count has all other slots. -/
structure WellFormed (arena : Arena α) : Prop where
  vacant_nodup : arena.vacant.Nodup
  mem_vacant : ∀ slot, slot ∈ arena.vacant ↔ arena.slots[slot]? = some none
  count_add : arena.count + arena.vacant.length = arena.slots.size

/-- An arena without slots has no vacant slot and counts none as occupied. -/
theorem wellFormed_empty : (∅ : Arena α).WellFormed where
  vacant_nodup := List.nodup_nil
  mem_vacant := by
    intro slot
    change slot ∈ [] ↔ (#[] : Array (Option α))[slot]? = some none
    simp
  count_add := rfl

@[simp] theorem get?_empty (slot : Slot) : (∅ : Arena α).get? slot = none := by
  change ((#[] : Array (Option α))[slot]?).join = none
  simp

private theorem get?_eq_some_iff {arena : Arena α} {slot : Slot} {value : α} :
    arena.get? slot = some value ↔ arena.slots[slot]? = some (some value) := by
  rw [get?, Option.join_eq_some_iff]

/-- An occupied slot has been opened. -/
theorem lt_size_of_isSome {arena : Arena α} {slot : Slot} (occupied : (arena.get? slot).isSome) :
    slot < arena.slots.size := by
  obtain ⟨value, holds⟩ := Option.isSome_iff_exists.mp occupied
  obtain ⟨bound, _⟩ := Array.getElem?_eq_some_iff.mp (get?_eq_some_iff.mp holds)
  exact bound

/-- Changing the value in a slot changes no other slot. -/
theorem get?_modify (arena : Arena α) (slot other : Slot) (change : α → α) :
    (arena.modify slot change).get? other =
      if other = slot then (arena.get? slot).map change else arena.get? other := by
  unfold get? modify
  rw [Array.getElem?_modify]
  by_cases same : slot = other
  · subst same
    rcases arena.slots[slot]? with _ | _ | value <;> simp
  · simp [same, Ne.symm same]

@[simp] theorem isSome_get?_modify (arena : Arena α) (slot other : Slot) (change : α → α) :
    ((arena.modify slot change).get? other).isSome = (arena.get? other).isSome := by
  rw [get?_modify]
  split <;> simp_all

@[simp] theorem size_modify (arena : Arena α) (slot : Slot) (change : α → α) :
    (arena.modify slot change).size = arena.size := rfl

/-- There is nothing to change in a slot without a value. -/
theorem modify_eq_self {arena : Arena α} {slot : Slot} (free : arena.get? slot = none)
    (change : α → α) : arena.modify slot change = arena := by
  have unchanged : arena.slots.modify slot (Option.map change) = arena.slots := by
    apply Array.ext_getElem?
    intro other
    rw [Array.getElem?_modify]
    split
    next same =>
      subst same
      unfold get? at free
      rcases found : arena.slots[slot]? with _ | _ | value
      · rfl
      · rfl
      · simp [found] at free
    next => rfl
  rw [modify, unchanged]

/-- Changing an element leaves its slot occupied and the vacant slots as they are. -/
theorem WellFormed.modify {arena : Arena α} (wellFormed : arena.WellFormed) (slot : Slot)
    (change : α → α) : (arena.modify slot change).WellFormed where
  vacant_nodup := wellFormed.vacant_nodup
  mem_vacant := by
    intro other
    change other ∈ arena.vacant ↔ (arena.slots.modify slot (Option.map change))[other]? = some none
    rw [wellFormed.mem_vacant, Array.getElem?_modify]
    split <;> simp [Option.map_eq_some_iff]
  count_add := by
    simpa [Arena.modify] using wellFormed.count_add

/-- An occupied slot leaves too few others for all slots to be vacant. -/
theorem WellFormed.count_pos {arena : Arena α} (wellFormed : arena.WellFormed) {slot : Slot}
    {value : α} (holds : arena.get? slot = some value) : 0 < arena.count := by
  have occupied : arena.slots[slot]? = some (some value) := get?_eq_some_iff.mp holds
  have fresh : slot ∉ arena.vacant := by
    rw [wellFormed.mem_vacant, occupied]
    simp
  have opened : ∀ other ∈ slot :: arena.vacant, other ∈ List.range arena.slots.size := by
    intro other member
    rw [List.mem_range]
    rcases List.mem_cons.mp member with rfl | vacant
    · exact lt_size_of_isSome (by simp [holds])
    · obtain ⟨bound, _⟩ := Array.getElem?_eq_some_iff.mp ((wellFormed.mem_vacant other).mp vacant)
      exact bound
  have distinct : (slot :: arena.vacant).Nodup :=
    List.nodup_cons.mpr ⟨fresh, wellFormed.vacant_nodup⟩
  have few := (distinct.subperm opened).length_le
  have total := wellFormed.count_add
  rw [List.length_cons, List.length_range] at few
  omega

/-- A value goes into a slot that was free before, and no other slot changes. -/
theorem WellFormed.exists_insert {arena : Arena α} (wellFormed : arena.WellFormed) (value : α) :
    ∃ slot after, arena.insert value = .ok (slot, after) ∧ after.WellFormed ∧
      arena.get? slot = none ∧ after.size = arena.size + 1 ∧
      ∀ other, after.get? other = if other = slot then some value else arena.get? other := by
  obtain ⟨slots, vacant, count⟩ := arena
  obtain ⟨nodup, mem, total⟩ := wellFormed
  cases vacant with
  | nil =>
    refine ⟨slots.size, _, rfl, ⟨List.nodup_nil, ?_, ?_⟩, ?_, rfl, ?_⟩
    · intro slot
      have none_vacant := mem slot
      simp only [Array.getElem?_push]
      split <;> simp_all
    · simp_all
    · simp [get?]
    · intro other
      simp only [get?, Array.getElem?_push]
      split <;> simp
  | cons slot rest =>
    have vacant : slots[slot]? = some none := (mem slot).mp (by simp)
    obtain ⟨bound, _⟩ := Array.getElem?_eq_some_iff.mp vacant
    refine ⟨slot, _, by simp only [insert, dif_pos bound]; rfl, ⟨?_, ?_, ?_⟩, ?_, rfl, ?_⟩
    · exact (List.nodup_cons.mp nodup).2
    · intro other
      have fresh := (List.nodup_cons.mp nodup).1
      rw [Array.getElem?_set]
      by_cases same : slot = other
      · subst same
        simp [fresh]
      · simp [same, Ne.symm same, ← mem other]
    · simp only [List.length_cons, Array.size_set] at total ⊢
      omega
    · simp [get?, vacant]
    · intro other
      simp only [get?, Array.getElem?_set]
      by_cases same : slot = other <;> simp [same, eq_comm]

/-- Vacating an occupied slot gives back its value, and no other slot changes. -/
theorem WellFormed.exists_remove {arena : Arena α} (wellFormed : arena.WellFormed) {slot : Slot}
    {value : α} (holds : arena.get? slot = some value) :
    ∃ after, arena.remove slot = .ok (some value, after) ∧ after.WellFormed ∧
      after.size + 1 = arena.size ∧
      ∀ other, after.get? other = if other = slot then none else arena.get? other := by
  obtain ⟨count, counted⟩ : ∃ count, arena.count = count + 1 :=
    ⟨arena.count - 1, by have := wellFormed.count_pos holds; omega⟩
  have occupied : arena.slots[slot]? = some (some value) := get?_eq_some_iff.mp holds
  have bound : slot < arena.slots.size := lt_size_of_isSome (by simp [holds])
  obtain ⟨nodup, mem, total⟩ := wellFormed
  refine ⟨{ slots := arena.slots.setIfInBounds slot none, vacant := slot :: arena.vacant, count },
    ?_, ⟨?_, ?_, ?_⟩, counted.symm, ?_⟩
  · simp only [remove, holds, counted]
    rfl
  · exact List.nodup_cons.mpr ⟨by rw [mem, occupied]; simp, nodup⟩
  · intro other
    have vacant_other := mem other
    simp only [List.mem_cons, Array.getElem?_setIfInBounds, if_pos bound]
    by_cases same : slot = other <;> simp_all [eq_comm]
  · simp only [List.length_cons, Array.size_setIfInBounds]
    omega
  · intro other
    simp only [get?, Array.getElem?_setIfInBounds, if_pos bound]
    by_cases same : slot = other <;> simp [same, eq_comm]

/-! ### Slots opened -/

/-- The number of slots opened so far, vacant ones included. -/
def opened (arena : Arena α) : Nat := arena.slots.size

@[simp] theorem opened_modify (arena : Arena α) (slot : Slot) (change : α → α) :
    (arena.modify slot change).opened = arena.opened := Array.size_modify

/-- A removal opens no slot and closes none. -/
theorem opened_of_remove {arena after : Arena α} {slot : Slot} {value? : Option α}
    (removed : arena.remove slot = .ok (value?, after)) : after.opened = arena.opened := by
  unfold remove at removed
  split at removed
  next =>
    cases removed
    rfl
  next =>
    obtain ⟨count, -, rest⟩ := exists_of_bind_eq_ok removed
    cases rest
    exact Array.size_setIfInBounds

/-- Every opened slot is occupied or vacant, and none is both. -/
theorem WellFormed.opened_eq {arena : Arena α} (wellFormed : arena.WellFormed) :
    arena.opened = arena.size + arena.vacant.length := wellFormed.count_add.symm

/-- A slot is opened only where no value fits into those that there are. -/
theorem WellFormed.opened_of_insert {arena after : Arena α} (wellFormed : arena.WellFormed)
    {value : α} {slot : Slot} (inserted : arena.insert value = .ok (slot, after)) :
    after.opened = max arena.opened (arena.size + 1) := by
  have total := wellFormed.opened_eq
  unfold insert at inserted
  split at inserted
  next full =>
    cases inserted
    rw [full, List.length_nil, Nat.add_zero] at total
    change (arena.slots.push (some value)).size = _
    rw [Array.size_push, total, ← total, opened]
    omega
  next recycled rest roomy =>
    split at inserted
    next bound =>
      cases inserted
      rw [roomy, List.length_cons] at total
      change (arena.slots.set slot (some value) bound).size = _
      rw [Array.size_set, ← opened]
      omega
    next => nomatch inserted

end Arena

end FrameKeep
