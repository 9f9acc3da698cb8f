import FrameKeep.Proofs.SlotList

/-!
# Lists as sequences of named elements

Seen from outside, a list is a sequence of elements with the slots that name them. `Presents` says
what every question is answered with, and `Acts` what a change does to the sequence and what it
answers. A slot that names no element, whether it was vacated or never opened, answers with nothing
and changes nothing.
-/

namespace FrameKeep.SlotList

variable {α : Type}

/-- Every question to the list is answered by the sequence of `cells`. A walk of any number of steps
goes through their slots one after the other and ends with them. -/
structure Presents (list : SlotList α) (cells : List (Slot × α)) : Prop where
  distinct : (cells.map (·.1)).Nodup
  size_eq : list.size = cells.length
  isEmpty_eq : list.isEmpty = cells.isEmpty
  slots_eq : list.slots = cells.map (·.1)
  toList_eq : list.toList = cells.map (·.2)
  forward : ∀ steps, walk list.next? steps list.head = (cells.map (·.1)).take steps
  backward : ∀ steps, walk list.prev? steps list.tail = (cells.map (·.1)).reverse.take steps
  head_eq : list.head = (cells.map (·.1)).head?
  tail_eq : list.tail = (cells.map (·.1)).getLast?
  /-- A slot of the sequence names its element, which lies between its neighbours. -/
  named : ∀ upper slot value lower, cells = upper ++ (slot, value) :: lower →
    list.contains slot = true ∧ list.get? slot = some value ∧
      list.prev? slot = (upper.map (·.1)).getLast? ∧ list.next? slot = (lower.map (·.1)).head?
  /-- Any other slot names nothing. -/
  unnamed : ∀ slot, slot ∉ cells.map (·.1) →
    list.contains slot = false ∧ list.get? slot = none ∧ list.prev? slot = none ∧
      list.next? slot = none

/-- What a change does to a sequence, and what it answers. -/
inductive Acts : List (Slot × α) → Op α → Answer α → List (Slot × α) → Prop where
  /-- The slot of a new element names no other. -/
  | pushFront {cells : List (Slot × α)} {slot : Slot} (fresh : slot ∉ cells.map (·.1)) (value : α) :
      Acts cells (.pushFront value) (.slot slot) ((slot, value) :: cells)
  | remove (upper : List (Slot × α)) (slot : Slot) (value : α) (lower : List (Slot × α)) :
      Acts (upper ++ (slot, value) :: lower) (.remove slot) (.value (some value)) (upper ++ lower)
  | replace (upper : List (Slot × α)) (slot : Slot) (old new : α) (lower : List (Slot × α)) :
      Acts (upper ++ (slot, old) :: lower) (.replace slot new) (.value (some old))
        (upper ++ (slot, new) :: lower)
  | moveToFront (upper : List (Slot × α)) (slot : Slot) (value : α) (lower : List (Slot × α)) :
      Acts (upper ++ (slot, value) :: lower) (.moveToFront slot) (.found true)
        ((slot, value) :: (upper ++ lower))
  | removeNothing {cells : List (Slot × α)} {slot : Slot} (absent : slot ∉ cells.map (·.1)) :
      Acts cells (.remove slot) (.value none) cells
  | replaceNothing {cells : List (Slot × α)} {slot : Slot} (absent : slot ∉ cells.map (·.1))
      (new : α) : Acts cells (.replace slot new) (.value none) cells
  | moveNothing {cells : List (Slot × α)} {slot : Slot} (absent : slot ∉ cells.map (·.1)) :
      Acts cells (.moveToFront slot) (.found false) cells
  | clear (cells : List (Slot × α)) : Acts cells .clear .done []

namespace Op

/-- The slot that a change is asked to act on. -/
def target? : Op α → Option Slot
  | .remove slot | .replace slot _ | .moveToFront slot => some slot
  | .pushFront _ | .clear => none

/-- The value under a slot once a change has overwritten it, if that is what the change does. -/
def overwrite (slot : Slot) (value : α) : Op α → α
  | .replace other new => if other = slot then new else value
  | .pushFront _ | .remove _ | .moveToFront _ | .clear => value

end Op

/-- An element keeps its slot until it is removed or the list is cleared. -/
theorem Acts.mem_of_kept {cells others : List (Slot × α)} {op : Op α} {answer : Answer α}
    {slot : Slot} {value : α} (acts : Acts cells op answer others) (member : (slot, value) ∈ cells)
    (kept : op ≠ .remove slot) (full : op ≠ .clear) : (slot, op.overwrite slot value) ∈ others := by
  cases acts with
  | pushFront fresh newest => exact List.mem_cons_of_mem _ member
  | remove upper other removed lower =>
    have apart : slot ≠ other := fun same => kept (by rw [same])
    simpa [Op.overwrite, apart] using member
  | replace upper other old new lower =>
    by_cases same : other = slot
    · simp [Op.overwrite, same]
    · simpa [Op.overwrite, same, Ne.symm same] using member
  | moveToFront upper other moved lower =>
    exact List.perm_middle.mem_iff.mp member
  | removeNothing absent => exact member
  | @replaceNothing _ other absent new =>
    have apart : other ≠ slot := fun same => absent (same ▸ List.mem_map_of_mem member)
    simpa [Op.overwrite, apart] using member
  | moveNothing absent => exact member
  | clear => exact absurd rfl full

private theorem firstSlot_none (cells : List (Slot × α)) :
    firstSlot cells none = (cells.map (·.1)).head? := by
  cases cells <;> rfl

private theorem lastSlot_none (cells : List (Slot × α)) :
    lastSlot none cells = (cells.map (·.1)).getLast? := by
  rcases cells.eq_nil_or_concat with rfl | ⟨upper, cell, rfl⟩
  · rfl
  · simp

namespace Holds

variable {list : SlotList α} {cells : List (Slot × α)} {slot : Slot} {op : Op α}

private theorem node_eq_none (holds : list.Holds cells) (absent : slot ∉ cells.map (·.1)) :
    list.nodes.get? slot = none := by
  by_contra occupied
  exact absent (holds.occupied slot (Option.isSome_iff_ne_none.mpr occupied))

/-- What a list holds by its links is what it presents to a caller. -/
theorem presents (holds : list.Holds cells) : list.Presents cells where
  distinct := holds.distinct
  size_eq := holds.size_eq
  isEmpty_eq := by
    change (list.size == 0) = _
    rw [holds.size_eq]
    cases cells <;> rfl
  slots_eq := holds.slots_eq
  toList_eq := holds.toList_eq
  forward := holds.walk_head
  backward := holds.walk_tail
  head_eq := holds.head_eq.trans (firstSlot_none cells)
  tail_eq := holds.tail_eq.trans (lastSlot_none cells)
  named := by
    rintro upper slot value lower rfl
    refine ⟨holds.contains_eq_true, holds.get?_of_mem (by simp), ?_, ?_⟩
    · rw [holds.prev?_eq, lastSlot_none]
    · rw [holds.next?_eq, firstSlot_none]
  unnamed := by
    intro slot absent
    have free := holds.node_eq_none absent
    simp [SlotList.contains, Arena.contains, SlotList.get?, prev?, next?, free]

/-- Asked to act on a slot that names no element, the list stays what it is. -/
theorem apply_of_absent (holds : list.Holds cells) (absent : slot ∉ cells.map (·.1))
    (target : op.target? = some slot) :
    ∃ answer, list.apply op = .ok (answer, list) ∧ Acts cells op answer cells := by
  obtain ⟨outside, unfound, -, -⟩ := holds.presents.unnamed slot absent
  cases op with
  | pushFront value => simp [Op.target?] at target
  | clear => simp [Op.target?] at target
  | remove other =>
    obtain rfl : other = slot := Option.some.inj target
    refine ⟨_, ?_, .removeNothing absent⟩
    simp only [SlotList.apply, SlotList.remove, outside, Bool.false_eq_true, if_false]
    rfl
  | replace other new =>
    obtain rfl : other = slot := Option.some.inj target
    refine ⟨_, ?_, .replaceNothing absent new⟩
    simp only [SlotList.apply, SlotList.replace, unfound, SlotList.modify,
      Arena.modify_eq_self (holds.node_eq_none absent)]
  | moveToFront other =>
    obtain rfl : other = slot := Option.some.inj target
    refine ⟨_, ?_, .moveNothing absent⟩
    simp only [SlotList.apply, SlotList.moveToFront, outside, Bool.false_eq_true, if_false]

/-- No change meets a fault, and each acts on the sequence that the list holds. -/
theorem exists_apply (holds : list.Holds cells) (op : Op α) :
    ∃ answer after others, list.apply op = .ok (answer, after) ∧ after.Holds others ∧
      Acts cells op answer others := by
  -- A change of one element finds it in the sequence, or finds nothing to act on.
  have split_or_absent (slot : Slot) : slot ∉ cells.map (·.1) ∨
      ∃ upper value lower, cells = upper ++ (slot, value) :: lower := by
    by_cases member : slot ∈ cells.map (·.1)
    · obtain ⟨⟨_, value⟩, inCells, rfl⟩ := List.mem_map.mp member
      obtain ⟨upper, lower, split⟩ := List.append_of_mem inCells
      exact .inr ⟨upper, value, lower, split⟩
    · exact .inl member
  have unchanged {slot : Slot} (absent : slot ∉ cells.map (·.1)) (target : op.target? = some slot) :
      ∃ answer after others, list.apply op = .ok (answer, after) ∧ after.Holds others ∧
        Acts cells op answer others := by
    obtain ⟨answer, applied, acts⟩ := holds.apply_of_absent absent target
    exact ⟨answer, list, cells, applied, holds, acts⟩
  cases op with
  | pushFront value =>
    obtain ⟨slot, after, pushed, fresh, holdsAfter⟩ := holds.exists_pushFront value
    exact ⟨_, after, _, by simp only [SlotList.apply, pushed]; rfl, holdsAfter,
      .pushFront fresh value⟩
  | remove slot =>
    rcases split_or_absent slot with absent | ⟨upper, value, lower, rfl⟩
    · exact unchanged absent rfl
    · obtain ⟨after, removed, holdsAfter⟩ := holds.exists_remove
      exact ⟨_, after, _, by simp only [SlotList.apply, removed]; rfl, holdsAfter,
        .remove upper slot value lower⟩
  | replace slot new =>
    rcases split_or_absent slot with absent | ⟨upper, old, lower, rfl⟩
    · exact unchanged absent rfl
    · have found : list.get? slot = some old := holds.get?_of_mem (by simp)
      exact ⟨_, _, _, by simp only [SlotList.apply, SlotList.replace, found],
        holds.modify fun _ => new, .replace upper slot old new lower⟩
  | moveToFront slot =>
    rcases split_or_absent slot with absent | ⟨upper, value, lower, rfl⟩
    · exact unchanged absent rfl
    · obtain ⟨found, holdsAfter⟩ := holds.moveToFront
      exact ⟨_, _, _, by simp only [SlotList.apply, found], holdsAfter,
        .moveToFront upper slot value lower⟩
  | clear => exact ⟨.done, ∅, [], rfl, holds_empty, .clear cells⟩

end Holds

/-! ### Runs -/

private theorem run_cons_of_apply {list after : SlotList α} {op : Op α} {answer : Answer α}
    (applied : list.apply op = .ok (answer, after)) (rest : List (Op α)) :
    list.run (op :: rest) = after.run rest := by
  simp [run, applied, Except.toOption]

private theorem run_concat_of_apply {start after : SlotList α} {ops : List (Op α)} {op : Op α}
    {answer : Answer α} (applied : (start.run ops).apply op = .ok (answer, after)) :
    start.run (ops ++ [op]) = after := by
  have appended : start.run (ops ++ [op]) = (start.run ops).run [op] := List.foldl_append
  rw [appended, run_cons_of_apply applied]
  rfl

/-- After any changes the list still holds a sequence. -/
theorem Holds.exists_run {list : SlotList α} {cells : List (Slot × α)} (holds : list.Holds cells)
    (ops : List (Op α)) : ∃ others, (list.run ops).Holds others := by
  induction ops generalizing list cells with
  | nil => exact ⟨cells, holds⟩
  | cons op rest ih =>
    obtain ⟨answer, after, others, applied, holdsAfter, -⟩ := holds.exists_apply op
    rw [run_cons_of_apply applied]
    exact ih holdsAfter

/-- A slot names its element through any changes that neither remove it nor clear the list. -/
theorem Holds.get?_run_of_kept {list : SlotList α} {cells : List (Slot × α)} {slot : Slot}
    {value : α} (holds : list.Holds cells) (member : (slot, value) ∈ cells) {ops : List (Op α)}
    (kept : ∀ op ∈ ops, op ≠ .remove slot ∧ op ≠ .clear) :
    (list.run ops).get? slot = some (ops.foldl (Op.overwrite slot) value) := by
  induction ops generalizing list cells value with
  | nil => exact holds.get?_of_mem member
  | cons op rest ih =>
    obtain ⟨answer, after, others, applied, holdsAfter, acts⟩ := holds.exists_apply op
    obtain ⟨removes, clears⟩ := kept op List.mem_cons_self
    rw [run_cons_of_apply applied]
    exact ih holdsAfter (acts.mem_of_kept member removes clears) fun later inRest =>
      kept later (List.mem_cons_of_mem _ inRest)

/-- After any changes of a new list, whatever slots they were given, its entries are a sequence that
answers every question. The next change, whatever it is, meets no fault and acts on that sequence,
or leaves the list as it is if it is given a slot that names nothing. The slot of a new element
names that element, as overwritten since, until it is removed or the list is cleared. -/
theorem run_refines_sequence {capacity : Nat} {start : SlotList α}
    (created : create capacity = .ok start) (ops : List (Op α)) :
    let list := start.run ops
    start.entries = [] ∧
      list.Presents list.entries ∧
      (∀ op, ∃ answer after, list.apply op = .ok (answer, after) ∧
        after = start.run (ops ++ [op]) ∧ Acts list.entries op answer after.entries ∧
        ∀ slot, op.target? = some slot → slot ∉ list.entries.map (·.1) → after = list) ∧
      ∀ value, ∃ slot after, list.pushFront value = .ok (slot, after) ∧
        ∀ later, (∀ op ∈ later, op ≠ .remove slot ∧ op ≠ .clear) →
          (after.run later).get? slot = some (later.foldl (Op.overwrite slot) value) := by
  obtain rfl : ∅ = start := by
    unfold create Arena.create at created
    split at created
    · exact Except.ok.inj created
    · simp [Except.map] at created
  intro list
  obtain ⟨cells, holds⟩ : ∃ cells, list.Holds cells := holds_empty.exists_run ops
  rw [holds.entries_eq]
  refine ⟨holds_empty.entries_eq, holds.presents, fun op => ?_, fun value => ?_⟩
  · obtain ⟨answer, after, others, applied, holdsAfter, acts⟩ := holds.exists_apply op
    refine ⟨answer, after, applied, (run_concat_of_apply applied).symm, ?_, ?_⟩
    · rwa [holdsAfter.entries_eq]
    · intro slot target absent
      obtain ⟨_, unchanged, -⟩ := holds.apply_of_absent absent target
      exact (Prod.mk.inj (Except.ok.inj (applied.symm.trans unchanged))).2
  · obtain ⟨slot, after, pushed, -, holdsAfter⟩ := holds.exists_pushFront value
    exact ⟨slot, after, pushed, fun later kept =>
      holdsAfter.get?_run_of_kept List.mem_cons_self kept⟩

/-- A slot that is vacated and filled again names the new element, and what was asked of it in
between changed nothing. -/
theorem run_refines_sequence_of_reused_slot :
    (create 2 : Except Fault (SlotList String)) = .ok ∅ ∧
      let ops : List (Op String) :=
        [.pushFront "a", .pushFront "b", .remove 0, .replace 0 "x", .moveToFront 0, .remove 7,
          .pushFront "c", .moveToFront 1]
      let list := (∅ : SlotList String).run ops
      list.entries = [(1, "b"), (0, "c")] ∧ list.Presents list.entries := by
  have created : (create 2 : Except Fault (SlotList String)) = .ok ∅ := rfl
  exact ⟨created, by decide, (run_refines_sequence created _).2.1⟩

end FrameKeep.SlotList
