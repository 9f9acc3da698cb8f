import Mathlib.Data.Finmap
import FrameKeep.Proofs.Arena
import FrameKeep.Proofs.HighWater
import FrameKeep.Proofs.Recency

/-!
# Arenas as finite maps with recycled slots

Seen from outside, an arena is a finite map from slots to values, and a record of the changes with
what they answered says which map it is. The same record says in which order slots were vacated, and
that decides which slot a new value gets. Slots are opened only to fill them, and so there are as
many as the largest number of values held at one time since the arena was last emptied.
-/

namespace FrameKeep.Arena

variable {α : Type}

/-- Which slots hold a value, and which value each of them holds. -/
abbrev Holdings (α : Type) := Finmap fun _ : Slot => α

/-- The changes that were carried out, the earliest first, with what they answered. -/
def log (arena : Arena α) : List (Op α) → List (Op α × Answer α)
  | [] => []
  | op :: rest =>
    match arena.apply op with
    | .ok (answer, after) => (op, answer) :: after.log rest
    | .error _ => arena.log rest

/-- Puts another value into a slot that holds one. -/
def Holdings.overwrite (holdings : Holdings α) (slot : Slot) (value : α) : Holdings α :=
  if slot ∈ holdings then holdings.insert slot value else holdings

/-- What one change does to the values held. The answer to an insertion tells where the value
went. -/
def record (holdings : Holdings α) : Op α × Answer α → Holdings α
  | (.insert value, .slot slot) => holdings.insert slot value
  | (.insert _, _) => holdings
  | (.remove slot, _) => holdings.erase slot
  | (.replace slot value, _) => holdings.overwrite slot value
  | (.clear, _) => ∅

/-- The values held after the changes of a log, which begins with no value held. -/
def held (log : List (Op α × Answer α)) : Holdings α := log.foldl record ∅

/-- A slot is vacated by a removal that gives back a value. Clearing forgets all slots. -/
def vacate (slots : List Slot) : Op α × Answer α → List Slot
  | (.remove slot, .value (some _)) => slot :: slots
  | (.clear, _) => []
  | _ => slots

/-- The slots vacated along a log and not forgotten, the most recently vacated first. -/
def vacated (log : List (Op α × Answer α)) : List Slot := log.foldl vacate []

/-- The most recently vacated slot that is still vacant. -/
def lastVacated? (log : List (Op α × Answer α)) : Option Slot :=
  (vacated log).find? (· ∉ held log)

/-- Every question to the arena is answered by the holdings. The vacant slots are listed once each,
and they are the opened ones without a value. -/
structure Represents (arena : Arena α) (holdings : Holdings α) : Prop where
  get?_eq : ∀ slot, arena.get? slot = holdings.lookup slot
  contains_eq : ∀ slot, arena.contains slot = decide (slot ∈ holdings)
  size_eq : arena.size = holdings.keys.card
  isEmpty_iff : arena.isEmpty = true ↔ holdings = ∅
  vacant_nodup : arena.vacant.Nodup
  mem_vacant : ∀ slot, slot ∈ arena.vacant ↔ slot < arena.opened ∧ slot ∉ holdings

/-! ### Holdings with one slot changed -/

private theorem Holdings.lookup_insert (holdings : Holdings α) (slot other : Slot) (value : α) :
    (holdings.insert slot value).lookup other =
      if other = slot then some value else holdings.lookup other := by
  split
  next same => rw [same, Finmap.lookup_insert]
  next apart => rw [Finmap.lookup_insert_of_ne holdings apart]

private theorem Holdings.lookup_erase (holdings : Holdings α) (slot other : Slot) :
    (holdings.erase slot).lookup other = if other = slot then none else holdings.lookup other := by
  split
  next same => rw [same, Finmap.lookup_erase]
  next apart => rw [Finmap.lookup_erase_ne apart]

private theorem Holdings.lookup_overwrite (holdings : Holdings α) (slot other : Slot) (value : α) :
    (holdings.overwrite slot value).lookup other =
      if other = slot then (holdings.lookup slot).map fun _ => value
      else holdings.lookup other := by
  unfold Holdings.overwrite
  split
  next present =>
    obtain ⟨old, found⟩ := Finmap.mem_iff.mp present
    rw [Holdings.lookup_insert, found]
    rfl
  next absent =>
    split
    next same => rw [same, Finmap.lookup_eq_none.mpr absent, Option.map_none]
    next => rfl

private theorem Holdings.mem_overwrite {holdings : Holdings α} {slot other : Slot} {value : α} :
    other ∈ holdings.overwrite slot value ↔ other ∈ holdings := by
  unfold Holdings.overwrite
  split
  next present =>
    rw [Finmap.mem_insert, or_iff_right_of_imp]
    rintro rfl
    exact present
  next => rfl

/-! ### Vacant slots -/

/-- A new value goes into the first of the vacant slots, or into one that is opened for it. -/
theorem vacant_of_insert {arena after : Arena α} {value : α} {slot : Slot}
    (inserted : arena.insert value = .ok (slot, after)) :
    arena.vacant = slot :: after.vacant ∨
      arena.vacant = [] ∧ after.vacant = [] ∧ slot = arena.opened := by
  unfold insert at inserted
  split at inserted
  next full =>
    cases inserted
    exact .inr ⟨full, rfl, rfl⟩
  next recycled rest roomy =>
    split at inserted
    next =>
      cases inserted
      exact .inl roomy
    next => nomatch inserted

/-- The slot of a removed element is the first to be taken again. -/
theorem vacant_of_remove {arena after : Arena α} {slot : Slot} {value : α}
    (removed : arena.remove slot = .ok (some value, after)) :
    after.vacant = slot :: arena.vacant := by
  unfold remove at removed
  split at removed
  next => simp at removed
  next =>
    obtain ⟨count, -, rest⟩ := exists_of_bind_eq_ok removed
    cases rest
    rfl

/-- The arena holds these values, and its vacant slots are those of a list, which may have slots
more than once and slots that were filled again. -/
structure Recycles (arena : Arena α) (holdings : Holdings α) (slots : List Slot) : Prop where
  wellFormed : arena.WellFormed
  get?_eq : ∀ slot, arena.get? slot = holdings.lookup slot
  vacant_eq : arena.vacant = (slots.filter (· ∉ holdings)).eraseDups

private theorem recycles_empty : (∅ : Arena α).Recycles ∅ [] where
  wellFormed := wellFormed_empty
  get?_eq := by
    intro slot
    rw [get?_empty, Finmap.lookup_empty]
  vacant_eq := rfl

namespace Recycles

variable {arena : Arena α} {holdings : Holdings α} {slots : List Slot}

private theorem get?_eq_none (recycles : arena.Recycles holdings slots) {slot : Slot} :
    arena.get? slot = none ↔ slot ∉ holdings := by
  rw [recycles.get?_eq, Finmap.lookup_eq_none]

private theorem lt_opened (recycles : arena.Recycles holdings slots) {slot : Slot}
    (present : slot ∈ holdings) : slot < arena.opened := by
  apply lt_size_of_isSome
  rwa [recycles.get?_eq, Finmap.lookup_isSome]

/-- The vacant slots are those opened and not held. -/
theorem mem_vacant (recycles : arena.Recycles holdings slots) (slot : Slot) :
    slot ∈ arena.vacant ↔ slot < arena.opened ∧ slot ∉ holdings := by
  rw [recycles.wellFormed.mem_vacant, ← recycles.get?_eq_none, Array.getElem?_eq_some_iff]
  constructor
  · rintro ⟨bound, free⟩
    exact ⟨bound, by rw [get?, Array.getElem?_eq_getElem bound, free]; rfl⟩
  · rintro ⟨bound, free⟩
    refine ⟨bound, ?_⟩
    rwa [get?, Array.getElem?_eq_getElem bound, Option.join_some] at free

/-- Every opened slot either holds a value or is vacant, and so the values are counted. -/
theorem size_eq (recycles : arena.Recycles holdings slots) :
    arena.size = holdings.keys.card := by
  have opened : holdings.keys ∪ arena.vacant.toFinset = Finset.range arena.opened := by
    ext slot
    rw [Finset.mem_union, Finmap.mem_keys, List.mem_toFinset, recycles.mem_vacant,
      Finset.mem_range]
    have bound : slot ∈ holdings → slot < arena.opened := recycles.lt_opened
    tauto
  have apart : Disjoint holdings.keys arena.vacant.toFinset := by
    rw [Finset.disjoint_left]
    intro slot present vacant
    rw [Finmap.mem_keys] at present
    exact ((recycles.mem_vacant slot).mp (List.mem_toFinset.mp vacant)).2 present
  have total := congrArg Finset.card opened
  rw [Finset.card_union_of_disjoint apart, Finset.card_range,
    List.toFinset_card_of_nodup recycles.wellFormed.vacant_nodup,
    recycles.wellFormed.opened_eq] at total
  exact (Nat.add_right_cancel total).symm

/-- An arena whose slots are recycled from a history represents what that history holds. -/
theorem represents (recycles : arena.Recycles holdings slots) : arena.Represents holdings where
  get?_eq := recycles.get?_eq
  contains_eq := by
    intro slot
    rw [contains, recycles.get?_eq, Bool.eq_iff_iff, Finmap.lookup_isSome, decide_eq_true_iff]
  size_eq := recycles.size_eq
  isEmpty_iff := by
    change (arena.size == 0) = true ↔ _
    rw [beq_iff_eq, recycles.size_eq, Finset.card_eq_zero]
    constructor
    · intro none_held
      apply Finmap.ext_lookup
      intro slot
      rw [Finmap.lookup_empty, Finmap.lookup_eq_none, ← Finmap.mem_keys, none_held]
      exact Finset.notMem_empty slot
    · rintro rfl
      exact Finmap.keys_empty
  vacant_nodup := recycles.wellFormed.vacant_nodup
  mem_vacant := recycles.mem_vacant

/-- The first vacant slot is the first of the list that holds no value. -/
theorem head?_vacant (recycles : arena.Recycles holdings slots) :
    arena.vacant.head? = slots.find? (· ∉ holdings) := by
  rw [recycles.vacant_eq, ← List.head?_filter]
  cases slots.filter (· ∉ holdings) with
  | nil => rfl
  | cons slot rest => rw [List.eraseDups_cons, List.head?_cons, List.head?_cons]

/-- A value goes into the first slot of the list that holds none, or into one opened for it. -/
theorem exists_insert (recycles : arena.Recycles holdings slots) (value : α) :
    ∃ slot after, arena.insert value = .ok (slot, after) ∧
      after.Recycles (holdings.insert slot value) slots ∧ slot ∉ holdings ∧
      (slots.find? (· ∉ holdings) = some slot ∧ after.opened = arena.opened ∨
        slots.find? (· ∉ holdings) = none ∧ slot = arena.opened ∧
          after.opened = arena.opened + 1) := by
  obtain ⟨slot, after, inserted, wellFormed, free, -, frame⟩ :=
    recycles.wellFormed.exists_insert value
  have first := recycles.head?_vacant
  have opened := recycles.wellFormed.opened_of_insert inserted
  have total := recycles.wellFormed.opened_eq
  -- Filling a slot takes it off the list of vacant ones, where it can only be the first.
  have rest : after.vacant = arena.vacant.filter (· ≠ slot) := by
    rcases vacant_of_insert inserted with recycled | ⟨full, still, -⟩
    · have distinct := recycles.wellFormed.vacant_nodup
      rw [recycled, List.nodup_cons] at distinct
      rw [recycled, List.filter_cons_of_neg (by simp), List.filter_eq_self.mpr]
      intro other member
      exact decide_eq_true fun same => distinct.1 (same ▸ member)
    · rw [full, still, List.filter_nil]
  refine ⟨slot, after, inserted, ⟨wellFormed, ?_, ?_⟩, recycles.get?_eq_none.mp free, ?_⟩
  · intro other
    rw [frame, Holdings.lookup_insert, recycles.get?_eq]
  · rw [rest, recycles.vacant_eq, ← eraseDups_filter, List.filter_filter]
    congr 1
    apply List.filter_congr
    intro other _
    simp [Finmap.mem_insert, not_or]
  · rcases vacant_of_insert inserted with recycled | ⟨full, -, new⟩
    · rw [recycled, List.head?_cons] at first
      rw [recycled, List.length_cons] at total
      exact .inl ⟨first.symm, by omega⟩
    · rw [full, List.head?_nil] at first
      rw [full, List.length_nil] at total
      exact .inr ⟨first.symm, new, by omega⟩

/-- A slot that holds a value gives it back and is the first to be filled again. Any other slot
gives back nothing, and nothing changes. -/
theorem exists_remove (recycles : arena.Recycles holdings slots) (slot : Slot) :
    ∃ after, arena.remove slot = .ok (holdings.lookup slot, after) ∧
      after.Recycles (holdings.erase slot)
        (vacate slots (.remove slot, .value (holdings.lookup slot))) ∧
      (slot ∉ holdings → after = arena) := by
  cases found : holdings.lookup slot with
  | none =>
    have absent : slot ∉ holdings := Finmap.lookup_eq_none.mp found
    have unchanged : holdings.erase slot = holdings := by
      apply Finmap.ext_lookup
      intro other
      rw [Holdings.lookup_erase]
      split
      next same => rw [same, found]
      next => rfl
    refine ⟨arena, ?_, by rwa [unchanged], fun _ => rfl⟩
    simp only [Arena.remove, recycles.get?_eq_none.mpr absent]
  | some value =>
    have present : slot ∈ holdings := Finmap.mem_of_lookup_eq_some found
    obtain ⟨after, removed, wellFormed, -, frame⟩ :=
      recycles.wellFormed.exists_remove ((recycles.get?_eq slot).trans found)
    refine ⟨after, removed, ⟨wellFormed, ?_, ?_⟩, fun absent => absurd present absent⟩
    · intro other
      rw [frame, Holdings.lookup_erase, recycles.get?_eq]
    · have others : ((slots.filter (· ∉ holdings.erase slot)).filter fun other => !other == slot) =
          slots.filter (· ∉ holdings) := by
        rw [List.filter_filter]
        apply List.filter_congr
        intro other _
        by_cases same : other = slot
        · simp [same, present]
        · simp [same, Finmap.mem_erase]
      rw [vacant_of_remove removed, recycles.vacant_eq, vacate, List.filter_cons_of_pos (by simp),
        List.eraseDups_cons, others]

/-- A slot that holds a value gives it back for another one. Any other slot gives back nothing, and
nothing changes. -/
theorem replace (recycles : arena.Recycles holdings slots) (slot : Slot) (value : α) :
    (arena.replace slot value).1 = holdings.lookup slot ∧
      (arena.replace slot value).2.Recycles (holdings.overwrite slot value) slots ∧
      (slot ∉ holdings → (arena.replace slot value).2 = arena) := by
  refine ⟨recycles.get?_eq slot, ⟨recycles.wellFormed.modify slot _, ?_, ?_⟩, ?_⟩
  · intro other
    change (arena.modify slot fun _ => value).get? other = _
    rw [get?_modify, Holdings.lookup_overwrite, recycles.get?_eq, recycles.get?_eq]
  · simp only [Holdings.mem_overwrite]
    exact recycles.vacant_eq
  · intro absent
    exact modify_eq_self (recycles.get?_eq_none.mpr absent) _

/-- No change meets a fault, and each does to the holdings and to the vacated slots what its record
says. -/
theorem exists_apply (recycles : arena.Recycles holdings slots) (op : Op α) :
    ∃ answer after, arena.apply op = .ok (answer, after) ∧
      after.Recycles (record holdings (op, answer)) (vacate slots (op, answer)) := by
  cases op with
  | insert value =>
    obtain ⟨slot, after, inserted, recyclesAfter, -⟩ := recycles.exists_insert value
    exact ⟨.slot slot, after, by simp only [Arena.apply, inserted]; rfl, recyclesAfter⟩
  | remove slot =>
    obtain ⟨after, removed, recyclesAfter, -⟩ := recycles.exists_remove slot
    exact ⟨.value (holdings.lookup slot), after, by simp only [Arena.apply, removed]; rfl,
      recyclesAfter⟩
  | replace slot value => exact ⟨_, _, rfl, (recycles.replace slot value).2.1⟩
  | clear => exact ⟨.done, ∅, rfl, recycles_empty⟩

end Recycles

/-- A change that does not clear the arena opens a slot only if there are now more values than
slots. -/
theorem WellFormed.opened_of_apply {arena after : Arena α} {op : Op α} {answer : Answer α}
    (wellFormed : arena.WellFormed) (applied : arena.apply op = .ok (answer, after))
    (keeps : op ≠ .clear) : after.opened = max after.size arena.opened := by
  have total := wellFormed.opened_eq
  cases op with
  | insert value =>
    obtain ⟨slot, grown, inserted, -, -, size, -⟩ := wellFormed.exists_insert value
    simp only [Arena.apply, inserted] at applied
    cases applied
    rw [wellFormed.opened_of_insert inserted, size, max_comm]
  | remove slot =>
    cases holds : arena.get? slot with
    | none =>
      simp only [Arena.apply, Arena.remove, holds] at applied
      cases applied
      change arena.opened = max arena.size arena.opened
      omega
    | some value =>
      obtain ⟨shrunk, removed, -, size, -⟩ := wellFormed.exists_remove holds
      have opened := opened_of_remove removed
      simp only [Arena.apply, removed] at applied
      cases applied
      change shrunk.opened = max shrunk.size arena.opened
      omega
  | replace slot value =>
    cases applied
    change (arena.modify slot fun _ => value).opened =
      max (arena.modify slot fun _ => value).size arena.opened
    rw [opened_modify, size_modify]
    omega
  | clear => exact absurd rfl keeps

/-! ### Runs -/

private theorem run_cons_of_apply {arena after : Arena α} {op : Op α} {answer : Answer α}
    (applied : arena.apply op = .ok (answer, after)) (rest : List (Op α)) :
    arena.run (op :: rest) = after.run rest := by
  simp [run, applied, Except.toOption]

/-- A run in two parts is the second part run from where the first ends. -/
theorem run_append (start : Arena α) (ops later : List (Op α)) :
    start.run (ops ++ later) = (start.run ops).run later := List.foldl_append

/-- The answers of a run in two parts are those of both parts, one after the other. -/
theorem log_append (start : Arena α) (ops later : List (Op α)) :
    start.log (ops ++ later) = start.log ops ++ (start.run ops).log later := by
  induction ops generalizing start with
  | nil => rfl
  | cons op rest ih =>
    rw [List.cons_append, log, log]
    cases applied : start.apply op with
    | error fault =>
      have left : start.run (op :: rest) = start.run rest := by
        simp [run, applied, Except.toOption]
      rw [left]
      exact ih start
    | ok outcome =>
      obtain ⟨answer, after⟩ := outcome
      rw [run_cons_of_apply applied]
      exact congrArg ((op, answer) :: ·) (ih after)

private theorem run_concat_of_apply {start after : Arena α} {ops : List (Op α)} {op : Op α}
    {answer : Answer α} (applied : (start.run ops).apply op = .ok (answer, after)) :
    start.run (ops ++ [op]) = after := by
  rw [run_append, run_cons_of_apply applied]
  rfl

private theorem log_concat_of_apply {start after : Arena α} {ops : List (Op α)} {op : Op α}
    {answer : Answer α} (applied : (start.run ops).apply op = .ok (answer, after)) :
    start.log (ops ++ [op]) = start.log ops ++ [(op, answer)] := by
  rw [log_append, log, applied]
  rfl

/-- The arena and its log tell the same after any changes. -/
theorem recycles_run (ops : List (Op α)) :
    ((∅ : Arena α).run ops).Recycles (held ((∅ : Arena α).log ops))
      (vacated ((∅ : Arena α).log ops)) := by
  induction ops using List.reverseRecOn with
  | nil => exact recycles_empty
  | append_singleton earlier op ih =>
    obtain ⟨answer, after, applied, recycles⟩ := ih.exists_apply op
    rw [run_concat_of_apply applied, log_concat_of_apply applied, held, vacated,
      List.foldl_concat, List.foldl_concat]
    exact recycles

/-- The most values held at one time along a run since the arena was new or last cleared. -/
def MostHeld (start : Arena α) (ops : List (Op α)) (most : Nat) : Prop :=
  HighWater (fun earlier => (start.run earlier).size) (fun _ op => op = .clear) ops most

/-- Slots are opened only for values, and forgotten only when the arena is cleared. -/
theorem mostHeld_opened (ops : List (Op α)) :
    MostHeld ∅ ops ((∅ : Arena α).run ops).opened := by
  induction ops using List.reverseRecOn with
  | nil => exact .nil _ _
  | append_singleton earlier op ih =>
    obtain ⟨answer, after, applied, -⟩ := (recycles_run earlier).exists_apply op
    have now := run_concat_of_apply applied
    by_cases clears : op = .clear
    · have mark : MostHeld ∅ (earlier ++ [op]) ((∅ : Arena α).run (earlier ++ [op])).size :=
        .of_resets clears
      subst clears
      cases applied
      rwa [now] at mark ⊢
    · have mark : MostHeld ∅ (earlier ++ [op])
          (max ((∅ : Arena α).run (earlier ++ [op])).size ((∅ : Arena α).run earlier).opened) :=
        HighWater.concat ih clears
      rw [now] at mark ⊢
      rwa [(recycles_run earlier).wellFormed.opened_of_apply applied clears]

/-- After any changes of a new arena, whatever slots they were given, the values recorded along them
answer every question, and as many slots are opened as values were held at one time since the arena
was last cleared. The next change meets no fault and does what its record says. A new value goes
into the most recently vacated slot that is still vacant, or into a slot opened for it if there is
none. Removing and overwriting give back what was in the slot, and change nothing if that is
nothing. -/
theorem run_refines_map {capacity : Nat} {start : Arena α} (created : create capacity = .ok start)
    (ops : List (Op α)) :
    let arena := start.run ops
    let holdings := held (start.log ops)
    let last? := lastVacated? (start.log ops)
    arena.Represents holdings ∧
      start.MostHeld ops arena.opened ∧
      (∀ op, ∃ answer after, arena.apply op = .ok (answer, after) ∧
        start.run (ops ++ [op]) = after ∧
        start.log (ops ++ [op]) = start.log ops ++ [(op, answer)] ∧
        after.Represents (record holdings (op, answer))) ∧
      (∀ value, ∃ slot after, arena.insert value = .ok (slot, after) ∧
        after.Represents (holdings.insert slot value) ∧ slot ∉ holdings ∧
        (last? = some slot ∧ after.opened = arena.opened ∨
          last? = none ∧ slot = arena.opened ∧ after.opened = arena.opened + 1)) ∧
      (∀ slot, ∃ after, arena.remove slot = .ok (holdings.lookup slot, after) ∧
        after.Represents (holdings.erase slot) ∧ (slot ∉ holdings → after = arena)) ∧
      ∀ slot value, ∃ after, arena.replace slot value = (holdings.lookup slot, after) ∧
        after.Represents (holdings.overwrite slot value) ∧ (slot ∉ holdings → after = arena) := by
  obtain rfl : ∅ = start := by
    unfold create at created
    split at created
    next => exact Except.ok.inj created
    next => nomatch created
  intro arena holdings last?
  have recycles : arena.Recycles holdings (vacated (log ∅ ops)) := recycles_run ops
  refine ⟨recycles.represents, mostHeld_opened ops, fun op => ?_, fun value => ?_, fun slot => ?_,
    fun slot value => ?_⟩
  · obtain ⟨answer, after, applied, recyclesAfter⟩ := recycles.exists_apply op
    exact ⟨answer, after, applied, run_concat_of_apply applied, log_concat_of_apply applied,
      recyclesAfter.represents⟩
  · obtain ⟨slot, after, inserted, recyclesAfter, free, which⟩ := recycles.exists_insert value
    exact ⟨slot, after, inserted, recyclesAfter.represents, free, which⟩
  · obtain ⟨after, removed, recyclesAfter, unchanged⟩ := recycles.exists_remove slot
    exact ⟨after, removed, recyclesAfter.represents, unchanged⟩
  · obtain ⟨found, recyclesAfter, unchanged⟩ := recycles.replace slot value
    exact ⟨_, Prod.ext found rfl, recyclesAfter.represents, unchanged⟩

/-- Of two vacated slots the one vacated later is filled again first, and a second removal from the
other makes no difference. -/
theorem run_refines_map_of_two_vacated :
    (create 2 : Except Fault (Arena String)) = .ok ∅ ∧
      let ops : List (Op String) :=
        [.insert "x", .clear, .insert "a", .insert "b", .insert "c", .remove 0, .remove 2,
          .remove 0, .remove 7, .replace 2 "y", .replace 1 "z"]
      let arena := (∅ : Arena String).run ops
      arena.entries = [(1, "z")] ∧ arena.opened = 3 ∧
        lastVacated? ((∅ : Arena String).log ops) = some 2 ∧
        arena.Represents (held ((∅ : Arena String).log ops)) := by
  have created : (create 2 : Except Fault (Arena String)) = .ok ∅ := rfl
  exact ⟨created, by decide, by decide, by decide, (run_refines_map created _).1⟩

end FrameKeep.Arena
