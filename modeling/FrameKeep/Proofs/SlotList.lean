import Mathlib.Data.List.Find
import Mathlib.Data.List.Induction
import Mathlib.Data.List.Nodup
import FrameKeep.Proofs.Arena
import FrameKeep.SlotList

/-!
# Linked lists as sequences

A list holds a sequence of cells, pairs of a slot and an element, when its links lead through their
slots in that order in both directions and no other slot of its arena is occupied. `Holds` is that
relation. Each operation has one lemma here that says which sequence is held afterwards, so nothing
outside this module looks at a link.
-/

namespace FrameKeep.SlotList

variable {α : Type}

/-- The slot ahead of a sequence of cells, which is `after` if there are none. -/
def firstSlot : List (Slot × α) → (after : Option Slot) → Option Slot
  | [], after => after
  | (slot, _) :: _, _ => some slot

/-- The slot at the end of a sequence of cells, which is `before` if there are none. -/
def lastSlot : (before : Option Slot) → List (Slot × α) → Option Slot
  | before, [] => before
  | _, (slot, _) :: rest => lastSlot (some slot) rest

@[simp] theorem firstSlot_nil (after : Option Slot) :
    firstSlot ([] : List (Slot × α)) after = after := rfl

@[simp] theorem firstSlot_cons (cell : Slot × α) (rest : List (Slot × α)) (after : Option Slot) :
    firstSlot (cell :: rest) after = some cell.1 := rfl

@[simp] theorem firstSlot_append (upper lower : List (Slot × α)) (after : Option Slot) :
    firstSlot (upper ++ lower) after = firstSlot upper (firstSlot lower after) := by
  cases upper <;> rfl

@[simp] theorem lastSlot_nil (before : Option Slot) :
    lastSlot before ([] : List (Slot × α)) = before := rfl

@[simp] theorem lastSlot_cons (before : Option Slot) (cell : Slot × α) (rest : List (Slot × α)) :
    lastSlot before (cell :: rest) = lastSlot (some cell.1) rest := rfl

@[simp] theorem lastSlot_append (before : Option Slot) (upper lower : List (Slot × α)) :
    lastSlot before (upper ++ lower) = lastSlot (lastSlot before upper) lower := by
  induction upper generalizing before with
  | nil => rfl
  | cons cell rest ih => exact ih (some cell.1)

/-- A sequence that starts behind a slot ends at some slot. -/
@[simp] theorem elim_lastSlot_some {β : Type} (slot : Slot) (cells : List (Slot × α))
    (absent present : β) :
    (lastSlot (some slot) cells).elim absent (fun _ => present) = present := by
  induction cells generalizing slot with
  | nil => rfl
  | cons cell rest ih => exact ih cell.1

/-- The end of a sequence is the slot of one of its cells, or what it starts behind. -/
theorem lastSlot_eq_some {before : Option Slot} {cells : List (Slot × α)} {slot : Slot}
    (last : lastSlot before cells = some slot) : before = some slot ∨ slot ∈ cells.map (·.1) := by
  induction cells generalizing before with
  | nil => exact .inl last
  | cons cell rest ih =>
    right
    rcases ih last with same | member
    · simp [Option.some.inj same]
    · exact List.mem_cons_of_mem _ member

/-- The slot ahead of a sequence is the slot of one of its cells, or what follows it. -/
theorem firstSlot_eq_some {after : Option Slot} {cells : List (Slot × α)} {slot : Slot}
    (first : firstSlot cells after = some slot) : after = some slot ∨ slot ∈ cells.map (·.1) := by
  cases cells with
  | nil => exact .inl first
  | cons cell rest => exact .inr (by simp [Option.some.inj first])

/-- The nodes of `cells` are linked to each other in their order, the first of them back to
`before` and the last of them on to `after`. -/
def Linked (nodes : Arena (Node α)) : (before : Option Slot) → List (Slot × α) →
    (after : Option Slot) → Prop
  | _, [], _ => True
  | before, (slot, value) :: rest, after =>
    nodes.get? slot = some { value, prev := before, next := firstSlot rest after } ∧
      Linked nodes (some slot) rest after

/-- Two stretches of a sequence are each linked, up to where the other begins. -/
theorem linked_append {nodes : Arena (Node α)} {before after : Option Slot}
    {upper lower : List (Slot × α)} :
    Linked nodes before (upper ++ lower) after ↔
      Linked nodes before upper (firstSlot lower after) ∧
        Linked nodes (lastSlot before upper) lower after := by
  induction upper generalizing before with
  | nil => simp [Linked]
  | cons cell rest ih => simp [Linked, ih, and_assoc]

/-- Links depend on the nodes of their own cells only. -/
theorem Linked.congr {nodes others : Arena (Node α)} {before after : Option Slot}
    {cells : List (Slot × α)} (linked : Linked nodes before cells after)
    (same : ∀ slot ∈ cells.map (·.1), others.get? slot = nodes.get? slot) :
    Linked others before cells after := by
  induction cells generalizing before with
  | nil => trivial
  | cons cell rest ih =>
    refine ⟨?_, ih linked.2 fun slot member => same slot (List.mem_cons_of_mem _ member)⟩
    rw [same cell.1 (List.mem_cons_self ..)]
    exact linked.1

section Relinking

variable (nodes : Arena (Node α)) (slot? : Option Slot) (change : Node α → Node α)

@[simp] theorem isSome_get?_elim_modify (other : Slot) :
    ((slot?.elim nodes fun slot => nodes.modify slot change).get? other).isSome =
      (nodes.get? other).isSome := by
  cases slot? <;> simp

@[simp] theorem size_elim_modify :
    (slot?.elim nodes fun slot => nodes.modify slot change).size = nodes.size := by
  cases slot? <;> rfl

@[simp] theorem opened_elim_modify :
    (slot?.elim nodes fun slot => nodes.modify slot change).opened = nodes.opened := by
  cases slot? <;> simp

private theorem get?_elim_modify {other : Slot} (apart : slot? ≠ some other) :
    (slot?.elim nodes fun slot => nodes.modify slot change).get? other = nodes.get? other := by
  cases slot? with
  | none => rfl
  | some slot =>
    rw [Option.elim_some, Arena.get?_modify, if_neg fun same => apart (by rw [same])]

variable {nodes}

private theorem wellFormed_elim_modify (wellFormed : nodes.WellFormed) :
    (slot?.elim nodes fun slot => nodes.modify slot change).WellFormed := by
  cases slot? with
  | none => exact wellFormed
  | some slot => exact wellFormed.modify slot change

/-- Changing a node elsewhere leaves a sequence linked. -/
theorem Linked.elim_modify {before after : Option Slot} {cells : List (Slot × α)}
    (linked : Linked nodes before cells after)
    (apart : ∀ other ∈ cells.map (·.1), slot? ≠ some other) :
    Linked (slot?.elim nodes fun slot => nodes.modify slot change) before cells after :=
  linked.congr fun other member => get?_elim_modify nodes slot? change (apart other member)

end Relinking

/-- Setting the forward link of the last cell leads the sequence on to another slot. -/
theorem Linked.setNext_lastSlot {nodes : Arena (Node α)} {before after : Option Slot}
    {cells : List (Slot × α)} (linked : Linked nodes before cells after)
    (distinct : (cells.map (·.1)).Nodup) (next : Option Slot) :
    Linked ((lastSlot none cells).elim nodes fun slot => setNext nodes slot next)
      before cells next := by
  rcases cells.eq_nil_or_concat with rfl | ⟨upper, ⟨slot, value⟩, rfl⟩
  · trivial
  · simp only [List.concat_eq_append] at linked distinct ⊢
    obtain ⟨above, holds, -⟩ := linked_append.mp linked
    have apart : slot ∉ upper.map (·.1) := by
      intro member
      simp only [List.map_append, List.nodup_append] at distinct
      exact distinct.2.2 slot member slot (by simp) rfl
    simp only [lastSlot_append, lastSlot_cons, lastSlot_nil, Option.elim_some]
    refine linked_append.mpr ⟨above.congr ?_, ?_, trivial⟩
    · intro other member
      have elsewhere : other ≠ slot := fun same => apart (same ▸ member)
      rw [setNext, Arena.get?_modify, if_neg elsewhere]
    · rw [setNext, Arena.get?_modify, if_pos rfl, holds]
      rfl

/-- Setting the backward link of the first cell leads the sequence back to another slot. -/
theorem Linked.setPrev_firstSlot {nodes : Arena (Node α)} {before after : Option Slot}
    {cells : List (Slot × α)} (linked : Linked nodes before cells after)
    (distinct : (cells.map (·.1)).Nodup) (prev : Option Slot) :
    Linked ((firstSlot cells none).elim nodes fun slot => setPrev nodes slot prev)
      prev cells after := by
  cases cells with
  | nil => trivial
  | cons cell rest =>
    obtain ⟨slot, value⟩ := cell
    simp only [List.map_cons, List.nodup_cons] at distinct
    refine ⟨?_, linked.2.congr ?_⟩
    · simp [setPrev, Arena.get?_modify, linked.1]
    · intro other member
      have apart : other ≠ slot := fun same => distinct.1 (same ▸ member)
      simp [setPrev, Arena.get?_modify, apart]

/-- The links of a list lead through `cells` and its ends are theirs. Other slots of the arena may
be occupied as well. -/
structure Chained (list : SlotList α) (cells : List (Slot × α)) : Prop where
  wellFormed : list.nodes.WellFormed
  linked : Linked list.nodes none cells none
  distinct : (cells.map (·.1)).Nodup
  head_eq : list.head = firstSlot cells none
  tail_eq : list.tail = lastSlot none cells

/-- The list is the sequence of `cells`, and nothing else is kept. -/
structure Holds (list : SlotList α) (cells : List (Slot × α)) : Prop
    extends list.Chained cells where
  occupied : ∀ slot, (list.nodes.get? slot).isSome → slot ∈ cells.map (·.1)
  size_eq : list.size = cells.length

/-- The empty list holds no cells. -/
theorem holds_empty : (∅ : SlotList α).Holds [] where
  wellFormed := Arena.wellFormed_empty
  linked := trivial
  distinct := List.nodup_nil
  head_eq := rfl
  tail_eq := rfl
  occupied := by
    intro slot some
    change ((∅ : Arena (Node α)).get? slot).isSome at some
    simp at some
  size_eq := rfl

namespace Chained

variable {list : SlotList α} {cells upper lower : List (Slot × α)} {slot : Slot} {value : α}

/-- The slots on the two sides of a cell are other slots. -/
theorem apart (chained : list.Chained (upper ++ (slot, value) :: lower)) :
    slot ∉ upper.map (·.1) ∧ slot ∉ lower.map (·.1) ∧ ((upper ++ lower).map (·.1)).Nodup := by
  have distinct := chained.distinct
  simp only [List.map_append, List.map_cons] at distinct
  have shuffled := List.nodup_middle.mp distinct
  rw [List.nodup_cons, List.mem_append, not_or] at shuffled
  exact ⟨shuffled.1.1, shuffled.1.2, by rw [List.map_append]; exact shuffled.2⟩

private theorem get?_node (chained : list.Chained (upper ++ (slot, value) :: lower)) :
    list.nodes.get? slot =
      some { value, prev := lastSlot none upper, next := firstSlot lower none } :=
  (linked_append.mp chained.linked).2.1

/-- Without one cell, the links on its two sides are joined, and its slot stays occupied. -/
theorem detach (chained : list.Chained (upper ++ (slot, value) :: lower)) :
    (list.detach slot).Chained (upper ++ lower) ∧
      (list.detach slot).nodes.get? slot = some { value, prev := none, next := none } := by
  obtain ⟨above, node, below⟩ := linked_append.mp chained.linked
  obtain ⟨notAbove, notBelow, distinct⟩ := chained.apart
  rw [List.map_append, List.nodup_append] at distinct
  obtain ⟨distinctAbove, distinctBelow, crossed⟩ := distinct
  have lastApart : ∀ other, other ∉ upper.map (·.1) → lastSlot none upper ≠ some other :=
    fun other outside same => outside ((lastSlot_eq_some same).resolve_left (by simp))
  have firstApart : ∀ other, other ∉ lower.map (·.1) → firstSlot lower none ≠ some other :=
    fun other outside same => outside ((firstSlot_eq_some same).resolve_left (by simp))
  have notInLower : ∀ other ∈ upper.map (·.1), other ∉ lower.map (·.1) :=
    fun other inUpper inLower => crossed other inUpper other inLower rfl
  have aboveJoined := above.setNext_lastSlot distinctAbove (firstSlot lower none)
  have belowJoined := (below.elim_modify (lastSlot none upper)
    (fun node => { node with next := firstSlot lower none })
    fun other inLower => lastApart other fun inUpper => notInLower other inUpper inLower)
    |>.setPrev_firstSlot distinctBelow (lastSlot none upper)
  simp only [SlotList.detach, chained.get?_node]
  refine ⟨{ wellFormed := ?_, linked := ?_, distinct := chained.apart.2.2,
            head_eq := ?_, tail_eq := ?_ }, ?_⟩
  · exact (wellFormed_elim_modify _ _ (wellFormed_elim_modify _ _ chained.wellFormed)).modify _ _
  · refine linked_append.mpr ⟨?_, ?_⟩
    · refine (aboveJoined.elim_modify (firstSlot lower none) _ ?_).elim_modify (some slot) _ ?_
      · exact fun other inUpper => firstApart other (notInLower other inUpper)
      · exact fun other inUpper same => notAbove (Option.some.inj same ▸ inUpper)
    · refine belowJoined.elim_modify (some slot) _ ?_
      exact fun other inLower same => notBelow (Option.some.inj same ▸ inLower)
  · rw [chained.head_eq]
    cases upper <;> simp
  · rw [chained.tail_eq]
    cases lower <;> simp
  · simp only [setNext, setPrev]
    rw [Arena.get?_modify, if_pos rfl, get?_elim_modify _ _ _ (firstApart slot notBelow),
      get?_elim_modify _ _ _ (lastApart slot notAbove), chained.get?_node]
    rfl

/-- A slot that is occupied outside the list goes to its front. -/
theorem attachFront {node : Node α} (chained : list.Chained cells)
    (outside : slot ∉ cells.map (·.1)) (kept : list.nodes.get? slot = some node) :
    (list.attachFront slot).Chained ((slot, node.value) :: cells) := by
  have headApart : list.head ≠ some slot := by
    rw [chained.head_eq]
    exact fun same => outside ((firstSlot_eq_some same).resolve_left (by simp))
  have below := (chained.linked.elim_modify (some slot)
    (fun node => { node with prev := none, next := list.head })
    fun other member same => outside (Option.some.inj same ▸ member))
    |>.setPrev_firstSlot chained.distinct (some slot)
  rw [← chained.head_eq] at below
  refine { wellFormed := ?_, linked := ⟨?_, below⟩, distinct := ?_, head_eq := rfl,
           tail_eq := ?_ }
  · exact wellFormed_elim_modify _ _ (chained.wellFormed.modify _ _)
  · simp only [SlotList.attachFront, setPrev]
    rw [get?_elim_modify _ _ _ headApart, Arena.get?_modify, if_pos rfl, kept, chained.head_eq]
    rfl
  · exact List.nodup_cons.mpr ⟨outside, chained.distinct⟩
  · simp only [SlotList.attachFront, chained.head_eq, chained.tail_eq]
    cases cells <;> simp

end Chained

/-- Relinking vacates no slot and occupies none. -/
@[simp] theorem isSome_get?_detach (list : SlotList α) (slot other : Slot) :
    ((list.detach slot).nodes.get? other).isSome = (list.nodes.get? other).isSome := by
  unfold detach
  split <;> simp [setNext, setPrev]

@[simp] theorem size_detach (list : SlotList α) (slot : Slot) :
    (list.detach slot).size = list.size := by
  unfold detach
  split <;> simp [size, setNext, setPrev]

@[simp] theorem isSome_get?_attachFront (list : SlotList α) (slot other : Slot) :
    ((list.attachFront slot).nodes.get? other).isSome = (list.nodes.get? other).isSome := by
  simp [attachFront, setPrev]

@[simp] theorem size_attachFront (list : SlotList α) (slot : Slot) :
    (list.attachFront slot).size = list.size := by
  simp [attachFront, size, setPrev]

/-- Nor does it open one. -/
@[simp] theorem opened_detach (list : SlotList α) (slot : Slot) :
    (list.detach slot).nodes.opened = list.nodes.opened := by
  unfold detach
  split <;> simp [setNext, setPrev]

@[simp] theorem opened_attachFront (list : SlotList α) (slot : Slot) :
    (list.attachFront slot).nodes.opened = list.nodes.opened := by
  simp [attachFront, setPrev]

@[simp] theorem opened_moveToFront (list : SlotList α) (slot : Slot) :
    (list.moveToFront slot).2.nodes.opened = list.nodes.opened := by
  unfold moveToFront
  split
  next =>
    split
    next => rfl
    next => simp
  next => rfl

namespace Holds

variable {list : SlotList α} {cells upper lower : List (Slot × α)} {slot : Slot} {value : α}

private theorem node_of_mem (holds : list.Holds cells) (member : (slot, value) ∈ cells) :
    ∃ prev next, list.nodes.get? slot = some { value, prev, next } := by
  obtain ⟨upper, lower, rfl⟩ := List.append_of_mem member
  exact ⟨_, _, holds.get?_node⟩

/-- The element of a cell is found in its slot. -/
theorem get?_of_mem (holds : list.Holds cells) (member : (slot, value) ∈ cells) :
    list.get? slot = some value := by
  obtain ⟨prev, next, node⟩ := holds.node_of_mem member
  simp [SlotList.get?, node]

/-- A list contains the slot of each cell it holds. -/
theorem contains_eq_true (holds : list.Holds (upper ++ (slot, value) :: lower)) :
    list.contains slot = true := by
  simp [SlotList.contains, Arena.contains, holds.get?_node]

/-- The link towards the tail leads to the next cell of the sequence, if there is one. -/
theorem next?_eq (holds : list.Holds (upper ++ (slot, value) :: lower)) :
    list.next? slot = firstSlot lower none := by
  simp [SlotList.next?, holds.get?_node]

/-- The link towards the head leads to the cell before in the sequence, if there is one. -/
theorem prev?_eq (holds : list.Holds (upper ++ (slot, value) :: lower)) :
    list.prev? slot = lastSlot none upper := by
  simp [SlotList.prev?, holds.get?_node]

/-- Another list with the same occupied slots and the same number of elements, whose links lead
through as many cells over the same slots, holds those cells. -/
theorem of_chained {after : SlotList α} {others : List (Slot × α)} (holds : list.Holds cells)
    (chained : after.Chained others)
    (occupied : ∀ slot, (after.nodes.get? slot).isSome = (list.nodes.get? slot).isSome)
    (size : after.size = list.size) (moved : (others.map (·.1)).Perm (cells.map (·.1))) :
    after.Holds others where
  toChained := chained
  occupied := fun slot some => moved.mem_iff.mpr (holds.occupied slot (by rwa [occupied] at some))
  size_eq := by
    rw [size, holds.size_eq]
    simpa using moved.length_eq.symm

/-- A move to the front succeeds on a held cell, which then stands ahead of the others. -/
theorem moveToFront (holds : list.Holds (upper ++ (slot, value) :: lower)) :
    (list.moveToFront slot).1 = true ∧
      (list.moveToFront slot).2.Holds ((slot, value) :: (upper ++ lower)) := by
  simp only [SlotList.moveToFront, holds.contains_eq_true, if_true, true_and]
  split
  next first =>
    -- The front cell is the only one in its slot, so nothing lies before it.
    cases upper with
    | nil => exact holds
    | cons cell rest =>
      rw [holds.head_eq] at first
      have outside := holds.apart.1
      simp_all
  next =>
    obtain ⟨chained, node⟩ := holds.toChained.detach
    have outside : slot ∉ (upper ++ lower).map (·.1) := by
      rw [List.map_append, List.mem_append, not_or]
      exact ⟨holds.apart.1, holds.apart.2.1⟩
    refine holds.of_chained (chained.attachFront outside node) (by simp) (by simp) ?_
    simpa using List.perm_middle.symm

/-- A push succeeds, and its element stands first, at a slot none of the others has. -/
theorem exists_pushFront (holds : list.Holds cells) (value : α) :
    ∃ slot after, list.pushFront value = .ok (slot, after) ∧ slot ∉ cells.map (·.1) ∧
      after.Holds ((slot, value) :: cells) := by
  obtain ⟨slot, nodes, inserted, wellFormed, free, size, found⟩ :=
    holds.wellFormed.exists_insert { value, prev := none, next := none }
  have outside : slot ∉ cells.map (·.1) := by
    intro member
    obtain ⟨⟨_, other⟩, inCells, rfl⟩ := List.mem_map.mp member
    obtain ⟨prev, next, node⟩ := holds.node_of_mem inCells
    simp [free] at node
  have chained : ({ list with nodes } : SlotList α).Chained cells :=
    { holds with
      wellFormed
      linked := holds.linked.congr fun other member => by
        have elsewhere : other ≠ slot := fun same => outside (same ▸ member)
        rw [found, if_neg elsewhere] }
  refine ⟨slot, _, by simp only [SlotList.pushFront, inserted]; rfl, outside,
    ⟨chained.attachFront outside (by rw [found, if_pos rfl]), ?_, ?_⟩⟩
  · intro other some
    rw [isSome_get?_attachFront, found] at some
    by_cases same : other = slot
    · simp [same]
    · rw [if_neg same] at some
      exact List.mem_cons_of_mem _ (holds.occupied other some)
  · rw [size_attachFront]
    simpa [SlotList.size, holds.size_eq] using size.trans (congrArg (· + 1) holds.size_eq)

/-- A removal succeeds on a held cell, gives its element and closes the gap it leaves. -/
theorem exists_remove (holds : list.Holds (upper ++ (slot, value) :: lower)) :
    ∃ after, list.remove slot = .ok (some value, after) ∧ after.Holds (upper ++ lower) := by
  obtain ⟨chained, node⟩ := holds.toChained.detach
  obtain ⟨nodes, removed, wellFormed, size, found⟩ := chained.wellFormed.exists_remove node
  have outside : slot ∉ (upper ++ lower).map (·.1) := by
    rw [List.map_append, List.mem_append, not_or]
    exact ⟨holds.apart.1, holds.apart.2.1⟩
  refine ⟨{ list.detach slot with nodes }, ?_, ⟨?_, ?_, ?_⟩⟩
  · simp only [SlotList.remove, holds.contains_eq_true, if_true, removed]
    rfl
  · exact { chained with
      wellFormed
      linked := chained.linked.congr fun other member => by
        have elsewhere : other ≠ slot := fun same => outside (same ▸ member)
        rw [found, if_neg elsewhere] }
  · intro other some
    rw [found] at some
    by_cases same : other = slot
    · simp [same] at some
    · rw [if_neg same, isSome_get?_detach] at some
      have member := holds.occupied other some
      simp_all
  · have total := (size_detach list slot).trans holds.size_eq
    simp only [SlotList.size, List.length_append, List.length_cons] at total ⊢
    omega

/-- A change to an element leaves its cell where it is. -/
theorem modify (holds : list.Holds (upper ++ (slot, value) :: lower)) (change : α → α) :
    (list.modify slot change).Holds (upper ++ (slot, change value) :: lower) := by
  obtain ⟨above, node, below⟩ := linked_append.mp holds.linked
  obtain ⟨notAbove, notBelow, -⟩ := holds.apart
  refine holds.of_chained ⟨holds.wellFormed.modify _ _, ?_, ?_, ?_, ?_⟩ (by simp [SlotList.modify])
    rfl (by simp)
  · refine linked_append.mpr ⟨?_, ?_, ?_⟩
    · exact above.elim_modify (some slot) _
        fun other member same => notAbove (Option.some.inj same ▸ member)
    · simp only [SlotList.modify, Arena.get?_modify, if_pos, node]
      rfl
    · exact below.elim_modify (some slot) _
        fun other member same => notBelow (Option.some.inj same ▸ member)
  · simpa using holds.distinct
  · simpa [SlotList.modify] using holds.head_eq
  · simpa [SlotList.modify] using holds.tail_eq

/-! ### Walks -/

/-- No sequence is longer than the arena. -/
theorem length_le (holds : list.Holds cells) : cells.length ≤ list.nodes.slots.size := by
  rw [← holds.size_eq, ← holds.wellFormed.count_add]
  exact Nat.le_add_right ..

end Holds

/-- A walk along the forward links meets the slots of a sequence in their order, and ends with
them. -/
theorem walk_next? {list : SlotList α} {before : Option Slot} {cells : List (Slot × α)}
    (linked : Linked list.nodes before cells none) (steps : Nat) :
    walk list.next? steps (firstSlot cells none) = (cells.map (·.1)).take steps := by
  induction cells generalizing before steps with
  | nil => cases steps <;> rfl
  | cons cell rest ih =>
    cases steps with
    | zero => rfl
    | succ steps =>
      have next : list.next? cell.1 = firstSlot rest none := by simp [next?, linked.1]
      simp only [firstSlot_cons, walk, next, List.map_cons, List.take_succ_cons]
      rw [ih linked.2]

/-- A walk along the backward links meets the slots of a sequence in the opposite order, and ends
with them. -/
theorem walk_prev? {list : SlotList α} {after : Option Slot} {cells : List (Slot × α)}
    (linked : Linked list.nodes none cells after) (steps : Nat) :
    walk list.prev? steps (lastSlot none cells) = (cells.map (·.1)).reverse.take steps := by
  induction cells using List.reverseRecOn generalizing after steps with
  | nil => cases steps <;> rfl
  | append_singleton upper cell ih =>
    cases steps with
    | zero => rfl
    | succ steps =>
      obtain ⟨above, node, -⟩ := linked_append.mp linked
      have prev : list.prev? cell.1 = lastSlot none upper := by simp [prev?, node]
      simp only [lastSlot_append, lastSlot_cons, lastSlot_nil, walk, prev]
      rw [ih above]
      simp

namespace Holds

variable {list : SlotList α} {cells : List (Slot × α)}

/-- A walk from the head passes the slots of the sequence in their order. -/
theorem walk_head (holds : list.Holds cells) (steps : Nat) :
    walk list.next? steps list.head = (cells.map (·.1)).take steps := by
  rw [holds.head_eq, walk_next? holds.linked]

/-- A walk from the tail passes the slots of the sequence in reverse. -/
theorem walk_tail (holds : list.Holds cells) (steps : Nat) :
    walk list.prev? steps list.tail = (cells.map (·.1)).reverse.take steps := by
  rw [holds.tail_eq, walk_prev? holds.linked]

/-- The slots of a list are those of the sequence it holds. -/
theorem slots_eq (holds : list.Holds cells) : list.slots = cells.map (·.1) := by
  rw [slots, holds.walk_head, List.take_of_length_le (by simpa using holds.length_le)]

/-- Backward, the slots of a list are those of the sequence it holds in reverse. -/
theorem slotsBackward_eq (holds : list.Holds cells) :
    list.slotsBackward = (cells.map (·.1)).reverse := by
  rw [slotsBackward, holds.walk_tail, List.take_of_length_le (by simpa using holds.length_le)]

/-- The entries of a list are the cells it holds. -/
theorem entries_eq (holds : list.Holds cells) : list.entries = cells := by
  rw [entries, holds.slots_eq, List.filterMap_map]
  have kept : ∀ cell ∈ cells, (list.get? cell.1).map (cell.1, ·) = some cell := by
    intro cell member
    rw [holds.get?_of_mem member]
    rfl
  exact (List.filterMap_congr kept).trans List.filterMap_some

/-- The elements of a list are those of the cells it holds. -/
theorem toList_eq (holds : list.Holds cells) : list.toList = cells.map (·.2) := by
  rw [toList, holds.slots_eq, List.filterMap_map, ← List.filterMap_eq_map]
  exact List.filterMap_congr fun cell member => holds.get?_of_mem member

/-- The slot found from the back is that of the last cell that passes the test. -/
theorem findBack?_eq (holds : list.Holds cells) (test : α → Bool) :
    list.findBack? test = (cells.reverse.find? (test ·.2)).map (·.1) := by
  rw [findBack?, walkFind?_eq_find?_walk]
  change list.slotsBackward.find? _ = _
  rw [holds.slotsBackward_eq, ← List.map_reverse, List.find?_map]
  congr 1
  apply List.find?_congr
  intro cell member
  simp [holds.get?_of_mem (List.mem_reverse.mp member)]

end Holds

/-- The links of the list agree in both directions along one path without repetitions from its head
to its tail, and every occupied slot of the arena is on that path. -/
def WellFormed (list : SlotList α) : Prop := list.Holds list.entries

/-- A list that holds any sequence of cells is well formed. -/
theorem Holds.wellFormed_list {list : SlotList α} {cells : List (Slot × α)}
    (holds : list.Holds cells) : list.WellFormed := by
  rwa [WellFormed, holds.entries_eq]

end FrameKeep.SlotList
