import FrameKeep.Arena

/-!
# Doubly linked list over slots

The nodes of the list live in an `Arena` and are linked by slot, so a slot names its element for
as long as the element stays in the list, wherever the element moves. Elements are added and moved
to the front only; the front is the most recent element and the back the least recent one.
-/

namespace FrameKeep

/-- An element with its neighbours. -/
structure SlotList.Node (α : Type) where
  value : α
  /-- The neighbour toward the front. -/
  prev : Option Slot
  /-- The neighbour toward the back. -/
  next : Option Slot

/-- A list whose elements are named by slots. -/
structure SlotList (α : Type) where
  nodes : Arena (SlotList.Node α) := ∅
  head : Option Slot := none
  tail : Option Slot := none

namespace SlotList

variable {α : Type}

/-- The list without elements. -/
def empty : SlotList α := {}

instance : EmptyCollection (SlotList α) := ⟨empty⟩

/-- The list without elements, if room for `capacity` of them can be reserved. -/
def create (capacity : Nat) : Except Fault (SlotList α) :=
  (Arena.create capacity).map fun nodes => { nodes }

/-- The number of elements. -/
def size (list : SlotList α) : Nat := list.nodes.size

/-- Whether the list has no elements. -/
def isEmpty (list : SlotList α) : Bool := list.nodes.isEmpty

/-- Whether a slot names an element. -/
def contains (list : SlotList α) (slot : Slot) : Bool := list.nodes.contains slot

/-- The element that a slot names. -/
def get? (list : SlotList α) (slot : Slot) : Option α := (list.nodes.get? slot).map (·.value)

/-- The neighbour of an element toward the front. -/
def prev? (list : SlotList α) (slot : Slot) : Option Slot :=
  (list.nodes.get? slot).bind (·.prev)

/-- The neighbour of an element toward the back. -/
def next? (list : SlotList α) (slot : Slot) : Option Slot :=
  (list.nodes.get? slot).bind (·.next)

/-- Changes an element in place; a slot that names none changes nothing. -/
def modify (list : SlotList α) (slot : Slot) (change : α → α) : SlotList α :=
  { list with
    nodes := list.nodes.modify slot fun node => { node with value := change node.value } }

/-- Overwrites an element in place and gives back the old one. -/
def replace (list : SlotList α) (slot : Slot) (value : α) : Option α × SlotList α :=
  (list.get? slot, list.modify slot fun _ => value)

/-- Makes `prev` the neighbour of `slot` toward the front. -/
def setPrev (nodes : Arena (Node α)) (slot : Slot) (prev : Option Slot) : Arena (Node α) :=
  nodes.modify slot fun node => { node with prev }

/-- Makes `next` the neighbour of `slot` toward the back. -/
def setNext (nodes : Arena (Node α)) (slot : Slot) (next : Option Slot) : Arena (Node α) :=
  nodes.modify slot fun node => { node with next }

/-- Joins the neighbours of an element to each other, which leaves the element outside the list but
still in its slot. -/
def detach (list : SlotList α) (slot : Slot) : SlotList α :=
  match list.nodes.get? slot with
  | none => list
  | some { prev, next, .. } =>
    let nodes := prev.elim list.nodes fun before => setNext list.nodes before next
    let nodes := next.elim nodes fun after => setPrev nodes after prev
    { nodes := nodes.modify slot fun node => { node with prev := none, next := none }
      head := prev.elim next fun _ => list.head
      tail := next.elim prev fun _ => list.tail }

/-- Links an element that is outside the list at its front. -/
def attachFront (list : SlotList α) (slot : Slot) : SlotList α :=
  let nodes := list.nodes.modify slot fun node => { node with prev := none, next := list.head }
  { nodes := list.head.elim nodes fun head => setPrev nodes head (some slot)
    head := some slot
    tail := list.head.elim (some slot) fun _ => list.tail }

/-- Puts a new element at the front and answers the slot that names it. -/
def pushFront (list : SlotList α) (value : α) : Except Fault (Slot × SlotList α) := do
  let (slot, nodes) ← list.nodes.insert { value, prev := none, next := none }
  .ok (slot, { list with nodes }.attachFront slot)

/-- Takes an element out of the list and gives it back; a slot that names none changes nothing. -/
def remove (list : SlotList α) (slot : Slot) : Except Fault (Option α × SlotList α) := do
  if list.contains slot then
    let detached := list.detach slot
    let (node?, nodes) ← detached.nodes.remove slot
    .ok (node?.map (·.value), { detached with nodes })
  else
    .ok (none, list)

/-- Moves an element to the front and answers whether the slot names one. -/
def moveToFront (list : SlotList α) (slot : Slot) : Bool × SlotList α :=
  if list.contains slot then
    (true, if list.head = some slot then list else (list.detach slot).attachFront slot)
  else
    (false, list)

/-- The slots met from `start` on along `link`, at most `bound` of them. -/
def walk (link : Slot → Option Slot) : (bound : Nat) → (start : Option Slot) → List Slot
  | 0, _ => []
  | _ + 1, none => []
  | bound + 1, some slot => slot :: walk link bound (link slot)

/-- The first slot of a walk that passes a test, found without walking on behind it. -/
def walkFind? (link : Slot → Option Slot) (test : Slot → Bool) :
    (bound : Nat) → (start : Option Slot) → Option Slot
  | 0, _ => none
  | _ + 1, none => none
  | bound + 1, some slot =>
    if test slot then some slot else walkFind? link test bound (link slot)

/-- Looking for a slot on the way finds what looking through the finished walk finds. -/
theorem walkFind?_eq_find?_walk (link : Slot → Option Slot) (test : Slot → Bool) (bound : Nat)
    (start : Option Slot) :
    walkFind? link test bound start = (walk link bound start).find? test := by
  fun_induction walkFind? link test bound start <;> simp_all [walk]

/-- The slots of the list from front to back. No walk over a list is longer than its number of
slots. -/
def slots (list : SlotList α) : List Slot :=
  walk list.next? list.nodes.slots.size list.head

/-- The slots of the list from back to front. -/
def slotsBackward (list : SlotList α) : List Slot :=
  walk list.prev? list.nodes.slots.size list.tail

/-- The elements with their slots, from front to back. -/
def entries (list : SlotList α) : List (Slot × α) :=
  list.slots.filterMap fun slot => (list.get? slot).map (slot, ·)

/-- The elements from front to back. -/
def toList (list : SlotList α) : List α := list.slots.filterMap list.get?

/-- The slot of the element nearest to the back that passes a test. -/
def findBack? (list : SlotList α) (test : α → Bool) : Option Slot :=
  walkFind? list.prev? (fun slot => (list.get? slot).any test) list.nodes.slots.size list.tail

/-- A change of a list. -/
inductive Op (α : Type) where
  | pushFront (value : α)
  | remove (slot : Slot)
  | replace (slot : Slot) (value : α)
  | moveToFront (slot : Slot)
  | clear

/-- What a change of a list answers. -/
inductive Answer (α : Type) where
  /-- The slot of the new element. -/
  | slot (slot : Slot)
  /-- The element that was there before, if any. -/
  | value (value? : Option α)
  /-- Whether the element exists. -/
  | found (found : Bool)
  /-- Nothing to tell. -/
  | done

/-- Carries out one change. -/
def apply (list : SlotList α) : Op α → Except Fault (Answer α × SlotList α)
  | .pushFront value => (list.pushFront value).map fun (slot, list) => (.slot slot, list)
  | .remove slot => (list.remove slot).map fun (value?, list) => (.value value?, list)
  | .replace slot value => let (old?, list) := list.replace slot value; .ok (.value old?, list)
  | .moveToFront slot => let (found, list) := list.moveToFront slot; .ok (.found found, list)
  | .clear => .ok (.done, ∅)

/-- The list after a list of changes. A change that meets a fault is left out. -/
def run (list : SlotList α) (ops : List (Op α)) : SlotList α :=
  ops.foldl (fun list op => (list.apply op).toOption.elim list (·.2)) list

end SlotList

end FrameKeep
