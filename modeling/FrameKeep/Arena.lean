import FrameKeep.Count

/-!
# Slot arena

Values live in numbered slots that keep their number for as long as the value stays. A slot that
is vacated is recycled before a new one is opened, the most recently vacated first, so the number
of slots never exceeds the largest number of values held at one time since the arena was last
emptied. Room for slots is reserved only when an arena is created, and does not bound it later.
-/

namespace FrameKeep

/-- The number of a slot. It names one value until that value is removed or the arena emptied. -/
abbrev Slot := Nat

/-- Values in numbered slots, with the vacant slots in the order in which they are reused. -/
structure Arena (α : Type) where
  /-- Every slot opened so far, vacant ones included. -/
  slots : Array (Option α) := #[]
  /-- The vacant slots, the most recently vacated first. -/
  vacant : List Slot := []
  /-- The number of occupied slots. -/
  count : Nat := 0

namespace Arena

variable {α : Type}

/-- The arena without slots. -/
def empty : Arena α := {}

instance : EmptyCollection (Arena α) := ⟨empty⟩

/-- Room for this many slots or more cannot be reserved. -/
def reserveLimit : Nat := 1 <<< 60

/-- The arena without slots, if room for `capacity` of them can be reserved. -/
def create (capacity : Nat) : Except Fault (Arena α) :=
  if capacity < reserveLimit then .ok ∅ else .error .capacityTooLarge

/-- The value in a slot; `none` for a vacant slot and for one that was never opened. -/
def get? (arena : Arena α) (slot : Slot) : Option α := arena.slots[slot]?.join

/-- Whether a slot holds a value. -/
def contains (arena : Arena α) (slot : Slot) : Bool := (arena.get? slot).isSome

/-- The number of values held. -/
def size (arena : Arena α) : Nat := arena.count

/-- Whether no value is held. -/
def isEmpty (arena : Arena α) : Bool := arena.count == 0

/-- Puts a value into the most recently vacated slot, or into a new one if none is vacant. -/
def insert (arena : Arena α) (value : α) : Except Fault (Slot × Arena α) :=
  match arena.vacant with
  | [] =>
    .ok (arena.slots.size,
      { slots := arena.slots.push (some value), vacant := [], count := arena.count + 1 })
  | slot :: rest =>
    if h : slot < arena.slots.size then
      .ok (slot,
        { slots := arena.slots.set slot (some value) h, vacant := rest, count := arena.count + 1 })
    else
      .error (.slotOutOfBounds slot arena.slots.size)

/-- Vacates a slot and gives back its value; a slot without one is left as it is. -/
def remove (arena : Arena α) (slot : Slot) : Except Fault (Option α × Arena α) :=
  match arena.get? slot with
  | none => .ok (none, arena)
  | some value => do
    let count ← Count.pred? arena.count
    .ok (some value,
      { slots := arena.slots.setIfInBounds slot none, vacant := slot :: arena.vacant, count })

/-- Changes the value in a slot; a slot without one is left as it is. -/
def modify (arena : Arena α) (slot : Slot) (change : α → α) : Arena α :=
  { arena with slots := arena.slots.modify slot (Option.map change) }

/-- Overwrites the value in a slot and gives back the old one; a slot without a value is left as it
is. -/
def replace (arena : Arena α) (slot : Slot) (value : α) : Option α × Arena α :=
  (arena.get? slot, arena.modify slot fun _ => value)

/-- The values with their slots, by rising slot. -/
def entries (arena : Arena α) : List (Slot × α) :=
  arena.slots.toList.zipIdx.filterMap fun (value?, slot) => value?.map (slot, ·)

/-- A change of an arena. -/
inductive Op (α : Type) where
  | insert (value : α)
  | remove (slot : Slot)
  | replace (slot : Slot) (value : α)
  | clear

/-- What a change of an arena answers. -/
inductive Answer (α : Type) where
  /-- The slot that was filled. -/
  | slot (slot : Slot)
  /-- The value that was there before, if any. -/
  | value (value? : Option α)
  /-- Nothing to tell. -/
  | done

/-- Carries out one change. -/
def apply (arena : Arena α) : Op α → Except Fault (Answer α × Arena α)
  | .insert value => (arena.insert value).map fun (slot, arena) => (.slot slot, arena)
  | .remove slot => (arena.remove slot).map fun (value?, arena) => (.value value?, arena)
  | .replace slot value => let (old?, arena) := arena.replace slot value; .ok (.value old?, arena)
  | .clear => .ok (.done, ∅)

/-- The arena after a list of changes. A change that meets a fault is left out. -/
def run (arena : Arena α) (ops : List (Op α)) : Arena α :=
  ops.foldl (fun arena op => (arena.apply op).toOption.elim arena (·.2)) arena

end Arena

end FrameKeep
