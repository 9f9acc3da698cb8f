import Mathlib.Data.List.Basic
import Mathlib.Order.Bounds.Basic

/-!
# High-water marks

A level is read off the operations done so far, and some operations reset what is remembered of it.
The high-water mark is the highest level since the last reset, that right after the reset included.
One more operation raises the mark to the new level at most, or starts it afresh there.
-/

namespace FrameKeep

variable {ω : Type}

/-- The levels that there were along the operations since the last of them that was a reset. -/
def levelsSince (level : List ω → Nat) (resets : List ω → ω → Prop) (ops : List ω) : Set Nat :=
  { height | ∃ earlier later, ops = earlier ++ later ∧
      (∀ before op after, later = before ++ op :: after → ¬ resets (earlier ++ before) op) ∧
      level earlier = height }

/-- The highest level since the last reset. -/
def HighWater (level : List ω → Nat) (resets : List ω → ω → Prop) (ops : List ω) (mark : Nat) :
    Prop :=
  IsGreatest (levelsSince level resets ops) mark

variable {level : List ω → Nat} {resets : List ω → ω → Prop} {ops : List ω} {op : ω}

/-- The present level is always counted. -/
theorem mem_levelsSince (level : List ω → Nat) (resets : List ω → ω → Prop) (ops : List ω) :
    level ops ∈ levelsSince level resets ops :=
  ⟨ops, [], (List.append_nil ops).symm, by simp, rfl⟩

/-- A moment before the last operation is since the last reset if it was so before, and the last
operation is none. -/
theorem mem_levelsSince_concat {height : Nat} :
    height ∈ levelsSince level resets (ops ++ [op]) ↔
      height = level (ops ++ [op]) ∨ ¬ resets ops op ∧ height ∈ levelsSince level resets ops := by
  constructor
  · rintro ⟨earlier, later, split, kept, rfl⟩
    rcases later.eq_nil_or_concat with rfl | ⟨before, last, rfl⟩
    · rw [List.append_nil] at split
      exact .inl (congrArg level split.symm)
    · rw [List.concat_eq_append, ← List.append_assoc] at split
      obtain ⟨rfl, same⟩ := List.append_inj' split rfl
      obtain rfl : op = last := List.singleton_inj.mp same
      refine .inr ⟨kept before op [] (by simp), earlier, before, rfl, ?_, rfl⟩
      rintro first other after rfl
      exact kept first other (after ++ [op]) (by simp)
  · rintro (rfl | ⟨keeps, earlier, later, rfl, kept, rfl⟩)
    · exact mem_levelsSince level resets (ops ++ [op])
    · refine ⟨earlier, later ++ [op], List.append_assoc .., ?_, rfl⟩
      intro before other after split
      rcases after.eq_nil_or_concat with rfl | ⟨between, last, rfl⟩
      · obtain ⟨rfl, same⟩ := List.append_inj' split rfl
        obtain rfl : op = other := List.singleton_inj.mp same
        exact keeps
      · rw [List.concat_eq_append, ← List.cons_append, ← List.append_assoc] at split
        exact kept before other between (List.append_inj' split rfl).1

namespace HighWater

variable {mark : Nat}

/-- The level reached last is at most the mark. -/
theorem level_le (highWater : HighWater level resets ops mark) : level ops ≤ mark :=
  highWater.2 (mem_levelsSince level resets ops)

/-- Before the first operation the mark is the level the history starts at. -/
theorem nil (level : List ω → Nat) (resets : List ω → ω → Prop) :
    HighWater level resets [] (level []) := by
  constructor
  · exact mem_levelsSince level resets []
  · rintro height ⟨earlier, later, split, -, rfl⟩
    obtain ⟨rfl, -⟩ := List.append_eq_nil_iff.mp split.symm
    exact Nat.le_refl _

/-- A reset starts the mark afresh. -/
theorem of_resets (reset : resets ops op) :
    HighWater level resets (ops ++ [op]) (level (ops ++ [op])) := by
  constructor
  · exact mem_levelsSince level resets (ops ++ [op])
  · intro height member
    rcases mem_levelsSince_concat.mp member with rfl | ⟨keeps, -⟩
    · exact Nat.le_refl _
    · exact absurd reset keeps

/-- Any other operation leaves the mark where it is, or raises it to the new level. -/
theorem concat (highWater : HighWater level resets ops mark) (keeps : ¬ resets ops op) :
    HighWater level resets (ops ++ [op]) (max (level (ops ++ [op])) mark) := by
  have grown : levelsSince level resets (ops ++ [op]) =
      insert (level (ops ++ [op])) (levelsSince level resets ops) := by
    ext height
    rw [mem_levelsSince_concat, Set.mem_insert_iff]
    simp only [keeps, not_false_eq_true, true_and]
  rw [HighWater, grown]
  exact IsGreatest.insert _ highWater

/-- A level that never changes is its own mark. -/
theorem eq_of_constant (highWater : HighWater level resets ops mark) {height : Nat}
    (constant : ∀ earlier later, ops = earlier ++ later → level earlier = height) :
    mark = height := by
  obtain ⟨earlier, later, split, -, reached⟩ := highWater.1
  rw [← reached, constant earlier later split]

end HighWater

end FrameKeep
