import FrameKeep.Fault

/-!
# Counts of 64 bits

Counters and capacities are natural numbers. Where a result has to fit a 64-bit count, the
operation either refuses it (`add?`, `mul?`, `succ?`, `pred?`) or stops at the largest count
(`addSaturating`, `mulSaturating`).
-/

namespace FrameKeep.Count

/-- The number of 64-bit counts; the largest of them is `limit - 1`. -/
def limit : Nat := UInt64.size

/-- The sum, if it is a 64-bit count. -/
def add? (a b : Nat) : Except Fault Nat :=
  if a + b < limit then .ok (a + b) else .error .sumTooLarge

/-- The product, if it is a 64-bit count. -/
def mul? (a b : Nat) : Except Fault Nat :=
  if a * b < limit then .ok (a * b) else .error .productTooLarge

/-- One more, if that is a 64-bit count. -/
def succ? (a : Nat) : Except Fault Nat := add? a 1

/-- One less, unless nothing is left to take away. -/
def pred? : Nat → Except Fault Nat
  | 0 => .error .belowZero
  | n + 1 => .ok n

/-- A checked sum is the sum, and there is one exactly below the limit. -/
theorem add?_eq_ok_iff {a b c : Nat} : add? a b = .ok c ↔ a + b < limit ∧ a + b = c := by
  unfold add?
  split <;> grind

/-- Counting one more succeeds below the limit. -/
theorem succ?_eq_ok {a : Nat} (small : a + 1 < limit) : succ? a = .ok (a + 1) :=
  add?_eq_ok_iff.mpr ⟨small, rfl⟩

/-- Counting one less succeeds on exactly the positive counts. -/
theorem pred?_eq_ok_iff {a b : Nat} : pred? a = .ok b ↔ a = b + 1 := by
  cases a <;> simp [pred?]

/-- The sum, or the largest count if the sum exceeds it. -/
def addSaturating (a b : Nat) : Nat := min (a + b) (limit - 1)

/-- The product, or the largest count if the product exceeds it. -/
def mulSaturating (a b : Nat) : Nat := min (a * b) (limit - 1)

/-- Below the limit a saturating sum is the sum. -/
theorem addSaturating_eq {a b : Nat} (small : a + b < limit) : addSaturating a b = a + b :=
  Nat.min_eq_left (Nat.le_sub_one_of_lt small)

/-- Below the limit a saturating product is the product. -/
theorem mulSaturating_eq {a b : Nat} (small : a * b < limit) : mulSaturating a b = a * b :=
  Nat.min_eq_left (Nat.le_sub_one_of_lt small)

end FrameKeep.Count
