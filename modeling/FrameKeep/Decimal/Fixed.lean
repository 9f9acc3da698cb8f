/-!
# Decimals with a fixed number of places

A double is a significand times a power of two. Its decimal with a given number of places is the
nearest one to that exact value, and a value halfway between two of them goes to the even one.
-/

namespace FrameKeep.Decimal

/-- The whole number nearest to `num / den`; halfway between two it is the even one. -/
def roundDiv (num den : Nat) : Nat :=
  if 2 * (num % den) < den ∨ 2 * (num % den) = den ∧ num / den % 2 = 0 then num / den
  else num / den + 1

/-- The rounded quotient is at most half a unit above the exact one. -/
theorem roundDiv_mul_le (num den : Nat) : 2 * (roundDiv num den * den) ≤ 2 * num + den := by
  have exact := Nat.div_add_mod' num den
  unfold roundDiv
  split
  · omega
  · rw [Nat.add_mul]
    omega

/-- The rounded quotient is at most half a unit below the exact one. -/
theorem le_roundDiv_mul (num : Nat) {den : Nat} (positive : 0 < den) :
    2 * num ≤ 2 * (roundDiv num den * den) + den := by
  have exact := Nat.div_add_mod' num den
  have small := Nat.mod_lt num positive
  unfold roundDiv
  split
  · omega
  · rw [Nat.add_mul]
    omega

/-- A quotient halfway between two whole numbers goes to the even one. -/
theorem even_roundDiv_of_half {num den : Nat} (half : 2 * (num % den) = den) :
    roundDiv num den % 2 = 0 := by
  unfold roundDiv
  split <;> omega

/-- The significand and the power of two of a finite double that is not negative. -/
def significandExponent (x : Float) : Nat × Int :=
  let bits := x.toBits.toNat
  let exponent : Nat := (bits >>> 52) % (1 <<< 11)
  let fraction := bits % (1 <<< 52)
  if exponent = 0 then (fraction, -1074) else (fraction + (1 <<< 52), (exponent : Int) - 1075)

/-- A number of units of the last place, written with `places` places. -/
def renderUnits (places units : Nat) : String :=
  let fraction := toString (units % Nat.pow 10 places)
  toString (units / Nat.pow 10 places) ++ "." ++ "".pushn '0' (places - fraction.length) ++ fraction

/-- A finite double that is not negative, written with `places` places. -/
def renderFixed (places : Nat) (x : Float) : String :=
  let (significand, exponent) := significandExponent x
  renderUnits places <|
    roundDiv ((significand * Nat.pow 10 places) <<< exponent.toNat) (1 <<< (-exponent).toNat)

end FrameKeep.Decimal
