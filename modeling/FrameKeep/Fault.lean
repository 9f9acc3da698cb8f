/-!
# Faults and rejected settings

A `ConfigError` is an answer: the caller's settings were read and refused. A `Fault` is not an
answer: the operation that meets one stops where it stands, and the sequence it belongs to goes on
from the state it left. Both are kept as causes, and the wording of each cause is written once.
-/

namespace FrameKeep

/-- Why the settings of a cache node are refused. -/
inductive ConfigError where
  /-- A node needs at least one worker. -/
  | noWorkers
  /-- A live capacity cannot be negative. -/
  | negativeSize (size : Int)
  /-- A reason given in the caller's own words. -/
  | custom (reason : String)
  deriving DecidableEq, Repr

namespace ConfigError

/-- The wording of a refusal; it is also the form in which one is displayed. -/
def message : ConfigError → String
  | noWorkers => "worker_count must be greater than zero"
  | negativeSize size => s!"size must be >= 0, got {size}"
  | custom reason => reason

instance : ToString ConfigError := ⟨message⟩

end ConfigError

/-- A broken representation rule, described in words. -/
structure InvariantError where
  message : String
  deriving DecidableEq, Repr

instance : ToString InvariantError := ⟨InvariantError.message⟩

/-- Why an operation stopped without an answer. -/
inductive Fault where
  /-- A sum left the range of a 64-bit count. -/
  | sumTooLarge
  /-- A product left the range of a 64-bit count. -/
  | productTooLarge
  /-- A count would have become negative. -/
  | belowZero
  /-- A recycled slot lies past the `size` slots in use. -/
  | slotOutOfBounds (slot size : Nat)
  /-- More slots were to be reserved than can be addressed. -/
  | capacityTooLarge
  /-- Settings were refused where the caller had promised valid ones. -/
  | rejected (error : ConfigError)
  deriving DecidableEq, Repr

/-- The wording of a fault. -/
def Fault.message : Fault → String
  | sumTooLarge => "attempt to add with overflow"
  | productTooLarge => "attempt to multiply with overflow"
  | belowZero => "attempt to subtract with overflow"
  | slotOutOfBounds slot size => s!"index out of bounds: the len is {size} but the index is {slot}"
  | capacityTooLarge => "capacity overflow"
  | rejected error => error.message

end FrameKeep
