/-!
# What a look-up finds

A cache remembers the keys of some payloads that it has given up. A look-up therefore has three
outcomes: the payload is there, only its key is remembered, or the key is unknown.
-/

namespace FrameKeep

/-- The outcome of looking up a key. -/
inductive Lookup (ν : Type) where
  /-- The payload is held. -/
  | hit (payload : ν)
  /-- The key is remembered, but its payload was given up. -/
  | nearMiss
  /-- The key is unknown. -/
  | farMiss
  deriving DecidableEq, Repr

namespace Lookup

variable {ν : Type}

/-- The payload of a hit. -/
def payload? : Lookup ν → Option ν
  | hit payload => some payload
  | nearMiss | farMiss => none

/-- The outcome for a remembered key with the payload that it holds, if any. -/
def ofRemembered : Option ν → Lookup ν
  | some payload => hit payload
  | none => nearMiss

/-- Whether there was a payload. -/
def isHit : Lookup ν → Bool
  | hit _ => true
  | nearMiss | farMiss => false

/-- Whether the key was remembered without its payload. -/
def isNearMiss : Lookup ν → Bool
  | nearMiss => true
  | hit _ | farMiss => false

/-- Whether the key was unknown. -/
def isFarMiss : Lookup ν → Bool
  | farMiss => true
  | hit _ | nearMiss => false

/-- The name of the outcome. -/
def name : Lookup ν → String
  | hit _ => "Hit"
  | nearMiss => "NearMiss"
  | farMiss => "FarMiss"

end Lookup

end FrameKeep
