import FrameKeep.Notice

/-!
# Steps

A step is what one operation leaves behind. A fault ends the operation but not the life of the
state it worked on, so a step has a state in every case, and the notices raised before the fault
were raised.
-/

namespace FrameKeep

/-- The outcome of an operation on a state of type `σ` that answers with an `α`. -/
structure Step (σ α : Type) where
  /-- The answer, or the fault that ended the operation. -/
  result : Except Fault α
  /-- The state afterwards. -/
  state : σ
  /-- The notices raised, in order. -/
  notices : List Notice := []

namespace Step

variable {σ τ α β : Type}

/-- The step that answers and raises no notice. -/
def done (answer : α) (state : σ) : Step σ α := { result := .ok answer, state }

/-- The step of an operation that changes `before` only if no fault arises. -/
def ofExcept (before : σ) : Except Fault (α × σ) → Step σ α
  | .ok (answer, state) => done answer state
  | .error fault => { result := .error fault, state := before }

/-- Changes the answer. -/
def map (f : α → β) (step : Step σ α) : Step σ β := { step with result := step.result.map f }

/-- Puts the state back into what it is a part of. -/
def within (embed : σ → τ) (step : Step σ α) : Step τ α := { step with state := embed step.state }

/-- Goes on with another operation, unless a fault arose. -/
def andThen (step : Step σ α) (next : α → σ → Step σ β) : Step σ β :=
  match step.result with
  | .error fault => { step with result := .error fault }
  | .ok answer =>
    let after := next answer step.state
    { after with notices := step.notices ++ after.notices }

/-- Runs operations one after the other and collects their answers; a fault ends the run. -/
def runAll : List (σ → Step σ α) → σ → Step σ (List α)
  | [], state => done [] state
  | operation :: rest, state =>
    (operation state).andThen fun answer state => (runAll rest state).map (answer :: ·)

end Step

end FrameKeep
