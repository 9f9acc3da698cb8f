import FrameKeep.FrameIndex

/-!
# Frame sources

A source produces frames on request. Requesting a frame only announces that it will be wanted;
fetching it answers with the frame or with a failure, and may answer differently every time. A
`Feed` is a source together with the calls made to it so far.
-/

namespace FrameKeep

/-- A source with states in `σ` that produces frames of type `φ` and fails with an `ε`. -/
class FrameSource (σ : Type) (φ ε : outParam Type) where
  /-- Announces that a frame will be wanted. -/
  request : FrameIndex → σ → σ
  /-- Produces a frame, or fails to. -/
  fetch : FrameIndex → σ → Except ε φ × σ

/-- A call made to a source. -/
inductive Call (φ ε : Type) where
  | request (frame : FrameIndex)
  | fetch (frame : FrameIndex) (answer : Except ε φ)

/-- The frame that a call announces. -/
def Call.requested? {φ ε : Type} : Call φ ε → Option FrameIndex
  | request frame => some frame
  | fetch .. => none

/-- The frame that a call asks to produce. -/
def Call.fetched? {φ ε : Type} : Call φ ε → Option FrameIndex
  | request _ => none
  | fetch frame _ => some frame

/-- A source and the calls made to it so far, in order. -/
structure Feed (σ φ ε : Type) where
  source : σ
  calls : Array (Call φ ε) := #[]

namespace Feed

variable {σ φ ε : Type}

/-- The frames requested so far, in order. -/
def requests (feed : Feed σ φ ε) : List FrameIndex :=
  feed.calls.toList.filterMap Call.requested?

/-- The frames fetched so far, in order, failures included. -/
def fetches (feed : Feed σ φ ε) : List FrameIndex :=
  feed.calls.toList.filterMap Call.fetched?

variable [FrameSource σ φ ε]

/-- Requests one frame. -/
def request (feed : Feed σ φ ε) (frame : FrameIndex) : Feed σ φ ε :=
  { source := FrameSource.request frame feed.source
    calls := feed.calls.push (.request frame) }

/-- Requests one frame after the other. -/
def requestAll (feed : Feed σ φ ε) (frames : List FrameIndex) : Feed σ φ ε :=
  frames.foldl request feed

/-- Fetches one frame. -/
def fetch (feed : Feed σ φ ε) (frame : FrameIndex) : Except ε φ × Feed σ φ ε :=
  let (answer, source) := FrameSource.fetch frame feed.source
  (answer, { source, calls := feed.calls.push (.fetch frame answer) })

/-- Fetches one frame after the other and collects the answers. -/
def fetchAll : List FrameIndex → Feed σ φ ε →
    List (FrameIndex × Except ε φ) × Feed σ φ ε
  | [], feed => ([], feed)
  | frame :: rest, feed =>
    let (answer, feed) := feed.fetch frame
    let (answers, feed) := fetchAll rest feed
    ((frame, answer) :: answers, feed)

end Feed

/-- A source for trying things out. It labels each frame with its index and with the number of
fetches before it, and fails for the frames that are marked broken. -/
structure LabelSource where
  broken : List FrameIndex := []
  fetches : Nat := 0

namespace LabelSource

instance : ToString LabelSource := ⟨fun _ => "Src"⟩

/-- Labels a frame, or reports its failure. -/
def fetch (frame : FrameIndex) (source : LabelSource) : Except String String × LabelSource :=
  let answer :=
    if frame ∈ source.broken then .error s!"frame {frame} failed"
    else .ok s!"{frame}@{source.fetches}"
  (answer, { source with fetches := source.fetches + 1 })

instance : FrameSource LabelSource String String where
  request _ source := source
  fetch := fetch

/-- Marks a frame as broken, and answers whether it was not yet. -/
def breakFrame (source : LabelSource) (frame : FrameIndex) : Bool × LabelSource :=
  (frame ∉ source.broken, { source with broken := source.broken.insert frame })

/-- Marks a frame as whole again, and answers whether it was broken. -/
def fixFrame (source : LabelSource) (frame : FrameIndex) : Bool × LabelSource :=
  (frame ∈ source.broken, { source with broken := source.broken.filter (· ≠ frame) })

end LabelSource

end FrameKeep
