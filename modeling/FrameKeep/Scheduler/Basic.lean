import FrameKeep.Cache.Op
import FrameKeep.Scheduler.Plan
import FrameKeep.Source

/-!
# Frame scheduler

A scheduler stands between the workers that want frames and the source that produces them, with a
cache in front of the source. A request has two phases. The first serves the frame from the cache,
or asks the source for it and perhaps for the frames skipped since the previous request. The second
fetches everything that was asked for, keeps it in the cache and serves the frame.
-/

namespace FrameKeep

/-- A scheduler without its cache: its settings, the previous request and the source. -/
structure Controller (σ φ ε : Type) where
  config : Config
  /-- The last frame that was not served from the cache. -/
  last : Option FrameIndex := none
  feed : Feed σ φ ε

/-- A scheduler with its cache. -/
structure Scheduler (σ φ ε : Type) extends Controller σ φ ε where
  cache : Cache FrameIndex φ

namespace Scheduler

variable {σ φ ε : Type}

/-- Uses the cache of the scheduler. -/
def onCache {α : Type} (scheduler : Scheduler σ φ ε)
    (operation : Cache FrameIndex φ → Step (Cache FrameIndex φ) α) :
    Step (Scheduler σ φ ε) α :=
  (operation scheduler.cache).within fun cache => { scheduler with cache }

/-- Uses the source of the scheduler, other than by requesting and fetching frames. -/
def onSource {α : Type} (scheduler : Scheduler σ φ ε) (operation : σ → α × σ) :
    Step (Scheduler σ φ ε) α :=
  let (answer, source) := operation scheduler.feed.source
  .done answer { scheduler with feed := { scheduler.feed with source } }

variable [FrameSource σ φ ε]

/-- The first phase of a request. -/
def initial (scheduler : Scheduler σ φ ε) (frame : FrameIndex) :
    Step (Scheduler σ φ ε) (Activation φ) :=
  let (payload?, cache) := scheduler.cache.get frame
  match payload? with
  | some payload => .done (.ready payload) { scheduler with cache }
  | none =>
    let pending := scheduler.config.plan scheduler.last frame
    { result := .ok (.pending pending)
      state :=
        { scheduler with
          cache
          last := some frame
          feed := scheduler.feed.requestAll pending.requested }
      notices := if pending.isBatch then [.batched frame pending.first] else [] }

/-- The frames among the answers of a source. -/
def successes (answers : List (FrameIndex × Except ε φ)) : List (FrameIndex × φ) :=
  answers.filterMap fun (frame, answer) => answer.toOption.map (frame, ·)

/-- A notice for each failure among the answers of a source. -/
def failureNotices [ToString ε] (answers : List (FrameIndex × Except ε φ)) : List Notice :=
  answers.filterMap fun (frame, answer) =>
    match answer with
    | .ok _ => none
    | .error reason => some (.prefetchFailed frame (toString reason))

/-- The second phase of a request. A frame fetched ahead that fails is passed over; the others are
kept even if the wanted frame fails, whose failure is the answer. -/
def ready [ToString ε] (scheduler : Scheduler σ φ ε) (pending : Pending) :
    Step (Scheduler σ φ ε) (Except ε φ) :=
  let (answers, feed) := scheduler.feed.fetchAll pending.prefetch
  let notices := failureNotices answers
  match scheduler.cache.insertAll (successes answers) with
  | .error fault => { result := .error fault, state := { scheduler with feed }, notices }
  | .ok cache =>
    let (answer, feed) := feed.fetch pending.frame
    let fetched := { scheduler with cache, feed }
    match answer with
    | .error reason => { result := .ok (.error reason), state := fetched, notices }
    | .ok payload =>
      match cache.insert pending.frame payload with
      | .error fault => { result := .error fault, state := fetched, notices }
      | .ok cache => { result := .ok (.ok payload), state := { fetched with cache }, notices }

/-- Both phases of a request, one right after the other. -/
def getFrame [ToString ε] (scheduler : Scheduler σ φ ε) (frame : FrameIndex) :
    Step (Scheduler σ φ ε) (Except ε φ) :=
  (scheduler.initial frame).andThen fun activation scheduler =>
    match activation with
    | .ready payload => .done (.ok payload) scheduler
    | .pending pending => scheduler.ready pending

end Scheduler

/-- A scheduler in words, without its cache. -/
def Controller.describe {σ φ ε : Type} [ToString σ] (controller : Controller σ φ ε) : String :=
  let source := toString controller.feed.source
  let last := controller.last.elim "None" fun frame => s!"Some({frame})"
  s!"FrameScheduler \x7b source: {source}, config: {controller.config.describe}, "
    ++ s!"last_requested: {last} \x7d"

end FrameKeep
