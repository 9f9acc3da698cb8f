import FrameKeep.Proofs.Cache.Answers
import FrameKeep.Proofs.Scheduler.Window
import FrameKeep.Proofs.Source
import FrameKeep.Scheduler.Basic

/-!
# Phases

Whatever is done with a scheduler is made up of three moves: it uses its cache, asks its source for
the frames of a plan, or collects the frames of a pending request. The lemmas say of each phase
which moves it makes and what it answers. A second phase never faults, and fetches exactly the
frames that the first phase has asked for.
-/

namespace FrameKeep

namespace Cache

variable {κ ν : Type} [DecidableEq κ] [Hashable κ]

/-- The operations that store one payload after the other. -/
def insertions (stored : List (κ × ν)) : List (Op κ ν) :=
  stored.map fun (key, payload) => .insert key payload

namespace Consistent

variable {cache : Cache κ ν}

private theorem insert_eq_perform (consistent : cache.Consistent) (key : κ) (payload : ν) :
    cache.insert key payload = .ok (cache.perform (.insert key payload)).state := by
  obtain ⟨cells, arranged⟩ := consistent.arranged
  obtain ⟨after, -, inserted, -, -⟩ := arranged.exists_insert key payload
  simp only [Cache.perform, Cache.quietly, inserted]
  rfl

/-- Storing payloads never faults. -/
theorem insertAll_eq_run (consistent : cache.Consistent) (stored : List (κ × ν)) :
    cache.insertAll stored = .ok (cache.run (insertions stored)) := by
  induction stored generalizing cache with
  | nil => rfl
  | cons first rest ih =>
    obtain ⟨key, payload⟩ := first
    rw [insertAll, consistent.insert_eq_perform]
    exact ih (consistent.perform (.insert key payload))

end Consistent

end Cache

namespace Scheduler

variable {σ φ ε : Type}

/-- A scheduler in front of a source of which nothing was asked yet. -/
def start (config : Config) (source : σ) (cache : Cache FrameIndex φ) : Scheduler σ φ ε :=
  { config, feed := { source }, cache }

/-- The scheduler after an operation on its cache. -/
def use (scheduler : Scheduler σ φ ε) (op : Cache.Op FrameIndex φ) : Scheduler σ φ ε :=
  { scheduler with cache := (scheduler.cache.perform op).state }

/-- The cache of the scheduler holds this payload of the frame. -/
def Serves (scheduler : Scheduler σ φ ε) (frame : FrameIndex) (payload : φ) : Prop :=
  { key := frame, payload := some payload } ∈ scheduler.cache.entries

/-- What came back of a frame is the payload that its fetch was answered with. -/
theorem mem_successes {answers : List (FrameIndex × Except ε φ)} {frame : FrameIndex}
    {payload : φ} : (frame, payload) ∈ successes answers ↔ (frame, .ok payload) ∈ answers := by
  rw [successes, List.mem_filterMap]
  constructor
  · rintro ⟨⟨other, reason | held⟩, member, came⟩
    · simp [Except.toOption] at came
    · obtain ⟨rfl, rfl⟩ : other = frame ∧ held = payload := by simpa [Except.toOption] using came
      exact member
  · intro member
    exact ⟨_, member, rfl⟩

/-- A failure adds nothing to what came back. -/
theorem successes_concat_error (answers : List (FrameIndex × Except ε φ)) (frame : FrameIndex)
    (reason : ε) : successes (answers ++ [(frame, .error reason)]) = successes answers := by
  simp [successes, Except.toOption]

/-- What came back is in the order in which it was fetched. -/
theorem map_fst_successes_sublist (answers : List (FrameIndex × Except ε φ)) :
    ((successes answers).map (·.1)).Sublist (answers.map (·.1)) := by
  induction answers with
  | nil => exact .slnil
  | cons first rest ih =>
    obtain ⟨frame, reason | payload⟩ := first
    · exact ih.cons frame
    · exact ih.cons_cons frame

/-- What the scheduler would ask for on behalf of a frame. -/
def plan (scheduler : Scheduler σ φ ε) (frame : FrameIndex) : Pending :=
  scheduler.config.plan scheduler.last frame

@[simp] theorem feed_use (scheduler : Scheduler σ φ ε) (op : Cache.Op FrameIndex φ) :
    (scheduler.use op).feed = scheduler.feed := rfl

@[simp] theorem plan_use (scheduler : Scheduler σ φ ε) (op : Cache.Op FrameIndex φ)
    (frame : FrameIndex) : (scheduler.use op).plan frame = scheduler.plan frame := rfl

variable [FrameSource σ φ ε]

/-- The scheduler once it has asked for a frame. -/
def ask (scheduler : Scheduler σ φ ε) (frame : FrameIndex) : Scheduler σ φ ε :=
  { scheduler with
    last := some frame
    feed := scheduler.feed.requestAll (scheduler.plan frame).requested }

/-- The scheduler once it has fetched all that a pending request asked for, and has kept what it
got. -/
def collect (scheduler : Scheduler σ φ ε) (pending : Pending) : Scheduler σ φ ε :=
  let (answers, feed) := scheduler.feed.fetchAll pending.requested
  { scheduler with
    feed
    cache := scheduler.cache.run (Cache.insertions (successes answers)) }

/-! ### Moves and the log -/

/-- Asking for a frame adds the requests of its plan to the log. -/
theorem calls_ask (scheduler : Scheduler σ φ ε) (frame : FrameIndex) :
    (scheduler.ask frame).feed.calls.toList =
      scheduler.feed.calls.toList ++ (scheduler.plan frame).requested.map .request :=
  Feed.calls_requestAll ..

@[simp] theorem requests_ask (scheduler : Scheduler σ φ ε) (frame : FrameIndex) :
    (scheduler.ask frame).feed.requests =
      scheduler.feed.requests ++ (scheduler.plan frame).requested :=
  Feed.requests_requestAll ..

@[simp] theorem fetches_ask (scheduler : Scheduler σ φ ε) (frame : FrameIndex) :
    (scheduler.ask frame).feed.fetches = scheduler.feed.fetches :=
  Feed.fetches_requestAll ..

/-- What is collected is fetched in the order in which it was asked for, whether or not some of it
cannot be had. -/
theorem exists_calls_collect (scheduler : Scheduler σ φ ε) (pending : Pending) :
    ∃ answers, answers.map (·.1) = pending.requested ∧
      (scheduler.collect pending).feed.calls.toList =
        scheduler.feed.calls.toList ++ fetchCalls answers :=
  ⟨_, Feed.map_fst_fetchAll .., Feed.calls_fetchAll ..⟩

@[simp] theorem requests_collect (scheduler : Scheduler σ φ ε) (pending : Pending) :
    (scheduler.collect pending).feed.requests = scheduler.feed.requests :=
  Feed.requests_fetchAll ..

@[simp] theorem fetches_collect (scheduler : Scheduler σ φ ε) (pending : Pending) :
    (scheduler.collect pending).feed.fetches = scheduler.feed.fetches ++ pending.requested :=
  Feed.fetches_fetchAll ..

/-- Asking for a frame takes nothing out of the log. -/
theorem prefix_calls_ask (scheduler : Scheduler σ φ ε) (frame : FrameIndex) :
    scheduler.feed.calls.toList <+: (scheduler.ask frame).feed.calls.toList :=
  ⟨_, (scheduler.calls_ask frame).symm⟩

/-- Collecting a pending request takes nothing out of the log. -/
theorem prefix_calls_collect (scheduler : Scheduler σ φ ε) (pending : Pending) :
    scheduler.feed.calls.toList <+: (scheduler.collect pending).feed.calls.toList := by
  obtain ⟨answers, -, calls⟩ := scheduler.exists_calls_collect pending
  exact ⟨_, calls.symm⟩

/-! ### What a collection keeps -/

/-- Frames are stored after all of them are fetched. For what was delivered last, each of them might
as well be stored before the next one is fetched, so it is enough to look at one insertion. -/
theorem fetchAll_induction {cache : Cache FrameIndex φ} {feed : Feed σ φ ε}
    (consistent : cache.Consistent) (holds : Cache FrameIndex φ → (FrameIndex → Option φ) → Prop)
    {frames : List FrameIndex} (initial : holds cache feed.latest?)
    (stored : ∀ {cache latest later frame payload}, cache.Consistent → frame ∈ frames →
      holds cache latest → later frame = some payload →
      (∀ other, other ≠ frame → later other = latest other) →
      holds (cache.perform (.insert frame payload)).state later) :
    holds (cache.run (Cache.insertions (successes (feed.fetchAll frames).1)))
      (feed.fetchAll frames).2.latest? := by
  induction frames generalizing cache feed with
  | nil => exact initial
  | cons frame rest ih =>
    rw [Feed.fetchAll_cons]
    have delivered := feed.latest?_fetch frame
    have storedRest : ∀ {cache latest later frame payload}, cache.Consistent → frame ∈ rest →
        holds cache latest → later frame = some payload →
        (∀ other, other ≠ frame → later other = latest other) →
        holds (cache.perform (.insert frame payload)).state later :=
      fun consistent member => stored consistent (List.mem_cons_of_mem _ member)
    cases answered : (feed.fetch frame).1 with
    | error reason =>
      have same : (feed.fetch frame).2.latest? = feed.latest? := by
        funext other
        rw [delivered, answered]
        rfl
      exact ih consistent (same ▸ initial) storedRest
    | ok payload =>
      have next : holds (cache.perform (.insert frame payload)).state
          (feed.fetch frame).2.latest? := by
        apply stored consistent List.mem_cons_self initial
        · simp [delivered, answered, Call.delivered?]
        · intro other apart
          simp [delivered, answered, Call.delivered?, Ne.symm apart]
      exact ih (consistent.perform _) next storedRest

/-! ### Phases as moves -/

variable {scheduler : Scheduler σ φ ε} {frame : FrameIndex}

/-- A live frame is served from the cache. -/
theorem initial_of_live (consistent : scheduler.cache.Consistent) {payload : φ}
    (live : scheduler.Serves frame payload) :
    scheduler.initial frame = .done (.ready payload) (scheduler.use (.get frame)) := by
  have served : (scheduler.cache.get frame).1 = some payload := consistent.get_eq_some_iff.mpr live
  simp only [initial, served]
  rfl

/-- A frame that is not live is asked for. -/
theorem initial_of_idle (consistent : scheduler.cache.Consistent)
    (idle : ∀ payload, ¬ scheduler.Serves frame payload) :
    (scheduler.initial frame).result = .ok (.pending (scheduler.plan frame)) ∧
      (scheduler.initial frame).state = (scheduler.use (.get frame)).ask frame := by
  have missed : (scheduler.cache.get frame).1 = none := by
    apply Option.eq_none_iff_forall_ne_some.mpr
    intro payload served
    exact idle payload (consistent.get_eq_some_iff.mp served)
  simp only [initial, missed]
  exact ⟨rfl, rfl⟩

variable [ToString ε]

/-- A second phase collects what was asked for, and answers with the last of it. -/
theorem exists_ready_eq_collect (consistent : scheduler.cache.Consistent) (pending : Pending) :
    ∃ answers answer,
      (scheduler.feed.fetchAll pending.requested).1 = answers ++ [(pending.frame, answer)] ∧
      (scheduler.ready pending).result = .ok answer ∧
      (scheduler.ready pending).state = scheduler.collect pending := by
  rcases ahead : scheduler.feed.fetchAll pending.prefetch with ⟨answers, between⟩
  rcases wanted : between.fetch pending.frame with ⟨answer, after⟩
  have all : scheduler.feed.fetchAll pending.requested =
      (answers ++ [(pending.frame, answer)], after) := by
    rw [← pending.prefetch_concat_frame, Feed.fetchAll_concat, ahead, wanted]
  have kept := consistent.insertAll_eq_run (successes answers)
  have keptConsistent := consistent.run (Cache.insertions (successes answers))
  refine ⟨answers, answer, congrArg Prod.fst all, ?_, ?_⟩
  · cases answer with
    | error reason => simp only [ready, ahead, kept, wanted]
    | ok payload => simp only [ready, ahead, kept, wanted, keptConsistent.insert_eq_perform]
  · cases answer with
    | error reason =>
      simp only [ready, ahead, kept, wanted, collect, all, successes_concat_error]
    | ok payload =>
      have oneMore : scheduler.cache.run
            (Cache.insertions (successes (answers ++ [(pending.frame, .ok payload)]))) =
          ((scheduler.cache.run (Cache.insertions (successes answers))).perform
            (.insert pending.frame payload)).state := by
        rw [successes, List.filterMap_append, Cache.insertions, List.map_append]
        exact Cache.run_concat ..
      simp only [ready, ahead, kept, wanted, keptConsistent.insert_eq_perform, collect, all,
        oneMore]

/-- The log of a second phase goes on with the frames that were asked for. -/
theorem exists_ready (consistent : scheduler.cache.Consistent) (pending : Pending) :
    ∃ answers answer,
      (scheduler.ready pending).result = .ok answer ∧
      (scheduler.ready pending).state = scheduler.collect pending ∧
      (answers ++ [(pending.frame, answer)]).map (·.1) = pending.requested ∧
      (scheduler.collect pending).feed.calls.toList =
        scheduler.feed.calls.toList ++ fetchCalls (answers ++ [(pending.frame, answer)]) := by
  obtain ⟨answers, answer, all, result, state⟩ := exists_ready_eq_collect consistent pending
  have frames := Feed.map_fst_fetchAll scheduler.feed pending.requested
  have calls := Feed.calls_fetchAll scheduler.feed pending.requested
  rw [all] at frames calls
  exact ⟨answers, answer, result, state, frames, calls⟩

/-- Both phases serve a live frame from the cache. -/
theorem getFrame_of_live (consistent : scheduler.cache.Consistent) {payload : φ}
    (live : scheduler.Serves frame payload) :
    scheduler.getFrame frame = .done (.ok payload) (scheduler.use (.get frame)) := by
  rw [getFrame, initial_of_live consistent live]
  rfl

/-- Both phases ask for a frame that is not live, and then collect what they asked for. -/
theorem getFrame_of_idle (consistent : scheduler.cache.Consistent)
    (idle : ∀ payload, ¬ scheduler.Serves frame payload) :
    (scheduler.getFrame frame).result =
        (((scheduler.use (.get frame)).ask frame).ready (scheduler.plan frame)).result ∧
      (scheduler.getFrame frame).state =
        (((scheduler.use (.get frame)).ask frame).ready (scheduler.plan frame)).state := by
  obtain ⟨result, state⟩ := initial_of_idle consistent idle
  simp only [getFrame, Step.andThen, result, state, and_self]

end Scheduler

end FrameKeep
