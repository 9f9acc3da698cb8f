import FrameKeep.Proofs.Cache.Batch
import FrameKeep.Proofs.Host.Nodes
import FrameKeep.Proofs.Host.Trace

/-!
# Batches are held

The default capacity of a node that linearizes has room for every batch that its scheduler asks for.
So a batch that is fetched without a failure is live as a whole, whatever the cache held before, and
is served from the cache as long as nothing is done to its frames.
-/

namespace FrameKeep

variable {σ φ ε : Type}

/-! ### The size of a batch -/

/-- None of the sums and the product in the default capacity of a node that linearizes is too large
for a count. -/
theorem NodeOptions.linearized_lt_limit (workers : UInt32) :
    workers.toNat + extraFrames < Count.limit ∧
      (workers.toNat + extraFrames) * 2 < Count.limit ∧
      defaultMaxFrames + workers.toNat < Count.limit := by
  have bounded : workers.toNat < UInt32.size := workers.toNat_lt
  simp only [extraFrames, defaultMaxFrames, Count.limit, UInt64.size, UInt32.size] at bounded ⊢
  omega

/-- Without a positive size a linear node has room for two windows, or the usual room if that is
more. -/
theorem NodeOptions.maxFramesFor_of_unsized {options : NodeOptions} (linearize : options.linearize)
    (unsized : ∀ size, options.size = some size → size ≤ 0) (workers : UInt32) :
    options.maxFramesFor workers =
      max ((workers.toNat + extraFrames) * 2) (defaultMaxFrames + workers.toNat) := by
  obtain ⟨window, twice, usual⟩ := linearized_lt_limit workers
  have none : options.size.filter (0 < ·) = none := by
    rw [Option.filter_eq_none_iff]
    intro size asked
    simpa using unsized size asked
  simp only [maxFramesFor, none, linearize, if_true, linearizedMaxFrames,
    Count.addSaturating_eq window, Count.mulSaturating_eq twice, Count.addSaturating_eq usual]

/-- A plan asks for no more frames than the default capacity of a node that linearizes. -/
theorem Config.length_requested_plan_le_default (config : Config) (last : Option FrameIndex)
    (frame : FrameIndex) :
    (config.plan last frame).requested.length ≤
      max ((config.workers.toNat + extraFrames) * 2)
        (defaultMaxFrames + config.workers.toNat) := by
  have batch := config.length_requested_plan_le last frame
  have window : config.lookahead ≤ config.workers.toNat + extraFrames := Nat.min_le_left ..
  simp only [extraFrames, defaultMaxFrames] at window ⊢
  omega

private theorem Config.workers_of_make? {linearize : Bool} {workers : UInt32} {config : Config}
    (configured : make? linearize workers = .ok config) : config.workers = workers := by
  unfold make? at configured
  split at configured
  next => cases configured
  next =>
    cases configured
    rfl

/-! ### Collections -/

/-- If nothing failed, something was got for every frame. -/
theorem Scheduler.map_fst_successes {answers : List (FrameIndex × Except ε φ)}
    (whole : ∀ frame reason, (frame, .error reason) ∉ answers) :
    (successes answers).map (·.1) = answers.map (·.1) := by
  induction answers with
  | nil => rfl
  | cons first rest ih =>
    obtain ⟨frame, reason | payload⟩ := first
    · exact absurd List.mem_cons_self (whole frame reason)
    · have restWhole : ∀ frame reason, (frame, .error reason) ∉ rest :=
        fun other reason member => whole other reason (List.mem_cons_of_mem _ member)
      exact congrArg (frame :: ·) (ih restWhole)

variable [FrameSource σ φ ε]

/-- What is collected without a failure is live, if there may be so many live frames. -/
theorem Scheduler.exists_serves_collect {scheduler : Scheduler σ φ ε}
    (consistent : scheduler.cache.Consistent) {pending : Pending}
    (room : pending.requested.length ≤ scheduler.cache.maxFrames)
    (whole : ∀ frame reason,
      (frame, .error reason) ∉ (scheduler.feed.fetchAll pending.requested).1)
    {frame : FrameIndex} (member : frame ∈ pending.requested) :
    ∃ payload, (scheduler.collect pending).Serves frame payload := by
  let stored := successes (scheduler.feed.fetchAll pending.requested).1
  have frames : stored.map (·.1) = pending.requested :=
    (map_fst_successes whole).trans (Feed.map_fst_fetchAll ..)
  have distinct : (stored.map (·.1)).Nodup := by
    rw [frames]
    exact pending.pairwise_requested.imp UInt32.ne_of_lt
  have enough : stored.length ≤ scheduler.cache.maxFrames := by
    rwa [← List.length_map (·.1), frames]
  rw [← frames] at member
  obtain ⟨⟨frame, payload⟩, held, rfl⟩ := List.mem_map.mp member
  exact ⟨payload, consistent.mem_run_insertions distinct enough held⟩

namespace Session

/-- The operation has all frames fetched that a pending request asked for, from a source that was
left like this. -/
inductive Collects (session : Session σ φ ε) : Op φ → Pending → Feed σ φ ε → Prop where
  | ready {ticket : Nat} {pending : Pending} (issued : session.tickets[ticket]? = some pending) :
    session.Collects (.ready ticket) pending session.scheduler.feed
  | getFrame {frame : FrameIndex} (idle : ¬ session.scheduler.cache.isLive frame) :
    session.Collects (.getFrame frame) (session.scheduler.plan frame)
      (session.scheduler.feed.requestAll (session.scheduler.plan frame).requested)

variable [ToString ε] {session : Session σ φ ε}

/-- A first phase that leaves something pending has planned it. -/
theorem exists_plan_of_pending (consistent : session.scheduler.cache.Consistent) {op : Op φ}
    {pending : Pending} {ticket? : Option Nat}
    (answered : (session.perform op).result = .ok (.activation (.pending pending) ticket?)) :
    ∃ frame, pending = session.scheduler.plan frame := by
  cases op with
  | initial frame =>
    by_cases live : ∃ payload, session.scheduler.Serves frame payload
    · obtain ⟨payload, live⟩ := live
      rw [perform_initial_of_live consistent live] at answered
      simp [Step.done] at answered
    · rw [(perform_initial_of_idle consistent (not_exists.mp live)).1] at answered
      simp only [Except.ok.injEq, Answer.activation.injEq, Activation.pending.injEq] at answered
      exact ⟨frame, answered.1.symm⟩
  | abandon frame =>
    change (session.scheduler.initial frame).result.map _ = _ at answered
    by_cases live : ∃ payload, session.scheduler.Serves frame payload
    · obtain ⟨payload, live⟩ := live
      rw [session.scheduler.initial_of_live consistent live] at answered
      simp [Step.done, Except.map] at answered
    · rw [(session.scheduler.initial_of_idle consistent (not_exists.mp live)).1] at answered
      simp only [Except.map, Except.ok.injEq, Answer.activation.injEq, Activation.pending.injEq]
        at answered
      exact ⟨frame, answered.1.symm⟩
  | ready ticket =>
    change (session.ready ticket).result.map Answer.fetched = _ at answered
    cases outcome : (session.ready ticket).result <;> simp [outcome, Except.map] at answered
  | getFrame frame =>
    change (session.scheduler.getFrame frame).result.map _ = _ at answered
    cases outcome : (session.scheduler.getFrame frame).result <;>
      simp [outcome, Except.map] at answered
  | cache op =>
    change (session.scheduler.cache.perform op).result.map Answer.cache = _ at answered
    cases outcome : (session.scheduler.cache.perform op).result <;>
      simp [outcome, Except.map] at answered

/-- A batch that is collected without a failure is live, if there may be so many live frames. -/
theorem Collects.exists_serves {op : Op φ} {pending : Pending} {feed : Feed σ φ ε}
    (collects : session.Collects op pending feed)
    (consistent : session.scheduler.cache.Consistent)
    (room : pending.requested.length ≤ session.scheduler.cache.maxFrames)
    (whole : ∀ frame reason, (frame, .error reason) ∉ (feed.fetchAll pending.requested).1)
    {frame : FrameIndex} (member : frame ∈ pending.requested) :
    ∃ payload, (session.perform op).state.scheduler.Serves frame payload := by
  cases collects with
  | ready issued =>
    obtain ⟨-, -, -, state, -⟩ := perform_ready consistent issued
    rw [state]
    exact Scheduler.exists_serves_collect consistent room whole member
  | @getFrame wanted idle =>
    have idle : ∀ payload, ¬ session.scheduler.Serves wanted payload := fun payload live =>
      idle ((isLive_iff consistent).mpr ⟨payload, live⟩)
    obtain ⟨-, -, -, state, -⟩ := perform_getFrame_of_idle consistent idle
    have asked : ((session.scheduler.use (.get wanted)).ask wanted).cache.Consistent :=
      consistent.perform (.get wanted)
    have looked : (session.scheduler.cache.perform (.get wanted)).state.maxFrames =
        session.scheduler.cache.maxFrames :=
      congrArg PlainCache.maxFrames (consistent.toPlain_perform (.get wanted))
    rw [state]
    exact Scheduler.exists_serves_collect asked (looked ▸ room) whole member

end Session

namespace Host

variable [ToString ε] {host : Host σ φ ε} {index : Nat} {frames : List FrameIndex}

/-- Whatever first phases for the frames are done first, a first phase for each of the frames is
answered from the cache of the node, and the source of the node has not been called. -/
def Serves (host : Host σ φ ε) (index : Nat) (frames : List FrameIndex) : Prop :=
  ∀ asked : List FrameIndex, (∀ frame ∈ asked, frame ∈ frames) →
    let served := host.run (asked.map fun frame => .onNode index (.initial frame))
    (∃ before after, host.session? index = some before ∧ served.session? index = some after ∧
        after.calls = before.calls) ∧
      ∀ frame ∈ frames, ∃ payload, (served.perform (.onNode index (.initial frame))).result =
        .ok (.session (.activation (.ready payload) none))

/-- The frames are live in the cache of the node, and whatever is done that spares them there, they
are served as long as the node is not dropped. -/
def Resident (host : Host σ φ ε) (index : Nat) (frames : List FrameIndex) : Prop :=
  ∃ node cache, host.node? index = some node ∧ host.pool.cache? node.cacheId = some cache ∧
    (∀ frame ∈ frames, cache.isLive frame) ∧
    ∀ later, Cache.Throughout (Cache.Spares frames) cache (host.trace node.cacheId later) →
      (∃ left, (host.run later).node? index = some left) → (host.run later).Serves index frames

/-- Live frames are served, and looking them up leaves them live. -/
theorem Sound.serves (sound : host.Sound) {session : Session σ φ ε}
    (there : host.session? index = some session)
    (live : ∀ frame ∈ frames, ∃ payload, session.scheduler.Serves frame payload) :
    host.Serves index frames := by
  intro asked among
  have consistent := sound.consistent_session there
  induction asked generalizing host session with
  | nil =>
    refine ⟨⟨session, session, there, there, rfl⟩, fun frame member => ?_⟩
    obtain ⟨payload, held⟩ := live frame member
    obtain ⟨result, -⟩ := perform_onNode there (.initial frame)
    rw [Session.perform_initial_of_live consistent held] at result
    exact ⟨payload, result⟩
  | cons frame rest ih =>
    obtain ⟨payload, held⟩ := live frame (among frame List.mem_cons_self)
    obtain ⟨-, state⟩ := perform_onNode there (.initial frame)
    rw [Session.perform_initial_of_live consistent held] at state
    have stillLive : ∀ other ∈ frames, ∃ payload,
        (session.scheduler.use (.get frame)).Serves other payload := fun other member =>
      (live other member).imp fun payload held => consistent.live_get held frame
    obtain ⟨⟨before, after, first, last, calls⟩, answered⟩ :=
      ih (sound.perform _) state stillLive
        (fun other member => among other (List.mem_cons_of_mem _ member))
        (consistent.perform (.get frame))
    refine ⟨⟨session, after, there, last, calls.trans ?_⟩, answered⟩
    obtain rfl := Option.some.inj (first.symm.trans state)
    rfl

private theorem Sound.resident (sound : host.Sound) {session : Session σ φ ε}
    (there : host.session? index = some session)
    (live : ∀ frame ∈ frames, ∃ payload, session.scheduler.Serves frame payload) :
    host.Resident index frames := by
  obtain ⟨node, cell, found, held, rfl⟩ := session?_eq_some.mp there
  have consistent := (sound.pool _ cell held).consistent
  have cached := Pool.cache?_of_cell? held
  refine ⟨node, cell.cache, found, cached, fun frame member =>
    (Session.isLive_iff consistent).mpr (live frame member), fun later spared left => ?_⟩
  obtain ⟨left, foundLater⟩ := left
  obtain ⟨before, same, continues⟩ :=
    sound.exists_continues_run (lt_size_of_node? found) foundLater
  obtain rfl := Option.some.inj (found.symm.trans same)
  obtain ⟨cellLater, heldLater⟩ := (sound.run later).exists_cell_of_node foundLater
  have cachedLater := Pool.cache?_of_cell? heldLater
  rw [continues.cacheId_eq] at cachedLater
  have traced := sound.run_trace cached cachedLater
  refine (sound.run later).serves
    (session?_eq_some.mpr ⟨left, cellLater, foundLater, heldLater, rfl⟩) fun frame member => ?_
  obtain ⟨payload, live⟩ := live frame member
  have still := consistent.live_of_spared live member spared
  rw [← traced] at still
  exact ⟨payload, still⟩

/-- Nothing that the node asks for on behalf of a frame is more than the capacity, and what is
fetched of that without a failure is held, as long as there may be so many live frames. -/
structure HoldsBatches (host : Host σ φ ε) (index capacity : Nat) : Prop where
  /-- What would be asked for. -/
  planned : ∀ session, host.session? index = some session →
    ∀ frame, (session.scheduler.plan frame).requested.length ≤ capacity
  /-- What a ticket stands for. -/
  issued : ∀ session, host.session? index = some session →
    ∀ (ticket : Nat) pending, session.tickets[ticket]? = some pending →
      pending.requested.length ≤ capacity
  /-- What a first phase answers. -/
  answered : ∀ op pending ticket?,
    (host.perform (.onNode index op)).result =
      .ok (.session (.activation (.pending pending) ticket?)) →
    pending.requested.length ≤ capacity
  resident : ∀ session, host.session? index = some session →
    capacity ≤ session.scheduler.cache.maxFrames →
    ∀ op pending feed, session.Collects op pending feed →
      (∀ frame reason, (frame, .error reason) ∉ (feed.fetchAll pending.requested).1) →
      (host.perform (.onNode index op)).state.Resident index pending.requested

/-- In a sound host a node holds every batch it may plan, if none is longer than the capacity. -/
theorem Sound.holdsBatches (sound : host.Sound) {capacity : Nat}
    (nodes : ∀ node, host.node? index = some node → node.Planned ∧
      ∀ last frame, (node.controller.config.plan last frame).requested.length ≤ capacity) :
    host.HoldsBatches index capacity := by
  have planned : ∀ session, host.session? index = some session →
      ∀ frame, (session.scheduler.plan frame).requested.length ≤ capacity := by
    intro session there frame
    obtain ⟨node, cell, found, -, rfl⟩ := session?_eq_some.mp there
    exact (nodes node found).2 _ frame
  have issued : ∀ session, host.session? index = some session →
      ∀ (ticket : Nat) pending, session.tickets[ticket]? = some pending →
        pending.requested.length ≤ capacity := by
    intro session there ticket pending issued
    obtain ⟨node, cell, found, -, rfl⟩ := session?_eq_some.mp there
    obtain ⟨kept, bound⟩ := nodes node found
    obtain ⟨last, frame, rfl⟩ := kept ticket pending issued
    exact bound last frame
  refine ⟨planned, issued, fun op pending ticket? answered => ?_, ?_⟩
  · cases there : host.session? index with
    | none =>
      rw [perform_onNode_of_dropped there] at answered
      nomatch answered
    | some session =>
      rw [(perform_onNode there op).1] at answered
      cases outcome : (session.perform op).result with
      | error fault => simp [outcome, Except.map] at answered
      | ok answer =>
        obtain rfl : answer = .activation (.pending pending) ticket? := by
          simpa [outcome, Except.map] using answered
        obtain ⟨frame, rfl⟩ :=
          Session.exists_plan_of_pending (sound.consistent_session there) outcome
        exact planned session there frame
  · intro session there enough op pending feed collects whole
    have consistent := sound.consistent_session there
    have small : pending.requested.length ≤ capacity := by
      cases collects with
      | ready found => exact issued session there _ pending found
      | getFrame => exact planned session there _
    obtain ⟨-, state⟩ := perform_onNode there op
    exact (sound.perform _).resident state fun frame =>
      collects.exists_serves consistent (Nat.le_trans small enough) whole

/-- A node that linearizes and is given no positive size has the capacity for every batch that it
will ever ask for. None of the numbers that this capacity is made of is too large for a count, so
that a node is built unless there are no workers, the size is negative or the cache is too large.
Whatever is done with the host from then on, the node holds its batches as long as its cache may
keep so many live frames. -/
theorem holds_every_batch {options : NodeOptions} (linearize : options.linearize)
    (unsized : ∀ size, options.size = some size → size ≤ 0) (workers : UInt32) :
    (workers.toNat + extraFrames < Count.limit ∧
      (workers.toNat + extraFrames) * 2 < Count.limit ∧
      defaultMaxFrames + workers.toNat < Count.limit ∧
      options.maxFramesFor workers =
        max ((workers.toNat + extraFrames) * 2) (defaultMaxFrames + workers.toNat)) ∧
      ∀ (earlier : List (Op σ φ)) media source,
        let host : Host σ φ ε := (∅ : Host σ φ ε).run earlier
        let step := host.perform (.createNode media options workers source)
        (workers ≠ 0 → (∀ size, options.size = some size → 0 ≤ size) →
          options.maxFramesFor workers + options.maxHistoryOrDefault < Arena.reserveLimit →
          ∃ index name, step.result = .ok (.created (.ok (index, name)))) ∧
        ∀ index name, step.result = .ok (.created (.ok (index, name))) →
          (∃ session, step.state.session? index = some session ∧
            session.scheduler.cache.maxFrames = options.maxFramesFor workers) ∧
          ∀ later, (step.state.run later).HoldsBatches index (options.maxFramesFor workers) := by
  have capacity := NodeOptions.maxFramesFor_of_unsized linearize unsized workers
  obtain ⟨window, twice, usual⟩ := NodeOptions.linearized_lt_limit workers
  refine ⟨⟨window, twice, usual, capacity⟩, ?_⟩
  intro earlier media source host step
  refine ⟨fun positive nonneg room =>
    ⟨host.nodes.size, host.exists_created media source positive nonneg room⟩, ?_⟩
  intro index name created
  have sound : host.Sound := sound_run earlier
  have soundNew : step.state.Sound := sound.perform _
  obtain ⟨rfl, config, cache, configured, new, built⟩ := exists_withNewNode created
  obtain rfl := Config.workers_of_make? configured
  let node : CacheNode σ φ ε :=
    { label := some { name := media.nodeName host.manager.nextNumber, media }
      controller := { config, feed := { source } }
      cacheId := host.pool.cells.size }
  have found : step.state.node? host.nodes.size = some node := by
    rw [built]
    exact (node?_push (by rfl) _).trans (if_pos rfl)
  have held : step.state.pool.cell? node.cacheId = some { cache, owners := 1 } := by
    rw [built]
    exact (Pool.cell?_add ..).trans (if_pos rfl)
  refine ⟨⟨_, session?_eq_some.mpr ⟨node, _, found, held, rfl⟩, ?_⟩, fun later => ?_⟩
  · obtain ⟨-, rfl⟩ := Cache.create_eq_ok_iff.mp new
    rfl
  · apply (soundNew.run later).holdsBatches
    intro left there
    obtain ⟨first, same, continues⟩ :=
      soundNew.exists_continues_run (lt_size_of_node? found) there
    obtain rfl := Option.some.inj (found.symm.trans same)
    have whole : (∅ : Host σ φ ε).run (earlier ++ .createNode media options config.workers source ::
        later) = step.state.run later := run_append ..
    refine ⟨planned_run (whole ▸ there), fun last frame => ?_⟩
    rw [continues.config_eq, capacity]
    exact config.length_requested_plan_le_default last frame

/-- The first frame that is asked for catches up with the start, and the batch that is fetched with
it is held. -/
theorem holds_every_batch_of_first_batch :
    let options : NodeOptions := { linearize := true }
    let new : Host LabelSource String String :=
      ((∅ : Host LabelSource String String).perform (.createNode .video options 2 {})).state
    let host := new.run [.onNode 0 (.initial 3)]
    let collected := (host.perform (.onNode 0 (.ready 0))).state
    options.maxFramesFor 2 = 22 ∧
      ((∅ : Host LabelSource String String).perform (.createNode .video options 2 {})).result =
        .ok (.created (.ok (0, MediaKind.video.nodeName 1))) ∧
      collected.Resident 0 [0, 1, 2, 3] ∧
      ∃ payload, (collected.perform (.onNode 0 (.initial 2))).result =
        .ok (.session (.activation (.ready payload) none)) := by
  intro options new host collected
  have linearize : options.linearize := rfl
  have unsized : ∀ size, options.size = some size → size ≤ 0 := by simp [options]
  obtain ⟨-, nodes⟩ :=
    holds_every_batch (σ := LabelSource) (φ := String) (ε := String) linearize unsized 2
  obtain ⟨-, holds⟩ := (nodes [] .video {}).2 0 _ rfl
  have holds := holds [.onNode 0 (.initial 3)]
  let start : Session LabelSource String String :=
    .start ⟨true, 2, by decide⟩ {} (.empty 22 20 false)
  have consistent : start.scheduler.cache.Consistent := Cache.consistent_empty 22 20 false
  have idle : ∀ payload, ¬ start.scheduler.Serves 3 payload := by
    intro payload live
    rw [Scheduler.Serves, consistent.isEmpty_iff.mp rfl] at live
    exact List.not_mem_nil live
  have there : host.session? 0 = some (start.perform (.initial 3)).state := rfl
  rw [(Session.perform_initial_of_idle consistent idle).2] at there
  have room : options.maxFramesFor 2 ≤ (start.scheduler.use (.get 3)).cache.maxFrames :=
    (congrArg PlainCache.maxFrames (consistent.toPlain_perform (.get 3))).ge
  obtain ⟨first, second, third, fourth, answers⟩ : ∃ first second third fourth,
      (((start.scheduler.use (.get 3)).ask 3).feed.fetchAll (start.scheduler.plan 3).requested).1 =
        [(0, .ok first), (1, .ok second), (2, .ok third), (3, .ok fourth)] :=
    ⟨_, _, _, _, rfl⟩
  have resident : collected.Resident 0 (start.scheduler.plan 3).requested := by
    refine holds.resident _ there room _ _ _ (.ready rfl) ?_
    rw [answers]
    simp
  have serves : collected.Serves 0 [0, 1, 2, 3] := by
    obtain ⟨node, cache, found, -, -, serves⟩ := resident
    exact serves [] trivial ⟨node, found⟩
  exact ⟨by decide, rfl, resident, (serves [] (by simp)).2 2 (by decide)⟩

end Host

end FrameKeep
