import FrameKeep.Proofs.Cache.Room
import FrameKeep.Proofs.Scheduler.Interleaving

/-!
# Playback

When frames are asked for in rising order, none of them is in the cache yet, since nothing past the
previous request was ever asked for. So what the source sees is what the plans call for one after
the other: rising indices, with the gaps filled that lie inside the window.
-/

namespace FrameKeep

private theorem getLast?_cons_or (first : FrameIndex) (rest : List FrameIndex)
    (last : Option FrameIndex) :
    (first :: rest).getLast?.or last = rest.getLast?.or (some first) := by
  rw [List.getLast?_cons]
  cases rest.getLast? <;> rfl

/-! ### What is asked for -/

namespace Config

/-- All that is asked for on behalf of frames that come one after the other and are not live. -/
def playback (config : Config) : Option FrameIndex → List FrameIndex → List FrameIndex
  | _, [] => []
  | last, frame :: rest => (config.plan last frame).requested ++ config.playback (some frame) rest

/-- Playback in two parts goes on from the last frame of the first. -/
theorem playback_append (config : Config) (last : Option FrameIndex)
    (earlier later : List FrameIndex) :
    config.playback last (earlier ++ later) =
      config.playback last earlier ++ config.playback (earlier.getLast?.or last) later := by
  induction earlier generalizing last with
  | nil => rfl
  | cons frame rest ih =>
    rw [List.cons_append, playback, playback, ih, getLast?_cons_or, List.append_assoc]

private theorem playback_concat (config : Config) (earlier : List FrameIndex) (frame : FrameIndex) :
    config.playback none (earlier ++ [frame]) =
      config.playback none earlier ++ (config.plan earlier.getLast? frame).requested := by
  simp [playback_append, playback]

variable {config : Config} {frames earlier later : List FrameIndex} {frame other : FrameIndex}

private theorem previousIndex_getLast?_lt (rising : (earlier ++ frame :: later).Pairwise (· < ·)) :
    previousIndex earlier.getLast? < frame.toNat := by
  cases newest : earlier.getLast? with
  | none => exact Int.lt_of_lt_of_le (by decide) (Int.natCast_nonneg frame.toNat)
  | some previous =>
    have less := (List.pairwise_append.mp rising).2.2 previous (List.mem_of_getLast? newest) frame
      List.mem_cons_self
    exact Int.ofNat_lt.mpr (UInt32.lt_iff_toNat_lt.mp less)

/-- Nothing past the newest frame is asked for. -/
theorem le_of_mem_playback (rising : frames.Pairwise (· < ·))
    (member : other ∈ config.playback none frames) :
    (other.toNat : Int) ≤ previousIndex frames.getLast? := by
  induction frames using List.reverseRecOn with
  | nil => nomatch member
  | append_singleton earlier frame ih =>
    have ahead := previousIndex_getLast?_lt rising
    rw [List.getLast?_concat]
    change (other.toNat : Int) ≤ frame.toNat
    rw [playback_concat, List.mem_append] at member
    rcases member with before | asked
    · have := ih (List.pairwise_append.mp rising).1 before
      omega
    · exact Int.ofNat_le.mpr (Pending.le_frame_of_mem_requested asked)

/-- What is asked for is asked for in rising order. -/
theorem pairwise_playback (config : Config) (rising : frames.Pairwise (· < ·)) :
    (config.playback none frames).Pairwise (· < ·) := by
  induction frames using List.reverseRecOn with
  | nil => exact .nil
  | append_singleton earlier frame ih =>
    have risingEarlier := (List.pairwise_append.mp rising).1
    have ahead := previousIndex_getLast?_lt rising
    rw [playback_concat, List.pairwise_append]
    refine ⟨ih risingEarlier, Pending.pairwise_requested _, fun lower before upper next => ?_⟩
    have bounded := le_of_mem_playback risingEarlier before
    rw [UInt32.lt_iff_toNat_lt]
    rcases mem_requested_plan.mp next with rfl | ⟨-, past, -⟩ <;> omega

/-- Every frame is asked for itself. -/
theorem mem_playback (config : Config) (member : frame ∈ frames) :
    frame ∈ config.playback none frames := by
  obtain ⟨earlier, later, rfl⟩ := List.append_of_mem member
  rw [playback_append, playback]
  exact List.mem_append_right _ (List.mem_append_left _ (mem_requested_plan.mpr (.inl rfl)))

/-- A frame between two that follow each other is asked for if and only if the gap is inside the
window. -/
theorem mem_playback_between (linearize : config.linearize)
    (rising : (earlier ++ frame :: later).Pairwise (· < ·))
    (past : previousIndex earlier.getLast? < other.toNat) (less : other < frame) :
    other ∈ config.playback none (earlier ++ frame :: later) ↔
      (frame.toNat : Int) - previousIndex earlier.getLast? < config.lookahead := by
  have parts : config.playback none (earlier ++ frame :: later) =
      config.playback none earlier ++ ((config.plan earlier.getLast? frame).requested ++
        config.playback (some frame) later) := by
    rw [playback_append, Option.or_none, playback]
  have upward := config.pairwise_playback rising
  rw [parts] at upward
  have notBefore : other ∉ config.playback none earlier := by
    intro before
    have := le_of_mem_playback (List.pairwise_append.mp rising).1 before
    omega
  have notAfter : other ∉ config.playback (some frame) later := by
    intro after
    have behind := (List.pairwise_append.mp (List.pairwise_append.mp upward).2.1).2.2
    exact UInt32.lt_asymm less (behind frame (mem_requested_plan.mpr (.inl rfl)) other after)
  rw [parts, List.mem_append, List.mem_append, mem_requested_plan, catchesUp_iff]
  rw [UInt32.lt_iff_toNat_lt] at less ⊢
  have apart : other ≠ frame := by
    rintro rfl
    exact Nat.lt_irrefl _ less
  simp only [notBefore, notAfter, apart, linearize, past, less, false_or, or_false, and_true,
    true_and]
  omega

/-- Where all gaps are inside the window, everything up to the newest frame is asked for. -/
theorem playback_eq_range (linearize : config.linearize) (rising : frames.Pairwise (· < ·))
    (near : ∀ earlier frame later, frames = earlier ++ frame :: later →
      (frame.toNat : Int) - previousIndex earlier.getLast? < config.lookahead)
    {newest : FrameIndex} (last : frames.getLast? = some newest) :
    config.playback none frames = FrameIndex.rangeInclusive 0 newest := by
  induction frames using List.reverseRecOn generalizing newest with
  | nil => nomatch last
  | append_singleton earlier frame ih =>
    obtain rfl : frame = newest := by simpa using last
    have ahead := previousIndex_getLast?_lt rising
    obtain ⟨first, place, requested⟩ :=
      requested_plan_of_near linearize ahead (near earlier frame [] rfl)
    have nearEarlier : ∀ upper middle lower, earlier = upper ++ middle :: lower →
        (middle.toNat : Int) - previousIndex upper.getLast? < config.lookahead := by
      rintro upper middle lower rfl
      exact near upper middle (lower ++ [frame]) (by simp)
    rw [playback_concat, requested]
    cases previous : earlier.getLast? with
    | none =>
      obtain rfl := List.getLast?_eq_none_iff.mp previous
      obtain rfl : first = 0 := by
        rw [← UInt32.toNat_inj]
        change (first.toNat : Int) = -1 + 1 at place
        simpa using place
      rfl
    | some previousFrame =>
      rw [previous] at place ahead
      change (first.toNat : Int) = previousFrame.toNat + 1 at place
      change (previousFrame.toNat : Int) < frame.toNat at ahead
      rw [ih (List.pairwise_append.mp rising).1 nearEarlier previous]
      apply FrameIndex.rangeInclusive_append
      · omega
      · exact Nat.zero_le _
      · rw [UInt32.le_iff_toNat_le]
        omega

end Config

variable {σ φ ε : Type}

/-- A frame that is live after a collection was collected or live before. -/
theorem Scheduler.serves_of_collect [FrameSource σ φ ε] {scheduler : Scheduler σ φ ε}
    (consistent : scheduler.cache.Consistent) {pending : Pending} {frame : FrameIndex} {payload : φ}
    (live : (scheduler.collect pending).Serves frame payload) :
    frame ∈ pending.requested ∨ scheduler.Serves frame payload := by
  refine fetchAll_induction consistent
    (fun cache _ => ∀ payload, { key := frame, payload := some payload } ∈ cache.entries →
      frame ∈ pending.requested ∨ scheduler.Serves frame payload)
    (fun _ => .inr) ?_ payload live
  intro cache _ _ stored _ consistent member before _ _ payload live
  obtain ⟨-, ⟨⟨⟩⟩ | ⟨-, -, still⟩⟩ := consistent.live_perform_iff.mp live
  · exact .inl member
  · exact before payload still

/-! ### What the source sees -/

namespace Feed

variable [FrameSource σ φ ε]

/-- Requests and fetches what is asked for on behalf of frames that come one after the other and are
not live. -/
def play (config : Config) : Option FrameIndex → List FrameIndex → Feed σ φ ε → Feed σ φ ε
  | _, [], feed => feed
  | last, frame :: rest, feed =>
    let asked := (config.plan last frame).requested
    play config (some frame) rest ((feed.requestAll asked).fetchAll asked).2

/-- The last of several frames is played on the source the others leave. -/
theorem play_concat (config : Config) (last : Option FrameIndex) (earlier : List FrameIndex)
    (frame : FrameIndex) (feed : Feed σ φ ε) :
    play config last (earlier ++ [frame]) feed =
      (((play config last earlier feed).requestAll
        (config.plan (earlier.getLast?.or last) frame).requested).fetchAll
          (config.plan (earlier.getLast?.or last) frame).requested).2 := by
  induction earlier generalizing last feed with
  | nil => rfl
  | cons first rest ih =>
    rw [List.cons_append, play, play, ih, getLast?_cons_or]

/-- What is played is requested. -/
theorem requests_play (config : Config) (last : Option FrameIndex) (frames : List FrameIndex)
    (feed : Feed σ φ ε) :
    (play config last frames feed).requests = feed.requests ++ config.playback last frames := by
  induction frames generalizing last feed with
  | nil => simp [play, Config.playback]
  | cons frame rest ih => simp [play, Config.playback, ih]

/-- What is played is fetched. -/
theorem fetches_play (config : Config) (last : Option FrameIndex) (frames : List FrameIndex)
    (feed : Feed σ φ ε) :
    (play config last frames feed).fetches = feed.fetches ++ config.playback last frames := by
  induction frames generalizing last feed with
  | nil => simp [play, Config.playback]
  | cons frame rest ih => simp [play, Config.playback, ih]

end Feed

namespace Session

variable [FrameSource σ φ ε]

/-- Frames were played in this session, and no frame past them is live. -/
structure Played (session : Session σ φ ε) (config : Config) (source : σ)
    (frames : List FrameIndex) : Prop where
  config_eq : session.scheduler.config = config
  last_eq : session.scheduler.last = frames.getLast?
  feed_eq : session.scheduler.feed = Feed.play config none frames { source }
  live_le : ∀ frame payload, session.scheduler.Serves frame payload →
    (frame.toNat : Int) ≤ previousIndex frames.getLast?

variable [ToString ε] {session : Session σ φ ε} {config : Config} {source : σ}
  {frames : List FrameIndex}

/-- A frame past all those played is asked for, and then it is the last one played. -/
theorem Played.getFrame (played : session.Played config source frames)
    (consistent : session.scheduler.cache.Consistent) {frame : FrameIndex}
    (ahead : previousIndex frames.getLast? < frame.toNat) :
    (session.perform (.getFrame frame)).state.Played config source (frames ++ [frame]) := by
  obtain ⟨config_eq, last_eq, feed_eq, live_le⟩ := played
  have idle : ∀ payload, ¬ session.scheduler.Serves frame payload := by
    intro payload live
    have := live_le frame payload live
    omega
  have plan : session.scheduler.plan frame = config.plan frames.getLast? frame := by
    rw [Scheduler.plan, config_eq, last_eq]
  obtain ⟨-, -, -, state, -⟩ := perform_getFrame_of_idle consistent idle
  rw [state, plan]
  refine ⟨config_eq, by simp [Scheduler.collect, Scheduler.ask], ?_, ?_⟩
  · rw [Feed.play_concat, Option.or_none, ← feed_eq, ← plan]
    rfl
  · intro other payload live
    rw [List.getLast?_concat]
    change (other.toNat : Int) ≤ frame.toNat
    have looked := consistent.perform (.get frame)
    rcases Scheduler.serves_of_collect looked live with asked | before
    · exact Int.ofNat_le.mpr (Pending.le_frame_of_mem_requested asked)
    · obtain ⟨-, ⟨⟨⟩⟩ | ⟨-, -, member⟩⟩ := consistent.live_perform_iff.mp before
      have := live_le other payload member
      omega

/-- Frames that are played in rising order on a new scheduler are asked for and fetched as planned,
whatever the cache has room for. -/
theorem played_run {cache : Cache FrameIndex φ} (consistent : cache.Consistent)
    (empty : cache.entries = []) (config : Config) (source : σ)
    (rising : frames.Pairwise (· < ·)) :
    ((Session.start config source cache : Session σ φ ε).run (frames.map .getFrame)).Played config
      source frames := by
  induction frames using List.reverseRecOn with
  | nil =>
    refine ⟨rfl, rfl, rfl, fun frame payload live => ?_⟩
    have live : { key := frame, payload := some payload } ∈ cache.entries := live
    rw [empty] at live
    nomatch live
  | append_singleton earlier frame ih =>
    rw [List.map_append, List.map_singleton, run_concat]
    exact (ih (List.pairwise_append.mp rising).1).getFrame (consistent_run consistent _)
      (Config.previousIndex_getLast?_lt rising)

end Session

/-! ### What stays in the cache -/

namespace Session

variable [FrameSource σ φ ε] {session : Session σ φ ε} {last : FrameIndex}

/-- With room for all frames up to `last`, playing one of them keeps what was delivered. -/
theorem Moves.hoards {after : Session σ φ ε} {op : Op φ} (moves : session.Moves op after)
    (consistent : session.scheduler.cache.Consistent) (upTo : ∃ frame ≤ last, op = .getFrame frame)
    (hoards : session.scheduler.cache.Hoards (FrameIndex.rangeInclusive 0 last)
      session.scheduler.feed.latest?) :
    after.scheduler.cache.Hoards (FrameIndex.rangeInclusive 0 last)
      after.scheduler.feed.latest? := by
  obtain ⟨frame, le, rfl⟩ := upTo
  cases moves with
  | serve => exact hoards.get consistent _
  | fetch idle =>
    have asked : (session.scheduler.ask frame).feed.latest? = session.scheduler.feed.latest? :=
      funext fun _ => Feed.latest?_requestAll ..
    have looked : (session.scheduler.cache.perform (.get frame)).state.Hoards _
        (session.scheduler.ask frame).feed.latest? :=
      asked ▸ hoards.get consistent frame
    refine Scheduler.fetchAll_induction (consistent.perform (.get frame)) (Cache.Hoards · _ ·)
      looked fun consistent member hoards stored others => hoards.insert consistent ?_ stored others
    have upToFrame := Pending.le_frame_of_mem_requested member
    exact FrameIndex.mem_rangeInclusive.mpr ⟨UInt32.zero_le, UInt32.le_trans upToFrame le⟩

variable [ToString ε]

/-- A new scheduler with room for all frames up to `last` holds what was delivered of those that are
played. -/
theorem hoards_run {cache : Cache FrameIndex φ} (consistent : cache.Consistent)
    (empty : cache.entries = []) (config : Config) (source : σ)
    (enough : last.toNat + 1 ≤ cache.maxFrames) {frames : List FrameIndex}
    (upTo : ∀ frame ∈ frames, frame ≤ last) :
    let session : Session σ φ ε :=
      (Session.start config source cache).run (frames.map .getFrame)
    session.scheduler.cache.Hoards (FrameIndex.rangeInclusive 0 last)
      session.scheduler.feed.latest? := by
  have start : cache.Hoards (FrameIndex.rangeInclusive 0 last)
      ({ source } : Feed σ φ ε).latest? := by
    refine ⟨?_, fun frame payload live => ?_, nofun⟩
    · rw [FrameIndex.length_rangeInclusive]
      exact enough
    · rw [empty] at live
      nomatch live
  have all : ∀ op ∈ frames.map (Op.getFrame (φ := φ)), ∃ frame ≤ last, op = .getFrame frame := by
    intro op member
    obtain ⟨frame, inFrames, rfl⟩ := List.mem_map.mp member
    exact ⟨frame, upTo frame inFrames, rfl⟩
  exact run_induction consistent
    (fun state => state.scheduler.cache.Hoards (FrameIndex.rangeInclusive 0 last)
      state.scheduler.feed.latest?)
    _ start (fun consistent upTo hoards moves => moves.hoards consistent upTo hoards) all

/-- Where every frame up to `last` is held, first phases for them are served without a call. -/
theorem feed_run_initial (consistent : session.scheduler.cache.Consistent)
    (hoards : session.scheduler.cache.Hoards (FrameIndex.rangeInclusive 0 last)
      session.scheduler.feed.latest?)
    (delivered : ∀ frame ≤ last, ∃ payload, session.scheduler.feed.latest? frame = some payload)
    {again : List FrameIndex} (upTo : ∀ frame ∈ again, frame ≤ last) :
    (session.run (again.map .initial)).scheduler.feed = session.scheduler.feed ∧
      (session.run (again.map .initial)).scheduler.cache.Hoards (FrameIndex.rangeInclusive 0 last)
        session.scheduler.feed.latest? := by
  have all : ∀ op ∈ again.map (Op.initial (φ := φ)), ∃ frame ≤ last, op = .initial frame := by
    intro op member
    obtain ⟨frame, inAgain, rfl⟩ := List.mem_map.mp member
    exact ⟨frame, upTo frame inAgain, rfl⟩
  refine run_induction consistent
    (fun state => state.scheduler.feed = session.scheduler.feed ∧
      state.scheduler.cache.Hoards (FrameIndex.rangeInclusive 0 last)
        session.scheduler.feed.latest?)
    _ ⟨rfl, hoards⟩ ?_ all
  rintro state after _ consistent ⟨frame, le, rfl⟩ ⟨feed, hoards⟩ moves
  cases moves with
  | serve => exact ⟨feed, hoards.get consistent _⟩
  | ask idle =>
    obtain ⟨payload, latest⟩ := delivered frame le
    exact absurd (hoards.held frame payload latest) (idle payload)

/-- When frames are asked for in rising order on a new scheduler that linearizes: the requests rise,
and the fetches are the requests; every frame is among them, and what lies between two frames that
follow each other is if and only if their gap is inside the window. If all gaps are, everything up
to the last frame is requested; and if moreover nothing failed and the cache has room for all of it,
from then on first phases for any of it are served without a call to the source. -/
theorem linearized_playback {maxFrames maxHistory : Nat} {fixed : Bool}
    {new : Cache FrameIndex φ} (created : Cache.create maxFrames maxHistory fixed = .ok new)
    (used : List (Cache.Op FrameIndex φ)) (emptied : (new.run used).isEmpty) (config : Config)
    (linearize : config.linearize) (source : σ) {frames : List FrameIndex}
    (rising : frames.Pairwise (· < ·)) :
    let start : Session σ φ ε := Session.start config source (new.run used)
    let session := start.run (frames.map .getFrame)
    let requests := session.scheduler.feed.requests
    requests.Pairwise (· < ·) ∧
      session.scheduler.feed.fetches = requests ∧
      (∀ earlier frame later, frames = earlier ++ frame :: later →
        frame ∈ requests ∧
          ∀ between, previousIndex earlier.getLast? < between.toNat → between < frame →
            (between ∈ requests ↔
              (frame.toNat : Int) - previousIndex earlier.getLast? < config.lookahead)) ∧
      ∀ last, frames.getLast? = some last →
        (∀ earlier frame later, frames = earlier ++ frame :: later →
          (frame.toNat : Int) - previousIndex earlier.getLast? < config.lookahead) →
        requests = FrameIndex.rangeInclusive 0 last ∧
          ((∀ frame reason, .fetch frame (.error reason) ∉ session.calls) →
            last.toNat + 1 ≤ (new.run used).maxFrames →
            ∀ again : List FrameIndex, (∀ other ∈ again, other ≤ last) → ∀ frame ≤ last,
              let phase := (session.run (again.map .initial)).perform (.initial frame)
              phase.state.calls = session.calls ∧
                ∃ payload, phase.result = .ok (.activation (.ready payload) none)) := by
  obtain ⟨-, rfl⟩ := Cache.create_eq_ok_iff.mp created
  intro start session requests
  have startConsistent : start.scheduler.cache.Consistent :=
    (Cache.consistent_empty maxFrames maxHistory fixed).run used
  have startEmpty : start.scheduler.cache.entries = [] := startConsistent.isEmpty_iff.mp emptied
  have consistent : session.scheduler.cache.Consistent := consistent_run startConsistent _
  have played : session.Played config source frames :=
    played_run startConsistent startEmpty config source rising
  have requests_eq : requests = config.playback none frames := by
    change session.scheduler.feed.requests = _
    rw [played.feed_eq, Feed.requests_play]
    rfl
  have fetches_eq : session.scheduler.feed.fetches = requests := by
    rw [requests_eq, played.feed_eq, Feed.fetches_play]
    rfl
  refine ⟨requests_eq ▸ config.pairwise_playback rising, fetches_eq, ?_, ?_⟩
  · rintro earlier frame later rfl
    rw [requests_eq]
    exact ⟨config.mem_playback (by simp), fun between past less =>
      Config.mem_playback_between linearize rising past less⟩
  · intro last newest near
    have all : requests = FrameIndex.rangeInclusive 0 last :=
      requests_eq.trans (Config.playback_eq_range linearize rising near newest)
    refine ⟨all, fun whole enough again upTo frame le => ?_⟩
    have within : ∀ frame ∈ frames, frame ≤ last := by
      intro frame inFrames
      have asked := config.mem_playback inFrames
      rw [← requests_eq, all] at asked
      exact (FrameIndex.mem_rangeInclusive.mp asked).2
    have hoards := hoards_run startConsistent startEmpty config source enough within
    have delivered : ∀ other ≤ last,
        ∃ payload, session.scheduler.feed.latest? other = some payload := by
      intro other le
      apply Feed.exists_latest? _ (whole other)
      rw [fetches_eq, all]
      exact FrameIndex.mem_rangeInclusive.mpr ⟨UInt32.zero_le, le⟩
    obtain ⟨feed, still⟩ := feed_run_initial consistent hoards delivered upTo
    obtain ⟨payload, latest⟩ := delivered frame le
    rw [perform_initial_of_live (consistent_run consistent _) (still.held frame payload latest)]
    exact ⟨congrArg (·.calls.toList) feed, payload, rfl⟩

/-- Every other frame and then the next one, in a cache that has just enough room. -/
theorem linearized_playback_of_small_gaps :
    let new : Cache FrameIndex String := .empty 3 0 false
    let used : List (Cache.Op FrameIndex String) := [.insert 7 "old", .clear, .setMaxFrames 5]
    let start : Session LabelSource String String :=
      Session.start ⟨true, 1, by decide⟩ {} (new.run used)
    let session := start.run [.getFrame 1, .getFrame 3, .getFrame 4]
    Cache.create 3 0 false = .ok new ∧ (new.run used).isEmpty ∧
      session.scheduler.feed.requests = [0, 1, 2, 3, 4] ∧
      ∃ payload, ((session.run [.initial 4]).perform (.initial 2)).result =
        .ok (.activation (.ready payload) none) := by
  have created : Cache.create 3 0 false = .ok (.empty 3 0 false : Cache FrameIndex String) :=
    Cache.create_eq_ok_iff.mpr ⟨by decide, rfl⟩
  have newCache : (.empty 3 0 false : Cache FrameIndex String).Consistent :=
    Cache.consistent_empty 3 0 false
  have consistent := newCache.run [.insert 7 "old", .clear, .setMaxFrames 5]
  have plain := newCache.toPlain_run [.insert 7 "old", .clear, .setMaxFrames 5]
  have empty := congrArg PlainCache.entries plain
  have emptied := consistent.isEmpty_iff.mpr empty
  have room := congrArg PlainCache.maxFrames plain
  have rising : ([1, 3, 4] : List FrameIndex).Pairwise (· < ·) := by decide
  have near : ∀ earlier frame later, ([1, 3, 4] : List FrameIndex) = earlier ++ frame :: later →
      (frame.toNat : Int) - previousIndex earlier.getLast? < 8 := by
    rintro (_ | ⟨_, _ | ⟨_, _ | ⟨_, _⟩⟩⟩) frame later split
    all_goals
      simp only [List.nil_append, List.cons_append, List.cons.injEq] at split
    · obtain ⟨rfl, -⟩ := split
      decide
    · obtain ⟨rfl, rfl, -⟩ := split
      decide
    · obtain ⟨rfl, rfl, rfl, -⟩ := split
      decide
    · simp at split
  have played := played_run (ε := String) consistent empty ⟨true, 1, by decide⟩
    ({} : LabelSource) rising
  obtain ⟨-, -, -, complete⟩ := linearized_playback created _ emptied ⟨true, 1, by decide⟩ rfl
    ({} : LabelSource) rising
  obtain ⟨requests, served⟩ := complete 4 rfl near
  refine ⟨created, emptied, requests,
    (served ?whole (Nat.le_of_eq room.symm) [4] (by simp) 2 (by decide)).2⟩
  intro frame reason failed
  rw [calls, played.feed_eq] at failed
  let answered (call : Call String String) : Bool :=
    call.fetched?.all fun frame => (call.delivered? frame).isSome
  have noFailure := List.all_eq_true (p := answered).mp (by decide +kernel) _ failed
  simp [answered, Call.fetched?, Call.delivered?] at noFailure

end Session

end FrameKeep
