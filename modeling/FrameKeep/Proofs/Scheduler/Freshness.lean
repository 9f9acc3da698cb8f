import Mathlib
import FrameKeep.Proofs.Cache.Coherence
import FrameKeep.Proofs.Scheduler.Interleaving

/-!
# Freshness

As long as only the scheduler stores frames in its cache, every payload in the cache is the one that
the source delivered last for that very frame, however the phases of different workers overlap. So
a frame served from the cache is the latest there is, and any other is what the source has just
answered.
-/

namespace FrameKeep

namespace Cache

variable {κ ν : Type} [DecidableEq κ] [Hashable κ]

/-- The payloads in the cache are those that `latest` has for their keys. -/
def Reflects (cache : Cache κ ν) (latest : κ → Option ν) : Prop :=
  ∀ key payload, { key, payload := some payload } ∈ cache.entries → latest key = some payload

variable {cache : Cache κ ν} {latest later : κ → Option ν}

/-- Only an insertion brings a payload into the cache. -/
theorem Reflects.perform (reflects : cache.Reflects latest) (consistent : cache.Consistent)
    {op : Op κ ν} (kept : ∀ key, ¬ op.Inserts key) : (cache.perform op).state.Reflects latest := by
  intro key payload live
  obtain ⟨-, inserted | ⟨-, -, before⟩⟩ := consistent.live_perform_iff.mp live
  · exact absurd ⟨payload, inserted⟩ (kept key)
  · exact reflects key payload before

/-- A payload that is stored when it is the latest of its key is reflected. -/
theorem Reflects.insert (reflects : cache.Reflects latest) (consistent : cache.Consistent)
    {key : κ} {payload : ν} (stored : later key = some payload)
    (others : ∀ other, other ≠ key → later other = latest other) :
    (cache.perform (.insert key payload)).state.Reflects later := by
  intro other held live
  obtain ⟨-, inserted | ⟨apart, -, before⟩⟩ := consistent.live_perform_iff.mp live
  · obtain ⟨rfl, rfl⟩ := Op.insert.inj inserted
    exact stored
  · rw [others other fun same => apart ⟨payload, by rw [same]⟩]
    exact reflects other held before

end Cache

variable {σ φ ε : Type}

/-- The cache of a scheduler holds what the source delivered last. -/
def Scheduler.UpToDate (scheduler : Scheduler σ φ ε) : Prop :=
  scheduler.cache.Reflects scheduler.feed.latest?

/-- Using the cache without an insertion leaves the live payloads up to date. -/
theorem Scheduler.UpToDate.use {scheduler : Scheduler σ φ ε} (upToDate : scheduler.UpToDate)
    (consistent : scheduler.cache.Consistent) {op : Cache.Op FrameIndex φ}
    (kept : ∀ frame, ¬ op.Inserts frame) : (scheduler.use op).UpToDate :=
  upToDate.perform consistent kept

private theorem Scheduler.UpToDate.get {scheduler : Scheduler σ φ ε} (upToDate : scheduler.UpToDate)
    (consistent : scheduler.cache.Consistent) (frame : FrameIndex) :
    (scheduler.use (.get frame)).UpToDate :=
  upToDate.use consistent (by rintro _ ⟨-, ⟨⟩⟩)

variable [FrameSource σ φ ε]

namespace Scheduler

variable {scheduler : Scheduler σ φ ε}

/-- Asking for frames delivers nothing. -/
theorem UpToDate.ask (upToDate : scheduler.UpToDate) (frame : FrameIndex) :
    (scheduler.ask frame).UpToDate := by
  intro other payload live
  exact (Feed.latest?_requestAll ..).trans (upToDate other payload live)

/-- Collecting a pending request leaves the live payloads up to date. -/
theorem UpToDate.collect (upToDate : scheduler.UpToDate) (consistent : scheduler.cache.Consistent)
    (pending : Pending) : (scheduler.collect pending).UpToDate :=
  fetchAll_induction consistent Cache.Reflects upToDate
    fun consistent _ reflects stored others => reflects.insert consistent stored others

end Scheduler

namespace Session

/-- The operation stores a payload in the cache from outside. -/
def Op.Stores (op : Op φ) : Prop := ∃ frame payload, op = .cache (.insert frame payload)

/-- However a session moves, live payloads stay up to date unless one is stored from outside. -/
theorem Moves.upToDate {session after : Session σ φ ε} {op : Op φ} (moves : session.Moves op after)
    (consistent : session.scheduler.cache.Consistent) (kept : ¬ op.Stores)
    (upToDate : session.scheduler.UpToDate) : after.scheduler.UpToDate := by
  cases moves with
  | use op =>
    apply upToDate.use consistent
    rintro frame ⟨payload, rfl⟩
    exact kept ⟨frame, payload, rfl⟩
  | serve => exact upToDate.get consistent _
  | ask => exact (upToDate.get consistent _).ask _
  | abandon => exact (upToDate.get consistent _).ask _
  | collect => exact upToDate.collect consistent _
  | ignore => exact upToDate
  | fetch =>
    exact ((upToDate.get consistent _).ask _).collect (consistent.perform (.get _)) _

variable [ToString ε]

/-- Live payloads stay up to date in any run that stores none from outside. -/
theorem upToDate_run {session : Session σ φ ε} (consistent : session.scheduler.cache.Consistent)
    (upToDate : session.scheduler.UpToDate) {ops : List (Op φ)}
    (kept : ∀ op ∈ ops, ¬ op.Stores) : (session.run ops).scheduler.UpToDate :=
  run_induction consistent (·.scheduler.UpToDate) (¬ ·.Stores) upToDate
    (fun consistent kept upToDate moves => moves.upToDate consistent kept upToDate) kept

/-- After any interleaving of phases and of cache operations other than insertions, on a cache that
was empty at first: every live frame holds what was delivered for it last; a frame that is served
from the cache comes with that payload and without a call to the source; and any other request is
answered with the answer of the fetch that was just made for its frame. -/
theorem serves_latest_fetch {maxFrames maxHistory : Nat} {fixed : Bool}
    {new : Cache FrameIndex φ} (created : Cache.create maxFrames maxHistory fixed = .ok new)
    (used : List (Cache.Op FrameIndex φ)) (emptied : (new.run used).isEmpty) (config : Config)
    (source : σ) (ops : List (Op φ)) (kept : ∀ op ∈ ops, ¬ op.Stores) :
    let start : Session σ φ ε := Session.start config source (new.run used)
    let session := start.run ops
    let latest? := session.scheduler.feed.latest?
    (∀ frame payload, { key := frame, payload := some payload } ∈ session.scheduler.cache.entries →
        latest? frame = some payload) ∧
      (∀ frame payload ticket?,
        (session.perform (.initial frame)).result = .ok (.activation (.ready payload) ticket?) →
        latest? frame = some payload ∧
          (session.perform (.initial frame)).state.calls = session.calls) ∧
      (∀ frame, ∃ answer,
        (session.perform (.getFrame frame)).result = .ok (.fetched (some answer)) ∧
          ((∃ payload, answer = .ok payload ∧ latest? frame = some payload ∧
              (session.perform (.getFrame frame)).state.calls = session.calls) ∨
            ∃ made, (session.perform (.getFrame frame)).state.calls =
              session.calls ++ made ++ [.fetch frame answer])) ∧
      ∀ before frame ticket pending, start.Issues ops before frame ticket pending →
        ∃ answer made,
          (session.perform (.ready ticket)).result = .ok (.fetched (some answer)) ∧
            (session.perform (.ready ticket)).state.calls =
              session.calls ++ made ++ [.fetch frame answer] := by
  obtain ⟨-, rfl⟩ := Cache.create_eq_ok_iff.mp created
  intro start session latest?
  have startConsistent : start.scheduler.cache.Consistent :=
    (Cache.consistent_empty maxFrames maxHistory fixed).run used
  have startUpToDate : start.scheduler.UpToDate := by
    intro frame payload live
    rw [startConsistent.isEmpty_iff.mp emptied] at live
    nomatch live
  have consistent : session.scheduler.cache.Consistent := consistent_run startConsistent ops
  have upToDate : session.scheduler.UpToDate := upToDate_run startConsistent startUpToDate kept
  refine ⟨upToDate, fun frame payload ticket? served => ?_, fun frame => ?_, ?_⟩
  · by_cases live : ∃ payload, session.scheduler.Serves frame payload
    · obtain ⟨held, live⟩ := live
      rw [perform_initial_of_live consistent live] at served ⊢
      obtain ⟨rfl, -⟩ : held = payload ∧ none = ticket? := by simpa [Step.done] using served
      exact ⟨upToDate frame held live, rfl⟩
    · rw [(perform_initial_of_idle consistent (not_exists.mp live)).1] at served
      simp at served
  · by_cases live : ∃ payload, session.scheduler.Serves frame payload
    · obtain ⟨payload, live⟩ := live
      rw [perform_getFrame_of_live consistent live]
      exact ⟨.ok payload, rfl, .inl ⟨payload, rfl, upToDate frame payload live, rfl⟩⟩
    · obtain ⟨answers, answer, result, -, -, calls⟩ :=
        perform_getFrame_of_idle consistent (not_exists.mp live)
      refine ⟨answer, result, .inr ⟨(session.scheduler.plan frame).requested.map .request ++
        fetchCalls answers, ?_⟩⟩
      rw [calls, fetchCalls_concat]
      simp only [List.append_assoc]
  · intro before frame ticket pending issues
    obtain ⟨-, plan, -⟩ := issues.idle startConsistent
    obtain ⟨answers, answer, result, -, -, calls⟩ :=
      perform_ready consistent (issues.tickets startConsistent)
    refine ⟨answer, fetchCalls answers, result, ?_⟩
    rw [calls, fetchCalls_concat, List.append_assoc, plan]
    rfl

/-- A frame that one worker has fetched alone is served as it came back later, in the batch that
another worker had asked for before. -/
theorem serves_latest_fetch_of_overlap :
    let new : Cache FrameIndex String := .empty 3 2 false
    let used : List (Cache.Op FrameIndex String) := [.insert 1 "old", .clear]
    let start : Session LabelSource String String :=
      Session.start ⟨true, 4, by decide⟩ {} (new.run used)
    let session := start.run [.initial 2, .getFrame 1, .ready 0, .cache (.trim 2 2)]
    Cache.create 3 2 false = .ok new ∧ (new.run used).isEmpty ∧
      (session.perform (.initial 1)).result = .ok (.activation (.ready "1@2") none) ∧
      session.scheduler.feed.latest? 1 = some "1@2" := by
  intro new used start session
  have created : Cache.create 3 2 false = .ok new := Cache.create_eq_ok_iff.mpr ⟨by decide, rfl⟩
  have newCache : new.Consistent := Cache.consistent_empty 3 2 false
  have emptied : (new.run used).isEmpty :=
    (newCache.run used).isEmpty_iff.mpr (congrArg PlainCache.entries (newCache.toPlain_run used))
  have served : (session.perform (.initial 1)).result =
      .ok (.activation (.ready "1@2") none) := by
    -- `cbv` takes the equations of words, options and orders from where the library states them,
    -- which is why all of it is imported.
    dsimp only [session, start, new, used]
    cbv
  have kept : ∀ op ∈ ([.initial 2, .getFrame 1, .ready 0, .cache (.trim 2 2)] : List (Op String)),
      ¬ op.Stores := by
    rintro op member ⟨frame, payload, rfl⟩
    simp at member
  have fresh := serves_latest_fetch created used emptied ⟨true, 4, by decide⟩ ({} : LabelSource) _
    kept
  exact ⟨created, emptied, served, (fresh.2.1 1 "1@2" none served).1⟩

end Session

end FrameKeep
