import Mathlib
import FrameKeep.Proofs.Scheduler.Interleaving

/-!
# Requests and fetches

A source is never asked for a frame that was not announced to it. What a second phase fetches is
what the first phase of the same ticket has requested, and where every ticket is completed once, as
many fetches as requests are made of every frame.
-/

namespace FrameKeep

variable {σ φ ε : Type}

/-! ### Fetches come after requests -/

/-- Every fetch of a frame comes after a request for it. -/
def Announced (calls : List (Call φ ε)) : Prop :=
  ∀ earlier frame answer later, calls = earlier ++ .fetch frame answer :: later →
    .request frame ∈ earlier

namespace Announced

variable {calls : List (Call φ ε)}

private theorem nil : Announced ([] : List (Call φ ε)) := by
  intro earlier frame answer later split
  simp at split

/-- Whether a call may follow is decided by that call alone. -/
theorem concat (announced : Announced calls) {call : Call φ ε}
    (last : ∀ frame answer, call = .fetch frame answer → .request frame ∈ calls) :
    Announced (calls ++ [call]) := by
  intro earlier frame answer later split
  rcases later.eq_nil_or_concat with rfl | ⟨between, newest, rfl⟩
  · obtain ⟨rfl, same⟩ := List.append_inj' split rfl
    exact last frame answer (List.singleton_inj.mp same)
  · rw [List.concat_eq_append, ← List.cons_append, ← List.append_assoc] at split
    obtain ⟨rfl, -⟩ := List.append_inj' split rfl
    exact announced earlier frame answer between rfl

/-- Requests may come at any time. -/
theorem append_requests (announced : Announced calls) (frames : List FrameIndex) :
    Announced (calls ++ frames.map .request) := by
  induction frames generalizing calls with
  | nil => simpa using announced
  | cons frame rest ih =>
    have next : Announced (calls ++ [.request frame]) := announced.concat nofun
    simpa using ih next

/-- Fetches may come once their frames are requested. -/
theorem append_fetches (announced : Announced calls) {answers : List (FrameIndex × Except ε φ)}
    (requested : ∀ frame ∈ answers.map (·.1), .request frame ∈ calls) :
    Announced (calls ++ fetchCalls answers) := by
  induction answers generalizing calls with
  | nil => simpa [fetchCalls] using announced
  | cons first rest ih =>
    obtain ⟨frame, answer⟩ := first
    rw [List.map_cons, List.forall_mem_cons] at requested
    have next : Announced (calls ++ [.fetch frame answer]) := by
      apply announced.concat
      rintro _ _ ⟨⟩
      exact requested.1
    have still : ∀ other ∈ rest.map (·.1), .request other ∈ calls ++ [.fetch frame answer] :=
      fun other member => List.mem_append_left _ (requested.2 other member)
    simpa [fetchCalls] using ih next still

end Announced

namespace Session

/-- Every fetch was announced, and so was every frame that a ticket stands for. -/
structure Disciplined (session : Session σ φ ε) : Prop where
  announced : Announced session.calls
  requested : ∀ (ticket : Nat) (pending : Pending), session.tickets[ticket]? = some pending →
    ∀ frame ∈ pending.requested, .request frame ∈ session.calls

/-! ### As many fetches as requests -/

/-- All that a ticket stands for. -/
def requestedFor (tickets : Array Pending) (ticket : Nat) : List FrameIndex :=
  tickets[ticket]?.elim [] Pending.requested

/-- The ticket that an operation completes, if it completes one. -/
def completes (session : Session σ φ ε) : Op φ → List Nat
  | .ready ticket => if ticket < session.tickets.size then [ticket] else []
  | .initial _ | .abandon _ | .getFrame _ | .cache _ => []

/-- The tickets `done` were completed, and `direct` was asked for and collected without a ticket;
apart from that, what was requested is what the tickets stand for. -/
structure Balanced (session : Session σ φ ε) (done : List Nat) (direct : List FrameIndex) :
    Prop where
  issued : ∀ ticket ∈ done, ticket < session.tickets.size
  requests : session.scheduler.feed.requests.Perm
    (direct ++ session.tickets.toList.flatMap Pending.requested)
  fetches : session.scheduler.feed.fetches.Perm
    (direct ++ done.flatMap (requestedFor session.tickets))

private theorem flatMap_requestedFor (tickets : Array Pending) :
    (List.range tickets.size).flatMap (requestedFor tickets) =
      tickets.toList.flatMap Pending.requested := by
  rw [List.flatMap_def, List.flatMap_def]
  congr 1
  apply List.ext_getElem
  · simp
  · intro ticket inRange inTickets
    have issued : ticket < tickets.size := by simpa using inRange
    simp [requestedFor, issued]

/-- Where every ticket was completed once, every frame was fetched as often as requested. -/
theorem Balanced.fetches_perm_requests {session : Session σ φ ε} {done : List Nat}
    {direct : List FrameIndex} (balanced : session.Balanced done direct)
    (once : done.Perm (List.range session.tickets.size)) :
    session.scheduler.feed.fetches.Perm session.scheduler.feed.requests := by
  have all := once.flatMap_right (requestedFor session.tickets)
  rw [flatMap_requestedFor] at all
  exact balanced.fetches.trans ((all.append_left direct).trans balanced.requests.symm)

variable [FrameSource σ φ ε] {session after : Session σ φ ε} {op : Op φ}

/-! ### Moves -/

/-- However a session moves, it stays disciplined. -/
theorem Moves.disciplined (moves : session.Moves op after) (disciplined : session.Disciplined) :
    after.Disciplined := by
  obtain ⟨announced, requested⟩ := disciplined
  have still (ticket : Nat) (pending : Pending) (issued : session.tickets[ticket]? = some pending)
      (frame : FrameIndex) (member : frame ∈ pending.requested) : .request frame ∈ after.calls :=
    moves.calls_prefix.subset (requested ticket pending issued frame member)
  cases moves with
  | use | serve | ignore => exact ⟨announced, requested⟩
  | @ask frame idle =>
    have calls := (session.scheduler.use (.get frame)).calls_ask frame
    constructor
    · rw [Session.calls, calls]
      exact announced.append_requests _
    · intro ticket pending issued other member
      rw [Array.getElem?_push] at issued
      split at issued
      next =>
        obtain rfl := Option.some.inj issued
        rw [Session.calls, calls]
        exact List.mem_append_right _ (List.mem_map_of_mem member)
      next => exact still ticket pending issued other member
  | @abandon frame idle =>
    refine ⟨?_, still⟩
    rw [Session.calls, Scheduler.calls_ask]
    exact announced.append_requests _
  | @collect ticket pending issued =>
    obtain ⟨answers, frames, calls⟩ := session.scheduler.exists_calls_collect pending
    refine ⟨?_, still⟩
    rw [Session.calls, calls]
    exact announced.append_fetches (frames ▸ requested ticket pending issued)
  | @fetch frame idle =>
    obtain ⟨answers, frames, calls⟩ :=
      ((session.scheduler.use (.get frame)).ask frame).exists_calls_collect
        (session.scheduler.plan frame)
    refine ⟨?_, still⟩
    rw [Session.calls, calls, Scheduler.calls_ask]
    apply (announced.append_requests _).append_fetches
    rw [frames]
    exact fun other member => List.mem_append_right _ (List.mem_map_of_mem member)

/-- However a session moves without abandoning a request, requests and fetches stay in balance. -/
theorem Moves.exists_balanced (moves : session.Moves op after) (kept : ∀ frame, op ≠ .abandon frame)
    {done : List Nat} {direct : List FrameIndex} (balanced : session.Balanced done direct) :
    ∃ direct, after.Balanced (done ++ session.completes op) direct := by
  obtain ⟨issued, requests, fetches⟩ := balanced
  cases moves with
  | use op => exact ⟨direct, by simpa [completes] using ⟨issued, requests, fetches⟩⟩
  | serve wants =>
    have nothing : session.completes op = [] := by
      rcases wants with rfl | rfl | rfl <;> rfl
    rw [nothing, List.append_nil]
    exact ⟨direct, issued, requests, fetches⟩
  | @ignore ticket unissued =>
    have nothing : session.completes (.ready ticket : Op φ) = [] :=
      if_neg (Nat.not_lt.mpr (Array.getElem?_eq_none_iff.mp unissued))
    rw [nothing, List.append_nil]
    exact ⟨direct, issued, requests, fetches⟩
  | @ask frame idle =>
    have unchanged : done.flatMap
          (requestedFor (session.tickets.push (session.scheduler.plan frame))) =
        done.flatMap (requestedFor session.tickets) := by
      apply List.flatMap_congr
      intro ticket member
      simp [requestedFor, Array.getElem?_push, (issued ticket member).ne]
    refine ⟨direct, ?_, ?_, ?_⟩
    · intro ticket member
      have before := issued ticket (by simpa [completes] using member)
      simp
      omega
    · simpa [List.append_assoc] using requests.append_right _
    · simpa [completes, unchanged] using fetches
  | @abandon frame idle => exact absurd rfl (kept frame)
  | @collect ticket pending known =>
    have inBounds : ticket < session.tickets.size := (Array.getElem?_eq_some_iff.mp known).1
    have completed : session.completes (.ready ticket : Op φ) = [ticket] := if_pos inBounds
    have all : requestedFor session.tickets ticket = pending.requested := by
      simp [requestedFor, known]
    rw [completed]
    refine ⟨direct, ?_, by simpa using requests, ?_⟩
    · intro other member
      rcases List.mem_append.mp member with before | newest
      · exact issued other before
      · exact List.mem_singleton.mp newest ▸ inBounds
    · have collected := fetches.append_right pending.requested
      rw [List.append_assoc] at collected
      simpa [List.flatMap_append, all] using collected
  | @fetch frame idle =>
    have swapped (rest : List FrameIndex) :
        (direct ++ rest ++ (session.scheduler.plan frame).requested).Perm
          (direct ++ (session.scheduler.plan frame).requested ++ rest) := by
      rw [List.append_assoc, List.append_assoc]
      exact List.perm_append_comm.append_left direct
    refine ⟨direct ++ (session.scheduler.plan frame).requested, ?_, ?_, ?_⟩
    · simpa [completes] using issued
    · simpa using (requests.append_right _).trans (swapped _)
    · simpa [completes] using (fetches.append_right _).trans (swapped _)

/-! ### Runs -/

variable [ToString ε]

/-- The tickets that a list of operations completes, in order. -/
def completed (session : Session σ φ ε) : List (Op φ) → List Nat
  | [] => []
  | op :: rest => session.completes op ++ completed (session.perform op).state rest

/-- A session stays disciplined in any run. -/
theorem disciplined_run (consistent : session.scheduler.cache.Consistent)
    (disciplined : session.Disciplined) (ops : List (Op φ)) : (session.run ops).Disciplined :=
  run_induction consistent Disciplined (fun _ => True) disciplined
    (fun _ _ disciplined moves => moves.disciplined disciplined) (fun _ _ => trivial)

/-- Requests and fetches stay in balance in any run that abandons no request. -/
theorem exists_balanced_run (consistent : session.scheduler.cache.Consistent)
    {ops : List (Op φ)} (kept : ∀ frame, .abandon frame ∉ ops) {done : List Nat}
    {direct : List FrameIndex} (balanced : session.Balanced done direct) :
    ∃ direct, (session.run ops).Balanced (done ++ session.completed ops) direct := by
  induction ops generalizing session done direct with
  | nil =>
    rw [completed, List.append_nil]
    exact ⟨direct, balanced⟩
  | cons op rest ih =>
    have moves := moves_perform consistent op
    obtain ⟨between, balancedNext⟩ := moves.exists_balanced
      (fun frame same => kept frame (same ▸ List.mem_cons_self)) balanced
    rw [completed, ← List.append_assoc]
    exact ih (moves.consistent consistent)
      (fun frame member => kept frame (List.mem_cons_of_mem _ member)) balancedNext

/-- After any operations on a scheduler: every fetch of a frame comes after a request for it; a
second phase fetches exactly the frames that the first phase of its ticket requested, in the same
rising order, once each and whatever the answers are; and if no pending request was given up and
every ticket was completed exactly once, then every frame was fetched as often as requested. -/
theorem upstream_discipline {maxFrames maxHistory : Nat} {fixed : Bool}
    {new : Cache FrameIndex φ} (created : Cache.create maxFrames maxHistory fixed = .ok new)
    (config : Config) (source : σ) (ops : List (Op φ)) :
    let start : Session σ φ ε := Session.start config source new
    let session := start.run ops
    (∀ earlier frame answer later, session.calls = earlier ++ .fetch frame answer :: later →
        .request frame ∈ earlier) ∧
      (∀ before frame ticket pending, start.Issues ops before frame ticket pending →
        ∃ frames answers answer, frames.Pairwise (· < ·) ∧
          ((start.run before).perform (.initial frame)).state.calls =
            (start.run before).calls ++ frames.map .request ∧
          (session.perform (.ready ticket)).result = .ok (.fetched (some answer)) ∧
          (session.perform (.ready ticket)).state.calls = session.calls ++ fetchCalls answers ∧
          answers.map (·.1) = frames) ∧
      ((∀ frame, .abandon frame ∉ ops) →
        (start.completed ops).Perm (List.range session.tickets.size) →
        session.scheduler.feed.fetches.Perm session.scheduler.feed.requests) := by
  obtain ⟨-, rfl⟩ := Cache.create_eq_ok_iff.mp created
  intro start session
  have startConsistent : start.scheduler.cache.Consistent :=
    Cache.consistent_empty maxFrames maxHistory fixed
  have startDisciplined : start.Disciplined := ⟨.nil, by simp [start, Session.start]⟩
  have startBalanced : start.Balanced [] [] := ⟨nofun, .nil, .nil⟩
  refine ⟨(disciplined_run startConsistent startDisciplined ops).announced, ?_, ?_⟩
  · intro before frame ticket pending issues
    obtain ⟨idle, plan, -⟩ := issues.idle startConsistent
    obtain ⟨-, asked⟩ := perform_initial_of_idle (consistent_run startConsistent before) idle
    obtain ⟨answers, answer, result, -, frames, calls⟩ :=
      perform_ready (consistent_run startConsistent ops) (issues.tickets startConsistent)
    refine ⟨pending.requested, _, answer, pending.pairwise_requested, ?_, result, calls, frames⟩
    rw [asked, plan]
    exact Scheduler.calls_ask ..
  · intro kept once
    obtain ⟨direct, balanced⟩ := exists_balanced_run startConsistent kept startBalanced
    exact balanced.fetches_perm_requests once

/-- Two batches, of which the later one is completed first, and between them a frame that cannot
be had. -/
theorem upstream_discipline_of_overtaking :
    let new : Cache FrameIndex String := .empty 3 2 false
    let start : Session LabelSource String String :=
      Session.start ⟨true, 4, by decide⟩ { broken := [1] } new
    let ops : List (Op String) := [.initial 2, .getFrame 1, .initial 6, .ready 1, .ready 0]
    let session := start.run ops
    Cache.create 3 2 false = .ok new ∧
      start.Issues ops [.initial 2, .getFrame 1] 6 1 { frame := 6, first := 2 } ∧
      (start.completed ops).Perm (List.range session.tickets.size) ∧
      session.scheduler.feed.fetches.Perm session.scheduler.feed.requests := by
  have created : Cache.create 3 2 false = .ok (.empty 3 2 false : Cache FrameIndex String) :=
    Cache.create_eq_ok_iff.mpr ⟨by decide, rfl⟩
  obtain ⟨-, -, balance⟩ := upstream_discipline created ⟨true, 4, by decide⟩
    ({ broken := [1] } : LabelSource) [.initial 2, .getFrame 1, .initial 6, .ready 1, .ready 0]
  refine ⟨created, ⟨⟨_, rfl⟩, ?issued⟩, ?once, balance ?kept ?once⟩
  -- `cbv` takes the equations of words, options and orders from where the library states them,
  -- which is why all of it is imported.
  case issued => cbv
  case kept => simp
  case once =>
    cbv
    decide

end Session

end FrameKeep
