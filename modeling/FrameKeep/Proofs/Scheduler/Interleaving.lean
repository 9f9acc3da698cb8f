import FrameKeep.Proofs.Scheduler.Phases
import FrameKeep.Scheduler.Session

/-!
# Interleaved phases

Whatever is done in a session is one of a few moves (`Moves`), so what every move keeps is kept by
every interleaving of the phases of any number of workers. A ticket stands for the same pending
request for ever, and every ticket was issued by one first phase.
-/

namespace FrameKeep.Session

variable {σ φ ε : Type}

/-- A session with a scheduler that was not used yet. -/
def start (config : Config) (source : σ) (cache : Cache FrameIndex φ) : Session σ φ ε :=
  { scheduler := .start config source cache }

/-- The calls made to the source so far. -/
def calls (session : Session σ φ ε) : List (Call φ ε) := session.scheduler.feed.calls.toList

variable [FrameSource σ φ ε]

/-! ### Moves -/

/-- What an operation does to a session. -/
inductive Moves (session : Session σ φ ε) : Op φ → Session σ φ ε → Prop where
  /-- The cache is used. -/
  | use (op : Cache.Op FrameIndex φ) :
    session.Moves (.cache op) { session with scheduler := session.scheduler.use op }
  /-- A live frame is looked up. -/
  | serve {op : Op φ} {frame : FrameIndex} {payload : φ}
    (wants : op = .initial frame ∨ op = .abandon frame ∨ op = .getFrame frame)
    (live : session.scheduler.Serves frame payload) :
    session.Moves op { session with scheduler := session.scheduler.use (.get frame) }
  /-- A frame is asked for, and a ticket issued. -/
  | ask {frame : FrameIndex} (idle : ∀ payload, ¬ session.scheduler.Serves frame payload) :
    session.Moves (.initial frame)
      { scheduler := (session.scheduler.use (.get frame)).ask frame
        tickets := session.tickets.push (session.scheduler.plan frame) }
  /-- A frame is asked for, and no ticket issued. -/
  | abandon {frame : FrameIndex} (idle : ∀ payload, ¬ session.scheduler.Serves frame payload) :
    session.Moves (.abandon frame)
      { session with scheduler := (session.scheduler.use (.get frame)).ask frame }
  /-- What a ticket stands for is collected. -/
  | collect {ticket : Nat} {pending : Pending} (issued : session.tickets[ticket]? = some pending) :
    session.Moves (.ready ticket) { session with scheduler := session.scheduler.collect pending }
  /-- A ticket was never issued. -/
  | ignore {ticket : Nat} (unissued : session.tickets[ticket]? = none) :
    session.Moves (.ready ticket) session
  /-- A frame is asked for, and what was asked for is collected. -/
  | fetch {frame : FrameIndex} (idle : ∀ payload, ¬ session.scheduler.Serves frame payload) :
    session.Moves (.getFrame frame)
      { session with
        scheduler := ((session.scheduler.use (.get frame)).ask frame).collect
          (session.scheduler.plan frame) }

variable {session : Session σ φ ε} {frame : FrameIndex}

/-- However a session moves, all parts of its cache agree. -/
theorem Moves.consistent {op : Op φ} {after : Session σ φ ε} (moves : session.Moves op after)
    (consistent : session.scheduler.cache.Consistent) : after.scheduler.cache.Consistent := by
  cases moves with
  | use op => exact consistent.perform op
  | serve => exact consistent.perform _
  | ask => exact consistent.perform _
  | abandon => exact consistent.perform _
  | collect => exact consistent.run _
  | ignore => exact consistent
  | fetch => exact (consistent.perform _).run _

/-- A ticket stays what it was issued for. -/
theorem Moves.tickets {op : Op φ} {after : Session σ φ ε} (moves : session.Moves op after)
    {ticket : Nat} {pending : Pending} (issued : session.tickets[ticket]? = some pending) :
    after.tickets[ticket]? = some pending := by
  cases moves with
  | ask idle =>
    obtain ⟨inBounds, -⟩ := Array.getElem?_eq_some_iff.mp issued
    rw [Array.getElem?_push_lt inBounds, ← issued, Array.getElem?_eq_getElem inBounds]
  | use | serve | abandon | collect | ignore | fetch => exact issued

/-- Nothing is taken back from the log. -/
theorem Moves.calls_prefix {op : Op φ} {after : Session σ φ ε} (moves : session.Moves op after) :
    session.calls <+: after.calls := by
  cases moves with
  | use | serve | ignore => exact List.prefix_rfl
  | ask => exact Scheduler.prefix_calls_ask ..
  | abandon => exact Scheduler.prefix_calls_ask ..
  | collect => exact Scheduler.prefix_calls_collect ..
  | fetch => exact (Scheduler.prefix_calls_ask ..).trans (Scheduler.prefix_calls_collect ..)

variable [ToString ε]

/-! ### First phases -/

/-- A live frame is ready at once, without a ticket. -/
theorem perform_initial_of_live (consistent : session.scheduler.cache.Consistent) {payload : φ}
    (live : session.scheduler.Serves frame payload) :
    session.perform (.initial frame) =
      .done (.activation (.ready payload) none)
        { session with scheduler := session.scheduler.use (.get frame) } := by
  simp only [perform, initial, onScheduler, session.scheduler.initial_of_live consistent live]
  rfl

/-- A frame that is not live is pending, its plan is requested and a ticket is issued for it. -/
theorem perform_initial_of_idle (consistent : session.scheduler.cache.Consistent)
    (idle : ∀ payload, ¬ session.scheduler.Serves frame payload) :
    (session.perform (.initial frame)).result =
        .ok (.activation (.pending (session.scheduler.plan frame)) (some session.tickets.size)) ∧
      (session.perform (.initial frame)).state =
        { scheduler := (session.scheduler.use (.get frame)).ask frame
          tickets := session.tickets.push (session.scheduler.plan frame) } := by
  obtain ⟨result, state⟩ := session.scheduler.initial_of_idle consistent idle
  constructor
  · simp only [perform, initial, onScheduler, Step.within, Step.andThen, Step.map, Step.done,
      result]
    rfl
  · simp only [perform, initial, onScheduler, Step.within, Step.andThen, Step.map, Step.done,
      result, state]

/-! ### Second phases -/

/-- Completing a ticket fetches its plan, the frame itself last, and answers with what that comes
to. -/
theorem perform_ready (consistent : session.scheduler.cache.Consistent) {ticket : Nat}
    {pending : Pending} (issued : session.tickets[ticket]? = some pending) :
    ∃ answers answer,
      (session.perform (.ready ticket)).result = .ok (.fetched (some answer)) ∧
      (session.perform (.ready ticket)).state =
        { session with scheduler := session.scheduler.collect pending } ∧
      (answers ++ [(pending.frame, answer)]).map (·.1) = pending.requested ∧
      (session.perform (.ready ticket)).state.calls =
        session.calls ++ fetchCalls (answers ++ [(pending.frame, answer)]) := by
  obtain ⟨answers, answer, result, state, frames, calls⟩ :=
    session.scheduler.exists_ready consistent pending
  have state' : (session.perform (.ready ticket)).state =
        { session with scheduler := session.scheduler.collect pending } := by
    simp only [perform, ready, issued, onScheduler, Step.within, Step.map, state]
  refine ⟨answers, answer, ?_, state', frames, ?_⟩
  · simp only [perform, ready, issued, onScheduler, Step.within, Step.map, result]
    rfl
  · rw [state']
    exact calls

/-! ### Both phases -/

/-- Getting a live frame serves its payload and fetches nothing. -/
theorem perform_getFrame_of_live (consistent : session.scheduler.cache.Consistent) {payload : φ}
    (live : session.scheduler.Serves frame payload) :
    session.perform (.getFrame frame) =
      .done (.fetched (some (.ok payload)))
        { session with scheduler := session.scheduler.use (.get frame) } := by
  simp only [perform, onScheduler, session.scheduler.getFrame_of_live consistent live]
  rfl

/-- Getting a frame that is not live requests its plan, fetches it and answers with the frame
itself. -/
theorem perform_getFrame_of_idle (consistent : session.scheduler.cache.Consistent)
    (idle : ∀ payload, ¬ session.scheduler.Serves frame payload) :
    ∃ answers answer,
      (session.perform (.getFrame frame)).result = .ok (.fetched (some answer)) ∧
      (session.perform (.getFrame frame)).state =
        { session with
          scheduler := ((session.scheduler.use (.get frame)).ask frame).collect
            (session.scheduler.plan frame) } ∧
      (answers ++ [(frame, answer)]).map (·.1) = (session.scheduler.plan frame).requested ∧
      (session.perform (.getFrame frame)).state.calls =
        session.calls ++ (session.scheduler.plan frame).requested.map .request ++
          fetchCalls (answers ++ [(frame, answer)]) := by
  obtain ⟨result, state⟩ := session.scheduler.getFrame_of_idle consistent idle
  have asked : ((session.scheduler.use (.get frame)).ask frame).cache.Consistent :=
    consistent.perform (.get frame)
  obtain ⟨answers, answer, resultReady, stateReady, frames, calls⟩ :=
    Scheduler.exists_ready asked (session.scheduler.plan frame)
  have state' : (session.perform (.getFrame frame)).state =
      { session with
        scheduler := ((session.scheduler.use (.get frame)).ask frame).collect
          (session.scheduler.plan frame) } := by
    simp only [perform, onScheduler, Step.within, Step.map, state, stateReady]
  refine ⟨answers, answer, ?_, state', frames, ?_⟩
  · simp only [perform, onScheduler, Step.within, Step.map, result, resultReady]
    rfl
  · rw [state', Session.calls, calls]
    exact congrArg (· ++ _) (Feed.calls_requestAll ..)

/-! ### Runs -/

/-- Every operation is one of the moves. -/
theorem moves_perform (consistent : session.scheduler.cache.Consistent) (op : Op φ) :
    session.Moves op (session.perform op).state := by
  -- Whether the frame is live decides how a first phase goes on.
  have served (frame : FrameIndex) :
      (∃ payload, session.scheduler.Serves frame payload) ∨
        ∀ payload, ¬ session.scheduler.Serves frame payload :=
    (Classical.em _).imp_right not_exists.mp
  cases op with
  | initial frame =>
    rcases served frame with ⟨payload, live⟩ | idle
    · rw [perform_initial_of_live consistent live]
      exact .serve (.inl rfl) live
    · rw [(perform_initial_of_idle consistent idle).2]
      exact .ask idle
  | abandon frame =>
    rcases served frame with ⟨payload, live⟩ | idle
    · have state : (session.perform (.abandon frame)).state =
          { session with scheduler := session.scheduler.use (.get frame) } := by
        simp only [perform, onScheduler, Step.within, Step.map, Step.done,
          session.scheduler.initial_of_live consistent live]
      rw [state]
      exact .serve (.inr (.inl rfl)) live
    · have state : (session.perform (.abandon frame)).state =
          { session with scheduler := (session.scheduler.use (.get frame)).ask frame } := by
        simp only [perform, onScheduler, Step.within, Step.map,
          (session.scheduler.initial_of_idle consistent idle).2]
      rw [state]
      exact .abandon idle
  | ready ticket =>
    cases issued : session.tickets[ticket]? with
    | none =>
      have state : (session.perform (.ready ticket)).state = session := by
        simp only [perform, ready, issued, Step.map, Step.done]
      rw [state]
      exact .ignore issued
    | some pending =>
      obtain ⟨-, -, -, state, -⟩ := perform_ready consistent issued
      rw [state]
      exact .collect issued
  | getFrame frame =>
    rcases served frame with ⟨payload, live⟩ | idle
    · rw [perform_getFrame_of_live consistent live]
      exact .serve (.inr (.inr rfl)) live
    · obtain ⟨-, -, -, state, -⟩ := perform_getFrame_of_idle consistent idle
      rw [state]
      exact .fetch idle
  | cache op => exact .use op

/-- A run in two parts is the second part run from where the first ends. -/
theorem run_append (session : Session σ φ ε) (earlier later : List (Op φ)) :
    session.run (earlier ++ later) = (session.run earlier).run later := List.foldl_append

/-- The last operation of a run is performed where the others end. -/
theorem run_concat (session : Session σ φ ε) (earlier : List (Op φ)) (last : Op φ) :
    session.run (earlier ++ [last]) = ((session.run earlier).perform last).state := run_append ..

/-- All parts of the cache of a session agree after any run. -/
theorem consistent_run (consistent : session.scheduler.cache.Consistent) (ops : List (Op φ)) :
    (session.run ops).scheduler.cache.Consistent := by
  induction ops generalizing session with
  | nil => exact consistent
  | cons op rest ih => exact ih ((moves_perform consistent op).consistent consistent)

/-- What every move of some kind keeps is kept by a run of such moves. -/
theorem run_induction (consistent : session.scheduler.cache.Consistent)
    (holds : Session σ φ ε → Prop) (allowed : Op φ → Prop) {ops : List (Op φ)}
    (initial : holds session)
    (step : ∀ {state after op}, state.scheduler.cache.Consistent → allowed op → holds state →
      state.Moves op after → holds after)
    (all : ∀ op ∈ ops, allowed op) : holds (session.run ops) := by
  induction ops generalizing session with
  | nil => exact initial
  | cons op rest ih =>
    have moves := moves_perform consistent op
    apply ih (moves.consistent consistent)
    · exact step consistent (all op List.mem_cons_self) initial moves
    · exact fun later member => all later (List.mem_cons_of_mem _ member)

/-! ### Tickets -/

/-- A ticket is never withdrawn. -/
theorem tickets_run (consistent : session.scheduler.cache.Consistent) {ticket : Nat}
    {pending : Pending} (issued : session.tickets[ticket]? = some pending) (ops : List (Op φ)) :
    (session.run ops).tickets[ticket]? = some pending :=
  run_induction consistent (·.tickets[ticket]? = some pending) (fun _ => True) issued
    (fun _ _ issued moves => moves.tickets issued) (fun _ _ => trivial)

/-- Among the operations `ops`, the first phase for `frame` that follows `before` issued `ticket`
for a pending request. -/
structure Issues (start : Session σ φ ε) (ops before : List (Op φ)) (frame : FrameIndex)
    (ticket : Nat) (pending : Pending) : Prop where
  ops_eq : ∃ after, ops = before ++ .initial frame :: after
  result_eq : ((start.run before).perform (.initial frame)).result =
    .ok (.activation (.pending pending) (some ticket))

namespace Issues

variable {start : Session σ φ ε} {ops before : List (Op φ)} {ticket : Nat} {pending : Pending}

private theorem concat (issues : start.Issues ops before frame ticket pending) (last : Op φ) :
    start.Issues (ops ++ [last]) before frame ticket pending := by
  obtain ⟨⟨after, rfl⟩, result⟩ := issues
  exact ⟨⟨after ++ [last], by simp⟩, result⟩

/-- A ticket is issued for what is asked for on behalf of a frame that is not live. -/
theorem idle (issues : start.Issues ops before frame ticket pending)
    (consistent : start.scheduler.cache.Consistent) :
    (∀ payload, ¬ (start.run before).scheduler.Serves frame payload) ∧
      pending = (start.run before).scheduler.plan frame ∧
      ticket = (start.run before).tickets.size := by
  have consistentBefore := consistent_run consistent before
  by_cases live : ∃ payload, (start.run before).scheduler.Serves frame payload
  · obtain ⟨payload, live⟩ := live
    have served := issues.result_eq
    rw [perform_initial_of_live consistentBefore live] at served
    simp [Step.done] at served
  · have idle := not_exists.mp live
    have asked := issues.result_eq
    rw [(perform_initial_of_idle consistentBefore idle).1] at asked
    simp only [Except.ok.injEq, Answer.activation.injEq, Activation.pending.injEq,
      Option.some.injEq] at asked
    exact ⟨idle, asked.1.symm, asked.2.symm⟩

/-- Once issued, a ticket stands for its pending request. -/
theorem tickets (issues : start.Issues ops before frame ticket pending)
    (consistent : start.scheduler.cache.Consistent) :
    (start.run ops).tickets[ticket]? = some pending := by
  obtain ⟨idle, rfl, rfl⟩ := issues.idle consistent
  obtain ⟨after, rfl⟩ := issues.ops_eq
  have consistentBefore := consistent_run consistent before
  have moves := moves_perform consistentBefore (.initial frame)
  rw [run_append]
  apply tickets_run (moves.consistent consistentBefore)
  rw [(perform_initial_of_idle consistentBefore idle).2]
  exact Array.getElem?_push_size

end Issues

/-- Every ticket was issued by a first phase. -/
theorem exists_issues {start : Session σ φ ε} (consistent : start.scheduler.cache.Consistent)
    (new : start.tickets = #[]) {ops : List (Op φ)} {ticket : Nat} {pending : Pending}
    (issued : (start.run ops).tickets[ticket]? = some pending) :
    ∃ before frame, start.Issues ops before frame ticket pending := by
  induction ops using List.reverseRecOn with
  | nil => simp [run, new] at issued
  | append_singleton earlier op ih =>
    -- A ticket was issued by an earlier operation, or else by the last one.
    have still (before : (start.run earlier).tickets[ticket]? = some pending) :
        ∃ before frame, start.Issues (earlier ++ [op]) before frame ticket pending := by
      obtain ⟨upper, frame, issues⟩ := ih before
      exact ⟨upper, frame, issues.concat op⟩
    have consistentEarlier := consistent_run consistent earlier
    rw [run_concat] at issued
    generalize after_eq : ((start.run earlier).perform op).state = after at issued
    have moves := moves_perform consistentEarlier op
    rw [after_eq] at moves
    cases moves with
    | use | serve | abandon | collect | ignore | fetch => exact still issued
    | @ask frame idle =>
      rw [Array.getElem?_push] at issued
      split at issued
      next newest =>
        obtain rfl := Option.some.inj issued
        obtain ⟨result, -⟩ := perform_initial_of_idle consistentEarlier idle
        exact ⟨earlier, frame, ⟨[], rfl⟩, newest ▸ result⟩
      next => exact still issued

end FrameKeep.Session
