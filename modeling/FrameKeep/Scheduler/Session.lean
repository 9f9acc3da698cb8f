import FrameKeep.Scheduler.Basic

/-!
# Sessions

The two phases of a request may lie apart, and those of different workers may overlap. A session
keeps what the first phases have left pending under numbered tickets, so that a second phase can
follow at any time, more than once, or never.
-/

namespace FrameKeep

/-- A scheduler and what its first phases have left pending, by ticket. -/
structure Session (σ φ ε : Type) where
  scheduler : Scheduler σ φ ε
  tickets : Array Pending := #[]

namespace Session

variable {σ φ ε : Type}

/-- Uses the scheduler of the session. -/
def onScheduler {α : Type} (session : Session σ φ ε)
    (operation : Scheduler σ φ ε → Step (Scheduler σ φ ε) α) : Step (Session σ φ ε) α :=
  (operation session.scheduler).within fun scheduler => { session with scheduler }

/-- Whether two tickets stand for equal pending requests; two that were never issued do. -/
def samePending (session : Session σ φ ε) (first second : Nat) : Bool :=
  session.tickets[first]? = session.tickets[second]?

variable [FrameSource σ φ ε]

/-- A first phase; what it leaves pending is kept under the next ticket, which is answered too. -/
def initial (session : Session σ φ ε) (frame : FrameIndex) :
    Step (Session σ φ ε) (Activation φ × Option Nat) :=
  (session.onScheduler (·.initial frame)).andThen fun activation session =>
    match activation with
    | .ready _ => .done (activation, none) session
    | .pending pending =>
      .done (activation, some session.tickets.size)
        { session with tickets := session.tickets.push pending }

variable [ToString ε]

/-- A second phase for what a ticket stands for; `none` if the ticket was never issued. -/
def ready (session : Session σ φ ε) (ticket : Nat) :
    Step (Session σ φ ε) (Option (Except ε φ)) :=
  match session.tickets[ticket]? with
  | none => .done none session
  | some pending => (session.onScheduler (·.ready pending)).map some

/-- Something that is done in a session. -/
inductive Op (φ : Type) where
  /-- A first phase that leaves a ticket. -/
  | initial (frame : FrameIndex)
  /-- A first phase without a second one. -/
  | abandon (frame : FrameIndex)
  /-- A second phase. -/
  | ready (ticket : Nat)
  /-- Both phases. -/
  | getFrame (frame : FrameIndex)
  /-- An operation on the cache. -/
  | cache (op : Cache.Op FrameIndex φ)

/-- What is answered in a session. -/
inductive Answer (φ ε : Type) where
  | activation (activation : Activation φ) (ticket? : Option Nat)
  /-- The outcome of a second phase; `none` if there was nothing to fetch for. -/
  | fetched (outcome? : Option (Except ε φ))
  | cache (answer : Cache.Answer φ)

/-- Does one thing in a session. -/
def perform (session : Session σ φ ε) : Op φ → Step (Session σ φ ε) (Answer φ ε)
  | .initial frame =>
    (session.initial frame).map fun (activation, ticket?) => .activation activation ticket?
  | .abandon frame =>
    (session.onScheduler (·.initial frame)).map fun activation => .activation activation none
  | .ready ticket => (session.ready ticket).map .fetched
  | .getFrame frame =>
    (session.onScheduler (·.getFrame frame)).map fun outcome => .fetched (some outcome)
  | .cache op => (session.onScheduler (·.onCache (·.perform op))).map .cache

/-- The session after a list of things were done in it. -/
def run (session : Session σ φ ε) (ops : List (Op φ)) : Session σ φ ε :=
  ops.foldl (fun session op => (session.perform op).state) session

end Session

end FrameKeep
