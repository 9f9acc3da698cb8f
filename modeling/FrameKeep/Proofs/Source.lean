import FrameKeep.Source

/-!
# The log of a source

Every call made to a source is added to the end of its log, whatever the source answers. The log
says which frames were requested and fetched, and what the last successful fetch of a frame
delivered.
-/

namespace FrameKeep

variable {φ ε σ : Type}

/-- The payload that a call delivered for a frame. -/
def Call.delivered? (frame : FrameIndex) : Call φ ε → Option φ
  | request _ | fetch _ (.error _) => none
  | fetch other (.ok payload) => if other = frame then some payload else none

/-- Only a fetch of a frame that succeeded delivers its payload. -/
theorem Call.delivered?_eq_some_iff {frame : FrameIndex} {call : Call φ ε} {payload : φ} :
    call.delivered? frame = some payload ↔ call = .fetch frame (.ok payload) := by
  rcases call with other | ⟨other, reason | held⟩
  · simp [delivered?]
  · simp [delivered?]
  · simp [delivered?]

/-- The calls that fetched frames with these answers. -/
def fetchCalls (answers : List (FrameIndex × Except ε φ)) : List (Call φ ε) :=
  answers.map fun (frame, answer) => .fetch frame answer

@[simp] theorem fetchCalls_concat (answers : List (FrameIndex × Except ε φ)) (frame : FrameIndex)
    (answer : Except ε φ) :
    fetchCalls (answers ++ [(frame, answer)]) = fetchCalls answers ++ [.fetch frame answer] := by
  simp [fetchCalls]

@[simp] theorem filterMap_requested?_map_request (frames : List FrameIndex) :
    (frames.map (Call.request (φ := φ) (ε := ε))).filterMap Call.requested? = frames := by
  induction frames with
  | nil => rfl
  | cons frame rest ih => exact congrArg (frame :: ·) ih

@[simp] theorem filterMap_fetched?_map_request (frames : List FrameIndex) :
    (frames.map (Call.request (φ := φ) (ε := ε))).filterMap Call.fetched? = [] := by
  simp [Call.fetched?]

@[simp] theorem filterMap_requested?_fetchCalls (answers : List (FrameIndex × Except ε φ)) :
    (fetchCalls answers).filterMap Call.requested? = [] := by
  simp [fetchCalls, Call.requested?]

@[simp] theorem filterMap_fetched?_fetchCalls (answers : List (FrameIndex × Except ε φ)) :
    (fetchCalls answers).filterMap Call.fetched? = answers.map (·.1) := by
  induction answers with
  | nil => rfl
  | cons first rest ih => simp_all [fetchCalls, Call.fetched?]

namespace Feed

/-- What the last successful fetch of a frame delivered. -/
def latest? (feed : Feed σ φ ε) (frame : FrameIndex) : Option φ :=
  feed.calls.toList.reverse.findSome? (Call.delivered? frame)

/-- The last successful fetch of a frame is one that no other successful fetch of it follows. -/
theorem latest?_eq_some_iff {feed : Feed σ φ ε} {frame : FrameIndex} {payload : φ} :
    feed.latest? frame = some payload ↔
      ∃ before after, feed.calls.toList = before ++ .fetch frame (.ok payload) :: after ∧
        ∀ other, .fetch frame (.ok other) ∉ after := by
  rw [latest?, List.findSome?_eq_some_iff]
  constructor
  · rintro ⟨after, call, before, calls, delivered, later⟩
    rw [Call.delivered?_eq_some_iff] at delivered
    subst delivered
    refine ⟨before.reverse, after.reverse, ?_, fun other again => ?_⟩
    · rw [← List.reverse_reverse feed.calls.toList, calls]
      simp
    · have missed := later _ (List.mem_reverse.mp again)
      simp [Call.delivered?] at missed
  · rintro ⟨before, after, calls, later⟩
    refine ⟨after.reverse, .fetch frame (.ok payload), before.reverse, by simp [calls],
      Call.delivered?_eq_some_iff.mpr rfl, fun call again => ?_⟩
    rw [Option.eq_none_iff_forall_ne_some]
    intro other delivered
    rw [Call.delivered?_eq_some_iff] at delivered
    exact later other (delivered ▸ List.mem_reverse.mp again)

/-- A frame that was fetched and never failed has been delivered. -/
theorem exists_latest? {feed : Feed σ φ ε} {frame : FrameIndex} (fetched : frame ∈ feed.fetches)
    (whole : ∀ reason, .fetch frame (.error reason) ∉ feed.calls.toList) :
    ∃ payload, feed.latest? frame = some payload := by
  obtain ⟨call, made, asks⟩ := List.mem_filterMap.mp fetched
  cases call with
  | request other => simp [Call.fetched?] at asks
  | fetch other answer =>
    obtain rfl : other = frame := Option.some.inj asks
    cases answer with
    | error reason => exact absurd made (whole reason)
    | ok payload =>
      rw [← Option.isSome_iff_exists, latest?, List.findSome?_isSome_iff]
      exact ⟨.fetch other (.ok payload), List.mem_reverse.mpr made, by simp [Call.delivered?]⟩

variable [FrameSource σ φ ε]

/-! ### Requests -/

/-- Requesting frames adds one request for each to the log, in their order. -/
theorem calls_requestAll (feed : Feed σ φ ε) (frames : List FrameIndex) :
    (feed.requestAll frames).calls.toList = feed.calls.toList ++ frames.map .request := by
  induction frames generalizing feed with
  | nil => simp [requestAll]
  | cons frame rest ih =>
    change ((feed.request frame).requestAll rest).calls.toList = _
    rw [ih]
    simp [request]

@[simp] theorem requests_requestAll (feed : Feed σ φ ε) (frames : List FrameIndex) :
    (feed.requestAll frames).requests = feed.requests ++ frames := by
  rw [requests, calls_requestAll, List.filterMap_append, filterMap_requested?_map_request, requests]

@[simp] theorem fetches_requestAll (feed : Feed σ φ ε) (frames : List FrameIndex) :
    (feed.requestAll frames).fetches = feed.fetches := by
  rw [fetches, calls_requestAll, List.filterMap_append, filterMap_fetched?_map_request,
    List.append_nil, fetches]

/-- Requests deliver nothing. -/
@[simp] theorem latest?_requestAll (feed : Feed σ φ ε) (frames : List FrameIndex)
    (frame : FrameIndex) : (feed.requestAll frames).latest? frame = feed.latest? frame := by
  have nothing : (frames.map (Call.request (φ := φ) (ε := ε))).reverse.findSome?
      (Call.delivered? frame) = none := by
    simp [List.findSome?_eq_none_iff, Call.delivered?]
  rw [latest?, calls_requestAll, List.reverse_append, List.findSome?_append, nothing]
  rfl

/-! ### Fetches -/

/-- A fetch adds itself and its answer to the log. -/
theorem calls_fetch (feed : Feed σ φ ε) (frame : FrameIndex) :
    (feed.fetch frame).2.calls.toList =
      feed.calls.toList ++ [.fetch frame (feed.fetch frame).1] := by
  simp [fetch]

/-- A fetch delivers its answer, and a failure leaves what was delivered before. -/
theorem latest?_fetch (feed : Feed σ φ ε) (frame other : FrameIndex) :
    (feed.fetch frame).2.latest? other =
      ((Call.fetch frame (feed.fetch frame).1).delivered? other).or (feed.latest? other) := by
  rw [latest?, calls_fetch, List.reverse_append, List.findSome?_append]
  simp [latest?]

/-- The first of several fetches is made first, and the others of the source it leaves. -/
theorem fetchAll_cons (feed : Feed σ φ ε) (frame : FrameIndex) (rest : List FrameIndex) :
    fetchAll (frame :: rest) feed =
      ((frame, (feed.fetch frame).1) :: (fetchAll rest (feed.fetch frame).2).1,
        (fetchAll rest (feed.fetch frame).2).2) := rfl

/-- The last of several fetches is made of the source the others leave. -/
theorem fetchAll_concat (feed : Feed σ φ ε) (frames : List FrameIndex) (last : FrameIndex) :
    fetchAll (frames ++ [last]) feed =
      ((fetchAll frames feed).1 ++ [(last, ((fetchAll frames feed).2.fetch last).1)],
        ((fetchAll frames feed).2.fetch last).2) := by
  induction frames generalizing feed with
  | nil => rfl
  | cons frame rest ih =>
    rw [List.cons_append, fetchAll_cons, fetchAll_cons, ih]
    rfl

/-- Every frame is fetched, in the order given, whether or not an earlier one failed. -/
@[simp] theorem map_fst_fetchAll (feed : Feed σ φ ε) (frames : List FrameIndex) :
    (fetchAll frames feed).1.map (·.1) = frames := by
  induction frames generalizing feed with
  | nil => rfl
  | cons frame rest ih => rw [fetchAll_cons, List.map_cons, ih]

/-- Fetching frames adds one fetch for each to the log, in their order and with its answer. -/
theorem calls_fetchAll (feed : Feed σ φ ε) (frames : List FrameIndex) :
    (fetchAll frames feed).2.calls.toList =
      feed.calls.toList ++ fetchCalls (fetchAll frames feed).1 := by
  induction frames generalizing feed with
  | nil => simp [fetchAll, fetchCalls]
  | cons frame rest ih => simp [fetchAll_cons, ih, calls_fetch, fetchCalls]

@[simp] theorem requests_fetchAll (feed : Feed σ φ ε) (frames : List FrameIndex) :
    (fetchAll frames feed).2.requests = feed.requests := by
  simp [requests, calls_fetchAll]

@[simp] theorem fetches_fetchAll (feed : Feed σ φ ε) (frames : List FrameIndex) :
    (fetchAll frames feed).2.fetches = feed.fetches ++ frames := by
  simp [fetches, calls_fetchAll]

end Feed

end FrameKeep
