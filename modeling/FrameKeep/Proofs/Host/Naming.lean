import Mathlib.Algebra.Group.Nat.Defs
import FrameKeep.Proofs.Host.Nodes

/-!
# Names of nodes

A node is named by its kind and its number among all nodes that were built, so no name is given
twice. A call that builds no node leaves everything as it was, and so uses up no name.
-/

namespace FrameKeep

namespace MediaKind

/-- What the names of the nodes of a kind start with. -/
def stem : MediaKind → String
  | video => "VideoCache"
  | audio => "AudioCache"

private theorem nodeName_eq (media : MediaKind) (number : Nat) :
    media.nodeName number = media.stem ++ Nat.repr number := by
  cases media <;> rfl

/-- A name tells the kind and the number of its node. -/
theorem nodeName_inj {media other : MediaKind} {number another : Nat}
    (same : media.nodeName number = other.nodeName another) :
    media = other ∧ number = another := by
  rw [nodeName_eq, nodeName_eq] at same
  have kinds : media = other := by
    -- The two kinds differ in the first letter.
    have start := congrArg (·.toList.head?) same
    cases media <;> cases other <;> simp [stem] at start ⊢
  subst kinds
  have text : Nat.repr number = Nat.repr another := (String.append_right_inj _).mp same
  -- A number is read back from its digits.
  have digits := congrArg (fun text => Nat.ofDigitChars 10 text.toList 0) text
  simp only [Nat.repr_eq_ofList_toDigits, String.toList_ofList,
    Nat.ofDigitChars_ten_toDigits] at digits
  exact ⟨rfl, digits⟩

end MediaKind

variable {σ φ ε : Type}

namespace Host

variable {host after : Host σ φ ε} {op : Op σ φ}

/-! ### Names along a run -/

/-- The kind and the name of the node that is built, if one is. -/
def named? (host : Host σ φ ε) : Op σ φ → Option (MediaKind × String)
  | .createNode media options workers source =>
    match (host.createNode media options workers source).result with
    | .ok (.ok (_, name)) => some (media, name)
    | .ok (.error _) | .error _ => none
  | _ => none

variable [FrameSource σ φ ε] [ToString ε]

/-- The kinds and the names of all nodes that are built in a run, in order. -/
def named : Host σ φ ε → List (Op σ φ) → List (MediaKind × String)
  | _, [] => []
  | host, op :: rest => (host.named? op).toList ++ named (host.perform op).state rest

/-- Nothing but a new node uses up a number. -/
theorem Moves.nextNumber_eq (moves : host.Moves op after)
    (other : ∀ media options workers source, op ≠ .createNode media options workers source) :
    after.manager.nextNumber = host.manager.nextNumber := by
  cases moves with
  | createNode => exact absurd rfl (other _ _ _ _)
  | idle | newCache | share | dropNode | dropHandle | intoScheduler | onNode | onHandle | register
  | adjustAll => rfl

/-- An operation builds no node and uses up no number, or it builds one with the next number. -/
theorem Sound.named?_cases (sound : host.Sound) (op : Op σ φ) :
    host.named? op = none ∧
        (host.perform op).state.manager.nextNumber = host.manager.nextNumber ∨
      ∃ media, host.named? op = some (media, media.nodeName host.manager.nextNumber) ∧
        (host.perform op).state.manager.nextNumber = host.manager.nextNumber + 1 := by
  cases op with
  | createNode media options workers source =>
    rcases host.createNode_cases media options workers source with
      ⟨same, refused⟩ | ⟨config, cache, -, -, built, answered⟩
    · refine .inl ⟨?_, congrArg (·.manager.nextNumber) same⟩
      simp only [named?]
      split
      next outcome => exact absurd outcome (refused _)
      next => rfl
      next => rfl
    · refine .inr ⟨media, ?_, congrArg (·.manager.nextNumber) built⟩
      simp only [named?, answered]
  | dropNode | intoScheduler | keepCache | onNode | newCache | cloneHandle | dropHandle | onHandle
  | register | registerHandle | adjustAll =>
    exact .inl ⟨rfl, (moves_perform sound _).nextNumber_eq nofun⟩

/-- The nodes that are built in a run are numbered from the next number on. -/
theorem Sound.named_run (sound : host.Sound) (ops : List (Op σ φ)) :
    (host.run ops).manager.nextNumber = host.manager.nextNumber + (host.named ops).length ∧
      ∀ (k : Nat) (media : MediaKind) (name : String), (host.named ops)[k]? = some (media, name) →
        name = media.nodeName (host.manager.nextNumber + k) := by
  induction ops generalizing host with
  | nil => exact ⟨rfl, nofun⟩
  | cons op rest ih =>
    obtain ⟨count, names⟩ := ih (sound.perform op)
    change ((host.perform op).state.run rest).manager.nextNumber = _ at count
    rcases sound.named?_cases op with ⟨none, same⟩ | ⟨kind, new, next⟩
    · rw [same] at count names
      rw [named, none]
      exact ⟨count, names⟩
    · rw [next] at count names
      rw [named, new]
      refine ⟨?_, fun k media name known => ?_⟩
      · change ((host.perform op).state.run rest).manager.nextNumber = _
        rw [count, Option.toList_some, List.singleton_append, List.length_cons]
        omega
      · cases k with
        | zero =>
          obtain ⟨rfl, rfl⟩ : kind = media ∧ kind.nodeName host.manager.nextNumber = name := by
            simpa using known
          rfl
        | succ k =>
          rw [names k media name (by simpa using known), Nat.add_assoc, Nat.add_comm 1]

/-- No name is given twice. -/
theorem Sound.nodup_named (sound : host.Sound) (ops : List (Op σ φ)) :
    ((host.named ops).map (·.2)).Nodup := by
  rw [List.nodup_iff_getElem?_ne_getElem?]
  intro first second less bound same
  rw [List.length_map] at bound
  rw [List.getElem?_map, List.getElem?_map, List.getElem?_eq_getElem bound,
    List.getElem?_eq_getElem (Nat.lt_trans less bound)] at same
  have name := (sound.named_run ops).2
  have firstName := name first _ _ (List.getElem?_eq_getElem (Nat.lt_trans less bound))
  have secondName := name second _ _ (List.getElem?_eq_getElem bound)
  have numbers := MediaKind.nodeName_inj
    ((firstName.symm.trans (Option.some.inj same)).trans secondName)
  omega

/-! ### Calls -/

omit [FrameSource σ φ ε] [ToString ε]

variable {media : MediaKind} {options : NodeOptions} {workers : UInt32} {source : σ}

/-- A negative size is refused, whatever the number of workers is. -/
theorem createNode_of_negative {size : Int} (asked : options.size = some size)
    (negative : size < 0) :
    host.createNode media options workers source = .done (.error (.negativeSize size)) host := by
  have refused : options.validate = .error (.negativeSize size) := by
    unfold NodeOptions.validate
    rw [asked]
    exact if_pos negative
  simp only [createNode, refused]
  rfl

private theorem createNode_of_noWorkers (nonneg : ∀ size, options.size = some size → 0 ≤ size) :
    host.createNode media options 0 source = .done (.error .noWorkers) host := by
  simp only [createNode, NodeOptions.validate_of_nonneg nonneg]
  rfl

/-- A cache that is too large ends the call before anything is registered. -/
theorem createNode_of_tooLarge (nonneg : ∀ size, options.size = some size → 0 ≤ size)
    (positive : workers ≠ 0)
    (tooLarge : Arena.reserveLimit ≤
      options.maxFramesFor workers + options.maxHistoryOrDefault) :
    host.createNode media options workers source =
      { result := .error .capacityTooLarge, state := host } := by
  have configured : Config.make? options.linearize workers =
      .ok ⟨options.linearize, workers, positive⟩ := dif_neg positive
  have stopped := Cache.create_of_tooLarge (κ := FrameIndex) (ν := φ) tooLarge options.fixed
  simp only [createNode, NodeOptions.validate_of_nonneg nonneg, configured, bind, Except.bind,
    stopped]

/-- Any other call builds a node with the next number. -/
theorem exists_built [FrameSource σ φ ε] [ToString ε] (host : Host σ φ ε) (media : MediaKind)
    (source : σ) (nonneg : ∀ size, options.size = some size → 0 ≤ size) (positive : workers ≠ 0)
    (room : options.maxFramesFor workers + options.maxHistoryOrDefault < Arena.reserveLimit) :
    let step := host.perform (.createNode media options workers source)
    let name := media.nodeName host.manager.nextNumber
    step.result = .ok (.created (.ok (host.nodes.size, name))) ∧
      ∃ node, step.state.node? host.nodes.size = some node ∧ node.label = some { name, media } := by
  intro step name
  obtain ⟨config, cache, answered, built⟩ :=
    host.exists_createNode media source positive nonneg room
  let node : CacheNode σ φ ε :=
    { label := some { name, media }
      controller := { config, feed := { source } }
      cacheId := host.pool.cells.size }
  refine ⟨congrArg (Except.map Answer.created) answered, node, ?_, rfl⟩
  change step.state = _ at built
  rw [built]
  exact (node?_push (by rfl) _).trans (if_pos rfl)

/-- The `k`-th node that is built is named by its kind and by `k`, so no name is given twice. A call
with a negative size, without workers, or for a cache that is too large is answered in this order of
what is wrong with it, and leaves everything as it was; any other call builds a node. -/
theorem names_are_numbered [FrameSource σ φ ε] [ToString ε] (ops : List (Op σ φ)) :
    let new : Host σ φ ε := ∅
    let host := new.run ops
    let named := new.named ops
    (∀ (k : Nat) (media : MediaKind) (name : String), named[k]? = some (media, name) →
        name = media.stem ++ Nat.repr (k + 1)) ∧
      (named.map (·.2)).Nodup ∧
      host.manager.nextNumber = named.length + 1 ∧
      (named.length < Count.limit - 1 → host.manager.nextNumber < Count.limit) ∧
      ∀ (media : MediaKind) (options : NodeOptions) (workers : UInt32) (source : σ),
        let step := host.perform (.createNode media options workers source)
        let reserved := options.maxFramesFor workers + options.maxHistoryOrDefault
        let name := media.stem ++ Nat.repr (named.length + 1)
        (∀ size, options.size = some size → size < 0 →
            step = .done (.created (.error (.negativeSize size))) host) ∧
          ((∀ size, options.size = some size → 0 ≤ size) →
            (workers = 0 → step = .done (.created (.error .noWorkers)) host) ∧
            (workers ≠ 0 → 2 ^ 60 ≤ reserved →
              step = { result := .error .capacityTooLarge, state := host }) ∧
            (workers ≠ 0 → reserved < 2 ^ 60 →
              step.result = .ok (.created (.ok (host.nodes.size, name))) ∧
                ∃ node, step.state.node? host.nodes.size = some node ∧
                  node.label = some { name, media })) := by
  intro new host named
  have sound : new.Sound := sound_empty
  obtain ⟨count, names⟩ := sound.named_run ops
  have next : host.manager.nextNumber = named.length + 1 := count.trans (Nat.add_comm ..)
  refine ⟨fun k media name known => ?_, sound.nodup_named ops, next, fun few => by omega,
    fun media options workers source => ⟨fun size asked negative => ?_, fun nonneg =>
      ⟨?_, fun positive tooLarge => ?_, fun positive room => ?_⟩⟩⟩
  · rw [names k media name known, MediaKind.nodeName_eq, Nat.add_comm]
    rfl
  · exact congrArg (Step.map Answer.created) (createNode_of_negative asked negative)
  · rintro rfl
    exact congrArg (Step.map Answer.created) (createNode_of_noWorkers nonneg)
  · exact congrArg (Step.map Answer.created) (createNode_of_tooLarge nonneg positive tooLarge)
  · rw [← MediaKind.nodeName_eq, ← next]
    exact host.exists_built media source nonneg positive room

/-- Between two nodes of different kinds, a call with a negative size uses up no name, and neither
do caches that are registered, dropped and adjusted. -/
theorem names_are_numbered_of_refused_call :
    let new : Host LabelSource String String := ∅
    let ops : List (Op LabelSource String) :=
      [.createNode .video {} 2 {}, .createNode .audio { size := some (-1) } 0 {},
        .newCache 1 1 false, .registerHandle 0, .dropHandle 0, .adjustAll true,
        .createNode .audio {} 2 {}]
    new.named ops = [(.video, "VideoCache1"), (.audio, "AudioCache2")] ∧
      ((new.named ops).map (·.2)).Nodup ∧
      (new.run ops).perform (.createNode .audio { size := some (-1) } 0 {}) =
        .done (.created (.error (.negativeSize (-1)))) (new.run ops) := by
  intro new ops
  have named : new.named ops = [(.video, "VideoCache1"), (.audio, "AudioCache2")] := by
    dsimp only [new, ops]
    rfl
  obtain ⟨-, distinct, -, -, calls⟩ := names_are_numbered (ε := String) ops
  exact ⟨named, distinct, (calls .audio { size := some (-1) } 0 {}).1 (-1) rfl (by decide)⟩

end Host

end FrameKeep
