/-
Shadow injections.

An injection keeps a copy of the live tensor in the shadow buffer of its layer,
adds the task vector to another copy and swaps that in.  A rollback swaps the
buffer in and deletes it.  There is one buffer for a layer.

* `injectConceptShadow`, `transactionalRollback` — the two;
* `injectAll_ok` — what is live and what is buffered after injections;
* `rollback_injectAll_iff` — exactly when rolling back as often as was injected
  restores the layer;
* `unchanged_of_raise_iff` — exactly when an injection that raises leaves no
  trace.

How a task vector is added to a tensor is a parameter; `Tensor.sum?` is the
exact one.
-/
import NeuralScalpel.Dict
import NeuralScalpel.FailurePolicy
import NeuralScalpel.Tensor

/-! ### Addition -/

namespace Tensor

/-- `t + u`, with the rule of type promotion given. -/
def sum? (promote : String → String → String) (t u : Tensor) : Except PyError Tensor :=
  match (broadcastRev t.shape.reverse u.shape.reverse).map List.reverse with
  | none => .error (.external "RuntimeError: the sizes of the tensors do not match")
  | some shape =>
    .ok ⟨shape, promote t.dtype u.dtype,
      List.zipWith (· + ·) (t.expand shape) (u.expand shape), by
        rw [List.length_zipWith, length_expand, length_expand, min_self]⟩

end Tensor

/-! ### The model and the buffers -/

/-- Where the tensors of a model are. -/
inductive TargetModel (T : Type)
  /-- No model, or one without a state dict. -/
  | absent
  /-- A dictionary, or an object whose `state_dict` returns its own. -/
  | mapping (tensors : Dict String T)
  /-- A module: its `state_dict` returns detached tensors. -/
  | module (tensors : Dict String T)
  deriving DecidableEq

namespace TargetModel

variable {T : Type}

/-- `_get_state_dict`. -/
def stateDict : TargetModel T → Option (Dict String T)
  | .absent => none
  | .mapping tensors => some tensors
  | .module tensors => some tensors

/-- `state[layer_name].data = tensor`: on a detached tensor this does not reach
the module. -/
def setData (layerName : String) (tensor : T) : TargetModel T → TargetModel T
  | .absent => .absent
  | .mapping tensors => .mapping (tensors.set layerName tensor)
  | .module tensors => .module tensors

def isDetached : TargetModel T → Bool
  | .absent => false
  | .mapping _ => false
  | .module _ => true

end TargetModel

structure VRAMHotSwapAPI (T : Type) where
  model : TargetModel T
  shadowBuffers : Dict String T
  deriving DecidableEq

namespace VRAMHotSwapAPI

variable {T V : Type}

/-- `state[layer_name]`, if there is a state dict with the layer. -/
def liveTensor (api : VRAMHotSwapAPI T) (layerName : String) : Option T :=
  api.model.stateDict.bind (·.get? layerName)

def swapIn (api : VRAMHotSwapAPI T) (layerName : String) (tensor : T) : VRAMHotSwapAPI T :=
  { api with model := api.model.setData layerName tensor }

def buffer (api : VRAMHotSwapAPI T) (layerName : String) (tensor : T) : VRAMHotSwapAPI T :=
  { api with shadowBuffers := api.shadowBuffers.set layerName tensor }

/-- `inject_concept_shadow`, without the CUDA kernel. -/
def injectConceptShadow (add : T → V → Except PyError T) (api : VRAMHotSwapAPI T)
    (taskVector : V) (layerName : String) : Except PyError Unit × VRAMHotSwapAPI T :=
  match api.liveTensor layerName with
  | none => (.ok (), api)
  | some live =>
    -- the buffer is written before the addition, which may raise
    match add live taskVector with
    | .error e => (.error e, api.buffer layerName live)
    | .ok shadow => (.ok (), (api.buffer layerName live).swapIn layerName shadow)

/-- `transactional_rollback`, without the CUDA kernel. -/
def transactionalRollback (api : VRAMHotSwapAPI T) (layerName : String) :
    Bool × VRAMHotSwapAPI T :=
  match api.shadowBuffers.get? layerName with
  | none => (false, api)
  | some shadow =>
    match api.liveTensor layerName with
    | none => (false, api)
    | some _ =>
      (true, { api.swapIn layerName shadow with
        shadowBuffers := api.shadowBuffers.erase layerName })

/-- Injections, one after the other; the first exception ends them. -/
def injectAll (add : T → V → Except PyError T) (layerName : String) :
    VRAMHotSwapAPI T → List V → Except PyError Unit × VRAMHotSwapAPI T
  | api, [] => (.ok (), api)
  | api, v :: vs =>
    match api.injectConceptShadow add v layerName with
    | (.ok (), next) => injectAll add layerName next vs
    | (.error e, next) => (.error e, next)

/-- `n` rollbacks. -/
def rollbackTimes (layerName : String) : ℕ → VRAMHotSwapAPI T → VRAMHotSwapAPI T
  | 0, api => api
  | n + 1, api => rollbackTimes layerName n (api.transactionalRollback layerName).2

/-- A tensor with vectors added to it. -/
def addAll (add : T → V → Except PyError T) (tensor : T) (vs : List V) : Except PyError T :=
  vs.foldlM add tensor

/-! ### One operation -/

variable {add : T → V → Except PyError T} {api next : VRAMHotSwapAPI T} {layerName : String}
  {live : T}

theorem liveTensor_swapIn (hlive : api.liveTensor layerName = some live) (tensor : T) :
    (api.swapIn layerName tensor).liveTensor layerName =
      some (if api.model.isDetached then live else tensor) := by
  rcases api with ⟨model, buffers⟩
  cases model with
  | absent => cases hlive
  | mapping tensors => exact Dict.get?_set_self tensors layerName tensor
  | module tensors => exact hlive

theorem isDetached_swapIn (api : VRAMHotSwapAPI T) (layerName : String) (tensor : T) :
    (api.swapIn layerName tensor).model.isDetached = api.model.isDetached := by
  rcases api with ⟨model, buffers⟩
  cases model <;> rfl

theorem injectConceptShadow_of_live (hlive : api.liveTensor layerName = some live) (v : V) :
    api.injectConceptShadow add v layerName =
      match add live v with
      | .error e => (.error e, api.buffer layerName live)
      | .ok shadow => (.ok (), (api.buffer layerName live).swapIn layerName shadow) := by
  unfold injectConceptShadow
  rw [hlive]

/-- An injection that returns buffers the live tensor and swaps the sum in. -/
theorem injectConceptShadow_ok (hlive : api.liveTensor layerName = some live) {v : V}
    (h : api.injectConceptShadow add v layerName = (.ok (), next)) :
    ∃ shadow, add live v = .ok shadow ∧
      next.liveTensor layerName = some (if api.model.isDetached then live else shadow) ∧
      next.model.isDetached = api.model.isDetached ∧
      next.shadowBuffers.get? layerName = some live := by
  rw [injectConceptShadow_of_live hlive] at h
  rcases hadd : add live v with e | shadow
  · rw [hadd] at h
    cases h
  · rw [hadd] at h
    cases h
    refine ⟨shadow, rfl, ?_, isDetached_swapIn _ _ _, Dict.get?_set_self _ _ _⟩
    have hbuffered : (api.buffer layerName live).liveTensor layerName = some live := hlive
    exact liveTensor_swapIn hbuffered shadow

/-- A rollback swaps the buffer in and deletes it. -/
theorem transactionalRollback_of_buffer (hlive : api.liveTensor layerName = some live) {shadow : T}
    (hshadow : api.shadowBuffers.get? layerName = some shadow) :
    (api.transactionalRollback layerName).2.liveTensor layerName =
        some (if api.model.isDetached then live else shadow) ∧
      (api.transactionalRollback layerName).2.shadowBuffers.get? layerName = none := by
  unfold transactionalRollback
  rw [hshadow]
  simp only [hlive]
  refine ⟨liveTensor_swapIn hlive shadow, ?_⟩
  show (api.shadowBuffers.erase layerName).get? layerName = none
  rw [Dict.get?_erase, if_pos rfl]

/-- Without a buffer a rollback refuses. -/
theorem transactionalRollback_of_no_buffer (h : api.shadowBuffers.get? layerName = none) :
    api.transactionalRollback layerName = (false, api) := by
  unfold transactionalRollback
  rw [h]

theorem rollbackTimes_of_no_buffer (h : api.shadowBuffers.get? layerName = none) (n : ℕ) :
    rollbackTimes layerName n api = api := by
  induction n with
  | zero => rfl
  | succ n ih => rw [rollbackTimes, transactionalRollback_of_no_buffer h, ih]

/-! ### Many injections -/

theorem injectAll_append {v : V} : ∀ {vs : List V} {api : VRAMHotSwapAPI T},
    injectAll add layerName api (vs ++ [v]) = (.ok (), next) →
      ∃ mid, injectAll add layerName api vs = (.ok (), mid) ∧
        mid.injectConceptShadow add v layerName = (.ok (), next) := by
  intro vs
  induction vs with
  | nil =>
    intro api h
    rw [List.nil_append, injectAll] at h
    rcases hinject : api.injectConceptShadow add v layerName with ⟨e | u, after⟩
    · rw [hinject] at h
      cases h
    · rw [hinject] at h
      cases h
      exact ⟨api, rfl, hinject⟩
  | cons w vs ih =>
    intro api h
    rw [List.cons_append, injectAll] at h
    rw [injectAll]
    rcases hinject : api.injectConceptShadow add w layerName with ⟨e | u, after⟩
    · rw [hinject] at h
      cases h
    · rw [hinject] at h
      exact ih h

/-- The tensor of a dictionary is the one the vectors were added to, and that of
a module stays what it was. -/
theorem injectAll_ok (hlive : api.liveTensor layerName = some live) : ∀ {vs : List V}
    {next : VRAMHotSwapAPI T}, injectAll add layerName api vs = (.ok (), next) →
      next.model.isDetached = api.model.isDetached ∧
        ∃ t, next.liveTensor layerName = some t ∧
          (if api.model.isDetached then t = live else addAll add live vs = .ok t) := by
  intro vs
  induction vs using List.reverseRecOn with
  | nil =>
    intro next h
    cases h
    refine ⟨rfl, live, hlive, ?_⟩
    split_ifs <;> rfl
  | append_singleton vs v ih =>
    intro next h
    obtain ⟨mid, hmid, hinject⟩ := injectAll_append h
    obtain ⟨hkind, t, ht, hsum⟩ := ih hmid
    obtain ⟨shadow, hadd, hnext, hkind', -⟩ := injectConceptShadow_ok ht hinject
    refine ⟨hkind'.trans hkind, _, hnext, ?_⟩
    rw [hkind]
    split_ifs at hsum ⊢ with hdetached
    · exact hsum
    · rw [addAll] at hsum ⊢
      rw [List.foldlM_append, hsum]
      show List.foldlM add t [v] = _
      rw [List.foldlM_cons, hadd]
      rfl

/-- Rolling back as often as was injected restores the layer exactly when the
model is a module, which injections do not reach, or the vectors but the last
leave the tensor as it was. -/
theorem rollback_injectAll_iff {vs : List V} (hlive : api.liveTensor layerName = some live)
    (hne : vs ≠ []) (h : injectAll add layerName api vs = (.ok (), next)) :
    (rollbackTimes layerName vs.length next).liveTensor layerName = some live ↔
      api.model.isDetached = true ∨ addAll add live vs.dropLast = .ok live := by
  obtain ⟨ws, w, rfl⟩ : ∃ ws w, vs = ws ++ [w] :=
    ⟨vs.dropLast, vs.getLast hne, (List.dropLast_append_getLast hne).symm⟩
  obtain ⟨mid, hmid, hinject⟩ := injectAll_append h
  obtain ⟨hkind, t, ht, hsum⟩ := injectAll_ok hlive hmid
  obtain ⟨shadow, -, hnext, hkind', hbuffer⟩ := injectConceptShadow_ok ht hinject
  -- the first rollback swaps in what was live before the last injection, and
  -- there is no buffer for the others
  obtain ⟨hrestored, hnone⟩ := transactionalRollback_of_buffer hnext hbuffer
  rw [List.length_append, List.length_singleton, rollbackTimes,
    rollbackTimes_of_no_buffer hnone, hrestored, List.dropLast_concat, Option.some_inj, hkind',
    hkind]
  by_cases hdetached : api.model.isDetached = true
  · rw [if_pos hdetached] at hsum
    simp only [if_pos hdetached, hsum]
    exact iff_of_true trivial (Or.inl hdetached)
  · rw [if_neg hdetached] at hsum
    simp only [if_neg hdetached, hsum, Except.ok.injEq]
    exact ⟨Or.inr, fun h => h.resolve_left hdetached⟩

/-- A tensor of one dimension. -/
def vector (qs : List ℚ) : Tensor := ⟨[qs.length], "float32", qs.map .finite, by simp⟩

/-- A model with one layer of one element, which is zero. -/
def zeroLayer : VRAMHotSwapAPI Tensor := ⟨.mapping (Dict.empty.set "l1" (vector [0])), .empty⟩

/-- Sums of tensors of one element type. -/
def sumSame : Tensor → Tensor → Except PyError Tensor := Tensor.sum? fun dtype _ => dtype

theorem rollback_injectAll_once :
    (rollbackTimes "l1" 1 ⟨.mapping (Dict.empty.set "l1" (vector [1])),
        Dict.empty.set "l1" (vector [0])⟩).liveTensor "l1" = some (vector [0]) ↔
      zeroLayer.model.isDetached = true ∨ addAll sumSame (vector [0]) [] = .ok (vector [0]) := by
  have hinjected : injectAll sumSame "l1" zeroLayer [vector [1]] =
      (.ok (), ⟨.mapping (Dict.empty.set "l1" (vector [1])),
        Dict.empty.set "l1" (vector [0])⟩) := by
    decide +kernel
  exact rollback_injectAll_iff rfl (List.cons_ne_nil _ _) hinjected

/-- After two injections the second rollback finds no buffer, and the first
injection stays. -/
theorem rollback_injectAll_twice :
    (injectAll sumSame "l1" zeroLayer [vector [1], vector [1]]).1 = .ok () ∧
      (rollbackTimes "l1" 2 (injectAll sumSame "l1" zeroLayer
        [vector [1], vector [1]]).2).liveTensor "l1" = some (vector [1]) ∧
      zeroLayer.liveTensor "l1" ≠ some (vector [1]) := by
  decide +kernel

/-! ### An injection that raises -/

/-- An injection that raises has written the buffer. -/
theorem injectConceptShadow_error {v : V} {e : PyError}
    (h : api.injectConceptShadow add v layerName = (.error e, next)) :
    ∃ live, api.liveTensor layerName = some live ∧ next = api.buffer layerName live := by
  rcases hlive : api.liveTensor layerName with _ | live
  · unfold injectConceptShadow at h
    rw [hlive] at h
    cases h
  · refine ⟨live, rfl, ?_⟩
    rw [injectConceptShadow_of_live hlive] at h
    rcases hadd : add live v with e' | shadow
    · rw [hadd] at h
      cases h
      rfl
    · rw [hadd] at h
      cases h

/-- An injection that raises leaves no trace exactly when the buffer of the
layer already holds the live tensor. -/
theorem unchanged_of_raise_iff {v : V} {e : PyError}
    (h : api.injectConceptShadow add v layerName = (.error e, next)) :
    (next.model = api.model ∧ next.shadowBuffers = api.shadowBuffers ∧
        next.transactionalRollback layerName = api.transactionalRollback layerName) ↔
      api.shadowBuffers.get? layerName = api.liveTensor layerName := by
  obtain ⟨live, hlive, rfl⟩ := injectConceptShadow_error h
  rw [hlive, ← Dict.set_eq_self_iff]
  constructor
  · exact fun hunchanged => hunchanged.2.1
  · intro hbuffers
    have hsame : api.buffer layerName live = api := by
      rcases api with ⟨model, buffers⟩
      exact congrArg (VRAMHotSwapAPI.mk model) hbuffers
    rw [hsame]
    exact ⟨rfl, rfl, rfl⟩

/-- A layer of two ones, whose buffer holds the zeros of before an injection. -/
def injectedLayer : VRAMHotSwapAPI Tensor :=
  ⟨.mapping (Dict.empty.set "l1" (vector [1, 1])), Dict.empty.set "l1" (vector [0, 0])⟩

theorem unchanged_of_raise_triple :
    ((injectedLayer.buffer "l1" (vector [1, 1])).model = injectedLayer.model ∧
        (injectedLayer.buffer "l1" (vector [1, 1])).shadowBuffers = injectedLayer.shadowBuffers ∧
        (injectedLayer.buffer "l1" (vector [1, 1])).transactionalRollback "l1" =
          injectedLayer.transactionalRollback "l1") ↔
      injectedLayer.shadowBuffers.get? "l1" = injectedLayer.liveTensor "l1" := by
  have hraised : injectedLayer.injectConceptShadow sumSame (vector [1, 1, 1]) "l1" =
      (.error (.external "RuntimeError: the sizes of the tensors do not match"),
        injectedLayer.buffer "l1" (vector [1, 1])) := rfl
  exact unchanged_of_raise_iff hraised

/-- After an injection that raises, the rollback of the one before it restores
nothing. -/
theorem changed_of_raise :
    (injectedLayer.injectConceptShadow sumSame (vector [1, 1, 1]) "l1").1 ≠ .ok () ∧
      ((injectedLayer.injectConceptShadow sumSame (vector [1, 1, 1]) "l1").2.transactionalRollback
        "l1").2.liveTensor "l1" = some (vector [1, 1]) ∧
      (injectedLayer.transactionalRollback "l1").2.liveTensor "l1" = some (vector [0, 0]) := by
  decide +kernel

end VRAMHotSwapAPI
