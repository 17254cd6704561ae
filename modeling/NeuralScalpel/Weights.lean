/-
Base weights plus deltas.

What the weights of a route are meant to be, said without the loop that makes
them: `plusDeltas w routeData deltas layers base` is the store in which every
parameter has its base value plus, in the order of the manifest, the deltas of
the layers that resolve to it.

* `plusDeltas_concat` — one more layer;
* `sameLayouts_plusDeltas` — the layout is the one of the base weights;
* `entry_plusDeltas` — element by element, a sum over the layers.
-/
import NeuralScalpel.RuntimeSpec

/-- The parameter a layer name resolves to, and its address. -/
def Worker.locate (w : Worker) (name : String) : Option (String × ℕ) :=
  match w.model with
  | none => none
  | some state =>
    match resolveLayerName name state with
    | .error _ => none
    | .ok target => (state.get? target).map fun address => (target, address)

/-- The address of the parameter a layer name resolves to. -/
def Worker.address (w : Worker) (name : String) : Option ℕ := (w.locate name).map Prod.snd

theorem Worker.locate_of_model {w : Worker} {state : Dict String ℕ} (hmodel : w.model = some state)
    {name target : String} {address : ℕ} :
    w.locate name = some (target, address) ↔
      resolveLayerName name state = .ok target ∧ state.get? target = some address := by
  rw [Worker.locate, hmodel]
  simp only
  rcases resolveLayerName name state with e | t
  · simp
  · simp only [Option.map_eq_some_iff, Prod.mk.injEq, Except.ok.injEq]
    constructor
    · rintro ⟨a, ha, rfl, rfl⟩
      exact ⟨rfl, ha⟩
    · rintro ⟨rfl, ha⟩
      exact ⟨address, ha, rfl, rfl⟩

theorem Worker.exists_model_of_locate {w : Worker} {name target : String} {address : ℕ}
    (h : w.locate name = some (target, address)) :
    ∃ state, w.model = some state ∧ state.get? target = some address := by
  rcases hmodel : w.model with _ | state
  · rw [Worker.locate, hmodel] at h
    exact absurd h (by simp)
  · exact ⟨state, rfl, ((Worker.locate_of_model hmodel).mp h).2⟩

theorem Worker.address_eq_some {w : Worker} {name : String} {address : ℕ} :
    w.address name = some address ↔ ∃ target, w.locate name = some (target, address) := by
  rw [Worker.address, Option.map_eq_some_iff]
  constructor
  · rintro ⟨⟨target, a⟩, h, rfl⟩
    exact ⟨target, h⟩
  · rintro ⟨target, h⟩
    exact ⟨(target, address), h, rfl⟩

open Effect Runtime

/-- The delta of a layer depends on the live tensor only by its layout. -/
theorem layerDelta_congr {live live' : Tensor} (h : Tensor.SameLayout live live')
    (routeData : Manifest) (deltas : Dict String Tensor) (target : String) (layer : LayerSpec) :
    layerDelta routeData deltas target layer live =
      layerDelta routeData deltas target layer live' := by
  obtain ⟨hs, hd⟩ := h
  unfold layerDelta Tensor.fillLike
  rw [hd]
  simp only [hs]

/-- The delta a layer adds to the parameter at `address`, if it resolves to it. -/
def landing (w : Worker) (routeData : Manifest) (deltas : Dict String Tensor) (base : Store)
    (address : ℕ) (layer : LayerSpec) : Option Tensor :=
  match w.locate layer.name with
  | none => none
  | some (target, a) =>
    if a = address then (layerDelta routeData deltas target layer (base address)).toOption
    else none

/-- The base weights plus the deltas of the layers. -/
def plusDeltas (w : Worker) (routeData : Manifest) (deltas : Dict String Tensor)
    (layers : List LayerSpec) (base : Store) : Store := fun address =>
  (layers.filterMap (landing w routeData deltas base address)).foldl Tensor.plus (base address)

section PlusDeltas

variable {w : Worker} {routeData : Manifest} {deltas : Dict String Tensor} {base : Store}

theorem landing_of_locate {layer : LayerSpec} {target : String} {address : ℕ}
    (h : w.locate layer.name = some (target, address)) :
    landing w routeData deltas base address layer =
      (layerDelta routeData deltas target layer (base address)).toOption := by
  rw [landing, h]
  exact if_pos rfl

theorem landing_of_ne {layer : LayerSpec} {address : ℕ} (h : w.address layer.name ≠ some address) :
    landing w routeData deltas base address layer = none := by
  unfold landing
  rcases hl : w.locate layer.name with _ | ⟨target, a⟩
  · rfl
  · have ha : a ≠ address := fun he => h (Worker.address_eq_some.mpr ⟨target, he ▸ hl⟩)
    exact if_neg ha

@[simp] theorem plusDeltas_nil : plusDeltas w routeData deltas [] base = base := rfl

/-- One more layer adds its delta at the address it resolves to. -/
theorem plusDeltas_concat {layers : List LayerSpec} {layer : LayerSpec} {target : String}
    {address : ℕ} {delta : Tensor} (hl : w.locate layer.name = some (target, address))
    (hd : layerDelta routeData deltas target layer (base address) = .ok delta) :
    plusDeltas w routeData deltas (layers ++ [layer]) base =
      Function.update (plusDeltas w routeData deltas layers base) address
        ((plusDeltas w routeData deltas layers base address).plus delta) := by
  funext a
  rw [plusDeltas, List.filterMap_append, List.foldl_append]
  by_cases ha : a = address
  · subst ha
    have hland : landing w routeData deltas base a layer = some delta := by
      rw [landing_of_locate hl, hd]
      rfl
    rw [Function.update_self, List.filterMap_cons, hland]
    rfl
  · have hland : landing w routeData deltas base a layer = none := by
      refine landing_of_ne fun h => ha ?_
      obtain ⟨t, ht⟩ := Worker.address_eq_some.mp h
      rw [hl] at ht
      cases ht
      rfl
    rw [Function.update_of_ne ha, List.filterMap_cons, hland]
    rfl

theorem sameLayouts_plusDeltas (layers : List LayerSpec) :
    SameLayouts base (plusDeltas w routeData deltas layers base) :=
  fun a => Tensor.sameLayout_foldl_plus _ (base a)

/-- A parameter that differs from its base value has a layer resolving to it. -/
theorem exists_layer_of_plusDeltas_ne {layers : List LayerSpec} {address : ℕ}
    (h : plusDeltas w routeData deltas layers base address ≠ base address) :
    ∃ layer ∈ layers, w.address layer.name = some address := by
  by_contra hno
  refine h ?_
  have hnone : layers.filterMap (landing w routeData deltas base address) = [] :=
    List.filterMap_eq_nil_iff.mpr fun layer hlayer =>
      landing_of_ne fun ha => hno ⟨layer, hlayer, ha⟩
  rw [plusDeltas, hnone, List.foldl_nil]

/-- Element by element, the deltas add up. -/
theorem entry_plusDeltas {layers : List LayerSpec} {address : ℕ}
    (h : ∀ layer ∈ layers, ∀ delta, landing w routeData deltas base address layer = some delta →
      delta.shape = (base address).shape) (k : ℕ) :
    (plusDeltas w routeData deltas layers base address).entry k = (base address).entry k +
      ((layers.filterMap (landing w routeData deltas base address)).map fun delta =>
        delta.entry k).sum := by
  refine Tensor.entry_foldl_plus (fun delta hdelta => ?_) k
  obtain ⟨layer, hlayer, hland⟩ := List.mem_filterMap.mp hdelta
  exact h layer hlayer delta hland

end PlusDeltas
