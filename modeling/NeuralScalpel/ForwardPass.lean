/-
What the forward pass sees.

While the inference function of a request runs, the live weights are the base
weights plus the payload of the route: the capture, the swap loop, the payload
validation and the name resolution compose to that.

* `serve_seesRoute` — the weights of a forward pass, for every manifest;
* `landing_of_payload` — the delta of a layer is the payload tensor under the
  layer's key;
* `forward_entry` — element by element, the base weights plus the sum of
  the payload tensors of the layers that resolve to the parameter.
-/
import NeuralScalpel.LeaveNoTrace

open Effect

namespace Runtime

variable {w : Worker} {base : Store} {β : Type}

/-- The weights of a forward pass are the base weights plus the validated
deltas of the route. -/
def SeesRoute (w : Worker) (base : Store) (rt : Runtime) (request : Request β) : Event → Prop
  | .forward weights => ∃ routeData deltas,
      rt.registry.getVerifiedRoute request.routeId w.runtimeModelHash request.tenant =
        .ok routeData ∧
      validatePayload request.env.files w.payloadBaseDir w.maxPayloadBytes routeData = .ok deltas ∧
      weights = plusDeltas w routeData deltas routeData.layers base ∧
      ∀ layer ∈ routeData.layers, Added w base routeData deltas layer
  | _ => True

/-- The weights seen by the forward pass of a request, from an undisturbed
worker. -/
theorem serve_seesRoute {rt : Runtime} (request : Request β) (h : Undisturbed w base rt) :
    wp (serve w request) (fun _ => Emits (SeesRoute w base rt request) rt)
      (fun _ => Emits (SeesRoute w base rt request) rt) rt := by
  have hswap : SwapFrame (Emits (SeesRoute w base rt request)) :=
    swapFrame_emits (fun _ => trivial) fun _ _ => trivial
  refine infer_emits (fun _ => trivial) trivial fun routeData deltas hroute hvalid hphase => ?_
  rw [wp_bind]
  refine ((keeps_swapIn hswap (fun _ _ _ => Appends.one rfl trivial) _).and_wp
    (swapIn_spec h.recoverable fun _ => h.restored hphase)).mono ?_ fun _ _ he => he.1
  rintro _ rt₁ ⟨he, _, hswapped, _, deltas', happly, hstore, hadded⟩
  obtain rfl := eq_of_deltasToApply hvalid happly
  have hforward : ∀ machine, Emits (SeesRoute w base rt request) rt (rt₁.forwarding machine) :=
    fun machine => trans_of _ (trans_of _ he (hswap.phase machine rt₁))
      (Appends.one (e := .forward rt₁.store) rfl
        ⟨routeData, deltas', hroute, hvalid, hstore, hadded⟩)
  exact wp_runForward hswapped (fun machine _ _ => hforward machine)
    fun machine _ _ => hforward machine

/-- No request registers a route or takes one out. -/
theorem routes_run (requests : List (Request β)) (rt : Runtime) :
    (Runs.run (afterRequest w) rt requests).registry.routes = rt.registry.routes :=
  Runs.invariant_run_of_step (I := fun rt' => rt'.registry.routes = rt.registry.routes)
    (fun rt' request h =>
      ((keeps_infer callFrame_routes w request.env request.routeId request.tenant
        request.inferenceFunc).after rt').trans h) rfl

/-! ### Element by element -/

/-- The layer's name resolves to the parameter `p`. -/
def resolvesTo (state : Dict String ℕ) (p : String) (layer : LayerSpec) : Bool :=
  match resolveLayerName layer.name state with
  | .ok target => target == p
  | .error _ => false

/-- The element of the payload tensor stored under the layer's key. -/
def payloadEntry (allTensors : Dict String Tensor) (k : ℕ) (layer : LayerSpec) : Scalar :=
  match allTensors.get? layer.deltaKey with
  | some t => t.entry k
  | none => 0

theorem resolvesTo_iff {state : Dict String ℕ} {p : String} {layer : LayerSpec} :
    resolvesTo state p layer = true ↔ resolveLayerName layer.name state = .ok p := by
  unfold resolvesTo
  rcases resolveLayerName layer.name state with e | t
  · simp
  · rw [beq_iff_eq, Except.ok.injEq]

/-- Without aliases, a layer lands on the address of `p` iff its name resolves
to `p`. -/
theorem address_eq_iff_resolvesTo {state : Dict String ℕ} (hmodel : w.model = some state)
    (hunaliased : ∀ p q a, state.get? p = some a → state.get? q = some a → p = q)
    {p : String} {address : ℕ} (hp : state.get? p = some address) (layer : LayerSpec) :
    w.address layer.name = some address ↔ resolvesTo state p layer = true := by
  rw [resolvesTo_iff, Worker.address_eq_some]
  constructor
  · rintro ⟨target, hlocate⟩
    obtain ⟨hresolve, hget⟩ := (Worker.locate_of_model hmodel).mp hlocate
    rw [hresolve, hunaliased target p address hget hp]
  · intro hresolve
    exact ⟨p, (Worker.locate_of_model hmodel).mpr ⟨hresolve, hp⟩⟩

/-- What a successful validation of a file found under a layer's key. -/
theorem payloadTensor_of_valid {allTensors deltas : Dict String Tensor} {layers : List LayerSpec}
    (hcollect : collectDeltas (validateLayer allTensors) layers .empty = .ok deltas)
    (hnames : (layers.map LayerSpec.name).Nodup) {layer : LayerSpec} (hlayer : layer ∈ layers) :
    ∃ t, allTensors.get? layer.deltaKey = some t ∧ deltas.get? layer.name = some t ∧
      (layer.shape = [] ∨ t.shape = layer.shape) := by
  obtain ⟨t, hcheck, hget⟩ := get?_collectDeltas hcollect hnames layer hlayer
  obtain ⟨hkey, hshape, _⟩ := validateLayer_eq_ok hcheck
  exact ⟨t, hkey, hget, hshape⟩

/-- The delta of a layer is the payload tensor under the layer's key, and has
the shape of the parameter. -/
theorem landing_of_payload {routeData : Manifest} {deltas : Dict String Tensor} {layer : LayerSpec}
    {address : ℕ} {t : Tensor} (hadded : Added w base routeData deltas layer)
    (haddress : w.address layer.name = some address) (hdelta : deltas.get? layer.name = some t)
    (hshape : layer.shape = [] ∨ t.shape = layer.shape)
    (hdeclared : (base address).shape = layer.shape) :
    landing w routeData deltas base address layer = some (t.toDtype (base address).dtype) ∧
      t.shape = (base address).shape := by
  obtain ⟨target, a, delta, hlocate, hlayer, hbroadcast⟩ := hadded
  obtain rfl : address = a := by
    rw [Worker.address, hlocate] at haddress
    exact (Option.some.inj haddress).symm
  have hd : layerDelta routeData deltas target layer (base address) =
      .ok (t.toDtype (base address).dtype) := by
    rw [layerDelta, hdelta]
    rfl
  rw [hd] at hlayer
  obtain rfl := Except.ok.inj hlayer
  refine ⟨by rw [landing_of_locate hlocate, hd]; rfl, ?_⟩
  rcases hshape with hnil | heq
  · -- an undeclared shape is a scalar's, and only a scalar could be added to it
    rw [hdeclared, hnil, Tensor.toDtype_shape] at hbroadcast
    rw [hdeclared, hnil, eq_nil_of_broadcastsTo_nil hbroadcast]
  · rw [heq, hdeclared]

/-- The deltas that land on a parameter, as a sum over its layers. -/
theorem sum_landing {routeData : Manifest} {deltas allTensors : Dict String Tensor} {address : ℕ}
    {resolves : LayerSpec → Bool} (k : ℕ) : ∀ {layers : List LayerSpec},
    (∀ layer ∈ layers, resolves layer = true → ∃ t, allTensors.get? layer.deltaKey = some t ∧
      landing w routeData deltas base address layer = some (t.toDtype (base address).dtype)) →
    (∀ layer ∈ layers, resolves layer = false →
      landing w routeData deltas base address layer = none) →
    ((layers.filterMap (landing w routeData deltas base address)).map fun d => d.entry k).sum =
      ((layers.filter resolves).map (payloadEntry allTensors k)).sum := by
  intro layers
  induction layers with
  | nil => exact fun _ _ => rfl
  | cons layer layers ih =>
    intro hland hnone
    have hrest := ih (fun l hl => hland l (List.mem_cons_of_mem _ hl))
      fun l hl => hnone l (List.mem_cons_of_mem _ hl)
    rcases hres : resolves layer with _ | _
    · rw [List.filterMap_cons, hnone layer List.mem_cons_self hres, List.filter_cons, hres]
      exact hrest
    · obtain ⟨t, hkey, hl⟩ := hland layer List.mem_cons_self hres
      have hentry : payloadEntry allTensors k layer = t.entry k := by
        rw [payloadEntry, hkey]
      rw [List.filterMap_cons, hl, List.filter_cons, hres]
      show ((t.toDtype _).entry k :: _).sum = (payloadEntry allTensors k layer :: _).sum
      rw [List.sum_cons, List.sum_cons, hentry, hrest]
      rfl

/-- A route with a payload block adds no delta without a payload. -/
theorem layers_eq_nil_of_empty {routeData : Manifest}
    (hpayload : routeData.payload.isSome = true)
    (hadded : ∀ layer ∈ routeData.layers, Added w base routeData .empty layer) :
    routeData.layers = [] := by
  refine List.eq_nil_iff_forall_not_mem.mpr fun layer hlayer => ?_
  obtain ⟨_, _, _, _, hdelta, _⟩ := hadded layer hlayer
  simp [layerDelta, hpayload] at hdelta

/-- The base weights plus validated deltas, parameter by parameter. -/
theorem plusDeltas_of_payload {state : Dict String ℕ} (hmodel : w.model = some state)
    (hunaliased : ∀ p q a, state.get? p = some a → state.get? q = some a → p = q)
    {routeData : Manifest} {deltas allTensors : Dict String Tensor}
    (hcollect : collectDeltas (validateLayer allTensors) routeData.layers .empty = .ok deltas)
    (hnames : (routeData.layers.map LayerSpec.name).Nodup)
    (hdeclared : ∀ layer ∈ routeData.layers, ∀ p a, resolveLayerName layer.name state = .ok p →
      state.get? p = some a → (base a).shape = layer.shape ∧ (base a).dtype = layer.dtype)
    (hadded : ∀ layer ∈ routeData.layers, Added w base routeData deltas layer) {p : String} {a : ℕ}
    (hp : state.get? p = some a) :
    (∀ k, (plusDeltas w routeData deltas routeData.layers base a).entry k = (base a).entry k +
      ((routeData.layers.filter (resolvesTo state p)).map (payloadEntry allTensors k)).sum) ∧
    ((∀ layer ∈ routeData.layers, resolvesTo state p layer = false) →
      plusDeltas w routeData deltas routeData.layers base a = base a) := by
  have hiff := fun layer => address_eq_iff_resolvesTo hmodel hunaliased hp layer
  -- a layer that resolves to `p` lands there, with the payload tensor under its key
  have hland : ∀ layer ∈ routeData.layers, resolvesTo state p layer = true →
      ∃ t, allTensors.get? layer.deltaKey = some t ∧
        landing w routeData deltas base a layer = some (t.toDtype (base a).dtype) ∧
        t.shape = (base a).shape := by
    intro layer hlayer hres
    obtain ⟨t, hkey, hdelta, hshape⟩ := payloadTensor_of_valid hcollect hnames hlayer
    have hdecl := (hdeclared layer hlayer p a (resolvesTo_iff.mp hres) hp).1
    exact ⟨t, hkey, landing_of_payload (hadded layer hlayer) ((hiff layer).mpr hres) hdelta hshape
      hdecl⟩
  -- and no other layer does
  have hnone : ∀ layer ∈ routeData.layers, resolvesTo state p layer = false →
      landing w routeData deltas base a layer = none := fun layer _ hres =>
    landing_of_ne fun haddress => Bool.false_ne_true (hres.symm.trans ((hiff layer).mp haddress))
  refine ⟨fun k => ?_, fun hother => ?_⟩
  · rw [entry_plusDeltas, sum_landing k (fun layer hlayer hres => ?_) hnone]
    · obtain ⟨t, hkey, hl, _⟩ := hland layer hlayer hres
      exact ⟨t, hkey, hl⟩
    · intro layer hlayer delta hdelta
      rcases hres : resolvesTo state p layer with _ | _
      · rw [hnone layer hlayer hres] at hdelta
        exact absurd hdelta (by simp)
      · obtain ⟨t, _, hl, hshape⟩ := hland layer hlayer hres
        rw [hl] at hdelta
        obtain rfl := Option.some.inj hdelta
        exact hshape
  · by_contra hne
    obtain ⟨layer, hlayer, haddress⟩ := exists_layer_of_plusDeltas_ne hne
    exact Bool.false_ne_true ((hother layer hlayer).symm.trans ((hiff layer).mp haddress))

/-- **The forward pass of a request sees exactly base plus payload.**  In every
run of requests from a fresh worker, the weights seen by the forward pass of a
request for a route with a payload are, element by element, the base weights
plus the payload tensors of all layers that resolve to the parameter; the other
parameters have their base value. -/
theorem forward_entry {state : Dict String ℕ} (hmodel : w.model = some state)
    (hunaliased : ∀ p q a, state.get? p = some a → state.get? q = some a → p = q)
    (registry : RouteRegistry) (requests : List (Request β)) (request : Request β)
    {routeData : Manifest} {weights : Store}
    (hroute : registry.routes.get? request.routeId = some routeData)
    (hpayload : routeData.payload.isSome = true)
    (hnames : (routeData.layers.map LayerSpec.name).Nodup)
    (hdeclared : ∀ layer ∈ routeData.layers, ∀ p a, resolveLayerName layer.name state = .ok p →
      state.get? p = some a → (base a).shape = layer.shape ∧ (base a).dtype = layer.dtype)
    (hforward : .forward weights ∈
      eventsSince (Runs.run (afterRequest w) (fresh registry base) requests)
        (afterRequest w (Runs.run (afterRequest w) (fresh registry base) requests) request)) :
    ∃ allTensors,
      (routeData.layers ≠ [] → ∃ filepath file,
        resolvePayloadPath routeData w.payloadBaseDir = some filepath ∧
        request.env.files filepath = some file ∧ file.tensors = .ok allTensors) ∧
      (∀ layer ∈ routeData.layers, allTensors.contains layer.deltaKey = true) ∧
      ∀ p a, state.get? p = some a →
        Tensor.SameLayout (weights a) (base a) ∧
        (∀ k, (weights a).entry k = (base a).entry k +
          ((routeData.layers.filter (resolvesTo state p)).map (payloadEntry allTensors k)).sum) ∧
        ((∀ layer ∈ routeData.layers, resolvesTo state p layer = false) → weights a = base a) := by
  have hrun := undisturbed_run requests (undisturbed_fresh w registry base)
  -- the event of the forward pass says which deltas it saw
  obtain ⟨m, deltas, hverified, hvalid, rfl, hadded⟩ :=
    (wp_const_iff.mp (serve_seesRoute request hrun)).of_mem_drop hforward
  -- and no request has changed the manifest in the meantime
  obtain rfl : m = routeData := by
    have hreg := RouteRegistry.registered_of_getVerifiedRoute hverified
    rw [routes_run] at hreg
    exact Option.some.inj (hreg.symm.trans hroute)
  rcases validatePayload_spec hvalid with ⟨_, rfl⟩ | ⟨filepath, file, allTensors, hpath, hfile,
    htensors, hcollect⟩
  · -- a block without a file: only a manifest without layers gets this far
    have hlayers := layers_eq_nil_of_empty hpayload hadded
    refine ⟨.empty, fun hne => absurd hlayers hne, fun layer hlayer => ?_, fun p a _ => ?_⟩
    · rw [hlayers] at hlayer
      exact absurd hlayer List.not_mem_nil
    · rw [hlayers, plusDeltas_nil]
      exact ⟨Tensor.SameLayout.refl _, fun k => (add_zero _).symm, fun _ => rfl⟩
  refine ⟨allTensors, fun _ => ⟨filepath, file, hpath, hfile, htensors⟩,
    fun layer hlayer => ?_, ?_⟩
  · obtain ⟨t, hkey, _⟩ := payloadTensor_of_valid hcollect hnames hlayer
    exact Dict.contains_iff.mpr ⟨t, hkey⟩
  intro p a hp
  exact ⟨sameLayouts_plusDeltas m.layers a,
    plusDeltas_of_payload hmodel hunaliased hcollect hnames hdeclared hadded hp⟩

theorem exists_forward {events : List Event} (h : events.any Event.isForward = true) :
    ∃ weights, .forward weights ∈ events := by
  obtain ⟨e, he, hforward⟩ := List.any_eq_true.mp h
  cases e with
  | forward weights => exact ⟨weights, he⟩
  | _ => exact absurd hforward (by simp [Event.isForward])

/-- A route with one layer, whose payload adds two to the parameter it resolves
to, in a request after another one. -/
theorem forward_entry_one :
    let m := Demo.route "p" (some ⟨"/payload", none⟩)
      [⟨"model.w", [1], "float32", none, some "key"⟩]
    let files : FileSystem := fun _ => some (Demo.fileOf (Dict.empty.set "key" (Demo.tensor 2)))
    let request : Request Unit := ⟨Demo.quiet files, "p", Demo.tenant, fun _ => .ok ()⟩
    let rt := Runs.run (afterRequest Demo.worker) (fresh (Demo.registryOf [m]) Demo.base) [request]
    ∃ weights, .forward weights ∈ eventsSince rt (afterRequest Demo.worker rt request) ∧
      ∃ filepath file allTensors, resolvePayloadPath m none = some filepath ∧
        files filepath = some file ∧ file.tensors = .ok allTensors ∧
        ∀ k, (weights 0).entry k = (Demo.base 0).entry k +
          ((m.layers.filter (resolvesTo ((Dict.empty.set "w" 0).set "v" 1) "w")).map
            (payloadEntry allTensors k)).sum := by
  intro m files request rt
  have hunaliased : ∀ p q a, ((Dict.empty.set "w" 0).set "v" 1).get? p = some a →
      ((Dict.empty.set "w" 0).set "v" 1).get? q = some a → p = q := by
    intro p q a hp hq
    simp only [Dict.get?_set, Dict.get?_empty] at hp hq
    split_ifs at hp hq <;> simp_all <;> omega
  have hdeclared : ∀ layer ∈ m.layers, ∀ p a,
      resolveLayerName layer.name ((Dict.empty.set "w" 0).set "v" 1) = .ok p →
      ((Dict.empty.set "w" 0).set "v" 1).get? p = some a →
      (Demo.base a).shape = layer.shape ∧ (Demo.base a).dtype = layer.dtype := by
    intro layer hlayer _ _ _ _
    obtain rfl := List.mem_singleton.mp hlayer
    exact ⟨rfl, rfl⟩
  have hany : (eventsSince rt (afterRequest Demo.worker rt request)).any Event.isForward = true :=
    by decide +kernel
  obtain ⟨weights, hforward⟩ := exists_forward hany
  obtain ⟨allTensors, hfile, _, hentry⟩ :=
    forward_entry (w := Demo.worker) rfl hunaliased _ [request] request
      (rfl : (Demo.registryOf [m]).routes.get? "p" = some m) rfl (by decide) hdeclared hforward
  obtain ⟨filepath, file, hpath, hfile, htensors⟩ := hfile (List.cons_ne_nil _ _)
  exact ⟨_, hforward, filepath, file, allTensors, hpath, hfile, htensors, (hentry "w" 0 rfl).2.1⟩

end Runtime
