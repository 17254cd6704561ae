/-
Phase, active route and weights.

At rest a worker whose rollbacks succeed is in one of two states: ready, with no
active route and the base weights, or swapped, with an active route and the base
weights plus its deltas.  `Consistent` says so, together with what keeps it so:
the snapshots lead back, and the cache holds validated deltas.

* `activate_spec`, `ensureRoute_spec` — the persistent gateway keeps it;
* `clearActiveRoute_consistent` — so does the cleanup;
* `infer_consistent` — and the transactional gateway, unless it is used for a
  valid route while another is active: then it rolls that route back and leaves
  its name behind;
* `agreement_of_not_interleaved` — the same over runs that mix them.
-/
import NeuralScalpel.LeaveNoTrace

open Effect

def Call.env {β : Type} : Call β → Environment
  | .infer request => request.env
  | .ensureRoute activation => activation.env
  | .clearActiveRoute env => env

namespace Runtime

variable {w : Worker} {base : Store} {β : Type} {rt : Runtime}

/-- Ready, with no active route and the base weights. -/
structure Grounded (base : Store) (rt : Runtime) : Prop where
  phase : rt.phase = .ready
  active : rt.activeRouteId = baseRoute
  store : rt.store = base

/-- Swapped, with an active route and the base weights plus its cached deltas. -/
structure Carrying (w : Worker) (base : Store) (rt : Runtime) : Prop where
  phase : rt.phase = .swapped
  active : rt.activeRouteId ≠ baseRoute
  weights : ∃ routeData deltas, rt.registry.routes.get? rt.activeRouteId = some routeData ∧
    rt.validatedDeltaCache.get? rt.activeRouteId = some deltas ∧
    rt.store = plusDeltas w routeData deltas routeData.layers base

/-- The state of a worker at rest.  `Valid` says which deltas count as validated
for a manifest registered under an id. -/
structure Consistent (w : Worker) (base : Store) (routes : Dict String Manifest)
    (Valid : String → Manifest → Dict String Tensor → Prop) (rt : Runtime) : Prop where
  recoverable : Recoverable w base rt
  routes_eq : rt.registry.routes = routes
  cached : ∀ {routeId deltas}, rt.validatedDeltaCache.get? routeId = some deltas →
    ∃ routeData, routes.get? routeId = some routeData ∧ Valid routeId routeData deltas
  atRest : Grounded base rt ∨ Carrying w base rt

variable {routes : Dict String Manifest}
  {Valid : String → Manifest → Dict String Tensor → Prop}

theorem consistent_fresh (w : Worker) (registry : RouteRegistry) (base : Store)
    (Valid : String → Manifest → Dict String Tensor → Prop) :
    Consistent w base registry.routes Valid (fresh registry base) where
  recoverable := .of_base rfl Golden.ok_empty
  routes_eq := rfl
  cached h := absurd h (by simp [fresh])
  atRest := Or.inl ⟨rfl, rfl, rfl⟩

/-- Changing a status in the registry changes nothing here. -/
theorem Consistent.set_registry {registry : RouteRegistry} (h : Consistent w base routes Valid rt)
    (hroutes : registry.routes = rt.registry.routes) :
    Consistent w base routes Valid { rt with registry := registry } where
  recoverable := h.recoverable.congr rfl rfl
  routes_eq := hroutes.trans h.routes_eq
  cached := h.cached
  atRest := by
    refine h.atRest.imp (fun hg => ⟨hg.phase, hg.active, hg.store⟩)
      fun hc => ⟨hc.phase, hc.active, ?_⟩
    obtain ⟨routeData, deltas, hroute, hcached, hstore⟩ := hc.weights
    exact ⟨routeData, deltas, by rw [hroutes, hroute], hcached, hstore⟩

theorem Consistent.phase_ne (h : Consistent w base routes Valid rt) :
    rt.phase = .ready ∨ rt.phase = .swapped :=
  h.atRest.imp Grounded.phase Carrying.phase

theorem Consistent.grounded (h : Consistent w base routes Valid rt)
    (hactive : rt.activeRouteId = baseRoute) : Grounded base rt :=
  h.atRest.resolve_right fun hc => hc.active hactive

/-- A rollback that went well, with no active route: grounded again. -/
theorem Consistent.of_rolledBack {rt₁ rt₂ : Runtime} (h : Consistent w base routes Valid rt)
    (hbooks : rt₁.books = rt.books) (hback : RolledBack w base rt₁ rt₂) :
    Consistent w base routes Valid { rt₂ with activeRouteId := baseRoute } ∧
      Grounded base { rt₂ with activeRouteId := baseRoute } := by
  obtain ⟨hregistry, hcache, -, -⟩ := books_eq_iff.mp (hback.books.trans hbooks)
  have hgrounded : Grounded base { rt₂ with activeRouteId := baseRoute } :=
    ⟨hback.phase, rfl, hback.store⟩
  refine ⟨⟨hback.recoverable.congr rfl rfl, ?_, ?_, Or.inl hgrounded⟩, hgrounded⟩
  · exact (congrArg RouteRegistry.routes hregistry).trans h.routes_eq
  · intro routeId deltas hget
    exact h.cached (hcache ▸ hget)

/-- A rollback in which nothing goes astray, from a recoverable state in which no
route is active. -/
theorem performRollback_consistent {faults : RollbackFaults} {routeId : String} {rt₁ : Runtime}
    (h : Consistent w base routes Valid rt) (hactive : rt.activeRouteId = baseRoute)
    (hbooks : rt₁.books = rt.books) (hrec : Recoverable w base rt₁) (hclean : faults.Clean) :
    wp (performRollback w faults routeId) (fun _ => Consistent w base routes Valid)
      (fun _ _ => False) rt₁ := by
  refine (performRollback_rolledBack hrec hclean).mono (fun _ rt₂ hback => ?_)
    fun _ _ hfalse => hfalse
  -- no route was active, so the name that is left is the base model's
  obtain ⟨-, -, hname, -⟩ := books_eq_iff.mp (hback.books.trans hbooks)
  have hactive₂ : rt₂.activeRouteId = baseRoute := hname.trans hactive
  have hsame : { rt₂ with activeRouteId := baseRoute } = rt₂ := by rw [← hactive₂]
  exact hsame ▸ (h.of_rolledBack hbooks hback).1

/-! ### The persistent gateway -/

/-- The deltas of an activation are cached afterwards, and validated. -/
theorem cachedDeltas_spec {env : Environment} {routeId : String} {routeData : Manifest}
    (h : Consistent w base routes Valid rt) (hg : Grounded base rt)
    (hroute : routes.get? routeId = some routeData)
    (hvalid : ∀ deltas, validatePayload env.files w.payloadBaseDir w.maxPayloadBytes routeData =
      .ok deltas → Valid routeId routeData deltas) :
    wp (cachedDeltas w env routeId routeData)
      (fun deltas rt' => Consistent w base routes Valid rt' ∧ Grounded base rt' ∧
        rt'.validatedDeltaCache.get? routeId = some deltas ∧ Valid routeId routeData deltas ∧
        rt'.swapCount = rt.swapCount ∧ rt'.rollbackCount = rt.rollbackCount)
      (fun _ => Consistent w base routes Valid) rt := by
  refine wp_cachedDeltas (fun deltas hget => ?_) (fun _ deltas hval => ?_) fun _ => h
  · obtain ⟨m, hm, hv⟩ := h.cached hget
    obtain rfl := Option.some.inj (hm.symm.trans hroute)
    exact ⟨h, hg, hget, hv, rfl, rfl⟩
  · have hv := hvalid deltas hval
    have hg' : Grounded base { rt with
        validatedDeltaCache := rt.validatedDeltaCache.set routeId deltas } :=
      ⟨hg.phase, hg.active, hg.store⟩
    refine ⟨⟨h.recoverable.congr rfl rfl, h.routes_eq, fun {r d} hget => ?_, Or.inl hg'⟩, hg',
      Dict.get?_set_self _ _ _, hv, rfl, rfl⟩
    by_cases hr : r = routeId
    · subst hr
      rw [Dict.get?_set_self] at hget
      obtain rfl := Option.some.inj hget
      exact ⟨routeData, hroute, hv⟩
    · rw [Dict.get?_set_of_ne hr] at hget
      exact h.cached hget

/-- Swapping a route in on top of the base weights. -/
theorem activate_spec {env : Environment} {routeId : String} {tenant : TenantContext}
    (h : Consistent w base routes Valid rt) (hg : Grounded base rt) (hbase : routeId ≠ baseRoute)
    (hclean : env.cycle.Clean)
    (hfiles : ∀ {routeId routeData deltas}, Valid routeId routeData deltas →
      ∃ files, validatePayload files w.payloadBaseDir w.maxPayloadBytes routeData = .ok deltas)
    (hvalid : ∀ routeData deltas, routes.get? routeId = some routeData →
      validatePayload env.files w.payloadBaseDir w.maxPayloadBytes routeData = .ok deltas →
      Valid routeId routeData deltas) :
    wp (activate w env routeId tenant)
      (fun b rt' => b = true ∧ Consistent w base routes Valid rt' ∧ rt'.activeRouteId = routeId ∧
        rt'.swapCount = rt.swapCount + 1 ∧ rt'.rollbackCount = rt.rollbackCount)
      (fun _ => Consistent w base routes Valid) rt := by
  refine wp_activate (fun _ _ => h) fun routeData hroute => ?_
  have hregistered : routes.get? routeId = some routeData :=
    h.routes_eq ▸ RouteRegistry.registered_of_getVerifiedRoute hroute
  refine (cachedDeltas_spec h hg hregistered fun deltas => hvalid routeData deltas hregistered).mono
    ?_ fun _ _ he => he
  rintro deltas rt₁ ⟨h₁, hg₁, hcached, hv, hswaps, hrollbacks⟩
  obtain ⟨files, hval⟩ := hfiles hv
  -- what the swap does to the weights, together with what it does not touch
  refine ((keeps_swapIn swapFrame_books (fun _ _ _ => rfl) routeId).and_wp
    ((keeps_swapIn swapFrame_rollbackCount (fun _ _ _ => rfl) routeId).and_wp
      (swapIn_spec h₁.recoverable fun _ => hg₁.store))).mono ?_ ?_
  · rintro _ rt₂ ⟨hbooks, hcount, hrec, hphase, _, deltas', happly, hstore, _⟩
    obtain rfl := eq_of_deltasToApply hval happly
    obtain ⟨hregistry, hcache, -, hswap⟩ := books_eq_iff.mp hbooks
    have hroutes : rt₂.registry.routes = routes :=
      (congrArg RouteRegistry.routes hregistry).trans h₁.routes_eq
    refine ⟨rfl, ⟨hrec.congr rfl rfl, hroutes, fun {r d} hget => h₁.cached (hcache ▸ hget),
      Or.inr ⟨hphase, hbase, routeData, deltas', ?_, ?_, hstore⟩⟩, rfl, ?_, hcount.trans hrollbacks⟩
    · exact hroutes.symm ▸ hregistered
    · exact (congrArg (Dict.get? · routeId) hcache).trans hcached
    · show rt₂.swapCount + 1 = _
      rw [hswap, hswaps]
  · -- the swap has raised: back to the base weights, with no route active
    rintro e rt₂ ⟨hbooks, _, hrec⟩
    exact (performRollback_rolledBack hrec hclean).mono
      (fun _ rt₃ hback => (h₁.of_rolledBack hbooks hback).1) fun _ _ hfalse => hfalse.elim

/-- What is left of an activation once no route is active. -/
theorem ensureFromBase_spec {activation : Activation} (h : Consistent w base routes Valid rt)
    (hg : Grounded base rt) (hcycle : activation.env.cycle.Clean)
    (hfiles : ∀ {routeId routeData deltas}, Valid routeId routeData deltas →
      ∃ files, validatePayload files w.payloadBaseDir w.maxPayloadBytes routeData = .ok deltas)
    (hvalid : activation.routeId ≠ baseRoute → ∀ routeData deltas,
      routes.get? activation.routeId = some routeData →
      validatePayload activation.env.files w.payloadBaseDir w.maxPayloadBytes routeData =
        .ok deltas → Valid activation.routeId routeData deltas) :
    wp (ensureFromBase w activation.env activation.routeId activation.tenant)
      (fun b rt' => b = true ∧ Consistent w base routes Valid rt' ∧
        rt'.activeRouteId = activation.routeId ∧
        rt'.swapCount = rt.swapCount + (if activation.routeId ≠ baseRoute then 1 else 0) ∧
        rt'.rollbackCount = rt.rollbackCount)
      (fun _ => Consistent w base routes Valid) rt := by
  rw [ensureFromBase]
  by_cases hbase : activation.routeId = baseRoute
  · rw [if_pos hbase, if_neg (not_not.mpr hbase)]
    exact ⟨rfl, h, hg.active.trans hbase.symm, rfl, rfl⟩
  · rw [if_neg hbase, if_pos hbase]
    exact activate_spec h hg hbase hcycle hfiles (hvalid hbase)

/-- One activation: what it returns, and what it leaves. -/
theorem ensureRoute_spec {activation : Activation} (h : Consistent w base routes Valid rt)
    (hresident : activation.env.resident.Clean) (hcycle : activation.env.cycle.Clean)
    (hfiles : ∀ {routeId routeData deltas}, Valid routeId routeData deltas →
      ∃ files, validatePayload files w.payloadBaseDir w.maxPayloadBytes routeData = .ok deltas)
    (hvalid : activation.routeId ≠ baseRoute → ∀ routeData deltas,
      routes.get? activation.routeId = some routeData →
      validatePayload activation.env.files w.payloadBaseDir w.maxPayloadBytes routeData =
        .ok deltas → Valid activation.routeId routeData deltas) :
    wp (ensure w activation)
      (fun b rt' => Consistent w base routes Valid rt' ∧ rt'.activeRouteId = activation.routeId ∧
        b = decide (activation.routeId ≠ rt.activeRouteId) ∧
        rt'.swapCount = rt.swapCount +
          (if activation.routeId ≠ baseRoute ∧ activation.routeId ≠ rt.activeRouteId
            then 1 else 0) ∧
        rt'.rollbackCount = rt.rollbackCount +
          (if rt.activeRouteId ≠ baseRoute ∧ activation.routeId ≠ rt.activeRouteId then 1 else 0))
      (fun _ => Consistent w base routes Valid) rt := by
  refine wp_ensureRoute (fun _ _ => h) (fun _ hactive => ?_) (fun _ hne hbase => ?_)
    fun _ hne hbase => ?_
  · -- the route is active already
    have hsame : ¬activation.routeId ≠ rt.activeRouteId := fun hne => hne hactive.symm
    rw [if_neg fun hc => hsame hc.2, if_neg fun hc => hsame hc.2, decide_eq_false hsame]
    exact ⟨h, hactive, rfl, rfl, rfl⟩
  · -- no route is active: no rollback, and a swap unless the target is the base model
    refine (ensureFromBase_spec h (h.grounded hbase) hcycle hfiles hvalid).mono ?_ fun _ _ he => he
    rintro b rt' ⟨rfl, h', hactive, hswap, hcount⟩
    have hother : activation.routeId ≠ rt.activeRouteId := fun heq => hne heq.symm
    have hnone : ¬(rt.activeRouteId ≠ baseRoute ∧ activation.routeId ≠ rt.activeRouteId) :=
      fun hc => hc.1 hbase
    rw [if_neg hnone, decide_eq_true hother]
    refine ⟨h', hactive, rfl, ?_, hcount⟩
    rw [hswap, if_congr (and_iff_left hother) rfl rfl]
  · -- another route is active, and is rolled back first
    refine (performRollback_rolledBack h.recoverable hresident).mono (fun _ rt₁ hback => ?_)
      fun _ _ hfalse => hfalse.elim
    obtain ⟨h₁, hg₁⟩ := h.of_rolledBack rfl hback
    refine (ensureFromBase_spec h₁ hg₁ hcycle hfiles hvalid).mono ?_ fun _ _ he => he
    rintro b rt' ⟨rfl, h', hactive, hswap, hcount⟩
    have hother : activation.routeId ≠ rt.activeRouteId := fun heq => hne heq.symm
    have hone : rt.activeRouteId ≠ baseRoute ∧ activation.routeId ≠ rt.activeRouteId :=
      ⟨hbase, hother⟩
    obtain ⟨-, -, -, hswap₁⟩ := books_eq_iff.mp hback.books
    rw [if_pos hone, decide_eq_true hother, if_congr (and_iff_left hother) rfl rfl, ← hswap₁]
    exact ⟨h', hactive, rfl, hswap, hcount.trans hback.count⟩

/-- A cleanup drops the active route. -/
theorem clearActiveRoute_consistent {env : Environment} (h : Consistent w base routes Valid rt)
    (hresident : env.resident.Clean) :
    wp (clearActiveRoute w env) (fun _ => Consistent w base routes Valid)
      (fun _ => Consistent w base routes Valid) rt :=
  wp_clearActiveRoute (fun _ => h) fun _ =>
    (performRollback_rolledBack h.recoverable hresident).mono
      (fun _ _ hback => (h.of_rolledBack rfl hback).1) fun _ _ hfalse => hfalse.elim

/-! ### The transactional gateway -/

/-- A request that verifies and validates, made while a route is active. -/
def interleaves (w : Worker) (rt : Runtime) : Call β → Bool
  | .infer request =>
    rt.activeRouteId != baseRoute &&
      match rt.registry.getVerifiedRoute request.routeId w.runtimeModelHash request.tenant with
      | .ok routeData => validates w request.env routeData
      | .error _ => false
  | _ => false

/-- A rejected payload changes the status of its route, and nothing else unless
the phase allows a route quarantine. -/
theorem applyVerdict_of_payload {fc : FailureClass} {routeId : String} (hfc : fc.ofPayload)
    (hphase : .routeQuarantined ∉ validTransitions rt.phase) :
    wp (applyVerdict (evaluateFailure fc) routeId)
      (fun _ rt' => ∃ registry : RouteRegistry, registry.routes = rt.registry.routes ∧
        rt' = { rt with registry := registry })
      (fun _ rt' => ∃ registry : RouteRegistry, registry.routes = rt.registry.routes ∧
        rt' = { rt with registry := registry }) rt := by
  unfold applyVerdict
  rcases hfc with hroute | hnone
  · by_cases hscope : (evaluateFailure fc).quarantineScope.isSome = true
    · rw [if_pos hscope, hroute, if_neg (by decide), if_pos rfl, wp_bind, wp_zoom]
      refine (RouteRegistry.routes_quarantineRoute routeId (evaluateFailure fc).message
        rt.registry).mono (fun _ registry hroutes => ?_) fun _ registry hroutes =>
          ⟨registry, hroutes, rfl⟩
      exact wp_transitionOr (fun hvalid => absurd hvalid hphase) fun _ => ⟨registry, hroutes, rfl⟩
    · rw [if_neg hscope]
      exact ⟨rt.registry, rfl, rfl⟩
  · rw [hnone, if_neg (by decide)]
    exact ⟨rt.registry, rfl, rfl⟩

/-- A request for a valid route only while no route is active. -/
theorem infer_consistent {request : Request β} (h : Consistent w base routes Valid rt)
    (hcycle : request.env.cycle.Clean) (hnot : interleaves w rt (.infer request) = false) :
    wp (serve w request) (fun _ => Consistent w base routes Valid)
      (fun _ => Consistent w base routes Valid) rt := by
  refine wp_infer (fun _ _ => h) (fun _ _ => h) (fun routeData e _ hval _ => ?_) ?_
  · have hphase : .routeQuarantined ∉ validTransitions rt.phase := by
      rcases h.phase_ne with hp | hp <;> rw [hp] <;> decide
    refine (applyVerdict_of_payload (ofPayload_of_validatePayload hval) hphase).mono ?_ ?_
    · rintro _ _ ⟨registry, hroutes, rfl⟩ _
      exact h.set_registry hroutes
    · rintro _ _ ⟨registry, hroutes, rfl⟩
      exact h.set_registry hroutes
  · intro routeData deltas hroute hval _
    -- a request that gets here does not interleave only because no route is active
    have hactive : rt.activeRouteId = baseRoute := by
      rw [interleaves, hroute] at hnot
      rcases Bool.and_eq_false_iff.mp hnot with hbase | hinvalid
      · exact bne_eq_false_iff_eq.mp hbase
      · exact absurd (validates_of_eq_ok hval) (Bool.eq_false_iff.mp hinvalid)
    have hg := h.grounded hactive
    rw [wp_bind]
    refine ((keeps_swapIn swapFrame_books (fun _ _ _ => rfl) request.routeId).and_wp
      (swapIn_spec h.recoverable fun _ => hg.store)).mono ?_ ?_
    · rintro _ rt₁ ⟨hbooks, hrec, hphase, _⟩
      -- a forward pass changes neither the books nor what a rollback needs
      have hforward : ∀ machine, wp (performRollback w request.env.cycle request.routeId)
          (fun _ => Consistent w base routes Valid) (fun _ _ => False) (rt₁.forwarding machine) :=
        fun _ => performRollback_consistent h hactive hbooks (hrec.congr rfl rfl) hcycle
      refine wp_runForward hphase (fun machine output _ => ?_) fun machine _ _ => ?_
      · exact (hforward machine).mono (fun _ _ hc => ⟨fun _ _ => hc, fun _ => hc⟩)
          fun _ _ hfalse => hfalse.elim
      · exact (hforward machine).mono (fun _ _ hc => hc) fun _ _ hfalse => hfalse.elim
    · rintro e rt₁ ⟨hbooks, hrec⟩
      exact (performRollback_consistent h hactive hbooks hrec hcycle).mono (fun _ _ hc => hc)
        fun _ _ hfalse => hfalse.elim

/-! ### Runs -/

/-- The deltas are what some call of the run got from the validation. -/
def ValidatedIn (w : Worker) (calls : List (Call β)) (_ : String) (routeData : Manifest)
    (deltas : Dict String Tensor) : Prop :=
  ∃ call ∈ calls,
    validatePayload call.env.files w.payloadBaseDir w.maxPayloadBytes routeData = .ok deltas

/-- Phase, active route and weights agree: a ready worker has no active route and
the base weights, and a swapped one has the base weights plus exactly the
deltas of the active route, which are those the validation returned for its
manifest. -/
structure Agrees (w : Worker) (base : Store) (calls : List (Call β)) (rt : Runtime) : Prop where
  ready : rt.phase = .ready → rt.activeRouteId = baseRoute ∧ rt.store = base
  swapped : rt.phase = .swapped → ∃ routeData deltas,
    rt.registry.routes.get? rt.activeRouteId = some routeData ∧
    ValidatedIn w calls rt.activeRouteId routeData deltas ∧
    rt.store = plusDeltas w routeData deltas routeData.layers base

/-- Every copy and every digest of every rollback of the run succeeds. -/
def AllClean (calls : List (Call β)) : Prop :=
  ∀ call ∈ calls, call.env.resident.Clean ∧ call.env.cycle.Clean

/-- The agreement holds in every state the run goes through. -/
def AgreementHolds (w : Worker) (registry : RouteRegistry) (base : Store)
    (calls : List (Call β)) : Prop :=
  ∀ before later, calls = before ++ later →
    Agrees w base calls (Runs.run (afterCall w) (fresh registry base) before)

theorem Consistent.agrees {calls : List (Call β)}
    (h : Consistent w base routes (ValidatedIn w calls) rt) : Agrees w base calls rt := by
  constructor
  · intro hready
    rcases h.atRest with hg | hc
    · exact ⟨hg.active, hg.store⟩
    · rw [hc.phase] at hready
      exact absurd hready (by decide)
  · intro hswapped
    rcases h.atRest with hg | hc
    · rw [hg.phase] at hswapped
      exact absurd hswapped (by decide)
    · obtain ⟨routeData, deltas, hroute, hcached, hstore⟩ := hc.weights
      obtain ⟨m, hm, hvalid⟩ := h.cached hcached
      obtain rfl := Option.some.inj (hm.symm.trans (h.routes_eq ▸ hroute))
      exact ⟨m, deltas, hroute, hvalid, hstore⟩

/-- One call of a run that does not interleave keeps the agreement. -/
theorem afterCall_consistent {calls : List (Call β)} {call : Call β} (hcall : call ∈ calls)
    (h : Consistent w base routes (ValidatedIn w calls) rt) (hclean : AllClean calls)
    (hnot : interleaves w rt call = false) :
    Consistent w base routes (ValidatedIn w calls) (rt.afterCall w call) := by
  obtain ⟨hresident, hcycle⟩ := hclean call hcall
  have hwp : wp (perform w call) (fun _ => Consistent w base routes (ValidatedIn w calls))
      (fun _ => Consistent w base routes (ValidatedIn w calls)) rt := by
    cases call with
    | infer request =>
      rw [perform, wp_map]
      exact infer_consistent h hcycle hnot
    | ensureRoute activation =>
      rw [perform, wp_map]
      refine (ensureRoute_spec h hresident hcycle ?_ ?_).mono (fun _ _ hc => hc.1) fun _ _ hc => hc
      · rintro routeId routeData deltas ⟨c, _, hval⟩
        exact ⟨c.env.files, hval⟩
      · exact fun _ routeData deltas _ hval => ⟨_, hcall, hval⟩
    | clearActiveRoute env =>
      rw [perform, wp_map]
      exact clearActiveRoute_consistent h hresident
  exact wp_const_iff.mp hwp

/-- **Phase, active route and weights agree over mixed use of both gateways, as
long as requests do not interleave with an active route.** -/
theorem agreement_of_not_interleaved (w : Worker) (registry : RouteRegistry) (base : Store)
    {calls : List (Call β)} (hclean : AllClean calls)
    (hnot : Runs.Along (afterCall w) (fun rt call => interleaves w rt call = false)
      (fresh registry base) calls) : AgreementHolds w registry base calls := by
  intro before later hcalls
  have hprefix : Runs.Along (afterCall w)
      (fun rt call => call ∈ calls ∧ interleaves w rt call = false) (fresh registry base)
      before := by
    refine Runs.along_iff.mpr fun earlier call rest hbefore => ⟨?_, ?_⟩
    · rw [hcalls, hbefore]
      simp
    · exact Runs.along_iff.mp hnot earlier call (rest ++ later) (by simp [hcalls, hbefore])
  exact (Runs.invariant_run (fun _ _ h hc => afterCall_consistent hc.1 h hclean hc.2)
    (consistent_fresh w registry base (ValidatedIn w calls)) hprefix).agrees

/-- Activate, clean up, and then serve a request. -/
theorem agreement_of_not_interleaved_three :
    AgreementHolds Demo.worker Demo.start.registry Demo.base ([
      .ensureRoute ⟨Demo.quiet Demo.noFiles, "r", Demo.tenant⟩,
      .clearActiveRoute (Demo.quiet Demo.noFiles),
      .infer ⟨Demo.quiet Demo.noFiles, "s", Demo.tenant, fun _ => .ok ()⟩] : List (Call Unit)) := by
  refine agreement_of_not_interleaved _ _ _ (fun call hcall => ?_) (by decide +kernel)
  simp only [List.mem_cons, List.not_mem_nil, or_false] at hcall
  rcases hcall with rfl | rfl | rfl <;>
    exact ⟨⟨fun _ => rfl, fun _ => rfl⟩, fun _ => rfl, fun _ => rfl⟩

/-- A request while a route is active leaves a ready worker whose active route
is still that route. -/
theorem not_agreement_interleaved :
    let calls : List (Call Unit) := [
      .ensureRoute ⟨Demo.quiet Demo.noFiles, "r", Demo.tenant⟩,
      .infer ⟨Demo.quiet Demo.noFiles, "s", Demo.tenant, fun _ => .ok ()⟩]
    AllClean calls ∧ ¬AgreementHolds Demo.worker Demo.start.registry Demo.base calls := by
  refine ⟨fun call hcall => ?_, fun h => ?_⟩
  · simp only [List.mem_cons, List.not_mem_nil, or_false] at hcall
    rcases hcall with rfl | rfl <;> exact ⟨⟨fun _ => rfl, fun _ => rfl⟩, fun _ => rfl, fun _ => rfl⟩
  · have hactive := ((h _ [] (List.append_nil _).symm).ready (by decide +kernel)).1
    exact absurd hactive (by decide +kernel)

end Runtime
