/-
Bad payloads at the two gateways.

A payload that fails its validation is answered by the failure policy, which
for almost every failure quarantines the route.  `infer` applies the verdict.
`ensureRoute` lets the exception of the validation escape, and no one asks the
policy.

* `infer_contains` — a bad payload met by `infer` quarantines its route;
* `ensureRoute_registry` — one met by `ensureRoute` raises, adds no delta and
  leaves the registry as it was;
* `along_quarantinesBadPayload_iff` — so bad payloads quarantine their routes
  exactly in the runs in which no activation meets one.
-/
import NeuralScalpel.LeaveNoTrace

open Effect

def Event.isDeltaAdded : Event → Bool
  | .deltaAdded _ _ => true
  | _ => false

namespace Runtime

variable {w : Worker} {β : Type} {rt : Runtime}

/-- The validation of the payload fails, and the policy quarantines the route
for it. -/
def BadPayload (w : Worker) (env : Environment) (routeData : Manifest) : Prop :=
  ∃ e, validatePayload env.files w.payloadBaseDir w.maxPayloadBytes routeData = .error e ∧
    (evaluateFailure e.failureClass).quarantineScope = some .route

/-- The request gets as far as the validation of a bad payload. -/
def RequestMeetsBadPayload (w : Worker) (rt : Runtime) (request : Request β) : Prop :=
  rt.phase ≠ .workerQuarantined ∧ ∃ routeData,
    rt.registry.getVerifiedRoute request.routeId w.runtimeModelHash request.tenant
      = .ok routeData ∧
    BadPayload w request.env routeData

/-- The activation gets as far as the validation of a bad payload: it is not
answered on the fast path, the rollback of the active route returns, and the
deltas of the route are not cached. -/
def ActivationMeetsBadPayload (w : Worker) (rt : Runtime) (activation : Activation) : Prop :=
  rt.phase ≠ .workerQuarantined ∧ rt.activeRouteId ≠ activation.routeId ∧
    activation.routeId ≠ baseRoute ∧
    (rt.activeRouteId ≠ baseRoute →
      Returns (performRollback w activation.env.resident rt.activeRouteId) rt) ∧
    rt.validatedDeltaCache.get? activation.routeId = none ∧ ∃ routeData,
    rt.registry.getVerifiedRoute activation.routeId w.runtimeModelHash activation.tenant
      = .ok routeData ∧
    BadPayload w activation.env routeData

/-- The call raises, adds no delta, and leaves the route quarantined. -/
def Contained (w : Worker) (rt : Runtime) (call : Call β) (routeId : String) : Prop :=
  returned (perform w call) rt = none ∧
    (∀ e ∈ eventsSince rt (rt.afterCall w call), e.isDeltaAdded = false) ∧
    (rt.afterCall w call).registry.statuses.get? routeId = some .quarantined

/-- If the operation is a call that meets a bad payload, it is contained. -/
def QuarantinesBadPayload (w : Worker) (rt : Runtime) : Operation β → Prop
  | .call (.infer request) => RequestMeetsBadPayload w rt request →
      Contained w rt (.infer request) request.routeId
  | .call (.ensureRoute activation) => ActivationMeetsBadPayload w rt activation →
      Contained w rt (.ensureRoute activation : Call β) activation.routeId
  | _ => True

/-- The operation is an activation that meets a bad payload. -/
def ActivatesBadPayload (w : Worker) (rt : Runtime) : Operation β → Prop
  | .call (.ensureRoute activation) => ActivationMeetsBadPayload w rt activation
  | _ => False

/-- No delta has been added in between. -/
abbrev NoDelta : Runtime → Runtime → Prop := Emits fun e => e.isDeltaAdded = false

/-! ### The transactional gateway -/

/-- The verdict on a bad payload quarantines its route. -/
theorem applyVerdict_quarantines {fc : FailureClass} {routeId : String} (hfc : fc.ofPayload)
    (hscope : (evaluateFailure fc).quarantineScope = some .route)
    (hregistered : rt.registry.routes.contains routeId = true) :
    wp (applyVerdict (evaluateFailure fc) routeId)
      (fun _ rt' => NoDelta rt rt' ∧ rt'.registry.statuses.get? routeId = some .quarantined)
      (fun _ _ => False) rt := by
  have htarget : (evaluateFailure fc).targetPhase = .routeQuarantined := by
    rcases hfc with htarget | hnone
    · exact htarget
    · rw [hscope] at hnone
      exact absurd hnone (by simp)
  have hsome : (evaluateFailure fc).quarantineScope.isSome = true := by
    rw [hscope]
    rfl
  rw [applyVerdict, if_pos hsome, htarget, if_neg (by decide), if_pos rfl, wp_bind, wp_zoom]
  refine (RouteRegistry.quarantineRoute_returns hregistered _).mono (fun _ registry hstatus => ?_)
    fun _ _ hfalse => hfalse
  refine wp_transitionOr (fun _ machine _ => ?_) fun _ => ?_
  · exact ⟨Appends.one (e := .phaseSet machine.phase) rfl rfl, hstatus⟩
  · exact ⟨Appends.nothing rfl, hstatus⟩

/-- A request that meets a bad payload raises, adds no delta and quarantines
the route. -/
theorem infer_contains {request : Request β} (h : RequestMeetsBadPayload w rt request) :
    Contained w rt (.infer request) request.routeId := by
  obtain ⟨hphase, routeData, hroute, e, hbad, hscope⟩ := h
  have hwp : wp (perform w (.infer request)) (fun _ _ => False)
      (fun _ rt' => NoDelta rt rt' ∧
        rt'.registry.statuses.get? request.routeId = some .quarantined) rt := by
    rw [perform, wp_map]
    refine wp_infer (fun hwq => absurd hwq hphase) (fun e' he' => ?_) (fun m e' hm he' _ => ?_) ?_
    · rw [hroute] at he'
      exact absurd he' (by simp)
    · obtain rfl : routeData = m := Except.ok.inj (hroute.symm.trans hm)
      obtain rfl : e = e' := Except.error.inj (hbad.symm.trans he')
      have hcontains : rt.registry.routes.contains request.routeId = true := by
        have hget := RouteRegistry.registered_of_getVerifiedRoute hroute
        rw [Dict.contains, hget]
        rfl
      exact (applyVerdict_quarantines (ofPayload_of_validatePayload hbad) hscope hcontains).mono
        (fun _ _ hq _ => hq) fun _ _ hfalse => hfalse.elim
    · intro m deltas hm hval _
      obtain rfl : routeData = m := Except.ok.inj (hroute.symm.trans hm)
      rw [hbad] at hval
      exact absurd hval (by simp)
  obtain ⟨hreturns, hraises⟩ := wp_iff.mp hwp
  have hnone : returned (perform w (.infer request)) rt = none := by
    rcases hr : returned (perform w (.infer request)) rt with _ | reply
    · rfl
    · exact (hreturns reply hr).elim
  obtain ⟨hdelta, hstatus⟩ := hraises hnone
  exact ⟨hnone, fun e he => hdelta.of_mem_drop he, hstatus⟩

/-! ### The persistent gateway -/

/-- An activation of a route whose payload is bad stops at the validation. -/
theorem activate_of_badPayload {env : Environment} {routeId : String} {tenant : TenantContext}
    {routeData : Manifest}
    (hroute : rt.registry.getVerifiedRoute routeId w.runtimeModelHash tenant = .ok routeData)
    (hcache : rt.validatedDeltaCache.get? routeId = none) (hbad : BadPayload w env routeData) :
    wp (activate w env routeId tenant) (fun _ _ => False) (fun _ rt' => rt' = rt) rt := by
  obtain ⟨e, hbad, _⟩ := hbad
  refine wp_activate (fun _ _ => rfl) fun m hm => ?_
  obtain rfl : routeData = m := Except.ok.inj (hroute.symm.trans hm)
  refine wp_cachedDeltas (fun deltas hget => ?_) (fun _ deltas hval => ?_) fun _ => rfl
  · rw [hcache] at hget
    exact absurd hget (by simp)
  · rw [hbad] at hval
    exact absurd hval (by simp)

/-- An activation that meets a bad payload raises and adds no delta, but leaves
the registry as it was. -/
theorem ensureRoute_registry {activation : Activation}
    (h : ActivationMeetsBadPayload w rt activation) :
    wp (ensure w activation) (fun _ _ => False)
      (fun _ rt' => NoDelta rt rt' ∧ rt'.registry = rt.registry) rt := by
  obtain ⟨hphase, hactive, hbase, _, hcache, routeData, hroute, hbad⟩ := h
  refine wp_ensureRoute (fun hwq => absurd hwq hphase) (fun _ heq => absurd heq hactive)
    (fun _ _ _ => ?_) fun _ _ _ => ?_
  · rw [ensureFromBase, if_neg hbase]
    refine (activate_of_badPayload hroute hcache hbad).mono (fun _ _ hfalse => hfalse) ?_
    rintro _ _ rfl
    exact ⟨refl_of NoDelta _, rfl⟩
  · -- the active route is dropped first, which changes neither registry nor cache
    have hkept := (keeps_performRollback rollbackFrame_books w activation.env.resident
      rt.activeRouteId).and_wp (keeps_performRollback (rollbackFrame_emits
        (P := fun e => e.isDeltaAdded = false) (fun _ => rfl) rfl) w activation.env.resident
        rt.activeRouteId rt)
    refine hkept.mono (fun _ rt₁ hrt₁ => ?_) fun _ rt₁ hrt₁ => ?_
    · obtain ⟨hbooks, hdelta⟩ := hrt₁
      obtain ⟨hregistry, hcached, -, -⟩ := books_eq_iff.mp hbooks
      rw [ensureFromBase, if_neg hbase]
      refine (activate_of_badPayload (hregistry ▸ hroute) (hcached ▸ hcache) hbad).mono
        (fun _ _ hfalse => hfalse) ?_
      rintro _ _ rfl
      exact ⟨hdelta, hregistry⟩
    · obtain ⟨hbooks, hdelta⟩ := hrt₁
      exact ⟨hdelta, (books_eq_iff.mp hbooks).1⟩

/-- A route met by an activation is not quarantined, and is not after it. -/
theorem not_contained_of_activation {activation : Activation}
    (h : ActivationMeetsBadPayload w rt activation) :
    ¬Contained w rt (.ensureRoute activation : Call β) activation.routeId := by
  rintro ⟨_, _, hstatus⟩
  have hwp : wp (perform w (.ensureRoute activation : Call β)) (fun _ _ => False)
      (fun _ rt' => NoDelta rt rt' ∧ rt'.registry = rt.registry) rt := by
    rw [perform, wp_map]
    exact ensureRoute_registry h
  have hregistry : (rt.afterCall w (.ensureRoute activation : Call β)).registry = rt.registry :=
    wp_const_iff.mp (hwp.mono (fun _ _ hfalse => hfalse.elim) fun _ _ h' => h'.2)
  obtain ⟨_, _, _, _, _, routeData, hroute, _⟩ := h
  rw [hregistry] at hstatus
  exact (RouteRegistry.getVerifiedRoute_eq_ok.mp hroute).not_quarantined hstatus

/-! ### Runs -/

/-- A call that meets a bad payload is contained, unless it is an activation. -/
theorem quarantinesBadPayload_iff (w : Worker) (rt : Runtime) (op : Operation β) :
    QuarantinesBadPayload w rt op ↔ ¬ActivatesBadPayload w rt op := by
  rcases op with ⟨request | activation | _⟩ | _ | _ | _
  case call.infer => exact ⟨fun _ hfalse => hfalse, fun _ hmeets => infer_contains hmeets⟩
  case call.ensureRoute =>
    constructor
    · intro hcontained hmeets
      exact not_contained_of_activation hmeets (hcontained hmeets)
    · intro hnot hmeets
      exact absurd hmeets hnot
  all_goals exact ⟨fun _ h => h, fun _ => trivial⟩

/-- **When bad payloads quarantine their routes.**  In a run of calls,
registrations, quarantines and revocations, every call that meets a bad payload
raises, adds no delta and leaves the route quarantined exactly when no such
call is an activation. -/
theorem along_quarantinesBadPayload_iff (w : Worker) (rt : Runtime) (ops : List (Operation β)) :
    Runs.Along (afterOperation w) (QuarantinesBadPayload w) rt ops ↔
      Runs.Along (afterOperation w) (fun rt op => ¬ActivatesBadPayload w rt op) rt ops :=
  Runs.along_congr fun rt op => quarantinesBadPayload_iff w rt op

end Runtime

namespace Demo

/-- A worker that knows one route, whose payload file is not there. -/
def missingPayload : Runtime :=
  .fresh (registryOf [route "r" (some ⟨"/gone", none⟩) [layer "w"]]) base

end Demo

namespace Runtime

/-- An activation of a route whose payload file is missing leaves the route in
production. -/
theorem not_quarantinesBadPayload_activation :
    ¬Runs.Along (afterOperation Demo.worker) (QuarantinesBadPayload Demo.worker)
      Demo.missingPayload ([.call (.ensureRoute ⟨Demo.quiet Demo.noFiles, "r", Demo.tenant⟩)] :
        List (Operation Unit)) := by
  rintro ⟨hcontained, _⟩
  have hmeets : ActivationMeetsBadPayload Demo.worker Demo.missingPayload
      ⟨Demo.quiet Demo.noFiles, "r", Demo.tenant⟩ := by
    refine ⟨by decide, by decide, by decide, fun h => absurd rfl h, rfl, ?_⟩
    exact ⟨_, rfl, ⟨.payloadFileNotFound, _⟩, rfl, rfl⟩
  obtain ⟨_, _, hstatus⟩ := hcontained hmeets
  exact absurd hstatus (by decide +kernel)

end Runtime
