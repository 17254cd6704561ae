/-
Activations and the registry's authorisation.

Between two activations a route can be revoked or quarantined, and another
tenant can ask for it.  `ensureRoute` asks the registry before it swaps a route
in, but not when the route is already active.

* `ensureRoute_authorised` — a route that is swapped in is authorised;
* `acceptedAuthorised_iff` — an accepted activation is authorised, except on
  the fast path for a route the registry would refuse;
* `along_acceptedAuthorised_iff` — the same over runs with registrations,
  quarantines and revocations in between.
-/
import NeuralScalpel.LeaveNoTrace

open Effect

namespace Runtime

variable {w : Worker} {β : Type} {rt : Runtime}

/-- The registry would hand the route out to the tenant now. -/
def Grants (w : Worker) (rt : Runtime) (routeId : String) (tenant : TenantContext) : Prop :=
  ∃ routeData, rt.registry.getVerifiedRoute routeId w.runtimeModelHash tenant = .ok routeData

/-- A granted route is registered, neither revoked nor quarantined, made for
the running model and open to the tenant. -/
theorem grants_iff {routeId : String} {tenant : TenantContext} :
    Grants w rt routeId tenant ↔
      ∃ routeData, rt.registry.Authorised routeId w.runtimeModelHash tenant routeData := by
  unfold Grants
  simp only [RouteRegistry.getVerifiedRoute_eq_ok]

/-- If the operation is an activation of a route and returns, the route is
authorised for the tenant in the state at the time of the call. -/
def AcceptedAuthorised (w : Worker) (rt : Runtime) : Operation β → Prop
  | .call (.ensureRoute activation) =>
    activation.routeId ≠ baseRoute → (returned (ensure w activation) rt).isSome = true →
      Grants w rt activation.routeId activation.tenant ∧
      ∃ routeData, rt.registry.Authorised activation.routeId w.runtimeModelHash activation.tenant
        routeData
  | _ => True

/-- The operation activates the route that is active already, and the registry
would refuse it. -/
def StaleActivation (w : Worker) (rt : Runtime) : Operation β → Prop
  | .call (.ensureRoute activation) =>
    rt.phase ≠ .workerQuarantined ∧ activation.routeId ≠ baseRoute ∧
      rt.activeRouteId = activation.routeId ∧ ¬Grants w rt activation.routeId activation.tenant
  | _ => False

/-- An activation verifies the route. -/
theorem activate_granted (env : Environment) (routeId : String) (tenant : TenantContext)
    (rt : Runtime) :
    wp (activate w env routeId tenant) (fun _ _ => Grants w rt routeId tenant) (fun _ _ => True)
      rt := by
  refine wp_activate (fun _ _ => trivial) fun routeData hroute => ?_
  refine (Keeps.anything (cachedDeltas w env routeId routeData) rt).mono ?_ fun _ _ _ => trivial
  intro deltas rt₁ _
  refine (Keeps.anything (swapIn w env routeId routeData deltas) rt₁).mono
    (fun _ _ _ => ⟨routeData, hroute⟩) fun e rt₂ _ => ?_
  exact Keeps.anything (performRollback w env.cycle routeId) rt₂

/-- A route that was not active and has been accepted is granted. -/
theorem ensureRoute_authorised (activation : Activation) (hbase : activation.routeId ≠ baseRoute)
    (hactive : rt.activeRouteId ≠ activation.routeId) :
    wp (ensure w activation) (fun _ _ => Grants w rt activation.routeId activation.tenant)
      (fun _ _ => True) rt := by
  refine wp_ensureRoute (fun _ _ => trivial) (fun _ heq => absurd heq hactive) (fun _ _ _ => ?_)
    fun _ _ _ => ?_
  · rw [ensureFromBase, if_neg hbase]
    exact activate_granted _ _ _ rt
  · refine (keeps_performRollback rollbackFrame_books w _ _ rt).mono (fun _ rt₁ hbooks => ?_)
      fun _ _ _ => trivial
    obtain ⟨hregistry, -, -, -⟩ := books_eq_iff.mp hbooks
    rw [ensureFromBase, if_neg hbase]
    refine (activate_granted _ _ _ _).mono (fun _ _ hgrants => ?_) fun _ _ h => h
    obtain ⟨routeData, hroute⟩ := hgrants
    exact ⟨routeData, hregistry ▸ hroute⟩

/-- An activation of the active route is accepted without a question. -/
theorem ensureRoute_of_active {activation : Activation} (hphase : rt.phase ≠ .workerQuarantined)
    (hactive : rt.activeRouteId = activation.routeId) :
    (returned (ensure w activation) rt).isSome = true := by
  have hreturns : Returns (ensure w activation) rt :=
    wp_ensureRoute (fun hwq => absurd hwq hphase) (fun _ _ => trivial)
      (fun _ hne => absurd hactive hne) fun _ hne => absurd hactive hne
  exact Option.isSome_iff_exists.mpr (returns_iff.mp hreturns)

/-- A quarantined worker accepts no activation. -/
theorem ensureRoute_of_quarantined {activation : Activation}
    (hphase : rt.phase = .workerQuarantined) : returned (ensure w activation) rt = none := by
  have hraises : wp (ensure w activation) (fun _ _ => False) (fun _ _ => True) rt :=
    wp_ensureRoute (fun _ _ => trivial) (fun hne => absurd hphase hne)
      (fun hne => absurd hphase hne) fun hne => absurd hphase hne
  rcases hr : returned (ensure w activation) rt with _ | b
  · rfl
  · exact ((wp_iff.mp hraises).1 b hr).elim

/-- An accepted activation is authorised, unless it takes the fast path for a
route the registry would refuse. -/
theorem acceptedAuthorised_iff (w : Worker) (rt : Runtime) (op : Operation β) :
    AcceptedAuthorised w rt op ↔ ¬StaleActivation w rt op := by
  rcases op with ⟨_ | activation | _⟩ | _ | _ | _
  case call.ensureRoute =>
    constructor
    · rintro hauth ⟨hphase, hbase, hactive, hrefused⟩
      exact hrefused (hauth hbase (ensureRoute_of_active hphase hactive)).1
    · intro hfresh hbase haccepted
      -- accepted on the fast path, or verified on the way to the swap
      have hgrants : Grants w rt activation.routeId activation.tenant := by
        by_cases hactive : rt.activeRouteId = activation.routeId
        · by_contra hrefused
          refine hfresh ⟨fun hwq => ?_, hbase, hactive, hrefused⟩
          rw [ensureRoute_of_quarantined hwq] at haccepted
          exact absurd haccepted (by simp)
        · obtain ⟨b, hb⟩ := Option.isSome_iff_exists.mp haccepted
          exact (wp_iff.mp (ensureRoute_authorised activation hbase hactive)).1 b hb
      exact ⟨hgrants, grants_iff.mp hgrants⟩
  all_goals exact ⟨fun _ h => h, fun _ => trivial⟩

/-- **When accepted activations are authorised.**  In a run of calls,
registrations, quarantines and revocations, every accepted activation is
currently authorised exactly when the run never activates the active route
while the registry would refuse it. -/
theorem along_acceptedAuthorised_iff (w : Worker) (rt : Runtime) (ops : List (Operation β)) :
    Runs.Along (afterOperation w) (AcceptedAuthorised w) rt ops ↔
      Runs.Along (afterOperation w) (fun rt op => ¬StaleActivation w rt op) rt ops :=
  Runs.along_congr fun rt op => acceptedAuthorised_iff w rt op

/-- A revoked route is accepted as long as it is active. -/
theorem not_acceptedAuthorised_revoked :
    ¬Runs.Along (afterOperation Demo.worker) (AcceptedAuthorised Demo.worker) Demo.start ([
      .call (.ensureRoute ⟨Demo.quiet Demo.noFiles, "r", Demo.tenant⟩),
      .revokeRoute "r",
      .call (.ensureRoute ⟨Demo.quiet Demo.noFiles, "r", Demo.tenant⟩)] :
        List (Operation Unit)) := by
  rintro ⟨_, _, hauth, _⟩
  obtain ⟨routeData, hroute⟩ := (hauth (by decide) (by decide +kernel)).2
  exact hroute.not_revoked (by decide +kernel)

end Runtime
