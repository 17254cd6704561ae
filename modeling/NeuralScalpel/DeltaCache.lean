/-
The delta cache and the manifest in force.

`ensureRoute` validates a payload at the first activation of a route and keeps
the deltas under the route's id.  Registering the id again, as after a
recovery, replaces the manifest and leaves the cache alone.

* `ensureRoute_current` — the deltas a swap applies are those of the manifest in
  force, if a cached entry is what the validation would return now;
* `along_currentDeltas` — the same over runs with re-registrations.
-/
import NeuralScalpel.LeaveNoTrace

open Effect

/-- The deltas applied are those the validation returns for the manifest that is
registered under the id. -/
def Event.AppliesCurrent (w : Worker) (env : Environment) (rt : Runtime) (routeId : String) :
    Event → Prop
  | .swapApplied routeData deltas =>
    rt.registry.routes.get? routeId = some routeData ∧
      validatePayload env.files w.payloadBaseDir w.maxPayloadBytes routeData = .ok deltas
  | _ => True

instance (w : Worker) (env : Environment) (rt : Runtime) (routeId : String) :
    DecidablePred (Event.AppliesCurrent w env rt routeId)
  | .swapApplied routeData deltas =>
    inferInstanceAs (Decidable (rt.registry.routes.get? routeId = some routeData ∧
      validatePayload env.files w.payloadBaseDir w.maxPayloadBytes routeData = .ok deltas))
  | .phaseSet _ | .deltaAdded _ _ | .forward _ | .rollbackFailed => isTrue trivial

namespace Runtime

variable {w : Worker} {β : Type} {rt : Runtime}

/-- If the operation is an activation, the deltas it applies are those of the
manifest in force. -/
def CurrentDeltas (w : Worker) (rt : Runtime) (op : Operation β) : Prop :=
  match op with
  | .call (.ensureRoute activation) =>
    ∀ e ∈ eventsSince rt (rt.afterOperation w op),
      e.AppliesCurrent w activation.env rt activation.routeId
  | _ => True

/-- There are cached deltas of the route, and they are not what the validation
returns now. -/
def cacheDiffers (w : Worker) (env : Environment) (rt : Runtime) (routeId : String)
    (routeData : Manifest) : Bool :=
  match rt.validatedDeltaCache.get? routeId with
  | none => false
  | some cached =>
    match validatePayload env.files w.payloadBaseDir w.maxPayloadBytes routeData with
    | .ok deltas => deltas != cached
    | .error _ => true

/-- The operation activates a route with stale deltas in the cache. -/
def staleCache (w : Worker) (rt : Runtime) : Operation β → Bool
  | .call (.ensureRoute activation) =>
    rt.phase != .workerQuarantined && rt.activeRouteId != activation.routeId &&
      activation.routeId != baseRoute &&
      match rt.registry.getVerifiedRoute activation.routeId w.runtimeModelHash
        activation.tenant with
      | .ok routeData => cacheDiffers w activation.env rt activation.routeId routeData
      | .error _ => false
  | _ => false

theorem validatePayload_of_cached {env : Environment} {routeId : String} {routeData : Manifest}
    {deltas : Dict String Tensor} (h : cacheDiffers w env rt routeId routeData = false)
    (hcached : rt.validatedDeltaCache.get? routeId = some deltas) :
    validatePayload env.files w.payloadBaseDir w.maxPayloadBytes routeData = .ok deltas := by
  rw [cacheDiffers, hcached] at h
  rcases hvalid : validatePayload env.files w.payloadBaseDir w.maxPayloadBytes routeData with e | d
  · rw [hvalid] at h
    exact absurd h (by simp)
  · rw [hvalid] at h
    rw [bne_eq_false_iff_eq.mp h]

/-- Without stale deltas in the cache, an activation applies the deltas of the
manifest in force. -/
theorem ensureRoute_current {activation : Activation}
    (h : staleCache w rt (.call (.ensureRoute activation) : Operation β) = false) :
    wp (ensure w activation)
      (fun _ => Emits (Event.AppliesCurrent w activation.env rt activation.routeId) rt)
      (fun _ => Emits (Event.AppliesCurrent w activation.env rt activation.routeId) rt) rt := by
  refine ensureRoute_emits (fun _ => trivial) trivial
    fun rt₁ routeData deltas hphase hactive hbase hroute hdeltas _ _ => ?_
  have hvalid : validatePayload activation.env.files w.payloadBaseDir w.maxPayloadBytes routeData =
      .ok deltas := by
    -- from the cache, or validated in this call
    rcases hdeltas with hcached | ⟨_, hvalid⟩
    · rw [staleCache, bne_iff_ne.mpr hphase, bne_iff_ne.mpr hactive, bne_iff_ne.mpr hbase,
        hroute] at h
      exact validatePayload_of_cached h hcached
    · exact hvalid
  have hregistered := RouteRegistry.registered_of_getVerifiedRoute hroute
  refine keeps_swapIn (swapFrame_emits (fun _ => trivial) fun _ _ => trivial)
    (fun deltas' rt' happly => ?_) activation.routeId rt₁
  obtain rfl := eq_of_deltasToApply hvalid happly
  exact Appends.one (e := .swapApplied routeData deltas') rfl ⟨hregistered, hvalid⟩

theorem currentDeltas_of_not_staleCache (op : Operation β) (h : staleCache w rt op = false) :
    CurrentDeltas w rt op := by
  rcases op with ⟨_ | activation | _⟩ | _ | _ | _
  case call.ensureRoute =>
    have hwp : wp (perform w (.ensureRoute activation : Call β))
        (fun _ => Emits (Event.AppliesCurrent w activation.env rt activation.routeId) rt)
        (fun _ => Emits (Event.AppliesCurrent w activation.env rt activation.routeId) rt) rt := by
      rw [perform, wp_map]
      exact ensureRoute_current h
    exact fun e he => (wp_const_iff.mp hwp).of_mem_drop he
  all_goals exact trivial

/-- **The deltas in force come from the manifest in force, as long as the cache
does.**  In every run in which no activation finds deltas in the cache that
differ from what the validation returns at that time, every swap of an
activation applies the deltas of the manifest registered at that time. -/
theorem along_currentDeltas {ops : List (Operation β)}
    (h : Runs.Along (afterOperation w) (fun rt op => staleCache w rt op = false) rt ops) :
    Runs.Along (afterOperation w) (CurrentDeltas w) rt ops :=
  h.mono fun _ op hop => currentDeltas_of_not_staleCache op hop

end Runtime

/-! ### Registering an id again -/

namespace Demo

def digest : String := String.ofList (List.replicate 64 'a')

def checks : AdmissionChecks := ⟨fun _ => .ok (), fun _ => .ok (), id⟩

/-- A manifest that passes the admission, for the payload file `uri`. -/
def signedRoute (uri : String) : Manifest where
  routeId := "r"
  sourceAdapterSha256 := some digest
  targetModelSha256 := some digest
  tenantId := none
  license := some "MIT"
  verdict := none
  payload := some ⟨uri, none⟩
  layers := [{ layer "w" with deltaSha256 := some digest }]

/-- The two payload files differ in their only tensor. -/
def twoFiles : FileSystem := fun path =>
  some (fileOf (Dict.empty.set "w" (tensor (if path = "/old" then 1 else 2))))

def signedWorker : Worker := { worker with runtimeModelHash := digest }

/-- Register, activate, go back to the base model, and activate again, with
another manifest registered under the id in between. -/
def reRegistration (uri : String) : List (Operation Unit) := [
  .registerRoute checks (.ok (signedRoute "/old")),
  .call (.ensureRoute ⟨quiet twoFiles, "r", tenant⟩),
  .call (.ensureRoute ⟨quiet twoFiles, baseRoute, tenant⟩),
  .registerRoute checks (.ok (signedRoute uri)),
  .call (.ensureRoute ⟨quiet twoFiles, "r", tenant⟩)]

end Demo

namespace Runtime

/-- Registering the same manifest again leaves no stale deltas. -/
theorem along_currentDeltas_same :
    Runs.Along (afterOperation Demo.signedWorker) (CurrentDeltas Demo.signedWorker)
      (fresh .empty Demo.base) (Demo.reRegistration "/old") :=
  along_currentDeltas (by decide +kernel)

/-- After a registration of the id with another payload, the old deltas are
applied. -/
theorem not_currentDeltas_reRegistered :
    ¬Runs.Along (afterOperation Demo.signedWorker) (CurrentDeltas Demo.signedWorker)
      (fresh .empty Demo.base) (Demo.reRegistration "/new") := by
  rintro ⟨_, _, _, _, hcurrent, _⟩
  have hevents : ∀ e ∈ eventsSince _ _, e.AppliesCurrent _ _ _ _ := hcurrent
  exact absurd hevents (by decide +kernel)

end Runtime
