/-
Runs of the pilot server.

What holds of the service after any HTTP calls to a new server:

* `stands_run` — what the calls so far make of a route: the registry refines a
  machine of three states for each route;
* `infer_standing` — so inference is refused, and the runtime not even asked,
  unless the last call about the route admitted it;
* `listRoutes_run` — the list of routes tells that state;
* `metrics_run` — the counters count the answers given;
* `down_forever` — a worker once quarantined serves nothing and is reported
  unhealthy, whatever is called.
-/
import NeuralScalpel.PilotApi

open Effect

namespace PilotApi

variable {β : Type}

/-! ### What the calls make of a route -/

/-- What has become of a route. -/
inductive Standing
  | unregistered
  | admitted (routeData : Manifest)
  | revoked (routeData : Manifest)

namespace Standing

def revoke : Standing → Standing
  | .admitted routeData => .revoked routeData
  | standing => standing

/-- Only an admission of the route and its revocation matter. -/
def next (routeId : String) (standing : Standing) : ApiCall β → Standing
  | .registerRoute checks file =>
    match admission checks file with
    | .ok routeData => if routeData.routeId = routeId then .admitted routeData else standing
    | .error _ => standing
  | .revokeRoute routeId' => if routeId' = routeId then standing.revoke else standing
  | _ => standing

/-- The registry has the route as it stands; an admitted one may have been
quarantined. -/
def HoldsIn (routeId : String) (registry : RouteRegistry) : Standing → Prop
  | .unregistered =>
    registry.routes.get? routeId = none ∧ registry.statuses.get? routeId = none
  | .admitted routeData => registry.routes.get? routeId = some routeData ∧
    (registry.statuses.get? routeId = some .production ∨
      registry.statuses.get? routeId = some .quarantined)
  | .revoked routeData => registry.routes.get? routeId = some routeData ∧
    registry.statuses.get? routeId = some .revoked

end Standing

/-- What the calls so far make of a route. -/
def standing (routeId : String) (calls : List (ApiCall β)) : Standing :=
  Runs.run (Standing.next routeId) .unregistered calls

/-- What a request does to the registry of the runtime, it does to the
server's, or nothing. -/
theorem Narrows.routes_eq {s : ApiState} {routeId : String} {rt : Runtime} {m : Metrics}
    (h : Narrows routeId s.pilot.runtime.registry rt.registry) :
    Narrows routeId s.routes ({ s with pilot := ⟨rt, m⟩ } : ApiState).routes := by
  obtain ⟨_ | registry, pilot⟩ := s
  · exact h
  · exact .of_eq rfl

theorem narrows_next_infer {w : Worker} {s : ApiState} (call : InferCall β) :
    Narrows call.req.routeId s.routes (next w s (.infer call)).routes := by
  have hstep := infer_step w s call
  generalize answer w s (.infer call) = a, next w s (.infer call) = s' at hstep ⊢
  cases hstep with
  | refused check => exact (Narrows.of_eq rfl).routes_eq
  | served check phase authorised registry => exact (Narrows.of_eq registry).routes_eq
  | failed check narrows quarantined noted => exact narrows.routes_eq

section Standing

variable {w : Worker} {s : ApiState} {routeId : String} {st : Standing}

/-- Quarantining a route changes nothing of how any route stands. -/
theorem Standing.HoldsIn.narrows {registry registry' : RouteRegistry} {routeId' : String}
    (h : st.HoldsIn routeId registry) (hnarrows : Narrows routeId' registry registry') :
    st.HoldsIn routeId registry' := by
  obtain ⟨hroutes, hsame | ⟨hcontains, hrevoked, hset⟩⟩ := hnarrows
  · cases st <;> rw [Standing.HoldsIn, hroutes, hsame] <;> exact h
  · by_cases hid : routeId' = routeId
    · subst hid
      cases st with
      | unregistered =>
        obtain ⟨m, hm⟩ := Dict.contains_iff.mp hcontains
        cases h.1.symm.trans hm
      | admitted routeData =>
        refine ⟨hroutes ▸ h.1, .inr ?_⟩
        rw [hset, Dict.get?_set_self]
      | revoked routeData => exact absurd h.2 hrevoked
    · have hstatus : registry'.statuses.get? routeId = registry.statuses.get? routeId := by
        rw [hset, Dict.get?_set_of_ne (Ne.symm hid)]
      cases st <;> rw [Standing.HoldsIn, hroutes, hstatus] <;> exact h

theorem Standing.HoldsIn.storeRoute {registry : RouteRegistry} {routeData : Manifest}
    (h : st.HoldsIn routeId registry) :
    (if routeData.routeId = routeId then .admitted routeData else st : Standing).HoldsIn routeId
      (storeRoute registry routeData) := by
  by_cases hid : routeData.routeId = routeId
  · subst hid
    rw [if_pos rfl]
    exact ⟨Dict.get?_set_self _ _ _, .inl (Dict.get?_set_self _ _ _)⟩
  · rw [if_neg hid]
    have hroute : (PilotApi.storeRoute registry routeData).routes.get? routeId =
        registry.routes.get? routeId := Dict.get?_set_of_ne (Ne.symm hid)
    have hstatus : (PilotApi.storeRoute registry routeData).statuses.get? routeId =
        registry.statuses.get? routeId := Dict.get?_set_of_ne (Ne.symm hid)
    cases st <;> rw [Standing.HoldsIn, hroute, hstatus] <;> exact h

theorem Standing.HoldsIn.revoke {registry : RouteRegistry} (h : st.HoldsIn routeId registry)
    (routeId' : String) :
    (if routeId' = routeId then st.revoke else st).HoldsIn routeId
      (if registry.routes.contains routeId' then
        { registry with statuses := registry.statuses.set routeId' .revoked } else registry) := by
  by_cases hcontains : registry.routes.contains routeId' = true
  · rw [if_pos hcontains]
    by_cases hid : routeId' = routeId
    · subst hid
      rw [if_pos rfl]
      cases st with
      | unregistered =>
        obtain ⟨m, hm⟩ := Dict.contains_iff.mp hcontains
        cases h.1.symm.trans hm
      | admitted routeData => exact ⟨h.1, Dict.get?_set_self _ _ _⟩
      | revoked routeData => exact ⟨h.1, Dict.get?_set_self _ _ _⟩
    · rw [if_neg hid]
      have hstatus : (registry.statuses.set routeId' .revoked).get? routeId =
          registry.statuses.get? routeId := Dict.get?_set_of_ne (Ne.symm hid)
      cases st <;> simp only [Standing.HoldsIn, hstatus] <;> exact h
  · rw [if_neg hcontains]
    by_cases hid : routeId' = routeId
    · subst hid
      rw [if_pos rfl]
      cases st with
      | unregistered => exact h
      | admitted routeData => exact absurd (Dict.contains_iff.mpr ⟨_, h.1⟩) hcontains
      | revoked routeData => exact absurd (Dict.contains_iff.mpr ⟨_, h.1⟩) hcontains
    · rw [if_neg hid]
      exact h

/-- Every call takes the registry as it takes the route. -/
theorem holds_next (call : ApiCall β) (h : st.HoldsIn routeId s.routes) :
    (st.next routeId call).HoldsIn routeId (next w s call).routes := by
  cases call with
  | infer call => exact h.narrows (narrows_next_infer call)
  | registerRoute checks file =>
    simp only [Standing.next, next, after, perform_registerRoute]
    cases hadm : admission checks file with
    | error e => exact h
    | ok routeData =>
      dsimp only
      rw [ApiState.routes_setRoutes]
      exact h.storeRoute
  | revokeRoute routeId' =>
    simp only [Standing.next, next, after, perform_revokeRoute]
    have hrevoke := h.revoke routeId'
    by_cases hcontains : s.routes.routes.contains routeId' = true
    · rw [if_pos hcontains] at hrevoke ⊢
      dsimp only
      rw [ApiState.routes_setRoutes]
      exact hrevoke
    · rw [if_neg hcontains] at hrevoke ⊢
      exact hrevoke
  | listRoutes => exact h
  | metrics => exact h
  | healthz => exact h

theorem holdsIn_start (base : Store) (runtimeRoutes : Option RouteRegistry) (routeId : String) :
    Standing.HoldsIn routeId (start base runtimeRoutes).routes .unregistered := by
  cases runtimeRoutes <;> exact ⟨rfl, rfl⟩

/-- After any calls to a new server the registry has every route as it stands. -/
theorem stands_run (w : Worker) (base : Store) (runtimeRoutes : Option RouteRegistry)
    (calls : List (ApiCall β)) (routeId : String) : (standing routeId calls).HoldsIn routeId
      (Runs.run (next w) (start base runtimeRoutes) calls).routes := by
  suffices h : ∀ {calls : List (ApiCall β)} {s : ApiState} {st : Standing},
      st.HoldsIn routeId s.routes →
      (Runs.run (Standing.next routeId) st calls).HoldsIn routeId
        (Runs.run (next w) s calls).routes from h (holdsIn_start base runtimeRoutes routeId)
  intro calls
  induction calls with
  | nil => exact fun h => h
  | cons call calls ih => exact fun h => ih (holds_next call h)

end Standing

/-! ### Who is served -/

section Served

variable {w : Worker} {base : Store} {calls : List (ApiCall β)}

theorem checkRequest_unregistered {registry : RouteRegistry} {req : InferRequest}
    (h : Standing.unregistered.HoldsIn req.routeId registry) :
    PilotServer.checkRequest registry req =
      .error ⟨404, .message s!"Route '{req.routeId}' not found"⟩ := by
  unfold PilotServer.checkRequest
  simp only [h.1]

theorem checkRequest_revoked {registry : RouteRegistry} {req : InferRequest}
    {routeData : Manifest} (h : (Standing.revoked routeData).HoldsIn req.routeId registry) :
    PilotServer.checkRequest registry req =
      .error ⟨403, .message s!"Route '{req.routeId}' is REVOKED and cannot be executed"⟩ := by
  unfold PilotServer.checkRequest
  simp only [h.1, h.2]

theorem checkRequest_admitted {registry : RouteRegistry} {req : InferRequest}
    {routeData : Manifest} (h : (Standing.admitted routeData).HoldsIn req.routeId registry)
    (hcheck : PilotServer.checkRequest registry req = .ok ()) :
    registry.statuses.get? req.routeId = some .production ∧
      routeData.opensTo ⟨req.tenantId⟩ = true := by
  unfold PilotServer.checkRequest at hcheck
  obtain ⟨hroute, hstatus | hstatus⟩ := h
  · simp only [hroute, hstatus, require_eq_ok] at hcheck
    exact ⟨hstatus, hcheck⟩
  · simp only [hroute, hstatus] at hcheck
    cases hcheck

/-- A check that fails is the answer, and the runtime is not asked. -/
theorem infer_of_refused {s : ApiState} {call : InferCall β} {e : HTTPException}
    (hrefused : PilotServer.checkRequest s.routes call.req = .error e) :
    answer w s (.infer call) = .error e ∧
      (next w s (.infer call)).pilot.runtime = s.pilot.runtime := by
  have hstep := infer_step w s call
  generalize answer w s (.infer call) = a, next w s (.infer call) = s' at hstep ⊢
  cases hstep with
  | refused check =>
    rw [Except.error.inj (check.symm.trans hrefused)]
    exact ⟨rfl, rfl⟩
  | served check => cases check.symm.trans hrefused
  | failed check => cases check.symm.trans hrefused

/-- The server keeps to its own registry, or to the runtime's. -/
theorem own_next (s : ApiState) (call : ApiCall β) :
    (next w s call).registry.isSome = s.registry.isSome := by
  have hset : ∀ routes, (s.setRoutes routes).registry.isSome = s.registry.isSome := by
    obtain ⟨_ | _, pilot⟩ := s <;> exact fun _ => rfl
  cases call with
  | infer call =>
    have hstep := infer_step w s call
    generalize answer w s (.infer call) = a, next w s (.infer call) = s' at hstep ⊢
    cases hstep <;> rfl
  | registerRoute checks file =>
    simp only [next, after, perform_registerRoute]
    cases admission checks file with
    | error e => rfl
    | ok routeData => exact hset _
  | revokeRoute routeId =>
    simp only [next, after, perform_revokeRoute]
    by_cases hcontains : s.routes.routes.contains routeId = true
    · rw [if_pos hcontains]
      exact hset _
    · rw [if_neg hcontains]
  | listRoutes => rfl
  | metrics => rfl
  | healthz => rfl

theorem own_run (w : Worker) (base : Store) (runtimeRoutes : Option RouteRegistry)
    (calls : List (ApiCall β)) :
    (Runs.run (next w) (start base runtimeRoutes) calls).registry.isSome =
      runtimeRoutes.isSome := by
  refine Runs.invariant_run_of_step (I := fun s => s.registry.isSome = runtimeRoutes.isSome)
    (fun s call h => (own_next s call).trans h) ?_
  cases runtimeRoutes <;> rfl

/-- **Inference follows the route's history.**  After any calls to a new
server: for a route never admitted or revoked since, the call is refused and
the runtime not asked; for another, an answer goes only to a tenant the
admitted manifest is open to, while the route is in production, and after the
runtime's registry, which may be another one, has authorised it too. -/
theorem infer_standing (w : Worker) (base : Store) (runtimeRoutes : Option RouteRegistry)
    (calls : List (ApiCall β)) (call : InferCall β) :
    let s := Runs.run (next w) (start base runtimeRoutes) calls
    match standing call.req.routeId calls with
    | .unregistered => answer w s (.infer call) =
        .error ⟨404, .message s!"Route '{call.req.routeId}' not found"⟩ ∧
      (next w s (.infer call)).pilot.runtime = s.pilot.runtime
    | .revoked _ => answer w s (.infer call) = .error ⟨403, .message
        s!"Route '{call.req.routeId}' is REVOKED and cannot be executed"⟩ ∧
      (next w s (.infer call)).pilot.runtime = s.pilot.runtime
    | .admitted routeData => ∀ response, answer w s (.infer call) = .ok (.inferred response) →
        routeData.opensTo ⟨call.req.tenantId⟩ = true ∧
          s.routes.statuses.get? call.req.routeId = some .production ∧
          (∃ verified, s.pilot.runtime.registry.Authorised call.req.routeId w.runtimeModelHash
            ⟨call.req.tenantId⟩ verified) ∧
          (runtimeRoutes = none → routeData.targetModelSha256 = some w.runtimeModelHash) := by
  intro s
  have hstands := stands_run w base runtimeRoutes calls call.req.routeId
  cases hst : standing call.req.routeId calls with
  | unregistered =>
    rw [hst] at hstands
    exact infer_of_refused (checkRequest_unregistered hstands)
  | revoked routeData =>
    rw [hst] at hstands
    exact infer_of_refused (checkRequest_revoked hstands)
  | admitted routeData =>
    rw [hst] at hstands
    intro response hanswer
    have hstep := infer_step w s call
    rw [hanswer] at hstep
    generalize next w s (.infer call) = s' at hstep
    cases hstep with
    | served check phase authorised registry =>
      obtain ⟨hstatus, hopen⟩ := checkRequest_admitted hstands check
      refine ⟨hopen, hstatus, authorised, fun hnone => ?_⟩
      obtain ⟨verified, hauth⟩ := authorised
      -- the server asks the registry that the runtime has asked
      have hshared : s.routes = s.pilot.runtime.registry := by
        have hsame : s.registry = none := by
          rw [← Option.not_isSome_iff_eq_none, own_run, hnone]
          exact Bool.false_ne_true
        rw [ApiState.routes, hsame]
        rfl
      rw [← hshared] at hauth
      rw [Option.some.inj (hstands.1.symm.trans hauth.registered)]
      exact hauth.compatible

/-- A server with a registry of its own answers on a route that the runtime has
in another one. -/
example :
    let hash := String.ofList (List.replicate 64 'a')
    let routeData : Manifest := ⟨"r", some hash, some hash, none, some "MIT", none, none, []⟩
    let call : InferCall String := {
      req := ⟨"q", "tenant", "r", "hello"⟩
      env := Demo.quiet Demo.noFiles
      inferenceFunc := mockInference ⟨"q", "tenant", "r", "hello"⟩
      classOf := fun _ => .runtimeError }
    let s := next Demo.worker (start Demo.base (some Demo.start.registry))
      (.registerRoute ⟨fun _ => .ok (), fun _ => .ok (), id⟩ (.ok routeData) : ApiCall String)
    (answer Demo.worker s (.infer call)).toOption.isSome = true := by
  decide +kernel

/-- **The list of routes tells how each stands.**  Every route ever admitted
has one entry, with the tenant of the manifest admitted last, and is listed as
revoked exactly if it was since. -/
theorem listRoutes_run (w : Worker) (base : Store) (runtimeRoutes : Option RouteRegistry)
    (calls : List (ApiCall β)) :
    let s := Runs.run (next w) (start base runtimeRoutes) calls
    ∃ entries, answer w s (.listRoutes : ApiCall β) = .ok (.routes entries) ∧
      (entries.map RouteListEntry.routeId).Nodup ∧
      ∀ routeId, match standing routeId calls with
        | .unregistered => routeId ∉ entries.map RouteListEntry.routeId
        | .admitted routeData => ⟨routeId, "PRODUCTION", routeData.tenantId⟩ ∈ entries ∨
          ⟨routeId, "QUARANTINED", routeData.tenantId⟩ ∈ entries
        | .revoked routeData => ⟨routeId, "REVOKED", routeData.tenantId⟩ ∈ entries := by
  intro s
  have hids : (s.routes.routes.keys.map (listEntry s.routes)).map RouteListEntry.routeId =
      s.routes.routes.keys := by
    rw [List.map_map]
    exact List.map_id _
  refine ⟨_, rfl, ?_, fun routeId => ?_⟩
  · rw [hids]
    exact s.routes.routes.nodup
  have hstands := stands_run w base runtimeRoutes calls routeId
  have hlisted : ∀ routeData, s.routes.routes.get? routeId = some routeData →
      listEntry s.routes routeId ∈ s.routes.routes.keys.map (listEntry s.routes) :=
    fun routeData h => List.mem_map_of_mem (Dict.mem_keys_iff.mpr (Dict.contains_iff.mpr ⟨_, h⟩))
  cases hst : standing routeId calls with
  | unregistered =>
    rw [hst] at hstands
    dsimp only
    rw [hids, Dict.mem_keys_iff, Dict.contains_iff]
    rintro ⟨m, hm⟩
    cases hstands.1.symm.trans hm
  | admitted routeData =>
    rw [hst] at hstands
    have hmem := hlisted routeData hstands.1
    obtain ⟨hroute, hstatus | hstatus⟩ := hstands
    · refine .inl ?_
      rwa [listEntry, hroute, hstatus] at hmem
    · refine .inr ?_
      rwa [listEntry, hroute, hstatus] at hmem
  | revoked routeData =>
    rw [hst] at hstands
    have hmem := hlisted routeData hstands.1
    rwa [listEntry, hstands.1, hstands.2] at hmem

end Served

/-! ### What the counters count -/

/-- How an inference call ended. -/
inductive Outcome
  | served
  | rejected
  | failed
  deriving DecidableEq, Repr

def outcome : Except HTTPException (ApiAnswer β) → Outcome
  | .ok _ => .served
  | .error e => if e.statusCode = 500 then .failed else .rejected

/-- How the inference calls of a run ended. -/
def outcomes (w : Worker) : ApiState → List (ApiCall β) → List Outcome
  | _, [] => []
  | s, .infer call :: calls =>
    outcome (answer w s (.infer call)) :: outcomes w (next w s (.infer call)) calls
  | s, call :: calls => outcomes w (next w s call) calls

/-- The counters after calls that ended so. -/
structure Tallied (m : Metrics) (ended : List Outcome) (m' : Metrics) : Prop where
  total : m'.requestsTotal = m.requestsTotal + ended.length
  success : m'.requestsSuccess = m.requestsSuccess + ended.count .served
  rejected : m'.requestsRejected = m.requestsRejected + ended.count .rejected
  failures : m.rollbackFailureCount ≤ m'.rollbackFailureCount ∧
    m'.rollbackFailureCount ≤ m.rollbackFailureCount + ended.count .failed
  flag : m'.runtimeQuarantined = true ↔
    m.runtimeQuarantined = true ∨ m.rollbackFailureCount < m'.rollbackFailureCount

section Counters

variable {w : Worker} {s : ApiState} {m m' m'' : Metrics}

theorem Tallied.nil (m : Metrics) : Tallied m [] m := by
  constructor <;> simp

theorem Tallied.cons {o : Outcome} {ended : List Outcome} (h : Tallied m [o] m')
    (h' : Tallied m' ended m'') : Tallied m (o :: ended) m'' := by
  obtain ⟨htotal, hsuccess, hrejected, hfailures, hflag⟩ := h
  obtain ⟨htotal', hsuccess', hrejected', hfailures', hflag'⟩ := h'
  rw [List.count_singleton] at hsuccess hrejected hfailures
  constructor
  · rw [htotal', htotal, List.length_singleton, List.length_cons]
    omega
  · rw [hsuccess', hsuccess, List.count_cons]
    omega
  · rw [hrejected', hrejected, List.count_cons]
    omega
  · rw [List.count_cons]
    omega
  · rw [hflag', hflag, or_assoc]
    exact or_congr_right (by omega)

theorem status_of_checkRequest {registry : RouteRegistry} {req : InferRequest} {e : HTTPException}
    (h : PilotServer.checkRequest registry req = .error e) :
    e.statusCode = 404 ∨ e.statusCode = 403 := by
  unfold PilotServer.checkRequest require at h
  split at h
  · cases h
    exact .inl rfl
  · split at h
    · cases h
      exact .inr rfl
    · cases h
      exact .inr rfl
    · split at h
      · cases h
      · cases h
        exact .inr rfl

/-- One inference call is counted as it ended. -/
theorem tallied_infer (call : InferCall β) : Tallied s.pilot.metrics
    [outcome (answer w s (.infer call))] (next w s (.infer call)).pilot.metrics := by
  have hstep := infer_step w s call
  generalize answer w s (.infer call) = a, next w s (.infer call) = s' at hstep ⊢
  cases hstep with
  | refused check =>
    rw [outcome, if_neg (by obtain h | h := status_of_checkRequest check <;> rw [h] <;> decide)]
    constructor <;> simp [Metrics.recordRequest, Metrics.recordRejection]
  | served check phase authorised registry =>
    constructor <;> simp [outcome, Metrics.recordRequest, Metrics.recordSuccess]
  | failed check narrows quarantined noted =>
    cases noted with
    | rejected status =>
      rw [outcome, if_neg (by rw [status]; decide)]
      constructor <;> simp [Metrics.recordRequest, Metrics.recordRejection]
    | failed status =>
      rw [outcome, if_pos status]
      constructor <;> simp [Metrics.recordRequest]
    | quarantined status =>
      rw [outcome, if_pos status]
      constructor <;>
        simp [Metrics.recordRequest, Metrics.setQuarantined, Metrics.recordRollbackFailure]

/-- The other calls are not counted, and leave the runtime as it is but for its
registry. -/
theorem next_of_other {call : ApiCall β} (hother : ∀ c, call ≠ .infer c) :
    (next w s call).pilot.metrics = s.pilot.metrics ∧
      ∃ registry, (next w s call).pilot.runtime = { s.pilot.runtime with registry } := by
  cases call with
  | infer c => exact absurd rfl (hother c)
  | registerRoute checks file =>
    simp only [next, after, perform_registerRoute]
    cases admission checks file with
    | error e => exact ⟨rfl, _, rfl⟩
    | ok routeData => exact ⟨s.metrics_setRoutes _, s.runtime_setRoutes _⟩
  | revokeRoute routeId =>
    simp only [next, after, perform_revokeRoute]
    by_cases hcontains : s.routes.routes.contains routeId = true
    · rw [if_pos hcontains]
      exact ⟨s.metrics_setRoutes _, s.runtime_setRoutes _⟩
    · rw [if_neg hcontains]
      exact ⟨rfl, _, rfl⟩
  | listRoutes => exact ⟨rfl, _, rfl⟩
  | metrics => exact ⟨rfl, _, rfl⟩
  | healthz => exact ⟨rfl, _, rfl⟩

theorem outcomes_of_other {call : ApiCall β} {calls : List (ApiCall β)}
    (hother : ∀ c, call ≠ .infer c) :
    outcomes w s (call :: calls) = outcomes w (next w s call) calls := by
  cases call with
  | infer c => exact absurd rfl (hother c)
  | registerRoute | listRoutes | revokeRoute | metrics | healthz => rfl

theorem tallied_run : ∀ {calls : List (ApiCall β)} {s : ApiState},
    Tallied s.pilot.metrics (outcomes w s calls) (Runs.run (next w) s calls).pilot.metrics := by
  intro calls
  induction calls with
  | nil => exact fun {s} => .nil s.pilot.metrics
  | cons call calls ih =>
    intro s
    by_cases hinfer : ∃ c, call = .infer c
    · obtain ⟨c, rfl⟩ := hinfer
      exact (tallied_infer c).cons ih
    · have hother : ∀ c, call ≠ .infer c := fun c hc => hinfer ⟨c, hc⟩
      rw [outcomes_of_other hother, ← (next_of_other hother).1]
      exact ih

/-- **The metrics count the answers.**  After any calls to a new server the
counters are the numbers of inference calls, of answers, and of refusals; no
more rollbacks failed than calls failed, and the quarantine flag is up exactly
if one did. -/
theorem metrics_run (w : Worker) (base : Store) (runtimeRoutes : Option RouteRegistry)
    (calls : List (ApiCall β)) :
    let s := Runs.run (next w) (start base runtimeRoutes) calls
    let ended := outcomes w (start base runtimeRoutes) calls
    ∃ m, answer w s (.metrics : ApiCall β) = .ok (.metrics m) ∧
      m.requestsTotal = ended.length ∧ m.requestsSuccess = ended.count .served ∧
      m.requestsRejected = ended.count .rejected ∧
      m.rollbackFailureCount ≤ ended.count .failed ∧
      (m.runtimeQuarantined = true ↔ 0 < m.rollbackFailureCount) := by
  intro s ended
  obtain ⟨htotal, hsuccess, hrejected, hfailures, hflag⟩ :=
    @tallied_run _ w calls (start base runtimeRoutes)
  refine ⟨s.pilot.metrics, rfl, ?_, ?_, ?_, ?_, ?_⟩
  · exact htotal.trans (Nat.zero_add _)
  · exact hsuccess.trans (Nat.zero_add _)
  · exact hrejected.trans (Nat.zero_add _)
  · exact hfailures.2.trans (Nat.zero_add _).le
  · refine hflag.trans ⟨fun h => h.resolve_left ?_, .inr⟩
    exact Bool.false_ne_true

end Counters

/-! ### A worker that is down -/

/-- The health check fails for good: the worker is quarantined, or the server
takes it to be. -/
def Down (s : PilotState) : Prop :=
  s.runtime.phase = .workerQuarantined ∨ s.metrics.runtimeQuarantined = true

section Down

variable {w : Worker} {s : ApiState}

theorem healthz_of_down {s : PilotState} (h : Down s) :
    healthz s = ⟨503, "unhealthy", true, false⟩ := by
  have hunhealthy : (!s.runtime.machine.isTerminal && s.runtime.phase == .ready) = false ∨
      s.metrics.runtimeQuarantined = true := by
    refine h.imp (fun hphase => ?_) id
    rw [RuntimeStateMachine.isTerminal_iff.mpr hphase]
    rfl
  unfold healthz
  obtain hruntime | hflag := hunhealthy
  · simp only [hruntime, Bool.not_false, Bool.or_true, Bool.false_and]
    rfl
  · simp only [hflag, Bool.true_or, Bool.not_true, Bool.and_false]
    rfl

/-- A quarantined worker serves no one and is not touched. -/
theorem infer_of_quarantined (call : InferCall β)
    (hphase : s.pilot.runtime.phase = .workerQuarantined) :
    outcome (answer w s (.infer call)) ≠ .served ∧
      (next w s (.infer call)).pilot.runtime = s.pilot.runtime := by
  have hstep := infer_step w s call
  generalize answer w s (.infer call) = a, next w s (.infer call) = s' at hstep ⊢
  have hne : ∀ e : HTTPException, outcome (.error e : Except _ (ApiAnswer β)) ≠ .served := by
    intro e
    show (if e.statusCode = 500 then Outcome.failed else .rejected) ≠ .served
    split <;> simp
  cases hstep with
  | refused check => exact ⟨hne _, rfl⟩
  | served check phase => exact absurd hphase phase
  | failed check narrows quarantined noted => exact ⟨hne _, quarantined hphase⟩

theorem down_next (call : ApiCall β) (h : Down s.pilot) : Down (next w s call).pilot := by
  by_cases hinfer : ∃ c, call = .infer c
  · obtain ⟨c, rfl⟩ := hinfer
    refine h.elim (fun hphase => .inl ?_) fun hflag => .inr ?_
    · rwa [(infer_of_quarantined c hphase).2]
    · exact (tallied_infer c).flag.mpr (.inl hflag)
  · obtain ⟨hmetrics, registry, hruntime⟩ := next_of_other (w := w) (s := s)
      fun c hc => hinfer ⟨c, hc⟩
    unfold Down
    rw [hmetrics, hruntime]
    exact h

/-- No call reaches a quarantined worker; its registry alone is written. -/
theorem quarantined_run : ∀ {calls : List (ApiCall β)} {s : ApiState},
    s.pilot.runtime.phase = .workerQuarantined →
      .served ∉ outcomes w s calls ∧ ∃ registry,
        (Runs.run (next w) s calls).pilot.runtime = { s.pilot.runtime with registry } := by
  intro calls
  induction calls with
  | nil => exact fun {s} _ => ⟨List.not_mem_nil, s.pilot.runtime.registry, rfl⟩
  | cons call calls ih =>
    intro s hphase
    by_cases hinfer : ∃ c, call = .infer c
    · obtain ⟨c, rfl⟩ := hinfer
      obtain ⟨hended, hruntime⟩ := infer_of_quarantined (w := w) c hphase
      obtain ⟨hserved, registry, hrun⟩ := ih (s := next w s (.infer c)) (hruntime ▸ hphase)
      rw [hruntime] at hrun
      exact ⟨List.not_mem_cons_of_ne_of_not_mem hended.symm hserved, registry, hrun⟩
    · have hother : ∀ c, call ≠ .infer c := fun c hc => hinfer ⟨c, hc⟩
      obtain ⟨-, registry', hruntime⟩ := next_of_other (w := w) (s := s) hother
      obtain ⟨hserved, registry, hrun⟩ := ih (s := next w s call) (by rw [hruntime]; exact hphase)
      rw [hruntime] at hrun
      rw [outcomes_of_other hother]
      exact ⟨hserved, registry, hrun⟩

/-- **Failing closed, for good.**  Once the worker is quarantined or the server
takes it to be, every health check fails, whatever is called; and a quarantined
worker serves no call and keeps its weights. -/
theorem down_forever (h : Down s.pilot) (calls : List (ApiCall β)) :
    let s' := Runs.run (next w) s calls
    answer w s' (.healthz : ApiCall β) = .ok (.health ⟨503, "unhealthy", true, false⟩) ∧
      (s.pilot.runtime.phase = .workerQuarantined →
        .served ∉ outcomes w s calls ∧
          s'.pilot.runtime.store = s.pilot.runtime.store ∧
          s'.pilot.runtime.trace = s.pilot.runtime.trace) := by
  intro s'
  have hdown : Down s'.pilot :=
    Runs.invariant_run_of_step (I := fun s : ApiState => Down s.pilot)
      (fun s call => down_next call) h
  refine ⟨?_, fun hphase => ?_⟩
  · show Except.ok (ApiAnswer.health (healthz s'.pilot)) = _
    rw [healthz_of_down hdown]
  · obtain ⟨hserved, registry, hrun⟩ := @quarantined_run _ w calls _ hphase
    refine ⟨hserved, ?_, ?_⟩
    · show (Runs.run (next w) s calls).pilot.runtime.store = _
      rw [hrun]
    · show (Runs.run (next w) s calls).pilot.runtime.trace = _
      rw [hrun]

/-- The layer swapped in cannot be restored. -/
def stuckCall : InferCall String where
  req := ⟨"q", "tenant", "r", "hello"⟩
  env := { Demo.quiet Demo.noFiles with cycle := Demo.stuckRollback }
  inferenceFunc := mockInference ⟨"q", "tenant", "r", "hello"⟩
  classOf _ := .runtimeError

theorem stuckCall_down :
    let s : ApiState := ⟨none, PilotServer.start Demo.start.registry Demo.base⟩
    let s' := Runs.run (next Demo.worker) (next Demo.worker s (.infer stuckCall))
      [.revokeRoute "r", .infer stuckCall]
    answer Demo.worker s' (.healthz : ApiCall String) =
      .ok (.health ⟨503, "unhealthy", true, false⟩) := by
  intro s
  have hdown : Down (next Demo.worker s (.infer stuckCall)).pilot := by
    refine .inl ?_
    decide +kernel
  exact (down_forever hdown [.revokeRoute "r", .infer stuckCall]).1

end Down

end PilotApi
