/-
The pilot server as a service.

All endpoints of the server as one machine: an input is one HTTP call, and a
call that raises leaves the state it had reached.  The routes are kept in the
registry of the runtime or in one of the server's own.

* `perform_registerRoute`, `perform_revokeRoute` — what a write to the
  registry does;
* `serve_registry` — what a request does to the registry of the runtime;
* `infer_step` — an inference call is refused before the runtime is asked, or
  served, or the runtime raises: nothing else can happen.
-/
import NeuralScalpel.PilotServer

open Effect

/-! ### Calls and answers -/

def RouteStatus.value : RouteStatus → String
  | .draft => "DRAFT"
  | .diagnosed => "DIAGNOSED"
  | .staging => "STAGING"
  | .canary => "CANARY"
  | .production => "PRODUCTION"
  | .revoked => "REVOKED"
  | .quarantined => "QUARANTINED"

structure RouteListEntry where
  routeId : String
  status : String
  tenantId : Option String
  deriving DecidableEq, Repr

/-- The answer of the health check. -/
structure HealthReply where
  statusCode : ℕ
  status : String
  quarantined : Bool
  acceptingRequests : Bool
  deriving DecidableEq, Repr

/-- An HTTP call; a registration comes with what reading its file gives. -/
inductive ApiCall (β : Type)
  | infer (call : InferCall β)
  | registerRoute (checks : AdmissionChecks) (file : Except PyError Manifest)
  | listRoutes
  | revokeRoute (routeId : String)
  | metrics
  | healthz

inductive ApiAnswer (β : Type)
  | inferred (response : InferResponse β)
  | registered (routeId status : String)
  | routes (entries : List RouteListEntry)
  | revoked (routeId status : String)
  | metrics (snapshot : Metrics)
  | health (reply : HealthReply)

/-- The server between two calls, with its own registry if it was not given
the runtime's. -/
structure ApiState where
  registry : Option RouteRegistry
  pilot : PilotState

namespace ApiState

/-- The registry the server asks. -/
def routes (s : ApiState) : RouteRegistry := s.registry.getD s.pilot.runtime.registry

def setRoutes (routes : RouteRegistry) (s : ApiState) : ApiState :=
  match s.registry with
  | some _ => { s with registry := some routes }
  | none => { s with pilot.runtime.registry := routes }

def setPilot (pilot : PilotState) (s : ApiState) : ApiState := { s with pilot }

@[simp] theorem routes_setRoutes (routes : RouteRegistry) (s : ApiState) :
    (s.setRoutes routes).routes = routes := by
  obtain ⟨_ | _, pilot⟩ := s <;> rfl

@[simp] theorem setRoutes_routes (s : ApiState) : s.setRoutes s.routes = s := by
  obtain ⟨_ | _, pilot⟩ := s <;> rfl

@[simp] theorem metrics_setRoutes (routes : RouteRegistry) (s : ApiState) :
    (s.setRoutes routes).pilot.metrics = s.pilot.metrics := by
  obtain ⟨_ | _, pilot⟩ := s <;> rfl

/-- Of the runtime, only the registry is written. -/
theorem runtime_setRoutes (routes : RouteRegistry) (s : ApiState) :
    ∃ registry, (s.setRoutes routes).pilot.runtime = { s.pilot.runtime with registry } := by
  obtain ⟨_ | _, pilot⟩ := s
  · exact ⟨routes, rfl⟩
  · exact ⟨pilot.runtime.registry, rfl⟩

end ApiState

/-! ### The endpoints -/

namespace PilotApi

variable {β : Type}

/-- A program on the server's registry; its exception is for the handler. -/
def onRoutes {α : Type} (m : EStateM PyError RouteRegistry α) :
    EStateM HTTPException ApiState (Except PyError α) :=
  zoom ApiState.routes ApiState.setRoutes (catching m)

def handleRegisterRoute (checks : AdmissionChecks) (file : Except PyError Manifest) :
    EStateM HTTPException ApiState (ApiAnswer β) := do
  match ← onRoutes (RouteRegistry.registerRoute checks file) with
  | .ok routeId => pure (.registered routeId "registered")
  | .error e => throw ⟨400, .exception e⟩

def handleRevokeRoute (routeId : String) : EStateM HTTPException ApiState (ApiAnswer β) := do
  match ← onRoutes (RouteRegistry.revokeRoute routeId) with
  | .ok _ => pure (.revoked routeId "revoked")
  | .error (.valueError text) => throw ⟨404, .exception (.valueError text)⟩
  -- no other exception is caught
  | .error _ => throw ⟨500, .message "Internal Server Error"⟩

def listEntry (registry : RouteRegistry) (routeId : String) : RouteListEntry where
  routeId := routeId
  status := ((registry.statuses.get? routeId).map RouteStatus.value).getD "UNKNOWN"
  tenantId := (registry.routes.get? routeId).bind Manifest.tenantId

def handleListRoutes : EStateM HTTPException ApiState (ApiAnswer β) := do
  let s ← get
  pure (.routes (s.routes.routes.keys.map (listEntry s.routes)))

def handleMetrics : EStateM HTTPException ApiState (ApiAnswer β) := do
  let s ← get
  pure (.metrics s.pilot.metrics)

/-- The health check of a server without an engine. -/
def healthz (s : PilotState) : HealthReply :=
  let quarantined := s.metrics.runtimeQuarantined
  let runtimeHealthy := !s.runtime.machine.isTerminal && s.runtime.phase == .ready
  let isHealthy := runtimeHealthy && !quarantined
  { statusCode := if isHealthy then 200 else 503
    status := if isHealthy then "ok" else "unhealthy"
    quarantined := quarantined || !runtimeHealthy
    acceptingRequests := isHealthy }

def perform (w : Worker) : ApiCall β → EStateM HTTPException ApiState (ApiAnswer β)
  | .infer call => do
    let s ← get
    ApiAnswer.inferred <$> zoom ApiState.pilot ApiState.setPilot
      (PilotServer.handleInfer ⟨w, s.registry⟩ call)
  | .registerRoute checks file => handleRegisterRoute checks file
  | .listRoutes => handleListRoutes
  | .revokeRoute routeId => handleRevokeRoute routeId
  | .metrics => handleMetrics
  | .healthz => do
    let s ← get
    pure (.health (healthz s.pilot))

/-- The state after a call. -/
def next (w : Worker) (s : ApiState) (call : ApiCall β) : ApiState := after (perform w call) s

/-- What a call is answered. -/
def answer (w : Worker) (s : ApiState) (call : ApiCall β) :
    Except HTTPException (ApiAnswer β) :=
  match perform w call s with
  | .ok a _ => .ok a
  | .error e _ => .error e

/-- A new server over a new runtime, with nothing registered.  A server with a
registry of its own leaves the runtime the one that it has. -/
def start (base : Store) (runtimeRoutes : Option RouteRegistry) : ApiState :=
  ⟨runtimeRoutes.map fun _ => .empty, PilotServer.start (runtimeRoutes.getD .empty) base⟩

/-! ### What one call does -/

section Calls

variable {w : Worker} {s : ApiState}

/-- What a rule says of a call, it says of its answer and the state after it. -/
theorem of_wp {call : ApiCall β} {P : Except HTTPException (ApiAnswer β) → ApiState → Prop}
    (h : wp (perform w call) (fun a => P (.ok a)) (fun e => P (.error e)) s) :
    P (answer w s call) (next w s call) := by
  unfold wp at h
  unfold answer next after
  cases hm : perform w call s with
  | ok a s' => rwa [hm] at h
  | error e s' => rwa [hm] at h

/-- The manifest a registration admits. -/
def admission (checks : AdmissionChecks) (file : Except PyError Manifest) :
    Except PyError Manifest := do
  let routeData ← file
  RouteRegistry.checkAdmission checks routeData
  pure routeData

theorem admission_eq_ok {checks : AdmissionChecks} {file : Except PyError Manifest}
    {routeData : Manifest} :
    admission checks file = .ok routeData ↔
      file = .ok routeData ∧ RouteRegistry.checkAdmission checks routeData = .ok () := by
  simp only [admission, bind_eq_ok]
  constructor
  · rintro ⟨m, hfile, u, hcheck, hm⟩
    obtain rfl := Except.ok.inj hm
    exact ⟨hfile, hcheck⟩
  · rintro ⟨hfile, hcheck⟩
    exact ⟨routeData, hfile, (), hcheck, rfl⟩

/-- A registry with one more route in production. -/
def storeRoute (registry : RouteRegistry) (routeData : Manifest) : RouteRegistry :=
  { registry with
    routes := registry.routes.set routeData.routeId routeData
    statuses := registry.statuses.set routeData.routeId .production }

/-- A registration that is refused changes nothing. -/
theorem perform_registerRoute (checks : AdmissionChecks) (file : Except PyError Manifest) :
    perform w (.registerRoute checks file : ApiCall β) s =
      match admission checks file with
      | .ok routeData =>
        .ok (.registered routeData.routeId "registered")
          (s.setRoutes (storeRoute s.routes routeData))
      | .error e => .error ⟨400, .exception e⟩ s := by
  have hregister : RouteRegistry.registerRoute checks file s.routes =
      match admission checks file with
      | .ok routeData => .ok routeData.routeId (storeRoute s.routes routeData)
      | .error e => .error e s.routes := by
    unfold RouteRegistry.registerRoute admission
    rcases file with e | routeData
    · rfl
    · simp only [Effect.ofExcept, bind, EStateM.bind, Except.bind, pure, EStateM.pure]
      generalize RouteRegistry.checkAdmission checks routeData = checked
      cases checked <;> rfl
  show EStateM.bind (onRoutes (RouteRegistry.registerRoute checks file)) _ s = _
  unfold EStateM.bind onRoutes zoom catching
  rw [hregister]
  rcases admission checks file with e | routeData
  · show EStateM.Result.error _ (s.setRoutes s.routes) = _
    rw [ApiState.setRoutes_routes]
  · rfl

theorem perform_revokeRoute (routeId : String) :
    perform w (.revokeRoute routeId : ApiCall β) s =
      if s.routes.routes.contains routeId then
        .ok (.revoked routeId "revoked")
          (s.setRoutes { s.routes with statuses := s.routes.statuses.set routeId .revoked })
      else .error ⟨404, .exception (.valueError s!"Route {routeId} not found.")⟩ s := by
  have hset : RouteRegistry.revokeRoute routeId s.routes =
      if s.routes.routes.contains routeId then
        .ok () { s.routes with statuses := s.routes.statuses.set routeId .revoked }
      else .error (.valueError s!"Route {routeId} not found.") s.routes := by
    show (if s.routes.routes.contains routeId = true then set _
      else throw _ : EStateM PyError RouteRegistry Unit) s.routes = _
    split <;> rfl
  show EStateM.bind (onRoutes (RouteRegistry.revokeRoute routeId)) _ s = _
  unfold EStateM.bind onRoutes zoom catching
  rw [hset]
  by_cases h : s.routes.routes.contains routeId = true
  · rw [if_pos h, if_pos h]
    rfl
  · rw [if_neg h, if_neg h]
    show EStateM.Result.error _ (s.setRoutes s.routes) = _
    rw [ApiState.setRoutes_routes]

/-! ### What inference does to the routes -/

/-- Nothing has changed, or the route, not revoked, has been quarantined. -/
structure Narrows (routeId : String) (registry registry' : RouteRegistry) : Prop where
  routes : registry'.routes = registry.routes
  statuses : registry'.statuses = registry.statuses ∨
    registry.routes.contains routeId = true ∧ registry.statuses.get? routeId ≠ some .revoked ∧
      registry'.statuses = registry.statuses.set routeId .quarantined

theorem Narrows.of_eq {routeId : String} {registry registry' : RouteRegistry}
    (h : registry' = registry) : Narrows routeId registry registry' := by
  subst h
  exact ⟨rfl, .inl rfl⟩

theorem applyVerdict_narrows {rt : Runtime} {routeId : String} (verdict : FailureVerdict)
    (hcontains : rt.registry.routes.contains routeId = true)
    (hrevoked : rt.registry.statuses.get? routeId ≠ some .revoked) :
    wp (Runtime.applyVerdict verdict routeId)
      (fun _ rt' => Narrows routeId rt.registry rt'.registry)
      (fun _ rt' => Narrows routeId rt.registry rt'.registry) rt := by
  unfold Runtime.applyVerdict
  split
  · split
    · exact Runtime.wp_transitionOr (fun _ _ _ => .of_eq rfl) fun _ => .of_eq rfl
    · split
      · rw [wp_bind, wp_zoom]
        have hquarantine : wp (RouteRegistry.quarantineRoute routeId verdict.message)
            (fun _ => Narrows routeId rt.registry) (fun _ => Narrows routeId rt.registry)
            rt.registry := by
          simp only [RouteRegistry.quarantineRoute, RouteRegistry.setStatus, wp_bind, wp_get,
            hcontains, if_true, wp_set, wp_modify]
          exact ⟨rfl, .inr ⟨hcontains, hrevoked, rfl⟩⟩
        refine hquarantine.mono (fun _ registry h => ?_) fun _ _ h => h
        exact Runtime.wp_transitionOr (fun _ _ _ => h) fun _ => h
      · exact .of_eq rfl
  · exact .of_eq rfl

/-- A request that is answered found its route authorised and leaves the
registry alone. -/
theorem serve_registry (w : Worker) (request : Request β) (rt : Runtime) :
    wp (Runtime.serve w request)
      (fun _ rt' => rt.phase ≠ .workerQuarantined ∧
        (∃ routeData, rt.registry.Authorised request.routeId w.runtimeModelHash request.tenant
          routeData) ∧ rt'.registry = rt.registry)
      (fun _ rt' => Narrows request.routeId rt.registry rt'.registry) rt := by
  refine Runtime.wp_infer (fun _ _ => .of_eq rfl) (fun _ _ => .of_eq rfl)
    (fun routeData e hroute _ _ => ?_) fun routeData deltas hroute _ hphase => ?_
  · have hauth := RouteRegistry.getVerifiedRoute_eq_ok.mp hroute
    have hcontains := Dict.contains_iff.mpr ⟨_, hauth.registered⟩
    exact (applyVerdict_narrows _ hcontains hauth.not_revoked).mono (fun _ _ h _ => h)
      fun _ _ h => h
  · -- neither the swap nor the rollback touches the registry
    have hcycle : Keeps (Same Runtime.books) (do
        Runtime.swapIn w request.env request.routeId routeData deltas
        Runtime.runForward request.inferenceFunc) :=
      Keeps.bind (Runtime.keeps_swapIn Runtime.swapFrame_books (fun _ _ _ => rfl) _) fun _ =>
        Runtime.keeps_runForward (R := Same Runtime.books) (fun _ _ => rfl) (fun _ => rfl) _
    have hrollback := Runtime.keeps_performRollback Runtime.rollbackFrame_books w
      request.env.cycle request.routeId
    have hkept : ∀ {rt₁ rt₂ : Runtime}, Same Runtime.books rt rt₁ → Same Runtime.books rt₁ rt₂ →
        rt₂.registry = rt.registry := fun h h' =>
      (Runtime.books_eq_iff.mp (h'.trans h)).1
    refine (hcycle rt).mono (fun output rt₁ h₁ => ?_) fun e rt₁ h₁ => ?_
    · refine (hrollback rt₁).mono (fun _ rt₂ h₂ => ⟨fun _ _ => ?_, fun _ => ?_⟩) fun _ rt₂ h₂ => ?_
      · exact .of_eq (hkept h₁ h₂)
      · exact ⟨hphase, ⟨routeData, RouteRegistry.getVerifiedRoute_eq_ok.mp hroute⟩, hkept h₁ h₂⟩
      · exact .of_eq (hkept h₁ h₂)
    · exact (hrollback rt₁).mono (fun _ _ h₂ => .of_eq (hkept h₁ h₂))
        fun _ _ h₂ => .of_eq (hkept h₁ h₂)

/-- A quarantined worker is left as it is. -/
theorem serve_quarantined_eq (w : Worker) (request : Request β) (rt : Runtime) :
    wp (Runtime.serve w request) (fun _ _ => True)
      (fun _ rt' => rt.phase = .workerQuarantined → rt' = rt) rt := by
  by_cases hphase : rt.phase = .workerQuarantined
  · exact (Runtime.serve_of_quarantined (fun _ => .other) hphase).mono (fun _ _ _ => trivial)
      fun _ _ h _ => h.2
  · exact (Keeps.anything _ rt).mono (fun _ _ _ => trivial) fun _ _ _ h => absurd h hphase

/-! ### One inference call -/

/-- The counters after an exception of the runtime. -/
inductive Noted (e : HTTPException) (m : Metrics) : Metrics → Prop
  | rejected (status : e.statusCode = 403) : Noted e m m.recordRequest.recordRejection
  | failed (status : e.statusCode = 500) : Noted e m m.recordRequest
  | quarantined (status : e.statusCode = 500) :
    Noted e m (m.recordRequest.setQuarantined true).recordRollbackFailure

/-- What one inference call can do: it is refused before the runtime is asked,
or the runtime serves it, or raises. -/
inductive InferStep (w : Worker) (s : ApiState) (call : InferCall β) :
    Except HTTPException (ApiAnswer β) → ApiState → Prop
  | refused {e : HTTPException} (check : PilotServer.checkRequest s.routes call.req = .error e) :
    InferStep w s call (.error e)
      { s with pilot.metrics := s.pilot.metrics.recordRequest.recordRejection }
  | served {response : InferResponse β} {rt : Runtime}
    (check : PilotServer.checkRequest s.routes call.req = .ok ())
    (phase : s.pilot.runtime.phase ≠ .workerQuarantined)
    (authorised : ∃ routeData, s.pilot.runtime.registry.Authorised call.req.routeId
      w.runtimeModelHash ⟨call.req.tenantId⟩ routeData)
    (registry : rt.registry = s.pilot.runtime.registry) :
    InferStep w s call (.ok (.inferred response))
      { s with pilot := ⟨rt, s.pilot.metrics.recordRequest.recordSuccess⟩ }
  | failed {e : HTTPException} {rt : Runtime} {m : Metrics}
    (check : PilotServer.checkRequest s.routes call.req = .ok ())
    (narrows : Narrows call.req.routeId s.pilot.runtime.registry rt.registry)
    (quarantined : s.pilot.runtime.phase = .workerQuarantined → rt = s.pilot.runtime)
    (noted : Noted e s.pilot.metrics m) :
    InferStep w s call (.error e) { s with pilot := ⟨rt, m⟩ }

theorem handleError_noted (classOf : String → ErrorClass) (e : PyError) (s : PilotState)
    (m : Metrics) (hm : s.metrics = m.recordRequest) :
    wp (PilotServer.handleError (β := β) classOf e) (fun _ _ => False)
      (fun e' s' => s'.runtime = s.runtime ∧ Noted e' m s'.metrics) s := by
  unfold PilotServer.handleError
  cases e.caught classOf with
  | permissionError =>
    refine ⟨rfl, ?_⟩
    show Noted _ m s.metrics.recordRejection
    rw [hm]
    exact .rejected rfl
  | runtimeError errMsg =>
    dsimp only
    rw [wp_bind, PilotServer.noteRuntimeError]
    cases PyError.mentionsQuarantine errMsg with
    | true =>
      refine ⟨rfl, ?_⟩
      show Noted _ m (s.metrics.setQuarantined true).recordRollbackFailure
      rw [hm]
      exact .quarantined rfl
    | false =>
      refine ⟨rfl, ?_⟩
      show Noted _ m s.metrics
      rw [hm]
      exact .failed rfl
  | exception =>
    refine ⟨rfl, ?_⟩
    show Noted _ m s.metrics
    rw [hm]
    exact .failed rfl

theorem infer_step (w : Worker) (s : ApiState) (call : InferCall β) :
    InferStep w s call (answer w s (.infer call)) (next w s (.infer call)) := by
  refine of_wp (P := InferStep w s call) ?_
  have hroutes : PilotServer.routes ⟨w, s.registry⟩
      { s.pilot with metrics := s.pilot.metrics.recordRequest } = s.routes := rfl
  simp only [perform, wp_bind, wp_get, wp_map, wp_zoom, PilotServer.handleInfer,
    PilotServer.wp_record, hroutes]
  cases hcheck : PilotServer.checkRequest s.routes call.req with
  | error e =>
    simp only [wp_bind, PilotServer.wp_record, wp_throw]
    exact .refused hcheck
  | ok u =>
    simp only [wp_bind, wp_zoom, wp_catching]
    have hserve := (serve_registry w call.request s.pilot.runtime).and
      (serve_quarantined_eq w call.request s.pilot.runtime)
    refine hserve.mono ?_ ?_
    · rintro output rt ⟨⟨hphase, hauth, hregistry⟩, -⟩
      exact .served hcheck hphase hauth hregistry
    · rintro e rt ⟨hnarrows, hquarantined⟩
      refine (handleError_noted call.classOf e _ s.pilot.metrics rfl).mono
        (fun _ _ hfalse => hfalse.elim) ?_
      rintro e' ⟨rt', m⟩ ⟨rfl, hnoted⟩
      exact .failed hcheck hnarrows hquarantined hnoted

end Calls

end PilotApi
