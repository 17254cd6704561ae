/-
The pilot server and its safety metrics.

`handleInfer` checks the route and the tenant, hands the request to the runtime
and counts what comes of it.  Whether the runtime is quarantined, and how many
rollbacks have failed, it does not ask the runtime: it looks for a word in the
text of the exception that comes out.

* `serve_truth_iff` — what the exception of one request says of its rollback;
* `truthful_afterInfer_iff` — when the metrics stay true over one request;
* `along_truthful_iff` — over every sequence of requests.
-/
import NeuralScalpel.SettledPhases

open Effect

/-! ### Metrics -/

/-- The counters of the metrics collector. -/
structure Metrics where
  requestsTotal : ℕ
  requestsSuccess : ℕ
  requestsRejected : ℕ
  runtimeQuarantined : Bool
  rollbackFailureCount : ℕ

namespace Metrics

def initial : Metrics := ⟨0, 0, 0, false, 0⟩

def recordRequest (m : Metrics) : Metrics := { m with requestsTotal := m.requestsTotal + 1 }

def recordSuccess (m : Metrics) : Metrics := { m with requestsSuccess := m.requestsSuccess + 1 }

def recordRejection (m : Metrics) : Metrics :=
  { m with requestsRejected := m.requestsRejected + 1 }

def recordRollbackFailure (m : Metrics) : Metrics :=
  { m with rollbackFailureCount := m.rollbackFailureCount + 1 }

def setQuarantined (quarantined : Bool) (m : Metrics) : Metrics :=
  { m with runtimeQuarantined := quarantined }

end Metrics

/-! ### Exceptions -/

/-- The class of an exception raised outside the runtime, as far as the handler
tells classes apart. -/
inductive ErrorClass
  | permissionError
  | runtimeError
  | other
  deriving DecidableEq, Repr

/-- The `except` clause of the handler an exception ends in. -/
inductive Caught
  | permissionError
  | runtimeError (errMsg : String)
  | exception
  deriving DecidableEq, Repr

namespace PyError

/-- Where the handler catches an exception; an invalid transition is a
`RuntimeError` too. -/
def caught (classOf : String → ErrorClass) : PyError → Caught
  | .permissionError _ => .permissionError
  | .runtimeError message => .runtimeError message
  | .invalidStateTransition e => .runtimeError e.message
  | .external message =>
    match classOf message with
    | .permissionError => .permissionError
    | .runtimeError => .runtimeError message
    | .other => .exception
  | _ => .exception

/-- `"QUARANTINED" in err_msg`. -/
def mentionsQuarantine (errMsg : String) : Bool := occursIn "QUARANTINED" errMsg.toList

/-- The handler takes the exception for a failed rollback. -/
def signals (classOf : String → ErrorClass) (e : PyError) : Bool :=
  match e.caught classOf with
  | .runtimeError errMsg => mentionsQuarantine errMsg
  | _ => false

end PyError

/-! ### The server -/

structure InferRequest where
  requestId : String
  tenantId : String
  routeId : String
  prompt : String
  deriving DecidableEq, Repr

structure InferResponse (β : Type) where
  requestId : String
  routeId : String
  status : String
  output : β

/-- The detail of an answer: a text, `str(e)`, or `f"Inference failed: {e}"`. -/
inductive Detail
  | message (text : String)
  | exception (e : PyError)
  | inferenceFailed (e : PyError)
  deriving DecidableEq, Repr

structure HTTPException where
  statusCode : ℕ
  detail : Detail
  deriving DecidableEq, Repr

/-- What is fixed when the server is built.  Its registry may be the runtime's
own, `none`, or another one. -/
structure PilotServer where
  worker : Worker
  registry : Option RouteRegistry

structure PilotState where
  runtime : Runtime
  metrics : Metrics

/-- A request with what the outside world makes of it: the failures of its swap
and rollback, the forward pass, and the classes of the exceptions raised there. -/
structure InferCall (β : Type) where
  req : InferRequest
  env : Environment
  inferenceFunc : Store → Except PyError β
  classOf : String → ErrorClass

/-- The request the runtime is handed. -/
def InferCall.request {β : Type} (call : InferCall β) : Request β :=
  ⟨call.env, call.req.routeId, ⟨call.req.tenantId⟩, call.inferenceFunc⟩

/-- The prototype's forward pass: a marker of the route and the prompt. -/
def mockInference (req : InferRequest) : Store → Except PyError String := fun _ =>
  .ok s!"[route:{req.routeId}] Output for: {String.ofList (req.prompt.toList.take 50)}"

namespace PilotServer

variable {β : Type}

def routes (server : PilotServer) (s : PilotState) : RouteRegistry :=
  server.registry.getD s.runtime.registry

/-- Route existence, route status and tenant access. -/
def checkRequest (registry : RouteRegistry) (req : InferRequest) : Except HTTPException Unit :=
  match registry.routes.get? req.routeId with
  | none => .error ⟨404, .message s!"Route '{req.routeId}' not found"⟩
  | some routeData =>
    match registry.statuses.get? req.routeId with
    | some .revoked =>
      .error ⟨403, .message s!"Route '{req.routeId}' is REVOKED and cannot be executed"⟩
    | some .quarantined =>
      .error ⟨403, .message s!"Route '{req.routeId}' is QUARANTINED and cannot be executed"⟩
    | _ =>
      require (routeData.opensTo ⟨req.tenantId⟩) ⟨403, .message
        s!"Tenant '{req.tenantId}' is not authorized for route '{req.routeId}'"⟩

def record (f : Metrics → Metrics) : EStateM HTTPException PilotState Unit :=
  modify fun s => { s with metrics := f s.metrics }

/-- A quarantine in the text is counted as a failed rollback. -/
def noteRuntimeError (errMsg : String) : EStateM HTTPException PilotState Unit :=
  if PyError.mentionsQuarantine errMsg then do
    record (Metrics.setQuarantined true)
    record Metrics.recordRollbackFailure
  else pure ()

/-- The `except` clauses of the handler. -/
def handleError (classOf : String → ErrorClass) (e : PyError) :
    EStateM HTTPException PilotState (InferResponse β) :=
  match e.caught classOf with
  | .permissionError => do
    record Metrics.recordRejection
    throw ⟨403, .exception e⟩
  | .runtimeError errMsg => do
    noteRuntimeError errMsg
    throw ⟨500, .message errMsg⟩
  | .exception => throw ⟨500, .inferenceFailed e⟩

def handleInfer (server : PilotServer) (call : InferCall β) :
    EStateM HTTPException PilotState (InferResponse β) := do
  record Metrics.recordRequest
  let s ← get
  match checkRequest (server.routes s) call.req with
  | .error e => do
    record Metrics.recordRejection
    throw e
  | .ok _ =>
    let outcome ← zoom PilotState.runtime (fun rt s => { s with runtime := rt })
      (catching (Runtime.serve server.worker call.request))
    match outcome with
    | .ok output => do
      record Metrics.recordSuccess
      pure ⟨call.req.requestId, call.req.routeId, "success", output⟩
    | .error e => handleError call.classOf e

/-- The state after a request. -/
def afterInfer (server : PilotServer) (s : PilotState) (call : InferCall β) : PilotState :=
  after (handleInfer server call) s

/-- A new server over a new runtime. -/
def start (registry : RouteRegistry) (base : Store) : PilotState :=
  ⟨.fresh registry base, .initial⟩

end PilotServer

/-! ### What the metrics should say -/

namespace Runtime

/-- How many rollbacks have failed so far. -/
def rollbackFailures (rt : Runtime) : ℕ := rt.trace.countP Event.isRollbackFailed

theorem NoFailure.rollbackFailures_eq {rt rt' : Runtime} (h : NoFailure rt rt') :
    rt'.rollbackFailures = rt.rollbackFailures := by
  obtain ⟨es, htrace, hes⟩ := h
  have hnone : es.countP Event.isRollbackFailed = 0 :=
    List.countP_eq_zero.mpr fun e he => Bool.eq_false_iff.mp (hes e he)
  rw [rollbackFailures, htrace, List.countP_append, hnone]
  rfl

end Runtime

/-- The quarantine flag and the count of failed rollbacks are those of the
runtime. -/
structure PilotState.Truthful (s : PilotState) : Prop where
  flag : s.metrics.runtimeQuarantined = true ↔ s.runtime.phase = .workerQuarantined
  count : s.metrics.rollbackFailureCount = s.runtime.rollbackFailures

/-- The exception that ends the steps before the rollback, if one does, speaks
of a quarantine exactly when the rollback fails; an exception of its
verification does not. -/
def SpeaksTrue (classOf : String → ErrorClass) (failure : Option PyError)
    (outcome : Except PyError Bool) : Prop :=
  match outcome with
  | .error e => e.signals classOf = false
  | .ok restored => ∀ e, failure = some e → e.signals classOf = !restored

/-- If the request gets to the lock, what it raises there speaks true of its
rollback. -/
def Runtime.SpeaksUnderLock {β : Type} (w : Worker) (classOf : String → ErrorClass)
    (rt : Runtime) (request : Request β) : Prop :=
  ∀ routeData deltas, EntersLock w rt request routeData deltas →
    SpeaksTrue classOf (raised (lifecycle w request routeData deltas) rt)
      (rollbackOutcome w request.env.cycle (beforeRollback w rt request routeData deltas))

/-- A request the server lets through finds the worker out of quarantine, and
speaks true of its rollback. -/
def PilotServer.Accounts {β : Type} (server : PilotServer) (s : PilotState)
    (call : InferCall β) : Prop :=
  checkRequest (server.routes s) call.req = .ok () →
    s.runtime.phase ≠ .workerQuarantined ∧
      s.runtime.SpeaksUnderLock server.worker call.classOf call.request

/-! ### One request of the runtime -/

namespace Runtime

variable {w : Worker} {β : Type} {rt rt' : Runtime} {b : Bool}

/-- The runtime is quarantined now exactly when the flag is up, and then one
more rollback has failed. -/
def Signalled (b : Bool) (rt rt' : Runtime) : Prop :=
  (b = true ↔ rt'.phase = .workerQuarantined) ∧
    rt'.rollbackFailures = rt.rollbackFailures + b.toNat

theorem signalled_of_failed (hphase : rt'.phase = .workerQuarantined)
    (hcount : rt'.rollbackFailures = rt.rollbackFailures + 1) :
    Signalled b rt rt' ↔ b = true := by
  unfold Signalled
  rw [hcount]
  cases b <;> simp [hphase]

theorem signalled_of_not_failed (hphase : rt'.phase ≠ .workerQuarantined)
    (hcount : rt'.rollbackFailures = rt.rollbackFailures) :
    Signalled b rt rt' ↔ b = false := by
  unfold Signalled
  rw [hcount]
  cases b <;> simp [hphase]

/-- Refusing a route is not taken for a failed rollback. -/
theorem signals_getVerifiedRoute {classOf : String → ErrorClass} {registry : RouteRegistry}
    {routeId hash : String} {tenant : TenantContext} {e : PyError}
    (h : registry.getVerifiedRoute routeId hash tenant = .error e) :
    e.signals classOf = false := by
  unfold RouteRegistry.getVerifiedRoute at h
  cases hget : registry.routes.get? routeId with
  | none =>
    rw [hget] at h
    cases h
    rfl
  | some routeData =>
    simp only [hget, bind_eq_error] at h
    rcases h with hstatus | ⟨_, _, hhash | ⟨_, _, htenant | ⟨_, _, hpure⟩⟩⟩
    · unfold RouteRegistry.statusGate at hstatus
      split at hstatus <;> cases hstatus <;> rfl
    · unfold verifyRuntimeCompatibility at hhash
      split at hhash <;> cases hhash
      rfl
    · unfold verifyTenantAccess at htenant
      split at htenant <;> cases htenant
      rfl
    · cases hpure

/-- No verdict speaks of a quarantine in capitals. -/
theorem mentionsQuarantine_message (fc : FailureClass) :
    PyError.mentionsQuarantine (evaluateFailure fc).message = false := by
  cases fc <;> decide +kernel

/-- The verdict on a rejected payload neither quarantines the worker nor raises
anything that could be taken for it. -/
theorem applyVerdict_signals (classOf : String → ErrorClass) {fc : FailureClass}
    (hfc : fc.ofPayload) (routeId : String) (hphase : rt.phase ≠ .workerQuarantined) :
    wp (applyVerdict (evaluateFailure fc) routeId)
      (fun _ rt' => rt'.phase ≠ .workerQuarantined ∧ NoFailure rt rt')
      (fun e rt' => e.signals classOf = false ∧ rt'.phase ≠ .workerQuarantined ∧
        NoFailure rt rt') rt := by
  have hrefl : NoFailure rt rt := refl_of NoFailure rt
  unfold applyVerdict
  by_cases hscope : (evaluateFailure fc).quarantineScope.isSome = true
  · have htarget : (evaluateFailure fc).targetPhase = .routeQuarantined :=
      hfc.resolve_right fun hnone => absurd hscope (by simp [hnone])
    rw [if_pos hscope, htarget, if_neg (by decide), if_pos rfl, wp_bind, wp_zoom]
    unfold RouteRegistry.quarantineRoute RouteRegistry.setStatus
    by_cases hcontains : rt.registry.routes.contains routeId = true
    · simp only [wp_bind, wp_get, if_pos hcontains, wp_set, wp_modify]
      refine wp_transitionOr (fun _ machine hm => ⟨?_, ?_⟩) fun _ => ⟨hphase, hrefl⟩
      · rw [setMachine_phase, hm]
        decide
      · exact Appends.one rfl rfl
    · simp only [wp_bind, wp_get, if_neg hcontains, wp_throw]
      exact ⟨rfl, hphase, hrefl⟩
  · rw [if_neg hscope]
    exact ⟨hphase, hrefl⟩

theorem lifecycle_noFailure (request : Request β) (routeData : Manifest)
    (deltas : Dict String Tensor) : Keeps NoFailure (lifecycle w request routeData deltas) :=
  Keeps.bind (swapIn_noFailure _ _ _ _) fun _ =>
    keeps_runForward swapFrame_noFailure.phase (fun _ => Appends.one rfl rfl) _

/-- What a rollback and the exception that leaves the lock say of each other. -/
theorem signalled_iff {classOf : String → ErrorClass} {outcome : Except PyError Bool}
    {e : PyError} (houtcome : (outcome = .ok false ∧ rt'.phase = .workerQuarantined ∧
        rt'.rollbackFailures = rt.rollbackFailures + 1) ∨
      (outcome = .ok true ∧ rt'.phase = .ready ∧ rt'.rollbackFailures = rt.rollbackFailures)) :
    Signalled (e.signals classOf) rt rt' ↔ SpeaksTrue classOf (some e) outcome := by
  have hsome : ∀ {restored : Bool}, SpeaksTrue classOf (some e) (.ok restored) ↔
      e.signals classOf = !restored := by
    intro restored
    exact ⟨fun h => h e rfl, fun h e' he' => Option.some.inj he' ▸ h⟩
  rcases houtcome with ⟨rfl, hphase, hcount⟩ | ⟨rfl, hphase, hcount⟩
  · rw [signalled_of_failed hphase hcount, hsome]
    rfl
  · have hne : rt'.phase ≠ .workerQuarantined := by
      rw [hphase]
      decide
    rw [signalled_of_not_failed hne hcount, hsome]
    rfl

/-- A rollback by its outcome, with the number of failed rollbacks after it. -/
theorem performRollback_counts (faults : RollbackFaults) (routeId : String) (rt : Runtime) :
    wp (performRollback w faults routeId)
      (fun _ rt' =>
        (rollbackOutcome w faults rt = .ok false ∧ rt'.phase = .workerQuarantined ∧
          rt'.rollbackFailures = rt.rollbackFailures + 1) ∨
        (rollbackOutcome w faults rt = .ok true ∧ rt'.phase = .ready ∧
          rt'.rollbackFailures = rt.rollbackFailures))
      (fun e rt' => rollbackOutcome w faults rt = .error e ∧ rt'.phase = .rollingBack ∧
        rt'.rollbackFailures = rt.rollbackFailures) rt := by
  have hcount : ∀ {rt' : Runtime} {es : List Event}, rt'.trace = rt.trace ++ es →
      rt'.rollbackFailures = rt.rollbackFailures + es.countP Event.isRollbackFailed := by
    intro rt' es htrace
    rw [rollbackFailures, htrace, List.countP_append]
    rfl
  refine (performRollback_cases faults routeId rt).mono ?_ fun e rt' h => ?_
  · rintro _ rt' (⟨hfalse, hphase, htrace⟩ | ⟨htrue, hphase, htrace⟩)
    · exact Or.inl ⟨hfalse, hphase, hcount htrace⟩
    · exact Or.inr ⟨htrue, hphase, hcount htrace⟩
  · exact ⟨h.1, h.2.1, hcount h.2.2⟩

/-- An exception of the rollback itself finds no rollback failed. -/
theorem signalled_of_raising {classOf : String → ErrorClass} {e : PyError}
    {failure : Option PyError} (hrolling : rt'.phase = .rollingBack)
    (hcount : rt'.rollbackFailures = rt.rollbackFailures) :
    Signalled (e.signals classOf) rt rt' ↔ SpeaksTrue classOf failure (.error e) := by
  refine signalled_of_not_failed ?_ hcount
  rw [hrolling]
  decide

/-- What comes out of the lock says truly whether the rollback has failed
exactly when the steps before it speak true. -/
theorem lifecycle_truth (classOf : String → ErrorClass) (request : Request β)
    (routeData : Manifest) (deltas : Dict String Tensor) {truth : Prop}
    (htruth : truth ↔ SpeaksTrue classOf (raised (lifecycle w request routeData deltas) rt)
      (rollbackOutcome w request.env.cycle (beforeRollback w rt request routeData deltas))) :
    wp (lifecycle w request routeData deltas)
      (fun _ rt₁ => wp (performRollback w request.env.cycle request.routeId)
        (fun _ rt₂ => (rt₂.phase = .workerQuarantined →
            (Signalled ((PyError.runtimeError
              "CRITICAL: Rollback checksum mismatch. Worker QUARANTINED.").signals classOf)
              rt rt₂ ↔ truth)) ∧
          (rt₂.phase ≠ .workerQuarantined → (Signalled false rt rt₂ ↔ truth)))
        (fun e rt₂ => Signalled (e.signals classOf) rt rt₂ ↔ truth) rt₁)
      (fun e rt₁ => wp (performRollback w request.env.cycle request.routeId)
        (fun _ rt₂ => Signalled (e.signals classOf) rt rt₂ ↔ truth)
        (fun e rt₂ => Signalled (e.signals classOf) rt rt₂ ↔ truth) rt₁) rt := by
  rw [htruth]
  refine ((lifecycle_noFailure request routeData deltas).and_wp
    (wp_raised (lifecycle w request routeData deltas) rt)).mono ?_ ?_
  · rintro output rt₁ ⟨hnone, hraised, rfl⟩
    rw [hraised]
    refine (performRollback_counts request.env.cycle request.routeId _).mono ?_ ?_
    · rintro _ rt₂ hcases
      rw [hnone.rollbackFailures_eq] at hcases
      have hquiet : ∀ {restored : Bool}, SpeaksTrue classOf none (.ok restored) :=
        fun e he => by cases he
      rcases hcases with ⟨hfalse, hwq, hcount⟩ | ⟨htrue, hready, hcount⟩
      · -- the final guard speaks of the quarantine
        rw [beforeRollback, hfalse]
        refine ⟨fun _ => iff_of_true ?_ hquiet, fun hne => absurd hwq hne⟩
        refine (signalled_of_failed hwq hcount).mpr ?_
        show PyError.mentionsQuarantine
          "CRITICAL: Rollback checksum mismatch. Worker QUARANTINED." = true
        decide +kernel
      · have hne : rt₂.phase ≠ .workerQuarantined := by
          rw [hready]
          decide
        rw [beforeRollback, htrue]
        refine ⟨fun hwq => absurd hwq hne, fun _ => iff_of_true ?_ hquiet⟩
        exact (signalled_of_not_failed hne hcount).mpr rfl
    · rintro e rt₂ ⟨hraise, hrolling, hcount⟩
      rw [beforeRollback, hraise]
      exact signalled_of_raising hrolling (hcount.trans hnone.rollbackFailures_eq)
  · -- the exception of the cycle comes out whatever its rollback did
    rintro e rt₁ ⟨hnone, hraised, rfl⟩
    rw [hraised]
    refine (performRollback_counts request.env.cycle request.routeId _).mono ?_ ?_
    · rintro _ rt₂ hcases
      rw [hnone.rollbackFailures_eq] at hcases
      exact signalled_iff hcases
    · rintro e' rt₂ ⟨hraise, hrolling, hcount⟩
      rw [beforeRollback, hraise]
      exact signalled_of_raising hrolling (hcount.trans hnone.rollbackFailures_eq)

/-- A request to a worker out of quarantine: the exception that comes out, or
that none does, says truly whether a rollback has failed exactly when the steps
under the lock speak true. -/
theorem serve_truth_iff {request : Request β} (classOf : String → ErrorClass)
    (hphase : rt.phase ≠ .workerQuarantined) :
    wp (serve w request)
      (fun _ rt' => Signalled false rt rt' ↔ rt.SpeaksUnderLock w classOf request)
      (fun e rt' => Signalled (e.signals classOf) rt rt' ↔ rt.SpeaksUnderLock w classOf request)
      rt := by
  set speaks := rt.SpeaksUnderLock w classOf request
  -- a request that does not get to the lock says nothing
  have hsilent : ∀ {e : PyError} {rt' : Runtime}, speaks → e.signals classOf = false →
      rt'.phase ≠ .workerQuarantined → NoFailure rt rt' →
      (Signalled (e.signals classOf) rt rt' ↔ speaks) := by
    intro e rt' hspeaks hsignals hne hnone
    exact iff_of_true ((signalled_of_not_failed hne hnone.rollbackFailures_eq).mpr hsignals)
      hspeaks
  refine wp_infer_raising (fun hwq => absurd hwq hphase) (fun e he => ?_)
    (fun routeData e hroute hinvalid _ => ?_) fun routeData deltas hroute hvalid _ => ?_
  · refine hsilent (fun routeData deltas henters => ?_) (signals_getVerifiedRoute he) hphase
      (refl_of NoFailure rt)
    cases he.symm.trans henters.verified
  · have hspeaks : speaks := by
      intro routeData' deltas henters
      cases hroute.symm.trans henters.verified
      cases hinvalid.symm.trans henters.validated
    refine (applyVerdict_signals classOf (ofPayload_of_validatePayload hinvalid)
      request.routeId hphase).mono ?_ ?_
    · rintro _ rt' ⟨hne, hnone⟩
      exact hsilent hspeaks (mentionsQuarantine_message e.failureClass) hne hnone
    · rintro e' rt' ⟨hsignals, hne, hnone⟩
      exact hsilent hspeaks hsignals hne hnone
  · refine lifecycle_truth classOf request routeData deltas ?_
    -- under the lock there is one route and one set of deltas
    constructor
    · exact fun h => h routeData deltas ⟨hphase, hroute, hvalid⟩
    · rintro h routeData' deltas' henters
      cases hroute.symm.trans henters.verified
      cases hvalid.symm.trans henters.validated
      exact h

/-- A quarantined worker refuses, with an exception that speaks of it. -/
theorem serve_of_quarantined {request : Request β} (classOf : String → ErrorClass)
    (hphase : rt.phase = .workerQuarantined) :
    wp (serve w request) (fun _ _ => False)
      (fun e rt' => e.signals classOf = true ∧ rt' = rt) rt := by
  rw [serve, infer, wp_bind, wp_get, if_pos (RuntimeStateMachine.isTerminal_iff.mpr hphase)]
  refine ⟨?_, rfl⟩
  show PyError.mentionsQuarantine
    "CRITICAL: Worker is QUARANTINED. Cannot accept requests. Restart required." = true
  decide +kernel

end Runtime

/-! ### One request of the server -/

namespace PilotServer

variable {β : Type} {server : PilotServer} {s : PilotState} {call : InferCall β}

@[simp] theorem wp_record {f : Metrics → Metrics} {Q : Unit → PilotState → Prop}
    {E : HTTPException → PilotState → Prop} :
    wp (record f) Q E s ↔ Q () { s with metrics := f s.metrics } := Iff.rfl

/-- The quarantine flag and the count of failed rollbacks after an exception
that is taken for one, or not. -/
structure Noted (b : Bool) (m m' : Metrics) : Prop where
  flag : m'.runtimeQuarantined = (m.runtimeQuarantined || b)
  count : m'.rollbackFailureCount = m.rollbackFailureCount + b.toNat

theorem noted_nothing {m m' : Metrics} (hflag : m'.runtimeQuarantined = m.runtimeQuarantined)
    (hcount : m'.rollbackFailureCount = m.rollbackFailureCount) : Noted false m m' := by
  constructor
  · rw [hflag, Bool.or_false]
  · rw [hcount]
    rfl

theorem handleError_spec (classOf : String → ErrorClass) (e : PyError) (s : PilotState) :
    wp (handleError (β := β) classOf e) (fun _ _ => False)
      (fun _ s' => s'.runtime = s.runtime ∧ Noted (e.signals classOf) s.metrics s'.metrics) s := by
  unfold handleError PyError.signals
  cases e.caught classOf with
  | permissionError => exact ⟨rfl, noted_nothing rfl rfl⟩
  | runtimeError errMsg =>
    dsimp only
    rw [wp_bind, noteRuntimeError]
    cases h : PyError.mentionsQuarantine errMsg with
    | true => exact ⟨rfl, (Bool.or_true _).symm, rfl⟩
    | false => exact ⟨rfl, noted_nothing rfl rfl⟩
  | exception => exact ⟨rfl, noted_nothing rfl rfl⟩

/-- What the server makes of a request it lets through: the outcome of the
runtime decides what is noted. -/
theorem handleInfer_spec (server : PilotServer) (s : PilotState) (call : InferCall β)
    (hadmitted : checkRequest (server.routes s) call.req = .ok ()) {P : Bool → Runtime → Prop}
    (hserve : wp (Runtime.serve server.worker call.request) (fun _ => P false)
      (fun e => P (e.signals call.classOf)) s.runtime) :
    ∃ b, P b (afterInfer server s call).runtime ∧
      Noted b s.metrics (afterInfer server s call).metrics := by
  suffices hwp : wp (handleInfer server call)
      (fun _ s' => ∃ b, P b s'.runtime ∧ Noted b s.metrics s'.metrics)
      (fun _ s' => ∃ b, P b s'.runtime ∧ Noted b s.metrics s'.metrics) s from wp_const_iff.mp hwp
  have hroutes : server.routes { s with metrics := s.metrics.recordRequest } = server.routes s :=
    rfl
  simp only [handleInfer, wp_bind, wp_record, wp_get, hroutes, hadmitted, wp_zoom, wp_catching]
  refine hserve.mono (fun output rt' hP => ?_) fun e rt' hP => ?_
  · exact ⟨false, hP, noted_nothing rfl rfl⟩
  · refine (handleError_spec call.classOf e _).mono (fun _ _ hfalse => hfalse.elim) ?_
    rintro _ s' ⟨hruntime, hnoted⟩
    rw [hruntime]
    exact ⟨_, hP, hnoted.flag, hnoted.count⟩

/-- A request the server refuses changes neither the runtime nor what the
metrics say of it. -/
theorem afterInfer_of_refused {e : HTTPException}
    (hrefused : checkRequest (server.routes s) call.req = .error e) :
    afterInfer server s call =
      { s with metrics := s.metrics.recordRequest.recordRejection } := by
  have hroutes : server.routes { s with metrics := s.metrics.recordRequest } = server.routes s :=
    rfl
  suffices hwp : wp (handleInfer server call)
      (fun _ s' => s' = { s with metrics := s.metrics.recordRequest.recordRejection })
      (fun _ s' => s' = { s with metrics := s.metrics.recordRequest.recordRejection }) s from
    wp_const_iff.mp hwp
  simp only [handleInfer, wp_bind, wp_record, wp_get, hroutes, hrefused, wp_throw]

/-- **One request.**  True metrics stay true over a request exactly when the
request accounts for its rollback. -/
theorem truthful_afterInfer_iff (server : PilotServer) (s : PilotState) (call : InferCall β)
    (h : s.Truthful) : (afterInfer server s call).Truthful ↔ Accounts server s call := by
  cases hcheck : checkRequest (server.routes s) call.req with
  | error e =>
    rw [afterInfer_of_refused hcheck]
    refine iff_of_true ⟨h.flag, h.count⟩ fun hadmitted => ?_
    cases hcheck.symm.trans hadmitted
  | ok u =>
    unfold Accounts
    rw [forall_prop_of_true hcheck]
    by_cases hphase : s.runtime.phase = .workerQuarantined
    · -- the refusal of a quarantined worker is counted as one more failed rollback
      obtain ⟨b, ⟨rfl, hruntime⟩, hnoted⟩ := handleInfer_spec server s call hcheck
        (P := fun b rt' => b = true ∧ rt' = s.runtime)
        ((Runtime.serve_of_quarantined call.classOf hphase).mono (fun _ _ hfalse => hfalse.elim)
          fun _ _ hraises => hraises)
      refine iff_of_false (fun htruthful => ?_) fun haccounts => haccounts.1 hphase
      have hcount := htruthful.count
      rw [hnoted.count, h.count, hruntime] at hcount
      exact absurd hcount (by simp)
    · obtain ⟨b, hsignalled, hnoted⟩ := handleInfer_spec server s call hcheck
        (P := fun b rt' => Runtime.Signalled b s.runtime rt' ↔
          s.runtime.SpeaksUnderLock server.worker call.classOf call.request)
        (Runtime.serve_truth_iff call.classOf hphase)
      have hflag : s.metrics.runtimeQuarantined = false :=
        Bool.eq_false_iff.mpr fun hup => hphase (h.flag.mp hup)
      refine Iff.trans ?_ (hsignalled.trans (and_iff_right hphase).symm)
      unfold Runtime.Signalled
      rw [← h.count, ← hnoted.count]
      constructor
      · intro htruthful
        rw [← htruthful.flag, hnoted.flag, hflag, Bool.false_or]
        exact ⟨Iff.rfl, htruthful.count.symm⟩
      · rintro ⟨hphase', hcount⟩
        refine ⟨?_, hcount.symm⟩
        rw [← hphase', hnoted.flag, hflag, Bool.false_or]

/-- **When the safety metrics tell the truth.**  For every sequence of requests
to a new server, with any failures of capture, swap, inference and rollback: the
metrics are true after each request exactly when each request accounts for its
rollback. -/
theorem along_truthful_iff (server : PilotServer) (registry : RouteRegistry) (base : Store)
    (calls : List (InferCall β)) :
    Runs.Along (afterInfer server) (fun s call => (afterInfer server s call).Truthful)
        (start registry base) calls ↔
      Runs.Along (afterInfer server) (Accounts server) (start registry base) calls :=
  Runs.along_invariant_iff (fun s call h => truthful_afterInfer_iff server s call h)
    ⟨by simp [start, Metrics.initial, Runtime.fresh, Runtime.phase, RuntimeStateMachine.initial],
      rfl⟩

/-- A delta cannot be added and the layer cannot be restored: the worker is
quarantined, and the metrics do not know. -/
theorem not_truthful_swap :
    let call : InferCall String := {
      req := ⟨"q", "tenant", "r", "hello"⟩
      env := { Demo.quiet Demo.noFiles with
        swap := ⟨fun _ => none, fun _ => none, fun _ => some "out of memory"⟩
        cycle := Demo.stuckRollback }
      inferenceFunc := mockInference ⟨"q", "tenant", "r", "hello"⟩
      classOf := fun _ => .runtimeError }
    let s := start Demo.start.registry Demo.base
    ¬Runs.Along (afterInfer ⟨Demo.worker, none⟩)
      (fun s call => (afterInfer ⟨Demo.worker, none⟩ s call).Truthful) s [call] := by
  intro call s
  rintro ⟨htruthful, -⟩
  have hphase : (afterInfer ⟨Demo.worker, none⟩ s call).runtime.phase = .workerQuarantined := by
    decide +kernel
  have hflag : (afterInfer ⟨Demo.worker, none⟩ s call).metrics.runtimeQuarantined = false := by
    decide +kernel
  exact absurd (hflag.symm.trans (htruthful.flag.mpr hphase)) (by simp)

end PilotServer
