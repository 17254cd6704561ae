/-
The hot-swap runtime.

The state of a worker and the operations on it, with the lines of the source:
capturing golden snapshots, adding the deltas of a route to the live weights,
restoring the snapshots and checking the digests, and the three gateways
`infer`, `ensureRoute` and `clearActiveRoute`.

* A parameter of the model is a tensor object in memory, so the state
  dictionary maps a name to an address and two names may share one.
* What the outside world decides enters each call through its `Environment`:
  the files, and which step of a swap or of a rollback raises.  A step that
  raises leaves the state it had reached.
* `trace` is not part of the program: it lists the phase writes, the weight
  deltas, the forward passes and the failed rollbacks as they happen, so that
  they can be spoken about.
-/
import NeuralScalpel.LayerNames
import NeuralScalpel.Runs
import Mathlib.Logic.Function.Basic

/-! ### State -/

/-- The live tensors, by address. -/
abbrev Store := ℕ → Tensor

/-- What is fixed when the runtime is built.  `checksum` is the digest of the
bytes of a tensor. -/
structure Worker where
  model : Option (Dict String ℕ)
  runtimeModelHash : String
  payloadBaseDir : Option String
  maxPayloadBytes : ℕ
  checksum : Tensor → String

/-- The snapshots taken of the base weights, with their digests and the
parameter each layer name was resolved to. -/
structure Golden where
  snapshots : Dict String Tensor
  checksums : Dict String String
  nameMapping : Dict String String

namespace Golden

def empty : Golden := ⟨.empty, .empty, .empty⟩

/-- `self._name_mapping.get(name, name)`. -/
def target (golden : Golden) (name : String) : String :=
  (golden.nameMapping.get? name).getD name

/-- There are snapshots, and all layers of the route have one. -/
def covers (golden : Golden) (routeData : Manifest) : Bool :=
  !golden.snapshots.isEmpty &&
    routeData.layers.all fun layer => golden.snapshots.contains layer.name

end Golden

/-- What happens during an operation. -/
inductive Event
  | phaseSet (phase : RuntimePhase)
  | swapApplied (routeData : Manifest) (deltas : Dict String Tensor)
  | deltaAdded (layer : LayerSpec) (live : Tensor)
  | forward (weights : Store)
  | rollbackFailed

def Event.isForward : Event → Bool
  | .forward _ => true
  | _ => false

def Event.isRollbackFailed : Event → Bool
  | .rollbackFailed => true
  | _ => false

structure Runtime where
  machine : RuntimeStateMachine
  registry : RouteRegistry
  store : Store
  golden : Golden
  validatedDeltaCache : Dict String (Dict String Tensor)
  activeRouteId : String
  swapCount : ℕ
  rollbackCount : ℕ
  trace : List Event

/-- The route id of the bare base model. -/
def baseRoute : String := "__base__"

/-! ### The outside world -/

/-- Which step of a swap raises, by the number of the layer. -/
structure SwapFaults where
  clone : ℕ → Option String
  checksum : ℕ → Option String
  add : ℕ → Option String

/-- What computing a digest gives. -/
inductive DigestOutcome
  | computed
  | raised (message : String)
  | drifted (digest : String)

/-- Which step of a rollback raises or goes astray, by the number of the entry. -/
structure RollbackFaults where
  copy : ℕ → Option String
  checksum : ℕ → DigestOutcome

/-- What the outside world decides during one call: `resident` is about the
rollback of a route left active by an earlier call, `cycle` about the rollback
of the call's own swap. -/
structure Environment where
  files : FileSystem
  swap : SwapFaults
  resident : RollbackFaults
  cycle : RollbackFaults

def raiseIf {σ : Type} (fault : Option String) : EStateM PyError σ Unit :=
  match fault with
  | none => pure ()
  | some message => throw (.external message)

def DigestOutcome.read (outcome : DigestOutcome) (digest : String) : Except PyError String :=
  match outcome with
  | .computed => .ok digest
  | .raised message => .error (.external message)
  | .drifted other => .ok other

namespace Runtime

/-- `HotSwapRuntime.__init__` on a model whose weights are `base`. -/
def fresh (registry : RouteRegistry) (base : Store) : Runtime where
  machine := .initial
  registry := registry
  store := base
  golden := .empty
  validatedDeltaCache := .empty
  activeRouteId := baseRoute
  swapCount := 0
  rollbackCount := 0
  trace := []

def phase (rt : Runtime) : RuntimePhase := rt.machine.phase

/-! ### Phase writes -/

def setMachine (machine : RuntimeStateMachine) (rt : Runtime) : Runtime :=
  { rt with machine := machine, trace := rt.trace ++ [.phaseSet machine.phase] }

/-- `self._state_machine.transition(target, reason, route_id)`. -/
def transition (target : RuntimePhase) (reason routeId : String) :
    EStateM PyError Runtime Unit := do
  let rt ← get
  match rt.machine.transition target reason routeId with
  | .ok machine => modify (setMachine machine)
  | .error e => throw (.invalidStateTransition e)

/-- `try` the transition; on an invalid one do what the handler does. -/
def transitionOr (target : RuntimePhase) (reason : String) (handler : Runtime → Runtime) :
    EStateM PyError Runtime Unit := do
  match ← Effect.attempt (transition target reason "") with
  | .ok _ => pure ()
  | .error _ => modify handler

/-- `try` the transition; on an invalid one write the phase all the same. -/
def forceTransition (target : RuntimePhase) : EStateM PyError Runtime Unit :=
  transitionOr target "" fun rt => rt.setMachine { rt.machine with phase := target }

/-- Applies a failure verdict: quarantine the route or the worker. -/
def applyVerdict (verdict : FailureVerdict) (routeId : String) : EStateM PyError Runtime Unit :=
  if verdict.quarantineScope.isSome then
    if verdict.targetPhase = .workerQuarantined then
      transitionOr .workerQuarantined verdict.message fun rt => rt.setMachine
        { rt.machine with phase := .workerQuarantined, quarantineReason := verdict.message }
    else if verdict.targetPhase = .routeQuarantined then do
      Effect.zoom registry (fun registry rt => { rt with registry := registry })
        (RouteRegistry.quarantineRoute routeId verdict.message)
      transitionOr .routeQuarantined verdict.message id
    else pure ()
  else pure ()

/-! ### Capturing snapshots -/

/-- `state[target_name]`. -/
def subscript (model : Option (Dict String ℕ)) (target : String) : Except PyError ℕ :=
  match model with
  | none => .error (.external "'NoneType' object is not subscriptable")
  | some state =>
    match state.get? target with
    | none => .error (.keyError target)
    | some address => .ok address

/-- The live tensor has the shape and the element type the manifest declares. -/
def checkLayer (layer : LayerSpec) (target : String) (live : Tensor) : Except PyError Unit :=
  if live.shape ≠ layer.shape then
    .error (.valueError (s!"Shape mismatch for {layer.name} (resolved to {target}): " ++
      s!"expected {layer.shape}, got {live.shape}"))
  else if live.dtype ≠ layer.dtype then
    .error (.valueError (s!"Dtype mismatch for {layer.name} (resolved to {target}): " ++
      s!"expected {layer.dtype}, got {live.dtype}"))
  else .ok ()

def captureLayer (w : Worker) (faults : SwapFaults) (state : Dict String ℕ) (store : Store)
    (i : ℕ) (layer : LayerSpec) : EStateM PyError Golden Unit := do
  let target ← Effect.ofExcept (resolveLayerName layer.name state)
  -- written down before any check, and kept when one of them raises
  modify fun golden => { golden with nameMapping := golden.nameMapping.set layer.name target }
  let address ← Effect.ofExcept (subscript (some state) target)
  Effect.ofExcept (checkLayer layer target (store address))
  raiseIf (faults.clone i)
  modify fun golden =>
    { golden with snapshots := golden.snapshots.set layer.name (store address) }
  raiseIf (faults.checksum i)
  modify fun golden =>
    { golden with checksums := golden.checksums.set layer.name (w.checksum (store address)) }

/-- Captures snapshots and checksums for all target layers, unless golden
snapshots of all of them are there already. -/
def captureSnapshot (w : Worker) (faults : SwapFaults) (routeData : Manifest) :
    EStateM PyError Runtime Unit := do
  match w.model with
  | none => throw (.runtimeError "Base model state dict is not accessible.")
  | some state =>
    let rt ← get
    -- golden snapshots are reused as they are, without a look at the declared layouts
    if rt.golden.covers routeData then pure ()
    else
      Effect.zoom golden (fun golden rt => { rt with golden := golden }) do
        set Golden.empty
        Effect.forEach (captureLayer w faults state rt.store) 0 routeData.layers

/-! ### Adding deltas -/

/-- The pre-validated deltas, or those loaded from the payload file. -/
def deltasToApply (w : Worker) (files : FileSystem) (routeData : Manifest)
    (validatedDeltas : Dict String Tensor) : Except PyError (Dict String Tensor) :=
  if validatedDeltas.isEmpty && routeData.payload.isSome then
    loadPayloadDeltas files w.payloadBaseDir routeData
  else .ok validatedDeltas

/-- The delta of a layer: under its name, or under the name of its parameter.
A route without a payload is a simulation, with a constant delta. -/
def layerDelta (routeData : Manifest) (deltas : Dict String Tensor) (target : String)
    (layer : LayerSpec) (live : Tensor) : Except PyError Tensor :=
  match (deltas.get? layer.name).or (deltas.get? target) with
  | some delta => .ok (delta.toDtype live.dtype)
  | none =>
    if routeData.payload.isSome then
      .error (.keyError (s!"Validated delta for layer '{layer.name}' (resolved to '{target}') " ++
        "not found in payload. Failing swap to prevent inconsistent state."))
    else .ok (live.fillLike (.finite (1 / 100)))

/-- `live_tensor.add_(delta)`. -/
def addInPlace (live delta : Tensor) : Except PyError Tensor :=
  match live.add_ delta with
  | none => .error (.external "The sizes of the tensors do not match")
  | some sum => .ok sum

def swapLayer (state : Dict String ℕ) (faults : SwapFaults) (routeData : Manifest)
    (deltas : Dict String Tensor) (i : ℕ) (layer : LayerSpec) :
    EStateM PyError Runtime Unit := do
  let rt ← get
  match state.get? (rt.golden.target layer.name) with
  -- the capture should have caught a parameter that is not there
  | none => pure ()
  | some address =>
    let live := rt.store address
    let delta ← Effect.ofExcept
      (layerDelta routeData deltas (rt.golden.target layer.name) layer live)
    raiseIf (faults.add i)
    let sum ← Effect.ofExcept (addInPlace live delta)
    modify fun rt => { rt with
      store := Function.update rt.store address sum
      trace := rt.trace ++ [.deltaAdded layer live] }

/-- Applies the weight deltas of a route to the live model. -/
def applySwap (w : Worker) (env : Environment) (routeData : Manifest)
    (validatedDeltas : Dict String Tensor) : EStateM PyError Runtime Unit := do
  match w.model with
  | none => throw (.attributeError "'NoneType' object has no attribute 'values'")
  | some state =>
    let deltas ← Effect.ofExcept (deltasToApply w env.files routeData validatedDeltas)
    modify fun rt => { rt with trace := rt.trace ++ [.swapApplied routeData deltas] }
    Effect.forEach (swapLayer state env.swap routeData deltas) 0 routeData.layers

/-! ### Rolling back -/

/-- `live_tensor.copy_(snapshot)`. -/
def copyInPlace (live snapshot : Tensor) : Except PyError Tensor :=
  match live.copy_ snapshot with
  | none => .error (.external "The sizes of the tensors do not match")
  | some restored => .ok restored

def restoreLayer (model : Option (Dict String ℕ)) (faults : RollbackFaults) (golden : Golden)
    (i : ℕ) (entry : String × Tensor) : EStateM PyError Store Unit := do
  let address ← Effect.ofExcept (subscript model (golden.target entry.1))
  raiseIf (faults.copy i)
  let store ← get
  let restored ← Effect.ofExcept (copyInPlace (store address) entry.2)
  set (Function.update store address restored)

/-- Restores all snapshot layers. -/
def restoreLayers (w : Worker) (faults : RollbackFaults) (golden : Golden) :
    EStateM PyError Store Unit :=
  Effect.forEach (restoreLayer w.model faults golden) 0 golden.snapshots.entries

def rollback (w : Worker) (faults : RollbackFaults) : EStateM PyError Runtime Unit := do
  let rt ← get
  Effect.zoom store (fun store rt => { rt with store := store }) (restoreLayers w faults rt.golden)

def verifyLayers (w : Worker) (faults : RollbackFaults) (golden : Golden) (store : Store) :
    ℕ → List (String × String) → Except PyError Bool
  | _, [] => .ok true
  | i, (name, expected) :: rest => do
    let address ← subscript w.model (golden.target name)
    let actual ← (faults.checksum i).read (w.checksum (store address))
    if actual ≠ expected then pure false else verifyLayers w faults golden store (i + 1) rest

/-- The digests of the live tensors are the ones taken with the snapshots. -/
def verifyRollback (w : Worker) (faults : RollbackFaults) (golden : Golden) (store : Store) :
    Except PyError Bool :=
  verifyLayers w faults golden store 0 golden.checksums.entries

/-- Note that a rollback has failed and escalate. -/
def failRollback (fc : FailureClass) (routeId : String) : EStateM PyError Runtime Unit := do
  modify fun rt => { rt with trace := rt.trace ++ [.rollbackFailed] }
  applyVerdict (evaluateFailure fc) routeId

/-- Executes the rollback with checksum verification and failure escalation. -/
def performRollback (w : Worker) (faults : RollbackFaults) (routeId : String) :
    EStateM PyError Runtime Unit := do
  forceTransition .rollingBack
  match ← Effect.attempt (rollback w faults) with
  -- the exception ends here: a caller can see only from the phase that there was one
  | .error _ => failRollback .rollbackException routeId
  | .ok _ =>
    let rt ← get
    -- outside the `try`: a digest that cannot be computed raises
    if ← Effect.ofExcept (verifyRollback w faults rt.golden rt.store) then
      modify fun rt => { rt with rollbackCount := rt.rollbackCount + 1 }
      forceTransition .ready
    else failRollback .rollbackChecksumMismatch routeId

/-! ### The gateways -/

/-- The swap both gateways make under the lock. -/
def swapIn (w : Worker) (env : Environment) (routeId : String) (routeData : Manifest)
    (validatedDeltas : Dict String Tensor) : EStateM PyError Runtime Unit := do
  transition .verifying "" routeId
  captureSnapshot w env.swap routeData
  transition .snapshotCaptured "" ""
  transition .swapping "" ""
  applySwap w env routeData validatedDeltas
  transition .swapped "" ""

/-- `inference_func(*args, **kwargs)`: it reads the live weights. -/
def runForward {β : Type} (inferenceFunc : Store → Except PyError β) :
    EStateM PyError Runtime β := do
  transition .forwarding "" ""
  let rt ← get
  modify fun rt => { rt with trace := rt.trace ++ [.forward rt.store] }
  Effect.ofExcept (inferenceFunc rt.store)

/-- The payload validation `infer` makes, with the verdict on a failure. -/
def validateOrQuarantine (w : Worker) (env : Environment) (routeId : String)
    (routeData : Manifest) : EStateM PyError Runtime (Dict String Tensor) :=
  match validatePayload env.files w.payloadBaseDir w.maxPayloadBytes routeData with
  | .ok deltas => pure deltas
  | .error e => do
    applyVerdict (evaluateFailure e.failureClass) routeId
    throw (.runtimeError (evaluateFailure e.failureClass).message)

/-- The transactional gateway: swap, run, roll back. -/
def infer {β : Type} (w : Worker) (env : Environment) (routeId : String)
    (currentTenant : TenantContext) (inferenceFunc : Store → Except PyError β) :
    EStateM PyError Runtime β := do
  let rt ← get
  if rt.machine.isTerminal then
    throw (.runtimeError
      "CRITICAL: Worker is QUARANTINED. Cannot accept requests. Restart required.")
  else
    let routeData ← Effect.ofExcept
      (rt.registry.getVerifiedRoute routeId w.runtimeModelHash currentTenant)
    let validatedDeltas ← validateOrQuarantine w env routeId routeData
    match ← Effect.attempt (do
        swapIn w env routeId routeData validatedDeltas
        runForward inferenceFunc) with
    | .error e =>
      performRollback w env.cycle routeId
      throw e
    | .ok output =>
      performRollback w env.cycle routeId
      -- the final guard
      let rt ← get
      if rt.machine.isTerminal then
        throw (.runtimeError "CRITICAL: Rollback checksum mismatch. Worker QUARANTINED.")
      else pure output

/-- The deltas of a route, validated at its first activation and cached. -/
def cachedDeltas (w : Worker) (env : Environment) (routeId : String) (routeData : Manifest) :
    EStateM PyError Runtime (Dict String Tensor) := do
  let rt ← get
  match rt.validatedDeltaCache.get? routeId with
  | some deltas => pure deltas
  | none =>
    let deltas ← Effect.ofExcept
      ((validatePayload env.files w.payloadBaseDir w.maxPayloadBytes routeData).mapError
        .payloadValidationError)
    modify fun rt => { rt with
      validatedDeltaCache := rt.validatedDeltaCache.set routeId deltas }
    pure deltas

/-- Roll back the route an earlier call left active. -/
def dropActiveRoute (w : Worker) (env : Environment) : EStateM PyError Runtime Unit := do
  let rt ← get
  performRollback w env.resident rt.activeRouteId
  -- whether the rollback failed is not asked
  modify fun rt => { rt with activeRouteId := baseRoute }

/-- Verify, validate and swap in a route on top of the base weights. -/
def activate (w : Worker) (env : Environment) (routeId : String)
    (currentTenant : TenantContext) : EStateM PyError Runtime Bool := do
  let rt ← get
  let routeData ← Effect.ofExcept
    (rt.registry.getVerifiedRoute routeId w.runtimeModelHash currentTenant)
  let validatedDeltas ← cachedDeltas w env routeId routeData
  match ← Effect.attempt (swapIn w env routeId routeData validatedDeltas) with
  | .ok _ =>
    modify fun rt => { rt with activeRouteId := routeId, swapCount := rt.swapCount + 1 }
    pure true
  | .error e =>
    performRollback w env.cycle routeId
    modify fun rt => { rt with activeRouteId := baseRoute }
    throw e

/-- The persistent gateway: swaps only if the route has changed.  Returns
whether it has. -/
def ensureRoute (w : Worker) (env : Environment) (routeId : String)
    (currentTenant : TenantContext) : EStateM PyError Runtime Bool := do
  let rt ← get
  if rt.machine.isTerminal then throw (.runtimeError "Worker is QUARANTINED.")
  -- the fast path: neither the registry nor the payload is looked at again
  else if rt.activeRouteId = routeId then pure false
  else
    if rt.activeRouteId ≠ baseRoute then dropActiveRoute w env
    if routeId = baseRoute then pure true
    else activate w env routeId currentTenant

/-- Forces a rollback to the base weights.  Returns whether there was one. -/
def clearActiveRoute (w : Worker) (env : Environment) : EStateM PyError Runtime Bool := do
  let rt ← get
  if rt.activeRouteId ≠ baseRoute then
    dropActiveRoute w env
    pure true
  else pure false

end Runtime

/-! ### Runs -/

/-- A call of the transactional gateway. -/
structure Request (β : Type) where
  env : Environment
  routeId : String
  tenant : TenantContext
  inferenceFunc : Store → Except PyError β

/-- A call of the persistent gateway. -/
structure Activation where
  env : Environment
  routeId : String
  tenant : TenantContext

/-- A call of one of the three entry points of the runtime. -/
inductive Call (β : Type)
  | infer (request : Request β)
  | ensureRoute (activation : Activation)
  | clearActiveRoute (env : Environment)

/-- A call of the runtime, or a write to its registry. -/
inductive Operation (β : Type)
  | call (c : Call β)
  | registerRoute (checks : AdmissionChecks) (file : Except PyError Manifest)
  | quarantineRoute (routeId reason : String)
  | revokeRoute (routeId : String)

/-- What a call returns: the output of the inference function or a flag. -/
inductive Reply (β : Type)
  | output (b : β)
  | flag (b : Bool)
  deriving DecidableEq

namespace Runtime

variable {β : Type}

def serve (w : Worker) (request : Request β) : EStateM PyError Runtime β :=
  infer w request.env request.routeId request.tenant request.inferenceFunc

def ensure (w : Worker) (activation : Activation) : EStateM PyError Runtime Bool :=
  ensureRoute w activation.env activation.routeId activation.tenant

def perform (w : Worker) : Call β → EStateM PyError Runtime (Reply β)
  | .infer request => Reply.output <$> serve w request
  | .ensureRoute activation => Reply.flag <$> ensure w activation
  | .clearActiveRoute env => Reply.flag <$> clearActiveRoute w env

/-- A program on the registry the runtime holds. -/
def onRegistry {α : Type} (m : EStateM PyError RouteRegistry α) : EStateM PyError Runtime α :=
  Effect.zoom registry (fun registry rt => { rt with registry := registry }) m

/-- The state after a request. -/
def afterRequest (w : Worker) (rt : Runtime) (request : Request β) : Runtime :=
  Effect.after (serve w request) rt

/-- The state after an activation. -/
def afterActivation (w : Worker) (rt : Runtime) (activation : Activation) : Runtime :=
  Effect.after (ensure w activation) rt

/-- The state after a call. -/
def afterCall (w : Worker) (rt : Runtime) (c : Call β) : Runtime :=
  Effect.after (perform w c) rt

/-- The state after an operation. -/
def afterOperation (w : Worker) (rt : Runtime) : Operation β → Runtime
  | .call c => rt.afterCall w c
  | .registerRoute checks file =>
    Effect.after (onRegistry (RouteRegistry.registerRoute checks file)) rt
  | .quarantineRoute routeId reason =>
    Effect.after (onRegistry (RouteRegistry.quarantineRoute routeId reason)) rt
  | .revokeRoute routeId => Effect.after (onRegistry (RouteRegistry.revokeRoute routeId)) rt

/-- What happened between a state and a later one. -/
def eventsSince (rt rt' : Runtime) : List Event := rt'.trace.drop rt.trace.length

end Runtime
