/-
Concurrent requests.

The calls of `infer` on one runtime, each on a thread of its own.  A thread
takes one step at a time: it verifies the route, validates the payload, writes
the verdict on a bad one, waits for the swap lock, and inside the lock makes
one transition or one operation per step.  Only the locked section is
exclusive, so a verdict can land in the middle of a swap.

* `resume_act` — each step of a thread is the next part of its call;
* `infer_of_alone` — so a thread that runs alone computes `infer`.
-/
import NeuralScalpel.Interleaving
import NeuralScalpel.LeaveNoTrace

open Effect

namespace ConcurrentInfer

variable {ι β : Type}

/-! ### Threads -/

/-- Where a call of `infer` has got to: what it does next. -/
inductive Stage (β : Type)
  | entering
  | resolving
  | validating (routeData : Manifest)
  | quarantining (e : PayloadValidationError)
  | condemning (e : PayloadValidationError)
  | waiting (routeData : Manifest) (deltas : Dict String Tensor)
  | verifying (routeData : Manifest) (deltas : Dict String Tensor)
  | capturing (routeData : Manifest) (deltas : Dict String Tensor)
  | captured (routeData : Manifest) (deltas : Dict String Tensor)
  | swapping (routeData : Manifest) (deltas : Dict String Tensor)
  | applying (routeData : Manifest) (deltas : Dict String Tensor)
  | swapped
  | forwarding
  | inferring
  | rollingBack (result : Except PyError β)
  | restoring (result : Except PyError β)
  | checking (result : Except PyError β)
  | settling (result : Except PyError β)
  | failing (fc : FailureClass) (result : Except PyError β)
  | releasing (result : Except PyError β)
  | guarding (output : β)
  | finished (result : Except PyError β)

namespace Stage

/-- Inside the locked section. -/
def locked : Stage β → Bool
  | .verifying _ _ | .capturing _ _ | .captured _ _ | .swapping _ _ | .applying _ _ | .swapped
  | .forwarding | .inferring | .rollingBack _ | .restoring _ | .checking _ | .settling _
  | .failing _ _ | .releasing _ => true
  | _ => false

/-- Where an exception raised at this stage leads: out of the call, to the
rollback of the swap, or out of a rollback to the end of the locked section. -/
def onRaise (e : PyError) : Stage β → Stage β
  | .verifying _ _ | .capturing _ _ | .captured _ _ | .swapping _ _ | .applying _ _ | .swapped
  | .forwarding | .inferring => .rollingBack (.error e)
  | .rollingBack _ | .restoring _ | .checking _ | .settling _ | .failing _ _ =>
    .releasing (.error e)
  | _ => .finished (.error e)

/-- What follows the locked section: the final guard, or the exception again. -/
def afterRelease : Except PyError β → Stage β
  | .ok output => .guarding output
  | .error e => .finished (.error e)

end Stage

/-- The first half of a verdict: the status of the route. -/
def quarantineFor (verdict : FailureVerdict) (routeId : String) : EStateM PyError Runtime Unit :=
  if verdict.quarantineScope.isSome ∧ verdict.targetPhase = .routeQuarantined then
    Effect.zoom Runtime.registry (fun registry rt => { rt with registry := registry })
      (RouteRegistry.quarantineRoute routeId verdict.message)
  else pure ()

/-- The second half of a verdict: the transition. -/
def condemn (verdict : FailureVerdict) : EStateM PyError Runtime Unit :=
  if verdict.quarantineScope.isSome then
    if verdict.targetPhase = .workerQuarantined then
      Runtime.transitionOr .workerQuarantined verdict.message fun rt => rt.setMachine
        { rt.machine with phase := .workerQuarantined, quarantineReason := verdict.message }
    else if verdict.targetPhase = .routeQuarantined then
      Runtime.transitionOr .routeQuarantined verdict.message id
    else pure ()
  else pure ()

/-- The next stage of a thread that neither takes nor gives back the lock. -/
def turn (w : Worker) (request : Request β) : Stage β → EStateM PyError Runtime (Stage β)
  | .entering => do
    let rt ← get
    if rt.machine.isTerminal then
      throw (.runtimeError
        "CRITICAL: Worker is QUARANTINED. Cannot accept requests. Restart required.")
    else pure .resolving
  | .resolving => do
    let rt ← get
    let routeData ← Effect.ofExcept
      (rt.registry.getVerifiedRoute request.routeId w.runtimeModelHash request.tenant)
    pure (.validating routeData)
  | .validating routeData =>
    match validatePayload request.env.files w.payloadBaseDir w.maxPayloadBytes routeData with
    | .ok deltas => pure (.waiting routeData deltas)
    | .error e => pure (.quarantining e)
  | .quarantining e => do
    quarantineFor (evaluateFailure e.failureClass) request.routeId
    pure (.condemning e)
  | .condemning e => do
    condemn (evaluateFailure e.failureClass)
    throw (.runtimeError (evaluateFailure e.failureClass).message)
  | .verifying routeData deltas => do
    Runtime.transition .verifying "" request.routeId
    pure (.capturing routeData deltas)
  | .capturing routeData deltas => do
    Runtime.captureSnapshot w request.env.swap routeData
    pure (.captured routeData deltas)
  | .captured routeData deltas => do
    Runtime.transition .snapshotCaptured "" ""
    pure (.swapping routeData deltas)
  | .swapping routeData deltas => do
    Runtime.transition .swapping "" ""
    pure (.applying routeData deltas)
  | .applying routeData deltas => do
    Runtime.applySwap w request.env routeData deltas
    pure .swapped
  | .swapped => do
    Runtime.transition .swapped "" ""
    pure .forwarding
  | .forwarding => do
    Runtime.transition .forwarding "" ""
    pure .inferring
  | .inferring => do
    let rt ← get
    modify fun rt => { rt with trace := rt.trace ++ [.forward rt.store] }
    let output ← Effect.ofExcept (request.inferenceFunc rt.store)
    pure (.rollingBack (.ok output))
  | .rollingBack result => do
    Runtime.forceTransition .rollingBack
    pure (.restoring result)
  | .restoring result => do
    match ← Effect.attempt (Runtime.rollback w request.env.cycle) with
    | .error _ => pure (.failing .rollbackException result)
    | .ok _ => pure (.checking result)
  | .checking result => do
    let rt ← get
    if ← Effect.ofExcept (Runtime.verifyRollback w request.env.cycle rt.golden rt.store) then
      pure (.settling result)
    else pure (.failing .rollbackChecksumMismatch result)
  | .settling result => do
    modify fun rt => { rt with rollbackCount := rt.rollbackCount + 1 }
    Runtime.forceTransition .ready
    pure (.releasing result)
  | .failing fc result => do
    Runtime.failRollback fc request.routeId
    pure (.releasing result)
  | .guarding output => do
    let rt ← get
    if rt.machine.isTerminal then
      throw (.runtimeError "CRITICAL: Rollback checksum mismatch. Worker QUARANTINED.")
    else pure (.finished (.ok output))
  | .waiting routeData deltas => pure (.waiting routeData deltas)
  | .releasing result => pure (.releasing result)
  | .finished result => pure (.finished result)

/-- What the threads share: the runtime and its swap lock. -/
structure Shared (ι : Type) where
  runtime : Runtime
  lock : Option ι

/-- The next stage and the runtime after a turn. -/
def move (w : Worker) (request : Request β) (stage : Stage β) (rt : Runtime) : Stage β × Runtime :=
  match turn w request stage rt with
  | .ok next rt' => (next, rt')
  | .error e rt' => (stage.onRaise e, rt')

/-- A step of thread `i`.  It takes the lock when it is free, and gives it back
at the end of the locked section. -/
def act (w : Worker) (calls : ι → Request β) (i : ι) (stage : Stage β) (shared : Shared ι) :
    Stage β × Shared ι :=
  match stage with
  | .waiting routeData deltas =>
    match shared.lock with
    | none => (.verifying routeData deltas, { shared with lock := some i })
    | some _ => (stage, shared)
  | .releasing result => (Stage.afterRelease result, { shared with lock := none })
  | _ =>
    ((move w (calls i) stage shared.runtime).1,
      { shared with runtime := (move w (calls i) stage shared.runtime).2 })

abbrev Config (ι β : Type) := Interleaving.Config ι (Shared ι) (Stage β)

/-- All threads are about to call `infer`. -/
def start (rt : Runtime) : Config ι β := ⟨⟨rt, none⟩, fun _ => .entering⟩

/-! ### One thread alone -/

section Alone

variable {w : Worker} {request : Request β}

/-- The end of the call: the exception again, or the final guard. -/
def conclude : Except PyError β → EStateM PyError Runtime β
  | .error e => throw e
  | .ok output => do
    let rt ← get
    if rt.machine.isTerminal then
      throw (.runtimeError "CRITICAL: Rollback checksum mismatch. Worker QUARANTINED.")
    else pure output

/-- What is left of the `try` of a call that holds the lock. -/
def tryFrom (w : Worker) (request : Request β) : Stage β → EStateM PyError Runtime β
  | .verifying routeData deltas => do
    Runtime.swapIn w request.env request.routeId routeData deltas
    Runtime.runForward request.inferenceFunc
  | .capturing routeData deltas => do
    Runtime.captureSnapshot w request.env.swap routeData
    Runtime.transition .snapshotCaptured "" ""
    Runtime.transition .swapping "" ""
    Runtime.applySwap w request.env routeData deltas
    Runtime.transition .swapped "" ""
    Runtime.runForward request.inferenceFunc
  | .captured routeData deltas => do
    Runtime.transition .snapshotCaptured "" ""
    Runtime.transition .swapping "" ""
    Runtime.applySwap w request.env routeData deltas
    Runtime.transition .swapped "" ""
    Runtime.runForward request.inferenceFunc
  | .swapping routeData deltas => do
    Runtime.transition .swapping "" ""
    Runtime.applySwap w request.env routeData deltas
    Runtime.transition .swapped "" ""
    Runtime.runForward request.inferenceFunc
  | .applying routeData deltas => do
    Runtime.applySwap w request.env routeData deltas
    Runtime.transition .swapped "" ""
    Runtime.runForward request.inferenceFunc
  | .swapped => do
    Runtime.transition .swapped "" ""
    Runtime.runForward request.inferenceFunc
  | .forwarding => Runtime.runForward request.inferenceFunc
  | .inferring => do
    let rt ← get
    modify fun rt => { rt with trace := rt.trace ++ [.forward rt.store] }
    Effect.ofExcept (request.inferenceFunc rt.store)
  | _ => throw (.runtimeError "")

/-- The end of a rollback whose digests agree. -/
def settle : EStateM PyError Runtime Unit := do
  modify fun rt => { rt with rollbackCount := rt.rollbackCount + 1 }
  Runtime.forceTransition .ready

/-- What is left of a rollback once the layers are restored. -/
def check (w : Worker) (request : Request β) : EStateM PyError Runtime Unit := do
  let rt ← get
  if ← Effect.ofExcept (Runtime.verifyRollback w request.env.cycle rt.golden rt.store) then settle
  else Runtime.failRollback .rollbackChecksumMismatch request.routeId

/-- What is left of a rollback. -/
def rollbackFrom (w : Worker) (request : Request β) : Stage β → EStateM PyError Runtime Unit
  | .rollingBack _ => Runtime.performRollback w request.env.cycle request.routeId
  | .restoring _ => do
    match ← Effect.attempt (Runtime.rollback w request.env.cycle) with
    | .error _ => Runtime.failRollback .rollbackException request.routeId
    | .ok _ => check w request
  | .checking _ => check w request
  | .settling _ => settle
  | .failing fc _ => Runtime.failRollback fc request.routeId
  | _ => pure ()

/-- The rest of a call that has left the validation behind. -/
def cycleFrom (w : Worker) (request : Request β) (stage : Stage β) :
    EStateM PyError Runtime β := do
  let result ← Effect.attempt (tryFrom w request stage)
  Runtime.performRollback w request.env.cycle request.routeId
  conclude result

/-- The rest of a call. -/
def resume (w : Worker) (request : Request β) : Stage β → EStateM PyError Runtime β
  | .entering =>
    Runtime.infer w request.env request.routeId request.tenant request.inferenceFunc
  | .resolving => do
    let rt ← get
    let routeData ← Effect.ofExcept
      (rt.registry.getVerifiedRoute request.routeId w.runtimeModelHash request.tenant)
    let deltas ← Runtime.validateOrQuarantine w request.env request.routeId routeData
    cycleFrom w request (.verifying routeData deltas)
  | .validating routeData => do
    let deltas ← Runtime.validateOrQuarantine w request.env request.routeId routeData
    cycleFrom w request (.verifying routeData deltas)
  | .quarantining e => do
    Runtime.applyVerdict (evaluateFailure e.failureClass) request.routeId
    throw (.runtimeError (evaluateFailure e.failureClass).message)
  | .condemning e => do
    condemn (evaluateFailure e.failureClass)
    throw (.runtimeError (evaluateFailure e.failureClass).message)
  | .waiting routeData deltas => cycleFrom w request (.verifying routeData deltas)
  | .rollingBack result => do rollbackFrom w request (.rollingBack result); conclude result
  | .restoring result => do rollbackFrom w request (.restoring result); conclude result
  | .checking result => do rollbackFrom w request (.checking result); conclude result
  | .settling result => do rollbackFrom w request (.settling result); conclude result
  | .failing fc result => do rollbackFrom w request (.failing fc result); conclude result
  | .releasing result => conclude result
  | .guarding output => conclude (.ok output)
  | .finished result => Effect.ofExcept result
  | stage => cycleFrom w request stage

/-- A verdict is the status of the route and then the transition. -/
theorem applyVerdict_eq (verdict : FailureVerdict) (routeId : String) :
    Runtime.applyVerdict verdict routeId =
      (quarantineFor verdict routeId >>= fun _ => condemn verdict) := by
  unfold Runtime.applyVerdict quarantineFor condemn
  rcases hscope : verdict.quarantineScope with _ | scope
  · simp
  · by_cases hworker : verdict.targetPhase = .workerQuarantined
    · simp [hworker]
    · by_cases hroute : verdict.targetPhase = .routeQuarantined <;> simp [hworker, hroute]

/-- One operation, and the stage that follows it. -/
theorem resume_of_bind {α : Type} {stage : Stage β} {m : EStateM PyError Runtime α}
    {k : α → Stage β} {rt : Runtime}
    (hturn : turn w request stage = m >>= fun a => pure (k a))
    (hresume : resume w request stage = m >>= fun a => resume w request (k a))
    (hraise : ∀ e, resume w request (stage.onRaise e) = throw e) :
    resume w request (move w request stage rt).1 (move w request stage rt).2 =
      resume w request stage rt := by
  rw [hresume, move, hturn]
  show _ = EStateM.bind m _ rt
  simp only [bind, EStateM.bind]
  rcases m rt with ⟨a, rt'⟩ | ⟨e, rt'⟩
  · rfl
  · exact congrFun (hraise e) rt'

/-- One operation inside the `try`. -/
theorem resume_of_try {α : Type} {stage : Stage β} {m : EStateM PyError Runtime α}
    {k : α → Stage β} {rt : Runtime}
    (hturn : turn w request stage = m >>= fun a => pure (k a))
    (htry : tryFrom w request stage = m >>= fun a => tryFrom w request (k a))
    (hcycle : resume w request stage = cycleFrom w request stage)
    (hk : ∀ a, resume w request (k a) = cycleFrom w request (k a))
    (hraise : ∀ e, stage.onRaise e = .rollingBack (.error e)) :
    resume w request (move w request stage rt).1 (move w request stage rt).2 =
      resume w request stage rt := by
  rw [hcycle, cycleFrom, htry, move, hturn]
  simp only [bind, EStateM.bind, Effect.attempt]
  rcases m rt with ⟨a, rt'⟩ | ⟨e, rt'⟩
  · exact congrFun (hk a) rt'
  · show resume w request (stage.onRaise e) rt' = _
    rw [hraise]
    rfl

theorem resume_move_restoring (result : Except PyError β) (rt : Runtime) :
    resume w request (move w request (.restoring result) rt).1
        (move w request (.restoring result) rt).2 = resume w request (.restoring result) rt := by
  refine resume_of_bind (m := Effect.attempt (Runtime.rollback w request.env.cycle))
    (k := fun outcome => match outcome with
      | .error _ => .failing .rollbackException result
      | .ok _ => .checking result) ?_ ?_ fun _ => rfl
  · rw [turn]
    congr 1
    funext outcome
    cases outcome <;> rfl
  · simp only [resume, rollbackFrom, bind_assoc]
    congr 1
    funext outcome
    cases outcome <;> rfl

theorem resume_move_checking (result : Except PyError β) (rt : Runtime) :
    resume w request (move w request (.checking result) rt).1
        (move w request (.checking result) rt).2 = resume w request (.checking result) rt := by
  refine resume_of_bind (m := do
      let rt ← get
      Effect.ofExcept (Runtime.verifyRollback w request.env.cycle rt.golden rt.store))
    (k := fun verified => if verified then .settling result
      else .failing .rollbackChecksumMismatch result) ?_ ?_ fun _ => rfl
  · simp only [turn, bind_assoc]
    congr 1
    funext rt
    congr 1
    funext verified
    cases verified <;> rfl
  · simp only [resume, rollbackFrom, check, bind_assoc]
    congr 1
    funext rt
    congr 1
    funext verified
    cases verified <;> rfl

theorem resume_move_validating (routeData : Manifest) (rt : Runtime) :
    resume w request (move w request (.validating routeData) rt).1
        (move w request (.validating routeData) rt).2 =
      resume w request (.validating routeData) rt := by
  show _ = (Runtime.validateOrQuarantine w request.env request.routeId routeData >>= fun deltas =>
    cycleFrom w request (.verifying routeData deltas)) rt
  rw [move, turn, Runtime.validateOrQuarantine]
  rcases validatePayload request.env.files w.payloadBaseDir w.maxPayloadBytes routeData
    with e | deltas
  · show _ = ((Runtime.applyVerdict (evaluateFailure e.failureClass) request.routeId >>=
      fun _ => throw (.runtimeError (evaluateFailure e.failureClass).message)) >>= fun deltas =>
        cycleFrom w request (.verifying routeData deltas) : EStateM PyError Runtime β) rt
    rw [bind_assoc]
    rfl
  · rfl

theorem resume_move_guarding (output : β) (rt : Runtime) :
    resume w request (move w request (.guarding output) rt).1
        (move w request (.guarding output) rt).2 = resume w request (.guarding output) rt := by
  have hturn : turn w request (.guarding output) rt =
      (if rt.machine.isTerminal then throw (.runtimeError
        "CRITICAL: Rollback checksum mismatch. Worker QUARANTINED.")
      else pure (.finished (.ok output)) : EStateM PyError Runtime (Stage β)) rt := rfl
  show _ = (if rt.machine.isTerminal then throw _ else pure output :
    EStateM PyError Runtime β) rt
  rw [move, hturn]
  by_cases h : rt.machine.isTerminal = true
  · rw [if_pos h, if_pos h]
    rfl
  · rw [if_neg h, if_neg h]
    rfl

/-- The two ways a call ends are the two cases of `conclude`. -/
theorem cycleFrom_verifying (routeData : Manifest) (deltas : Dict String Tensor) :
    cycleFrom w request (.verifying routeData deltas) = (do
      match ← Effect.attempt (do
          Runtime.swapIn w request.env request.routeId routeData deltas
          Runtime.runForward request.inferenceFunc) with
      | .error e =>
        Runtime.performRollback w request.env.cycle request.routeId
        throw e
      | .ok output =>
        Runtime.performRollback w request.env.cycle request.routeId
        let rt ← get
        if rt.machine.isTerminal then
          throw (.runtimeError "CRITICAL: Rollback checksum mismatch. Worker QUARANTINED.")
        else pure output) := by
  rw [cycleFrom]
  congr 1
  funext result
  cases result <;> rfl

theorem resume_move_entering (rt : Runtime) :
    resume w request (move w request .entering rt).1 (move w request .entering rt).2 =
      resume w request .entering rt := by
  have hturn : turn w request (.entering : Stage β) rt =
      (if rt.machine.isTerminal then throw (.runtimeError
        "CRITICAL: Worker is QUARANTINED. Cannot accept requests. Restart required.")
      else pure .resolving : EStateM PyError Runtime (Stage β)) rt := rfl
  show _ = (Runtime.infer w request.env request.routeId request.tenant
    request.inferenceFunc) rt
  rw [move, hturn, Runtime.infer]
  show _ = (if rt.machine.isTerminal then throw _ else _ : EStateM PyError Runtime β) rt
  by_cases h : rt.machine.isTerminal = true
  · rw [if_pos h, if_pos h]
    rfl
  · rw [if_neg h, if_neg h]
    show resume w request .resolving rt = _
    simp only [resume, cycleFrom_verifying]
    rfl

/-- Each turn is the next part of the call. -/
theorem resume_move (stage : Stage β) (rt : Runtime) :
    resume w request (move w request stage rt).1 (move w request stage rt).2 =
      resume w request stage rt := by
  cases stage with
  | waiting | releasing | finished => rfl
  | verifying routeData deltas =>
    refine resume_of_try (m := Runtime.transition .verifying "" request.routeId)
      (k := fun _ => .capturing routeData deltas) rfl ?_ rfl (fun _ => rfl) fun _ => rfl
    simp only [tryFrom, Runtime.swapIn, bind_assoc]
  | capturing routeData deltas =>
    exact resume_of_try (k := fun _ => .captured routeData deltas) rfl rfl rfl (fun _ => rfl)
      fun _ => rfl
  | captured routeData deltas =>
    exact resume_of_try (k := fun _ => .swapping routeData deltas) rfl rfl rfl (fun _ => rfl)
      fun _ => rfl
  | swapping routeData deltas =>
    exact resume_of_try (k := fun _ => .applying routeData deltas) rfl rfl rfl (fun _ => rfl)
      fun _ => rfl
  | applying routeData deltas =>
    exact resume_of_try (k := fun _ => .swapped) rfl rfl rfl (fun _ => rfl) fun _ => rfl
  | swapped =>
    exact resume_of_try (k := fun _ => .forwarding) rfl rfl rfl (fun _ => rfl) fun _ => rfl
  | forwarding =>
    exact resume_of_try (k := fun _ => .inferring) rfl rfl rfl (fun _ => rfl) fun _ => rfl
  | inferring =>
    have hturn : turn w request (.inferring : Stage β) =
        tryFrom w request .inferring >>= fun output => pure (.rollingBack (.ok output)) := by
      simp only [turn, tryFrom, bind_assoc]
    show _ = cycleFrom w request .inferring rt
    rw [move, hturn, cycleFrom]
    simp only [bind, EStateM.bind, Effect.attempt]
    rcases tryFrom w request .inferring rt with ⟨output, rt'⟩ | ⟨e, rt'⟩ <;> rfl
  | rollingBack result =>
    refine resume_of_bind (m := Runtime.forceTransition .rollingBack)
      (k := fun _ => .restoring result) rfl ?_ fun _ => rfl
    show ((Runtime.forceTransition .rollingBack >>= fun _ =>
      rollbackFrom w request (.restoring result)) >>= fun _ => conclude result) = _
    rw [bind_assoc]
    rfl
  | restoring result => exact resume_move_restoring result rt
  | checking result => exact resume_move_checking result rt
  | settling result =>
    refine resume_of_bind (m := settle) (k := fun _ => .releasing result) ?_ rfl fun _ => rfl
    simp only [turn, settle, bind_assoc]
  | failing fc result =>
    exact resume_of_bind (k := fun _ => .releasing result) rfl rfl fun _ => rfl
  | resolving =>
    refine resume_of_bind (m := do
        let rt ← get
        Effect.ofExcept
          (rt.registry.getVerifiedRoute request.routeId w.runtimeModelHash request.tenant))
      (k := .validating) ?_ ?_ fun _ => rfl
    · simp only [turn, bind_assoc]
    · simp only [resume, bind_assoc]
  | quarantining e =>
    refine resume_of_bind
      (m := quarantineFor (evaluateFailure e.failureClass) request.routeId)
      (k := fun _ => .condemning e) rfl ?_ fun _ => rfl
    simp only [resume, applyVerdict_eq, bind_assoc]
  | condemning e =>
    show _ = (condemn (evaluateFailure e.failureClass) >>= fun _ => throw _) rt
    simp only [move, turn, bind, EStateM.bind]
    rcases condemn (evaluateFailure e.failureClass) rt with ⟨u, rt'⟩ | ⟨e', rt'⟩ <;> rfl
  | validating routeData => exact resume_move_validating routeData rt
  | guarding output => exact resume_move_guarding output rt
  | entering => exact resume_move_entering rt

/-- Each step of a thread is the next part of its call, also when it waits. -/
theorem resume_act (calls : ι → Request β) (i : ι) (stage : Stage β) (shared : Shared ι) :
    resume w (calls i) (act w calls i stage shared).1 (act w calls i stage shared).2.runtime =
      resume w (calls i) stage shared.runtime := by
  cases stage with
  | waiting routeData deltas =>
    rcases hlock : shared.lock with _ | j <;> simp only [act, hlock]
    rfl
  | releasing result => cases result <;> rfl
  | finished => rfl
  | _ => exact resume_move _ shared.runtime

variable [DecidableEq ι]

/-- **A thread that runs alone computes `infer`.** -/
theorem infer_of_alone (calls : ι → Request β) (t : ι) (rt : Runtime) (n : ℕ)
    (result : Except PyError β)
    (h : (Runs.run (Interleaving.step (act w calls)) (start rt) (List.replicate n t)).stage t =
      .finished result) :
    Runtime.serve w (calls t) rt = Effect.ofExcept result
      (Runs.run (Interleaving.step (act w calls)) (start rt)
        (List.replicate n t)).shared.runtime := by
  have hrun : ∀ (n : ℕ) (c : Config ι β),
      resume w (calls t) ((Runs.run (Interleaving.step (act w calls)) c
        (List.replicate n t)).stage t) (Runs.run (Interleaving.step (act w calls)) c
        (List.replicate n t)).shared.runtime =
      resume w (calls t) (c.stage t) c.shared.runtime := by
    intro n
    induction n with
    | zero => exact fun _ => rfl
    | succ n ih =>
      intro c
      rw [List.replicate_succ, Runs.run_cons, ih, Interleaving.stage_step_self,
        Interleaving.shared_step]
      exact resume_act calls t (c.stage t) c.shared
  have hresume := hrun n (start rt)
  rw [h] at hresume
  exact hresume.symm

end Alone

end ConcurrentInfer
