/-
The failure policy.

Every failure mode of a hot swap has a verdict: what to do, what to
quarantine, which phase to go to, and the status and message of the answer.
`evaluateFailure` looks the verdict up; `evaluateFailure_failureClass` says
that each verdict is about the failure it was looked up for.
-/
import NeuralScalpel.RuntimeState

/-- The catalogue of failure modes during a hot swap. -/
inductive FailureClass
  | payloadFileNotFound
  | payloadSha256Mismatch
  | payloadHeaderCorrupted
  | payloadTensorKeyMissing
  | payloadShapeMismatch
  | payloadDtypeMismatch
  | payloadNanInfDetected
  | payloadTooLarge
  | payloadIoError
  | swapTargetLayerNotFound
  | swapLockAcquisitionFailed
  | swapVramInsufficient
  | swapDeltaApplicationError
  | swapStateStuck
  | rollbackChecksumMismatch
  | rollbackException
  | rollbackPartialRestore
  | inferenceException
  | stateTransitionInvalid
  deriving DecidableEq, Repr

inductive RemediationAction
  | rejectRequest
  | quarantineRoute
  | quarantineWorker
  | abortAndRollback
  deriving DecidableEq, Repr

/-- The outcome of evaluating a failure against the policy. -/
structure FailureVerdict where
  failureClass : FailureClass
  action : RemediationAction
  quarantineScope : Option QuarantineScope
  targetPhase : RuntimePhase
  httpStatus : ℕ
  message : String
  isCritical : Bool
  deriving DecidableEq, Repr

/-- The policy table, one verdict for each failure class. -/
def evaluateFailure (fc : FailureClass) : FailureVerdict :=
  match fc with
  | .payloadFileNotFound =>
    ⟨fc, .rejectRequest, some .route, .routeQuarantined, 503,
      "Payload file not found. Route quarantined.", false⟩
  | .payloadSha256Mismatch =>
    ⟨fc, .quarantineRoute, some .route, .routeQuarantined, 503,
      "Payload SHA-256 integrity check failed. Route quarantined.", true⟩
  | .payloadHeaderCorrupted =>
    ⟨fc, .quarantineRoute, some .route, .routeQuarantined, 503,
      "Safetensors header corrupted. Route quarantined.", false⟩
  | .payloadTensorKeyMissing =>
    ⟨fc, .rejectRequest, some .route, .routeQuarantined, 503,
      "Required tensor key missing from payload. Route quarantined.", false⟩
  | .payloadShapeMismatch =>
    ⟨fc, .rejectRequest, some .route, .routeQuarantined, 503,
      "Tensor shape mismatch in payload. Route quarantined.", false⟩
  | .payloadDtypeMismatch =>
    ⟨fc, .rejectRequest, some .route, .routeQuarantined, 503,
      "Tensor dtype mismatch in payload. Route quarantined.", false⟩
  | .payloadNanInfDetected =>
    ⟨fc, .quarantineRoute, some .route, .routeQuarantined, 503,
      "NaN/Inf detected in payload tensors. Route quarantined.", true⟩
  | .payloadTooLarge =>
    ⟨fc, .rejectRequest, none, .ready, 413,
      "Payload exceeds maximum allowed size.", false⟩
  | .payloadIoError =>
    ⟨fc, .rejectRequest, some .route, .routeQuarantined, 503,
      "I/O error reading payload. Route quarantined.", false⟩
  | .swapTargetLayerNotFound =>
    ⟨fc, .quarantineRoute, some .route, .routeQuarantined, 503,
      "Target layer not found. Route quarantined.", false⟩
  | .swapLockAcquisitionFailed =>
    ⟨fc, .rejectRequest, none, .ready, 503,
      "Failed to acquire swap lock. Retry later.", false⟩
  | .swapVramInsufficient =>
    ⟨fc, .abortAndRollback, some .route, .routeQuarantined, 503,
      "Insufficient VRAM for swap. Route quarantined.", false⟩
  | .swapDeltaApplicationError =>
    ⟨fc, .abortAndRollback, some .route, .rollingBack, 503,
      "Error applying delta during swap. Rolling back.", false⟩
  | .swapStateStuck =>
    ⟨fc, .quarantineWorker, some .worker, .workerQuarantined, 503,
      "Runtime state stuck. Worker quarantined.", true⟩
  | .rollbackChecksumMismatch =>
    ⟨fc, .quarantineWorker, some .worker, .workerQuarantined, 503,
      "CRITICAL: Rollback checksum mismatch. Worker quarantined.", true⟩
  | .rollbackException =>
    ⟨fc, .quarantineWorker, some .worker, .workerQuarantined, 503,
      "CRITICAL: Exception during rollback. Worker quarantined.", true⟩
  | .rollbackPartialRestore =>
    ⟨fc, .quarantineWorker, some .worker, .workerQuarantined, 503,
      "CRITICAL: Partial rollback. Worker quarantined.", true⟩
  | .inferenceException =>
    ⟨fc, .abortAndRollback, none, .rollingBack, 500,
      "Inference failed. Rolling back.", false⟩
  | .stateTransitionInvalid =>
    ⟨fc, .quarantineWorker, some .worker, .workerQuarantined, 503,
      "CRITICAL: Invalid state transition. Worker quarantined.", true⟩

@[simp] theorem evaluateFailure_failureClass (fc : FailureClass) :
    (evaluateFailure fc).failureClass = fc := by
  cases fc <;> rfl

/-- A verdict that goes to the worker quarantine says so in its scope. -/
theorem scope_of_workerQuarantined {fc : FailureClass}
    (h : (evaluateFailure fc).targetPhase = .workerQuarantined) :
    (evaluateFailure fc).quarantineScope = some .worker := by
  cases fc <;> simp_all [evaluateFailure]

/-! ### Exceptions -/

/-- Raised when payload validation fails; carries the class for the policy. -/
structure PayloadValidationError where
  failureClass : FailureClass
  detail : String
  deriving DecidableEq, Repr

/-- The exceptions the hot-swap runtime raises or lets through. -/
inductive PyError
  | invalidStateTransition (e : InvalidStateTransition)
  | payloadValidationError (e : PayloadValidationError)
  | valueError (message : String)
  | permissionError (message : String)
  | runtimeError (message : String)
  | keyError (message : String)
  | fileNotFoundError (message : String)
  | attributeError (message : String)
  | external (message : String)
  deriving DecidableEq, Repr
