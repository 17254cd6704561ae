/-
The proxy in front of an external vLLM server.

An endpoint call queues its request with a new future under its route, spawns a
task for a batch of that route, and waits for the future.  A batch task takes
the lock and up to `maxBatchSize` requests, swaps the route if it has to,
forwards the requests, resolves their futures and gives the lock back.

* The tasks interleave at their `await`s.  `step s e` is what a task does from
  one `await` to the next, `none` when it cannot go on.
* Every call has a number, and so have its request, its future and its task.
* Any task that waits for the lock may be the next to get it.
* What the server answers is a parameter, and it may answer in any order.
-/
import NeuralScalpel.Dict
import NeuralScalpel.Runs
import Mathlib.Data.Int.Notation

namespace VllmProxy

/-! ### Requests and completions -/

structure InferRequest where
  routeId : String
  prompt : String
  maxTokens : ℤ
  deriving DecidableEq

/-- A queued request, with its number and its tenant. -/
structure Call where
  id : ℕ
  request : InferRequest
  tenantId : String
  deriving DecidableEq

def Call.route (c : Call) : String := c.request.routeId

/-- What the server sends: an object, or some other value and what Python
raises when a field of it is assigned. -/
inductive Json (J : Type)
  | object (fields : J)
  | other (value : J) (typeError : String)
  deriving DecidableEq

/-- What a future is resolved with. -/
inductive Completion (J : Type)
  | mock (text : String) (totalTokens : ℤ)
  | reply (json : Json J)
  | error (message : String)
  deriving DecidableEq

/-- `MOCK_BACKEND`, and the answer of the server to each request it is sent. -/
structure Backend (J : Type) where
  mock : Bool
  post : (id : ℕ) → (prompt : String) → (maxTokens : ℤ) → Except String (Json J)

variable {J : Type}

def forwardToBackend (backend : Backend J) (c : Call) (routeId : String) :
    Except String (Completion J) :=
  if backend.mock then
    .ok (.mock (" [Mock Completion for " ++ routeId ++ "]") c.request.maxTokens)
  else
    tryCatch ((backend.post c.id c.request.prompt c.request.maxTokens).map .reply)
      fun e => .ok (.error e)

/-- What the endpoint returns, or the status 500 it raises.  The result gets the
tenant as one of its `proxy_metrics`. -/
inductive Response (J : Type)
  | ok (result : Completion J) (tenantId : String)
  | internalError (detail : String)
  deriving DecidableEq

/-- The endpoint once its future is resolved. -/
def respond (tenantId : String) : Except String (Completion J) → Response J
  | .ok (.reply (.other _ typeError)) => .internalError typeError
  | .ok result => .ok result tenantId
  | .error e => .internalError e

/-! ### Tasks -/

structure RouteQueue where
  requests : List Call
  futures : List ℕ
  deriving DecidableEq

/-- `reqs_to_process` and `futs_to_resolve`. -/
structure Batch where
  requests : List Call
  futures : List ℕ
  deriving DecidableEq

/-- Where a batch task stands: before the lock, in the sleep of the swap, or
waiting for the backend, with the answers that have come in. -/
inductive Stage (J : Type)
  | waiting
  | swapping (batch : Batch)
  | forwarding (batch : Batch) (answers : List (Option (Except String (Completion J))))
  | finished
  deriving DecidableEq

/-- The batch of a task that is past the lock. -/
def Stage.batch? : Stage J → Option Batch
  | .swapping batch => some batch
  | .forwarding batch _ => some batch
  | _ => none

structure Task (J : Type) where
  routeId : String
  stage : Stage J
  deriving DecidableEq

structure AuditEntry where
  routeId : String
  tenantId : String
  event : String
  deriving DecidableEq

/-- The state of the proxy.  `calls` and `forwarded` are history: the calls that
were queued, and the requests that were forwarded. -/
structure State (J : Type) where
  queues : Dict String RouteQueue
  currentActiveRoute : Option String
  lock : Option ℕ
  tasks : List (Task J)
  resolutions : List (ℕ × Except String (Completion J))
  responses : List (ℕ × Response J)
  auditLog : List AuditEntry
  activeRouteGauge : Dict String ℕ
  routeSwaps : ℕ
  calls : List Call
  forwarded : List Call

def State.init : State J where
  queues := .empty
  currentActiveRoute := none
  lock := none
  tasks := []
  resolutions := []
  responses := []
  auditLog := []
  activeRouteGauge := .empty
  routeSwaps := 0
  calls := []
  forwarded := []

/-- `MAX_BATCH_SIZE`. -/
def maxBatchSize : ℕ := 32

namespace State

def setStage (s : State J) (t : ℕ) (routeId : String) (stage : Stage J) : State J :=
  { s with tasks := s.tasks.set t ⟨routeId, stage⟩ }

/-- `infer_endpoint` up to its `await`, past the rate limiter. -/
def enqueue (s : State J) (request : InferRequest) (tenantId : String) : State J :=
  let c : Call := ⟨s.calls.length, request, tenantId⟩
  let queue := (s.queues.get? request.routeId).getD ⟨[], []⟩
  { s with
    queues := s.queues.set request.routeId ⟨queue.requests ++ [c], queue.futures ++ [c.id]⟩
    tasks := s.tasks ++ [⟨request.routeId, .waiting⟩]
    calls := s.calls ++ [c] }

/-- One audit entry for each request of the batch, then all are forwarded. -/
def forward (s : State J) (t : ℕ) (routeId : String) (batch : Batch) : State J :=
  { s with
    auditLog := s.auditLog ++
      batch.requests.map fun c => ⟨routeId, c.tenantId, "proxy_forward"⟩
    forwarded := s.forwarded ++ batch.requests
    tasks := s.tasks.set t
      ⟨routeId, .forwarding batch (batch.requests.map fun _ => none)⟩ }

/-- `_process_route_batch` from the lock to the next `await`, or to its end. -/
def drain (s : State J) (t : ℕ) (routeId : String) : State J :=
  match s.queues.get? routeId with
  | none => s.setStage t routeId .finished
  | some queue =>
    if queue.requests.isEmpty then s.setStage t routeId .finished
    else
      let batch : Batch := ⟨queue.requests.take maxBatchSize, queue.futures.take maxBatchSize⟩
      let s := { s with
        lock := some t
        queues := s.queues.set routeId
          ⟨queue.requests.drop maxBatchSize, queue.futures.drop maxBatchSize⟩ }
      if s.currentActiveRoute = some routeId then s.forward t routeId batch
      else { s.setStage t routeId (.swapping batch) with
        currentActiveRoute := some routeId
        activeRouteGauge := s.activeRouteGauge.set routeId 1
        routeSwaps := s.routeSwaps + 1 }

/-- The backend answers the forwarded request `i` of a batch. -/
def answer (s : State J) (backend : Backend J) (t : ℕ) (routeId : String) (batch : Batch)
    (answers : List (Option (Except String (Completion J)))) (i : ℕ) : Option (State J) :=
  match batch.requests[i]?, answers[i]? with
  | some c, some none =>
    some (s.setStage t routeId
      (.forwarding batch (answers.set i (some (forwardToBackend backend c routeId)))))
  | _, _ => none

/-- The exception of an answer that is one. -/
def raised? : Option (Except String (Completion J)) → Option String
  | some (.error e) => some e
  | _ => none

/-- The result of an answer that is one. -/
def returned? : Option (Except String (Completion J)) → Option (Completion J)
  | some (.ok result) => some result
  | _ => none

/-- `asyncio.gather`: the first exception as soon as there is one, the results
in the order of the requests once all are there. -/
def gather (answers : List (Option (Except String (Completion J)))) :
    Option (Except String (List (Completion J))) :=
  match answers.findSome? raised? with
  | some e => some (.error e)
  | none => (answers.mapM returned?).map Except.ok

/-- Each future with its result, or all of them with the exception. -/
def settlements (futures : List ℕ) : Except String (List (Completion J)) →
    List (ℕ × Except String (Completion J))
  | .ok results => futures.zip (results.map Except.ok)
  | .error e => futures.map fun fut => (fut, Except.error e)

/-- Resolve a future that is not done. -/
def resolve (resolutions : List (ℕ × Except String (Completion J)))
    (r : ℕ × Except String (Completion J)) : List (ℕ × Except String (Completion J)) :=
  if r.1 ∈ resolutions.map Prod.fst then resolutions else resolutions ++ [r]

/-- The futures are resolved, and the lock is released. -/
def settle (s : State J) (t : ℕ) (routeId : String) (batch : Batch)
    (outcome : Except String (List (Completion J))) : State J :=
  { s with
    resolutions := (settlements batch.futures outcome).foldl resolve s.resolutions
    lock := none
    tasks := s.tasks.set t ⟨routeId, .finished⟩ }

end State

/-! ### Steps -/

/-- A call of the endpoint with the answer of the rate limiter, a step of a
batch task, an answer of the backend, or the end of an endpoint call. -/
inductive Event
  | infer (request : InferRequest) (tenantId : String) (granted : Bool)
  | drain (t : ℕ)
  | swapped (t : ℕ)
  | answer (t i : ℕ)
  | gathered (t : ℕ)
  | respond (n : ℕ)

def Event.isInfer : Event → Bool
  | .infer .. => true
  | _ => false

open State in
def step (backend : Backend J) (s : State J) : Event → Option (State J)
  | .infer request tenantId granted =>
    -- status 429 when the limiter refuses: nothing is queued
    some (if granted then s.enqueue request tenantId else s)
  | .drain t =>
    match s.lock, s.tasks[t]? with
    | none, some ⟨routeId, .waiting⟩ => some (s.drain t routeId)
    | _, _ => none
  | .swapped t =>
    match s.tasks[t]? with
    | some ⟨routeId, .swapping batch⟩ => some (s.forward t routeId batch)
    | _ => none
  | .answer t i =>
    match s.tasks[t]? with
    | some ⟨routeId, .forwarding batch answers⟩ => s.answer backend t routeId batch answers i
    | _ => none
  | .gathered t =>
    match s.tasks[t]? with
    | some ⟨routeId, .forwarding batch answers⟩ =>
      (gather answers).map (s.settle t routeId batch)
    | _ => none
  | .respond n =>
    match s.calls[n]?, s.resolutions.lookup n with
    | some c, some outcome =>
      if n ∈ s.responses.map Prod.fst then none
      else some { s with responses := s.responses ++ [(n, respond c.tenantId outcome)] }
    | _, _ => none

/-- An event for which no task is ready changes nothing. -/
def next (backend : Backend J) (s : State J) (e : Event) : State J := (step backend s e).getD s

/-- No task is runnable and no answer of the backend is outstanding. -/
def Quiescent (backend : Backend J) (s : State J) : Prop :=
  ∀ e : Event, e.isInfer = false → step backend s e = none

end VllmProxy
