/-
The mock of the vLLM internals: scheduler, block allocator and model runner.

The scheduler takes a batch of the route of its first request from the pending
ones.  The runner checks that a batch has one route, swaps the weights, checks
that every request may read its KV blocks, gives each a new one, and puts the
weights back, also when something raises on the way.

* A request object is known by its number.  What never changes of it is in
  `MockRequest`, its status and its blocks are in the state.
* Blocks are handed out from the front of the free ones and never come back, so
  a pass may run out of them part-way through its batch.
-/
import NeuralScalpel.Dict
import NeuralScalpel.Effect
import NeuralScalpel.Runs
import Mathlib.Data.List.Range
import Mathlib.Logic.Function.Basic

namespace MockPipeline

/-! ### Requests and blocks -/

/-- A request object, equal to another exactly if it is the same object. -/
structure MockRequest where
  object : ℕ
  requestId : String
  prompt : String
  routeId : Option String
  deriving DecidableEq

/-- The fields of a request object that change. -/
structure Progress where
  status : String
  kvBlocks : List ℕ
  deriving DecidableEq

structure RouteTaggedKVBlock where
  blockId : ℕ
  routeId : Option String
  refCount : ℕ
  deriving DecidableEq

/-- `RouteAwareBlockAllocator`. -/
structure BlockAllocator where
  blocks : Dict ℕ RouteTaggedKVBlock
  freeBlocks : List ℕ

def BlockAllocator.init (numBlocks : ℕ) : BlockAllocator where
  blocks :=
    { entries := (List.range numBlocks).map fun i => (i, ⟨i, none, 0⟩)
      nodup := by
        rw [List.map_map]
        exact List.nodup_range.map fun _ _ h => h }
  freeBlocks := List.range numBlocks

structure Metrics where
  routeLeakageEvents : ℕ
  rollbackFailures : ℕ
  swapsPerformed : ℕ
  deriving DecidableEq

/-- The three components and the request objects made so far. -/
structure State where
  maxBatchSize : ℕ
  pendingRequests : List MockRequest
  allocator : BlockAllocator
  metrics : Metrics
  activeWeightsRoute : Option String
  isQuarantined : Bool
  created : List MockRequest
  progress : ℕ → Progress

def State.init (maxBatchSize numBlocks : ℕ) : State where
  maxBatchSize := maxBatchSize
  pendingRequests := []
  allocator := .init numBlocks
  metrics := ⟨0, 0, 0⟩
  activeWeightsRoute := none
  isQuarantined := false
  created := []
  progress := fun _ => ⟨"PENDING", []⟩

inductive PipelineError
  | outOfBlocks
  | keyError (blockId : ℕ)
  | routeLeakage (requestRouteId : Option String) (blockId : ℕ) (blockRouteId : Option String)
  | unsafeMixedRouteBatch (expected found : Option String)
  | quarantined
  deriving DecidableEq

/-- How Python prints an optional route. -/
def showRoute : Option String → String
  | some routeId => routeId
  | none => "None"

def PipelineError.message : PipelineError → String
  | .outOfBlocks => "Out of KV Cache blocks"
  | .keyError blockId => toString blockId
  | .routeLeakage requestRouteId blockId blockRouteId =>
    "KV Cache Leakage! Request route '" ++ showRoute requestRouteId ++
      "' attempted to access block " ++ toString blockId ++ " tagged with route '" ++
      showRoute blockRouteId ++ "'"
  | .unsafeMixedRouteBatch expected found =>
    "Mixed route batch detected! Expected " ++ showRoute expected ++ ", found " ++ showRoute found
  | .quarantined => "Model is in QUARANTINE due to previous failure."

abbrev Pipeline := EStateM PipelineError State

/-! ### The allocator -/

def allocate (routeId : Option String) : Pipeline ℕ := do
  let s ← get
  match s.allocator.freeBlocks with
  | [] => throw .outOfBlocks
  | blockId :: freeBlocks =>
    modify fun s => { s with allocator := { s.allocator with freeBlocks := freeBlocks } }
    match s.allocator.blocks.get? blockId with
    | none => throw (.keyError blockId)
    | some block =>
      let block := { block with
        routeId := routeId
        refCount := 1 }
      modify fun s => { s with
        allocator := { s.allocator with blocks := s.allocator.blocks.set blockId block } }
      pure blockId

def verifyAccess (blockId : ℕ) (requestRouteId : Option String) : Pipeline Unit := do
  let s ← get
  match s.allocator.blocks.get? blockId with
  | none => throw (.keyError blockId)
  | some block =>
    if block.routeId ≠ requestRouteId then
      throw (.routeLeakage requestRouteId blockId block.routeId)

/-! ### The scheduler -/

def addRequest (s : State) (request : MockRequest) : State :=
  { s with pendingRequests := s.pendingRequests ++ [request] }

/-- Group the requests by route. -/
def routeGroups (requests : List MockRequest) : Dict (Option String) (List MockRequest) :=
  requests.foldl
    (fun groups req => groups.set req.routeId ((groups.get? req.routeId).getD [] ++ [req])) .empty

def scheduleNextBatch (s : State) : List MockRequest × State :=
  match s.pendingRequests with
  | [] => ([], s)
  | first :: _ =>
    let group := ((routeGroups s.pendingRequests).get? first.routeId).getD []
    let batch := group.take s.maxBatchSize
    (batch, { s with pendingRequests := batch.foldl List.erase s.pendingRequests })

/-! ### The runner -/

def swapWeights (routeId : Option String) : Pipeline Unit :=
  modify fun s =>
    if s.activeWeightsRoute = routeId then s
    else { s with
      activeWeightsRoute := routeId
      metrics := { s.metrics with swapsPerformed := s.metrics.swapsPerformed + 1 } }

def rollbackWeights : Pipeline Unit := modify fun s => { s with activeWeightsRoute := none }

/-- The homogeneity check of a batch whose first request has the target route. -/
def checkHomogeneous (targetRoute : Option String) (batch : List MockRequest) :
    Except PipelineError Unit :=
  match batch.find? fun req => req.routeId ≠ targetRoute with
  | some req => .error (.unsafeMixedRouteBatch targetRoute req.routeId)
  | none => .ok ()

/-- A leak is counted before it is raised again. -/
def verifyCounted (blockId : ℕ) (requestRouteId : Option String) : Pipeline Unit := do
  match ← Effect.attempt (verifyAccess blockId requestRouteId) with
  | .ok _ => pure ()
  | .error (.routeLeakage r b r') =>
    modify fun s => { s with
      metrics := { s.metrics with routeLeakageEvents := s.metrics.routeLeakageEvents + 1 } }
    throw (.routeLeakage r b r')
  | .error e => throw e

/-- The forward pass of one request: its blocks are checked, it gets a new one. -/
def forwardRequest (req : MockRequest) : Pipeline Unit := do
  let s ← get
  Effect.forEach (fun _ blockId => verifyCounted blockId req.routeId) 0
    (s.progress req.object).kvBlocks
  let newBlock ← allocate req.routeId
  modify fun s => { s with
    progress := Function.update s.progress req.object
      ⟨"COMPLETED", (s.progress req.object).kvBlocks ++ [newBlock]⟩ }

/-- The rollback after a failure; if it raises itself, the runner is quarantined. -/
def rollbackOrQuarantine : Pipeline Unit := do
  match ← Effect.attempt rollbackWeights with
  | .ok _ => pure ()
  | .error _ =>
    modify fun s => { s with
      metrics := { s.metrics with rollbackFailures := s.metrics.rollbackFailures + 1 }
      isQuarantined := true }

def executeForwardPass (batch : List MockRequest) : Pipeline Unit := do
  let s ← get
  if s.isQuarantined then throw .quarantined
  else
    match batch with
    | [] => pure ()
    | first :: rest => do
      Effect.ofExcept (checkHomogeneous first.routeId (first :: rest))
      swapWeights first.routeId
      match ← Effect.attempt (Effect.forEach (fun _ => forwardRequest) 0 (first :: rest)) with
      | .error e => do
        rollbackOrQuarantine
        throw e
      | .ok _ => rollbackWeights

/-! ### Runs -/

/-- A new request or one that exists is added, or a pass is executed on the next
batch. -/
inductive Operation
  | addNew (requestId prompt : String) (routeId : Option String)
  | addAgain (object : ℕ)
  | forward

/-- The pipeline, with the requests added, the batches scheduled and the
exceptions raised so far. -/
structure History where
  state : State
  added : List MockRequest
  batches : List (List MockRequest)
  raised : List PipelineError

namespace History

def start (maxBatchSize numBlocks : ℕ) : History := ⟨.init maxBatchSize numBlocks, [], [], []⟩

def perform (h : History) : Operation → History
  | .addNew requestId prompt routeId =>
    let request : MockRequest := ⟨h.state.created.length, requestId, prompt, routeId⟩
    let state := { h.state with created := h.state.created ++ [request] }
    { h with
      state := addRequest state request
      added := h.added ++ [request] }
  | .addAgain object =>
    match h.state.created[object]? with
    | none => h
    | some request => { h with
        state := addRequest h.state request
        added := h.added ++ [request] }
  | .forward =>
    let (batch, state) := scheduleNextBatch h.state
    match executeForwardPass batch state with
    | .ok _ state => { h with
        state := state
        batches := h.batches ++ [batch] }
    | .error e state => { h with
        state := state
        batches := h.batches ++ [batch]
        raised := h.raised ++ [e] }

end History

end MockPipeline
