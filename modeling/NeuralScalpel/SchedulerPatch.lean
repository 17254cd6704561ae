/-
The route-aware patch of the vLLM scheduler.

Before the original `schedule` runs, the patch chooses the route of the next
batch and shelves the queued requests of every other route.  Afterwards, also
when the original raises, it puts them back at the front, and checks that what
was scheduled has one route.

* The queues are first-come first-served: `pop_request` takes from the front,
  `add_request` appends, `prepend_request` puts in front.  A queue the
  scheduler does not have is one that stays empty.
* `original_schedule` is not part of the patch.  It is a function of what it
  sees, and leaves queues, running requests, finished requests, and an output
  or an exception.

`shelveQueue_eq`, `restoreQueue_eq` and `patchedSchedule_cases` say what the
patch does without its loops.
-/
import NeuralScalpel.Payload
import NeuralScalpel.Runs
import Mathlib.Data.List.Dedup

namespace SchedulerPatch

/-! ### Routes of requests -/

/-- The attributes of a vLLM request the patch reads: an attribute that is not
there is `none`, and so is the content of one that holds `None`. -/
structure Attributes where
  routeId : Option String
  requestId : Option (Option String)
  reqId : Option (Option String)
  deriving DecidableEq

/-- A request, or an object with a request in it. -/
inductive Entry
  | request (attributes : Attributes)
  | holder (request : Attributes)
  deriving DecidableEq

/-- `getattr(obj, "request", obj)`. -/
def unwrapRequest : Entry → Attributes
  | .request attributes => attributes
  | .holder request => request

/-- The route under which the id of a request was recorded. -/
def getRouteForRequestId (requestRoutes : Dict String String) (requestId : String) : String :=
  (requestRoutes.get? requestId).getD "__base__"

/-- The route of a request: its attribute, or the route recorded for its id. -/
def getRequestRouteId (requestRoutes : Dict String String) (reqOrState : Entry) : String :=
  let req := unwrapRequest reqOrState
  let recorded := match req.requestId.getD (req.reqId.getD none) with
    | some requestId => getRouteForRequestId requestRoutes requestId
    | none => "__base__"
  match req.routeId with
  | some routeId => if routeId = "" then recorded else routeId
  | none => recorded

/-! ### Shelving -/

section Shelving

variable {ρ : Type} (route : ρ → String)

/-- Pop all requests, those of the target route into one list and the others
into another. -/
def popAll (targetRoute : String) : List ρ → List ρ → List ρ → List ρ × List ρ
  | [], matching, nonMatching => (matching, nonMatching)
  | req :: queue, matching, nonMatching =>
    if route req = targetRoute then popAll targetRoute queue (matching ++ [req]) nonMatching
    else popAll targetRoute queue matching (nonMatching ++ [req])

/-- The queue with the matching requests added again, and the others. -/
def shelveQueue (queue : List ρ) (targetRoute : String) : List ρ × List ρ :=
  let (matching, nonMatching) := popAll route targetRoute queue [] []
  (matching.foldl (fun queue req => queue ++ [req]) [], nonMatching)

/-- Prepend the shelved requests, the last one first. -/
def restoreQueue (queue shelved : List ρ) : List ρ :=
  shelved.reverse.foldl (fun queue req => req :: queue) queue

theorem popAll_eq (targetRoute : String) : ∀ queue matching nonMatching : List ρ,
    popAll route targetRoute queue matching nonMatching =
      (matching ++ queue.filter (route · = targetRoute),
        nonMatching ++ queue.filter (route · ≠ targetRoute)) := by
  intro queue
  induction queue with
  | nil => simp [popAll]
  | cons req queue ih =>
    intro matching nonMatching
    rw [popAll]
    by_cases h : route req = targetRoute
    · rw [if_pos h, ih]
      simp [h]
    · rw [if_neg h, ih]
      simp [h]

theorem foldl_add (queue added : List ρ) :
    added.foldl (fun queue req => queue ++ [req]) queue = queue ++ added := by
  induction added generalizing queue with
  | nil => exact (List.append_nil queue).symm
  | cons req added ih => rw [List.foldl_cons, ih, List.append_assoc, List.singleton_append]

/-- Shelving keeps the requests of the target route and takes the others out,
both in their order. -/
theorem shelveQueue_eq (queue : List ρ) (targetRoute : String) :
    shelveQueue route queue targetRoute =
      (queue.filter (route · = targetRoute), queue.filter (route · ≠ targetRoute)) := by
  simp only [shelveQueue, popAll_eq, foldl_add, List.nil_append]

/-- The shelved requests come back to the front in their order. -/
theorem restoreQueue_eq (queue shelved : List ρ) :
    restoreQueue queue shelved = shelved ++ queue := by
  induction shelved generalizing queue with
  | nil => rfl
  | cons req shelved ih =>
    unfold restoreQueue at ih ⊢
    rw [List.reverse_cons, List.foldl_append, ih]
    rfl

end Shelving

/-! ### The scheduler -/

/-- What the scheduler hands to the model runner. -/
structure Output (ρ : Type) where
  scheduledNewReqs : List ρ
  scheduledResumedReqs : List ρ
  scheduledRunningReqs : List ρ
  activeRouteId : Option String

/-- `_iter_scheduled_reqs(output)`. -/
def Output.scheduled {ρ : Type} (output : Output ρ) : List ρ :=
  output.scheduledNewReqs ++ output.scheduledResumedReqs ++ output.scheduledRunningReqs

structure Scheduler (ρ : Type) where
  waiting : List ρ
  skippedWaiting : List ρ
  running : List ρ
  activeRouteId : Option String

/-- The counters and the active route of the plugin that the patch writes. -/
structure Metrics where
  activeRouteId : String
  mixedBatchViolationCount : ℕ

structure Engine (ρ : Type) where
  scheduler : Scheduler ρ
  metrics : Metrics

/-- What `original_schedule` leaves behind, and what it returns or raises. -/
structure Scheduling (ρ : Type) where
  waiting : List ρ
  skippedWaiting : List ρ
  running : List ρ
  finished : List ρ
  result : Except String (Option (Output ρ))

/-- An exception of `original_schedule`, or the check of the patch. -/
inductive PatchError
  | original (message : String)
  | mixedRoutes (routes : List String)

def PatchError.message : PatchError → String
  | .original message => message
  | .mixedRoutes routes =>
    "CRITICAL: Unsafe mixed-route batch detected despite shelving! routes=" ++
      pyList (routes.mergeSort fun a b => a ≤ b)

section Schedule

variable {ρ : Type} (route : ρ → String)

/-- The route of the first running request, or of the first waiting one. -/
def firstRoute (s : Scheduler ρ) : Option String :=
  match s.running, s.waiting with
  | req :: _, _ => some (route req)
  | [], req :: _ => some (route req)
  | [], [] => none

/-- `target_route or "__base__"`. -/
def orBase : Option String → String
  | some target => if target = "" then "__base__" else target
  | none => "__base__"

/-- The route of the next batch. -/
def targetRoute (s : Scheduler ρ) : String := orBase (firstRoute route s)

/-- What `original_schedule` sees. -/
def visible (s : Scheduler ρ) : Scheduler ρ :=
  { s with
    waiting := (shelveQueue route s.waiting (targetRoute route s)).1
    skippedWaiting := (shelveQueue route s.skippedWaiting (targetRoute route s)).1 }

/-- The scheduler with what was left of the visible requests, and the shelved
ones put back. -/
def restored (s : Scheduler ρ) (left : Scheduling ρ) : Scheduler ρ :=
  { s with
    waiting := restoreQueue left.waiting (shelveQueue route s.waiting (targetRoute route s)).2
    skippedWaiting := restoreQueue left.skippedWaiting
      (shelveQueue route s.skippedWaiting (targetRoute route s)).2
    running := left.running }

/-- `self.active_route_id`, the metrics and the output get the active route. -/
def activated (e : Engine ρ) (activeRoute : String) : Engine ρ :=
  ⟨{ e.scheduler with activeRouteId := some activeRoute },
    { e.metrics with
      activeRouteId := orBase (some activeRoute) }⟩

def patchedSchedule (originalSchedule : Scheduler ρ → Scheduling ρ) (e : Engine ρ) :
    Except PatchError (Option (Output ρ)) × Engine ρ :=
  let left := originalSchedule (visible route e.scheduler)
  -- the `finally`: the shelved requests come back whatever happened
  let e' := { e with scheduler := restored route e.scheduler left }
  match left.result with
  | .error message => (.error (.original message), e')
  | .ok none => (.ok none, e')
  | .ok (some output) =>
    let uniqueRoutes := (output.scheduled.map route).dedup
    if 1 < uniqueRoutes.length then
      (.error (.mixedRoutes uniqueRoutes), { e' with
        metrics := { e'.metrics with
          mixedBatchViolationCount := e'.metrics.mixedBatchViolationCount + 1 } })
    else
      let activeRoute := uniqueRoutes.headD (targetRoute route e.scheduler)
      (.ok (some { output with activeRouteId := some activeRoute }), activated e' activeRoute)

variable {route}

theorem visible_waiting (s : Scheduler ρ) :
    (visible route s).waiting = s.waiting.filter (route · = targetRoute route s) := by
  rw [visible, shelveQueue_eq]

theorem visible_skippedWaiting (s : Scheduler ρ) :
    (visible route s).skippedWaiting =
      s.skippedWaiting.filter (route · = targetRoute route s) := by
  simp only [visible, shelveQueue_eq]

theorem restored_waiting (s : Scheduler ρ) (left : Scheduling ρ) :
    (restored route s left).waiting =
      s.waiting.filter (route · ≠ targetRoute route s) ++ left.waiting := by
  rw [restored, restoreQueue_eq, shelveQueue_eq]

theorem restored_skippedWaiting (s : Scheduler ρ) (left : Scheduling ρ) :
    (restored route s left).skippedWaiting =
      s.skippedWaiting.filter (route · ≠ targetRoute route s) ++ left.skippedWaiting := by
  simp only [restored, restoreQueue_eq, shelveQueue_eq]

theorem orBase_of_ne {target : String} (h : target ≠ "") : orBase (some target) = target := if_neg h

/-- No batch is ever for the empty route. -/
theorem targetRoute_ne_empty (s : Scheduler ρ) : targetRoute route s ≠ "" := by
  unfold targetRoute
  rcases firstRoute route s with _ | target
  · decide
  · by_cases h : target = ""
    · rw [orBase, if_pos h]
      decide
    · rw [orBase_of_ne h]
      exact h

/-- While requests run, the next batch is for the route of the first. -/
theorem targetRoute_of_running {s : Scheduler ρ} {req : ρ} {rest : List ρ}
    (h : s.running = req :: rest) (hne : route req ≠ "") : targetRoute route s = route req := by
  rw [targetRoute, firstRoute, h]
  exact orBase_of_ne hne

variable (route) in
/-- Whatever `original_schedule` does, the queues and the running requests are
what it left with the shelved requests put back. -/
theorem scheduler_patchedSchedule (originalSchedule : Scheduler ρ → Scheduling ρ)
    (e : Engine ρ) :
    let s' := (patchedSchedule route originalSchedule e).2.scheduler
    let r := restored route e.scheduler (originalSchedule (visible route e.scheduler))
    s'.waiting = r.waiting ∧ s'.skippedWaiting = r.skippedWaiting ∧ s'.running = r.running := by
  intro s' r
  simp only [s', r, patchedSchedule]
  split
  · exact ⟨rfl, rfl, rfl⟩
  · exact ⟨rfl, rfl, rfl⟩
  · split <;> exact ⟨rfl, rfl, rfl⟩

end Schedule

end SchedulerPatch
