/-
What the proxy keeps true after every step.

A batch task may take more requests than one, and most tasks find nothing left
to take.  No request is forgotten because a route never has more requests
waiting than tasks that are still to come.

* `settlements_of_gather` — no forward call raises, so every future of a batch
  gets the answer to its own request;
* `Sound` — what holds whichever task has just moved;
* `sound_enqueue`, `sound_take`, `sound_forward`, `sound_answer`,
  `sound_settle`, `sound_respond` — each move keeps it;
* `sound_step`, `sound_run` — so every run does.
-/
import NeuralScalpel.KeyedFifo
import NeuralScalpel.VllmProxy
import Mathlib.Data.List.Forall2
import Mathlib.Data.List.Perm.Basic

namespace VllmProxy

variable {J : Type} {backend : Backend J} {s s' : State J}

/-! ### What a forwarded request is worth -/

/-- The call with what the backend makes of it. -/
def Call.own (backend : Backend J) (c : Call) : ℕ × Except String (Completion J) :=
  (c.id, forwardToBackend backend c c.route)

def Call.auditEntry (c : Call) : AuditEntry := ⟨c.route, c.tenantId, "proxy_forward"⟩

/-- An exception of the backend is a result of the forward call. -/
theorem forwardToBackend_ok (backend : Backend J) (c : Call) (routeId : String) :
    ∃ result, forwardToBackend backend c routeId = .ok result := by
  unfold forwardToBackend
  by_cases h : backend.mock = true
  · rw [if_pos h]
    exact ⟨_, rfl⟩
  · rw [if_neg h]
    cases backend.post c.id c.request.prompt c.request.maxTokens with
    | ok json => exact ⟨_, rfl⟩
    | error e => exact ⟨_, rfl⟩

/-- No answer yet, or that of the request. -/
def Answered (backend : Backend J) (routeId : String) (c : Call)
    (answer : Option (Except String (Completion J))) : Prop :=
  ∀ outcome, answer = some outcome → outcome = forwardToBackend backend c routeId

theorem raised?_of_answered {c : Call} {routeId : String}
    {answer : Option (Except String (Completion J))} (h : Answered backend routeId c answer) :
    State.raised? answer = none := by
  rcases answer with _ | outcome
  · rfl
  · obtain ⟨result, hresult⟩ := forwardToBackend_ok backend c routeId
    rw [h outcome rfl, hresult]
    rfl

/-- No forward call raises. -/
theorem findSome?_raised? {routeId : String} {requests : List Call}
    {answers : List (Option (Except String (Completion J)))}
    (h : List.Forall₂ (Answered backend routeId) requests answers) :
    answers.findSome? State.raised? = none := by
  induction h with
  | nil => rfl
  | cons hanswer _ ih => rw [List.findSome?_cons, raised?_of_answered hanswer, ih]

theorem eq_of_mapM_returned? {routeId : String} {requests : List Call}
    {answers : List (Option (Except String (Completion J)))} {results : List (Completion J)}
    (h : List.Forall₂ (Answered backend routeId) requests answers)
    (hresults : answers.mapM State.returned? = some results) :
    results.map Except.ok = requests.map fun c => forwardToBackend backend c routeId := by
  induction h generalizing results with
  | nil =>
    rw [List.mapM_nil] at hresults
    obtain rfl := Option.some.inj hresults
    rfl
  | @cons c answer requests answers hanswer _ ih =>
    rw [List.mapM_cons] at hresults
    obtain ⟨result, hresult, hresults⟩ := Option.bind_eq_some_iff.mp hresults
    obtain ⟨rest, hrest, hresults⟩ := Option.bind_eq_some_iff.mp hresults
    obtain rfl := Option.some.inj hresults
    rw [List.map_cons, List.map_cons, ih hrest]
    congr 1
    rcases answer with _ | _ | result'
    · exact absurd hresult (by simp [State.returned?])
    · exact absurd hresult (by simp [State.returned?])
    · obtain rfl := Option.some.inj hresult
      exact hanswer _ rfl

/-- So `gather` waits for all of them, and each future gets its own result. -/
theorem settlements_of_gather {routeId : String} {requests : List Call}
    {answers : List (Option (Except String (Completion J)))}
    {outcome : Except String (List (Completion J))}
    (h : List.Forall₂ (Answered backend routeId) requests answers)
    (hgather : State.gather answers = some outcome) :
    State.settlements (requests.map Call.id) outcome =
      requests.map fun c => (c.id, forwardToBackend backend c routeId) := by
  unfold State.gather at hgather
  rw [findSome?_raised? h] at hgather
  obtain ⟨results, hresults, rfl⟩ := Option.map_eq_some_iff.mp hgather
  rw [State.settlements, eq_of_mapM_returned? h hresults, List.zip_map']

/-- Once there is an answer to every request. -/
theorem exists_gather {routeId : String} {requests : List Call}
    {answers : List (Option (Except String (Completion J)))}
    (h : List.Forall₂ (Answered backend routeId) requests answers)
    (hall : ∀ i : ℕ, answers[i]? ≠ some none) : ∃ outcome, State.gather answers = some outcome := by
  unfold State.gather
  rw [findSome?_raised? h]
  have hresults : ∃ results, answers.mapM State.returned? = some results := by
    induction h with
    | nil => exact ⟨[], rfl⟩
    | @cons c answer requests answers hanswer _ ih =>
      obtain ⟨results, hresults⟩ := ih fun i => hall (i + 1)
      rcases answer with _ | outcome
      · exact absurd rfl (hall 0)
      · obtain ⟨result, hresult⟩ := forwardToBackend_ok backend c routeId
        rw [hanswer outcome rfl, hresult]
        exact ⟨result :: results, by simp [List.mapM_cons, State.returned?, hresults]⟩
  obtain ⟨results, hresults⟩ := hresults
  exact ⟨_, by rw [hresults]; rfl⟩

theorem forall₂_set {α β : Type} {R : α → β → Prop} {l : List α} {l' : List β}
    (h : List.Forall₂ R l l') {i : ℕ} {a : α} {b : β} (ha : l[i]? = some a) (hb : R a b) :
    List.Forall₂ R l (l'.set i b) := by
  induction h generalizing i with
  | nil => exact List.Forall₂.nil
  | cons hR hrest ih =>
    cases i with
    | zero =>
      obtain rfl := Option.some.inj ha
      exact List.Forall₂.cons hb hrest
    | succ i => exact List.Forall₂.cons hR (ih ha)

/-- Futures that are not done are all resolved. -/
theorem foldl_resolve {settled resolutions : List (ℕ × Except String (Completion J))}
    (h : (resolutions ++ settled).map Prod.fst |>.Nodup) :
    settled.foldl State.resolve resolutions = resolutions ++ settled := by
  induction settled generalizing resolutions with
  | nil => rw [List.foldl_nil, List.append_nil]
  | cons r settled ih =>
    have hnew : r.1 ∉ resolutions.map Prod.fst := by
      intro hmem
      rw [List.map_append, List.map_cons] at h
      exact (List.nodup_append.mp h).2.2 r.1 hmem r.1 List.mem_cons_self rfl
    rw [List.foldl_cons, State.resolve, if_neg hnew, ih, List.append_assoc, List.singleton_append]
    rw [List.append_assoc, List.singleton_append]
    exact h

/-! ### What every step keeps -/

/-- A batch of requests of the route, each with its future. -/
structure Batch.Sound (routeId : String) (batch : Batch) : Prop where
  paired : batch.futures = batch.requests.map Call.id
  routed : ∀ c ∈ batch.requests, c.route = routeId

def Stage.Sound (backend : Backend J) (routeId : String) : Stage J → Prop
  | .swapping batch => batch.Sound routeId
  | .forwarding batch answers =>
    batch.Sound routeId ∧ List.Forall₂ (Answered backend routeId) batch.requests answers
  | _ => True

/-- A batch task of the route that has not drained yet. -/
def Task.undrained (routeId : String) (task : Task J) : Bool :=
  match task.stage with
  | .waiting => task.routeId = routeId
  | _ => false

/-- A batch task between taking the lock and giving it back. -/
def Task.holding (task : Task J) : Bool := task.stage.batch?.isSome

namespace State

/-- The requests waiting for a route. -/
def pending (s : State J) (routeId : String) : List Call :=
  ((s.queues.get? routeId).map RouteQueue.requests).getD []

/-- How many batch tasks of a route are still to drain. -/
def undrained (s : State J) (routeId : String) : ℕ := s.tasks.countP (Task.undrained routeId)

/-- The stage of the task with the lock. -/
def holder (s : State J) : Stage J :=
  ((s.lock.bind fun t => s.tasks[t]?).map Task.stage).getD .waiting

/-- The requests taken from their queue but not forwarded yet. -/
def swapping (s : State J) : List Call :=
  match s.holder with
  | .swapping batch => batch.requests
  | _ => []

/-- The requests forwarded whose futures are not resolved yet. -/
def inFlight (s : State J) : List Call :=
  match s.holder with
  | .forwarding batch _ => batch.requests
  | _ => []

end State

structure Sound (backend : Backend J) (s : State J) : Prop where
  numbered : KeyedFifo.Numbered Call.id s.calls
  stages : ∀ task ∈ s.tasks, task.stage.Sound backend task.routeId
  locked : ∀ t, s.lock = some t ↔ ∃ task, s.tasks[t]? = some task ∧ task.holding = true
  paired : ∀ routeId queue, s.queues.get? routeId = some queue →
    queue.futures = queue.requests.map Call.id
  accounts : KeyedFifo.Accounts Call.route s.calls (s.forwarded ++ s.swapping) s.pending
  covered : ∀ routeId, (s.pending routeId).length ≤ s.undrained routeId
  resolved : s.forwarded.map (Call.own backend) =
    s.resolutions ++ s.inFlight.map (Call.own backend)
  audited : s.auditLog = s.forwarded.map Call.auditEntry
  responded : (s.responses.map Prod.fst).Nodup
  responses : ∀ r ∈ s.responses, ∃ c ∈ s.calls, r = (c.id, respond c.tenantId (c.own backend).2)

theorem sound_init : Sound backend (State.init : State J) where
  numbered := KeyedFifo.Numbered.nil
  stages _ h := absurd h List.not_mem_nil
  locked _ := by simp [State.init]
  paired _ _ h := absurd h (by simp [State.init])
  accounts := KeyedFifo.Accounts.start
  covered _ := Nat.zero_le _
  resolved := rfl
  audited := rfl
  responded := List.nodup_nil
  responses _ h := absurd h List.not_mem_nil

/-! ### Facts about a sound state -/

/-- What was taken is a part of what was called. -/
theorem Sound.subperm (h : Sound backend s) : (s.forwarded ++ s.swapping).Subperm s.calls := by
  classical
  refine List.subperm_ext_iff.mpr fun c _ => ?_
  have hcount := congrArg (List.count c) (h.accounts c.route)
  rw [List.count_append, KeyedFifo.count_ofKey, KeyedFifo.count_ofKey] at hcount
  omega

theorem Sound.nodup_taken (h : Sound backend s) :
    ((s.forwarded ++ s.swapping).map Call.id).Nodup := by
  obtain ⟨l, hperm, hsub⟩ := h.subperm
  have hnodup : (l.map Call.id).Nodup := h.numbered.nodup.sublist (hsub.map Call.id)
  exact (hperm.map Call.id).nodup_iff.mp hnodup

theorem Sound.mem_calls_of_forwarded (h : Sound backend s) {c : Call} (hc : c ∈ s.forwarded) :
    c ∈ s.calls := h.subperm.subset (List.mem_append_left _ hc)

/-- Waiting requests wait for their own route. -/
theorem Sound.route_of_pending (h : Sound backend s) {routeId : String} {c : Call}
    (hc : c ∈ s.pending routeId) : c.route = routeId := by
  have hmem : c ∈ KeyedFifo.ofKey Call.route routeId s.calls := by
    rw [← h.accounts routeId]
    exact List.mem_append_right _ hc
  exact (KeyedFifo.mem_ofKey.mp hmem).2

theorem Sound.lock_lt (h : Sound backend s) {t : ℕ} (ht : s.lock = some t) :
    t < s.tasks.length := by
  obtain ⟨task, htask, _⟩ := (h.locked t).mp ht
  exact (List.getElem?_eq_some_iff.mp htask).1

theorem holder_of_lock {t : ℕ} {task : Task J} (hlock : s.lock = some t)
    (htask : s.tasks[t]? = some task) : s.holder = task.stage := by
  simp only [State.holder, hlock, Option.bind_some, htask, Option.map_some, Option.getD_some]

theorem holder_of_unlocked (hlock : s.lock = none) : s.holder = .waiting := by
  simp only [State.holder, hlock, Option.bind_none, Option.map_none, Option.getD_none]

/-! ### When a task moves on -/

section Set

variable {tasks : List (Task J)} {t : ℕ} {old new : Task J}

theorem countP_undrained_set (new : Task J) (hold : tasks[t]? = some old) (routeId : String) :
    (tasks.set t new).countP (Task.undrained routeId) + (if old.undrained routeId then 1 else 0) =
      tasks.countP (Task.undrained routeId) + (if new.undrained routeId then 1 else 0) := by
  obtain ⟨hlt, hget⟩ := List.getElem?_eq_some_iff.mp hold
  rw [List.countP_set hlt, hget]
  by_cases h : old.undrained routeId = true
  · have hpos : 0 < tasks.countP (Task.undrained routeId) :=
      List.countP_pos_iff.mpr ⟨old, List.mem_of_getElem? hold, h⟩
    simp only [h, if_true]
    omega
  · simp only [h, Bool.false_eq_true, if_false]
    omega

theorem locked_set {lock lock' : Option ℕ}
    (h : ∀ t', lock = some t' ↔ ∃ task, tasks[t']? = some task ∧ task.holding = true)
    (hold : tasks[t]? = some old) (hnew : lock' = some t ↔ new.holding = true)
    (hother : ∀ t', t' ≠ t → (lock' = some t' ↔ lock = some t')) (t' : ℕ) :
    lock' = some t' ↔ ∃ task, (tasks.set t new)[t']? = some task ∧ task.holding = true := by
  have hlt : t < tasks.length := (List.getElem?_eq_some_iff.mp hold).1
  by_cases ht : t' = t
  · subst ht
    rw [List.getElem?_set_self hlt, hnew]
    constructor
    · exact fun hholding => ⟨new, rfl, hholding⟩
    · rintro ⟨task, htask, hholding⟩
      rwa [Option.some.inj htask]
  · rw [List.getElem?_set_ne (Ne.symm ht), hother t' ht, h t']

theorem stages_set (h : ∀ task ∈ tasks, task.stage.Sound backend task.routeId)
    (hnew : new.stage.Sound backend new.routeId) :
    ∀ task ∈ tasks.set t new, task.stage.Sound backend task.routeId := by
  intro task hmem
  rcases List.mem_or_eq_of_mem_set hmem with hmem | rfl
  · exact h task hmem
  · exact hnew

end Set

/-! ### One step -/

section Enqueue

variable (s) (request : InferRequest) (tenantId : String)

theorem queues_enqueue (routeId : String) :
    (s.enqueue request tenantId).queues.get? routeId =
      if routeId = request.routeId then
        some ⟨s.pending request.routeId ++ [⟨s.calls.length, request, tenantId⟩],
          ((s.queues.get? request.routeId).map RouteQueue.futures).getD [] ++ [s.calls.length]⟩
      else s.queues.get? routeId := by
  simp only [State.enqueue, Dict.get?_set, State.pending]
  cases s.queues.get? request.routeId <;> rfl

/-- A call queues its request behind the others of the route. -/
theorem pending_enqueue (routeId : String) :
    (s.enqueue request tenantId).pending routeId = s.pending routeId ++
      if routeId = request.routeId then [⟨s.calls.length, request, tenantId⟩] else [] := by
  rw [State.pending, queues_enqueue]
  by_cases hroute : routeId = request.routeId
  · rw [if_pos hroute, if_pos hroute, hroute]
    rfl
  · rw [if_neg hroute, if_neg hroute, List.append_nil]
    rfl

/-- And adds a task for it. -/
theorem undrained_enqueue (routeId : String) :
    (s.enqueue request tenantId).undrained routeId =
      s.undrained routeId + if routeId = request.routeId then 1 else 0 := by
  show (s.tasks ++ [(⟨request.routeId, .waiting⟩ : Task J)]).countP _ = _
  rw [List.countP_append, List.countP_singleton]
  simp only [Task.undrained, decide_eq_true_eq, eq_comm (a := request.routeId)]
  rfl

variable {s} in
/-- The new task has not got the lock. -/
theorem locked_enqueue (h : Sound backend s) (t : ℕ) : (s.enqueue request tenantId).lock = some t ↔
    ∃ task, (s.enqueue request tenantId).tasks[t]? = some task ∧ task.holding = true := by
  show s.lock = some t ↔ ∃ task, (s.tasks ++ [⟨request.routeId, .waiting⟩])[t]? = some task ∧ _
  rcases Nat.lt_or_ge t s.tasks.length with hlt | hge
  · rw [List.getElem?_append_left hlt]
    exact h.locked t
  · constructor
    · exact fun ht => absurd (h.lock_lt ht) (Nat.not_lt.mpr hge)
    · rintro ⟨task, htask, hholding⟩
      rw [List.getElem?_append_right hge] at htask
      obtain rfl := List.mem_singleton.mp (List.mem_of_getElem? htask)
      exact absurd hholding (by simp [Task.holding, Stage.batch?])

variable {s} in
theorem holder_enqueue (h : Sound backend s) :
    (s.enqueue request tenantId).holder = s.holder := by
  rcases hlock : s.lock with _ | t
  · rw [holder_of_unlocked hlock]
    exact holder_of_unlocked hlock
  · obtain ⟨task, htask, _⟩ := (h.locked t).mp hlock
    rw [holder_of_lock hlock htask]
    refine holder_of_lock hlock ?_
    show (s.tasks ++ _)[t]? = some task
    rw [List.getElem?_append_left (h.lock_lt hlock), htask]

variable {s} in
theorem sound_enqueue (h : Sound backend s) : Sound backend (s.enqueue request tenantId) := by
  have hholder := holder_enqueue request tenantId h
  refine ⟨h.numbered.concat rfl, ?_, locked_enqueue request tenantId h, ?_, ?_, ?_, ?_, h.audited,
    h.responded, ?_⟩
  · intro task hmem
    rcases List.mem_append.mp hmem with hmem | hmem
    · exact h.stages task hmem
    · rw [List.mem_singleton.mp hmem]
      trivial
  · intro routeId queue hget
    rw [queues_enqueue] at hget
    by_cases hroute : routeId = request.routeId
    · rw [if_pos hroute] at hget
      obtain rfl := Option.some.inj hget
      rw [List.map_append, State.pending]
      rcases hq : s.queues.get? request.routeId with _ | queue
      · rfl
      · simp only [Option.map_some, Option.getD_some, h.paired _ _ hq]
        rfl
    · rw [if_neg hroute] at hget
      exact h.paired routeId queue hget
  · rw [State.swapping, hholder]
    refine h.accounts.submit ?_ fun routeId hne => ?_
    · refine (pending_enqueue s request tenantId request.routeId).trans ?_
      rw [if_pos rfl]
      rfl
    · have hne : routeId ≠ request.routeId := hne
      rw [pending_enqueue, if_neg hne, List.append_nil]
  · intro routeId
    have hcovered := h.covered routeId
    rw [pending_enqueue, undrained_enqueue, List.length_append]
    by_cases hroute : routeId = request.routeId
    · rw [if_pos hroute, if_pos hroute, List.length_singleton]
      omega
    · rw [if_neg hroute, if_neg hroute, List.length_nil]
      omega
  · rw [State.inFlight, hholder]
    exact h.resolved
  · intro r hr
    obtain ⟨c, hc, hr⟩ := h.responses r hr
    exact ⟨c, List.mem_append_left _ hc, hr⟩

end Enqueue

section Drain

variable {t : ℕ} {routeId : String} {queue : RouteQueue}

/-- The front of a queue. -/
def RouteQueue.front (queue : RouteQueue) : Batch :=
  ⟨queue.requests.take maxBatchSize, queue.futures.take maxBatchSize⟩

/-- The state in which task `t` has the lock and the front of a queue. -/
def State.take (s : State J) (t : ℕ) (routeId : String) (queue : RouteQueue) : State J :=
  { s with
    lock := some t
    queues := s.queues.set routeId
      ⟨queue.requests.drop maxBatchSize, queue.futures.drop maxBatchSize⟩
    tasks := s.tasks.set t ⟨routeId, .swapping queue.front⟩ }

/-- A batch task finds nothing, or takes the front of the queue and forwards it
at once or after a swap. -/
theorem drain_cases (s : State J) (t : ℕ) (routeId : String) :
    s.pending routeId = [] ∧ s.drain t routeId = s.setStage t routeId .finished ∨
      ∃ queue, s.queues.get? routeId = some queue ∧ queue.requests ≠ [] ∧
        (s.currentActiveRoute = some routeId ∧
            s.drain t routeId = (s.take t routeId queue).forward t routeId queue.front ∨
          s.drain t routeId = { s.take t routeId queue with
            currentActiveRoute := some routeId
            activeRouteGauge := s.activeRouteGauge.set routeId 1
            routeSwaps := s.routeSwaps + 1 }) := by
  unfold State.drain State.pending
  rcases hget : s.queues.get? routeId with _ | queue
  · exact Or.inl ⟨rfl, rfl⟩
  · by_cases hempty : queue.requests = []
    · left
      simp only [hempty, List.isEmpty_nil, if_true]
      exact ⟨hempty, trivial⟩
    · right
      refine ⟨queue, rfl, hempty, ?_⟩
      have hisEmpty : queue.requests.isEmpty = false := by simpa using hempty
      simp only [hisEmpty, Bool.false_eq_true, if_false]
      by_cases hroute : s.currentActiveRoute = some routeId
      · left
        rw [if_pos hroute]
        refine ⟨hroute, ?_⟩
        simp only [State.forward, State.take, List.set_set]
        rfl
      · right
        rw [if_neg hroute]
        rfl

/-- There was nothing to take. -/
theorem sound_finish (h : Sound backend s) (hlock : s.lock = none)
    (ht : s.tasks[t]? = some ⟨routeId, .waiting⟩) (hpending : s.pending routeId = []) :
    Sound backend (s.setStage t routeId .finished) := by
  have hholder : (s.setStage t routeId .finished).holder = s.holder := by
    rw [holder_of_unlocked hlock]
    exact holder_of_unlocked hlock
  refine ⟨h.numbered, stages_set h.stages trivial, locked_set h.locked ht ?_ fun _ _ => Iff.rfl,
    h.paired, ?_, ?_, ?_, h.audited, h.responded, h.responses⟩
  · exact iff_of_false (by rw [State.setStage, hlock]; simp)
      (by simp [Task.holding, Stage.batch?])
  · rw [State.swapping, hholder]
    exact h.accounts
  · intro routeId'
    by_cases hroute : routeId' = routeId
    · show (s.pending routeId').length ≤ _
      rw [hroute, hpending]
      exact Nat.zero_le _
    · have hcount := countP_undrained_set ⟨routeId, .finished⟩ ht routeId'
      have hcovered := h.covered routeId'
      simp only [Task.undrained, Ne.symm hroute, decide_false, Bool.false_eq_true,
        if_false] at hcount
      rw [State.undrained] at hcovered
      show (s.pending routeId').length ≤ (s.tasks.set t _).countP _
      omega
  · rw [State.inFlight, hholder]
    exact h.resolved

theorem queues_take (s : State J) (t : ℕ) (routeId : String) (queue : RouteQueue)
    (routeId' : String) : (s.take t routeId queue).queues.get? routeId' =
      if routeId' = routeId then
        some ⟨queue.requests.drop maxBatchSize, queue.futures.drop maxBatchSize⟩
      else s.queues.get? routeId' := by
  simp only [State.take, Dict.get?_set]

theorem pending_take (s : State J) (t : ℕ) (routeId : String) (queue : RouteQueue)
    (routeId' : String) : (s.take t routeId queue).pending routeId' =
      if routeId' = routeId then queue.requests.drop maxBatchSize else s.pending routeId' := by
  rw [State.pending, queues_take]
  split_ifs <;> rfl

/-- A task that takes requests takes at least one, so there are still enough
tasks for those that are left. -/
theorem covered_take (h : Sound backend s) (ht : s.tasks[t]? = some ⟨routeId, .waiting⟩)
    (hself : s.pending routeId = queue.requests) (hne : queue.requests ≠ [])
    (routeId' : String) : ((s.take t routeId queue).pending routeId').length ≤
      (s.take t routeId queue).undrained routeId' := by
  have hcount := countP_undrained_set ⟨routeId, .swapping queue.front⟩ ht routeId'
  have hcovered := h.covered routeId'
  simp only [Task.undrained, Bool.false_eq_true, if_false, decide_eq_true_eq] at hcount
  rw [State.undrained] at hcovered
  show ((s.take t routeId queue).pending routeId').length ≤ (s.tasks.set t _).countP _
  rw [pending_take]
  by_cases hroute : routeId' = routeId
  · subst hroute
    have hpos := List.length_pos_of_ne_nil hne
    rw [hself] at hcovered
    rw [if_pos rfl] at hcount
    rw [if_pos rfl, List.length_drop, maxBatchSize]
    omega
  · rw [if_neg (Ne.symm hroute)] at hcount
    rw [if_neg hroute]
    omega

/-- A task takes the first requests of its queue. -/
theorem sound_take (h : Sound backend s) (hlock : s.lock = none)
    (ht : s.tasks[t]? = some ⟨routeId, .waiting⟩) (hget : s.queues.get? routeId = some queue)
    (hne : queue.requests ≠ []) : Sound backend (s.take t routeId queue) := by
  have hself : s.pending routeId = queue.requests := by
    rw [State.pending, hget]
    rfl
  have hrouted : ∀ c ∈ queue.front.requests, c.route = routeId := fun c hc =>
    h.route_of_pending (by rw [hself]; exact List.mem_of_mem_take hc)
  have hpaired := h.paired routeId queue hget
  have htask : (s.take t routeId queue).tasks[t]? = some ⟨routeId, .swapping queue.front⟩ :=
    List.getElem?_set_self (List.getElem?_eq_some_iff.mp ht).1
  have hholder : (s.take t routeId queue).holder = .swapping queue.front :=
    holder_of_lock rfl htask
  have hswapping : (s.take t routeId queue).swapping = queue.front.requests := by
    rw [State.swapping, hholder]
  have hinFlight : (s.take t routeId queue).inFlight = [] := by
    rw [State.inFlight, hholder]
  -- nothing was taken before, as no task had the lock
  have hnone : s.swapping = [] ∧ s.inFlight = [] := by
    rw [State.swapping, State.inFlight, holder_of_unlocked hlock]
    exact ⟨rfl, rfl⟩
  refine ⟨h.numbered, stages_set h.stages ⟨?_, hrouted⟩, locked_set h.locked ht ?_ ?_, ?_, ?_,
    covered_take h ht hself hne, ?_, h.audited, h.responded, h.responses⟩
  · show queue.futures.take maxBatchSize = (queue.requests.take maxBatchSize).map Call.id
    rw [hpaired, List.map_take]
  · exact iff_of_true rfl rfl
  · intro t' hne'
    rw [hlock]
    exact iff_of_false (fun heq => hne' (Option.some.inj heq).symm) (by simp)
  · intro routeId' queue' hget'
    rw [queues_take] at hget'
    by_cases hroute : routeId' = routeId
    · rw [if_pos hroute] at hget'
      obtain rfl := Option.some.inj hget'
      show queue.futures.drop maxBatchSize = (queue.requests.drop maxBatchSize).map Call.id
      rw [hpaired, List.map_drop]
    · rw [if_neg hroute] at hget'
      exact h.paired routeId' queue' hget'
  · have haccounts := h.accounts
    rw [hnone.1, List.append_nil] at haccounts
    rw [hswapping]
    refine haccounts.take hrouted ?_ fun routeId' hroute => ?_
    · rw [hself, pending_take, if_pos rfl]
      exact (List.take_append_drop ..).symm
    · rw [pending_take, if_neg hroute]
  · have hresolved := h.resolved
    rw [hnone.2] at hresolved
    rw [hinFlight]
    exact hresolved

end Drain

section Hold

variable {t : ℕ} {routeId : String} {batch : Batch}
  {answers : List (Option (Except String (Completion J)))}

theorem undrained_of_holding {task : Task J} (h : task.holding = true) (routeId : String) :
    task.undrained routeId = false := by
  obtain ⟨_, stage⟩ := task
  cases stage with
  | waiting => exact absurd h (by simp [Task.holding, Stage.batch?])
  | swapping batch | forwarding batch answers | finished => rfl

/-- A task that holds on to the lock leaves what concerns the others. -/
theorem hold_set (h : Sound backend s) {old : Task J} (new : Task J) (hold : s.tasks[t]? = some old)
    (hholding : old.holding = true) (hnew : new.holding = true) :
    s.lock = some t ∧
      (∀ t', s.lock = some t' ↔
        ∃ task, (s.tasks.set t new)[t']? = some task ∧ task.holding = true) ∧
      ∀ routeId, (s.pending routeId).length ≤
        (s.tasks.set t new).countP (Task.undrained routeId) := by
  have hlock : s.lock = some t := (h.locked t).mpr ⟨old, hold, hholding⟩
  refine ⟨hlock, locked_set h.locked hold (iff_of_true hlock hnew) fun _ _ => Iff.rfl,
    fun routeId => ?_⟩
  have hcount := countP_undrained_set new hold routeId
  rw [undrained_of_holding hholding, undrained_of_holding hnew] at hcount
  have hcovered := h.covered routeId
  rw [State.undrained] at hcovered
  omega

theorem holder_set {s' : State J} (new : Task J) (hlt : t < s.tasks.length)
    (hlock : s'.lock = some t) (htasks : s'.tasks = s.tasks.set t new) : s'.holder = new.stage := by
  refine holder_of_lock hlock ?_
  rw [htasks, List.getElem?_set_self hlt]

theorem sound_forward (h : Sound backend s) (ht : s.tasks[t]? = some ⟨routeId, .swapping batch⟩) :
    Sound backend (s.forward t routeId batch) := by
  obtain ⟨hlock, hlocked, hcovered⟩ := hold_set h
    ⟨routeId, .forwarding batch (batch.requests.map fun _ => none)⟩ ht rfl rfl
  have hbatch : batch.Sound routeId := h.stages _ (List.mem_of_getElem? ht)
  have hholder := holder_of_lock hlock ht
  have hholder' : (s.forward t routeId batch).holder =
      .forwarding batch (batch.requests.map fun _ => none) :=
    holder_set ⟨routeId, _⟩ (h.lock_lt hlock) hlock rfl
  have hown : batch.requests.map (fun c => AuditEntry.mk routeId c.tenantId "proxy_forward") =
      batch.requests.map Call.auditEntry :=
    List.map_congr_left fun c hc => by rw [Call.auditEntry, hbatch.routed c hc]
  refine ⟨h.numbered, stages_set h.stages ⟨hbatch, ?_⟩, hlocked, h.paired, ?_, hcovered, ?_, ?_,
    h.responded, h.responses⟩
  · rw [List.forall₂_map_right_iff]
    exact List.forall₂_same.mpr fun c _ outcome heq => absurd heq (by simp)
  · have haccounts := h.accounts
    rw [State.swapping, hholder] at haccounts
    rw [State.swapping, hholder']
    show KeyedFifo.Accounts Call.route s.calls (s.forwarded ++ batch.requests ++ []) s.pending
    rw [List.append_nil]
    exact haccounts
  · have hresolved := h.resolved
    rw [State.inFlight, hholder] at hresolved
    rw [State.inFlight, hholder']
    show (s.forwarded ++ batch.requests).map _ = s.resolutions ++ batch.requests.map _
    rw [List.map_append, hresolved]
    exact congrArg (· ++ _) (List.append_nil _)
  · show s.auditLog ++ _ = (s.forwarded ++ batch.requests).map Call.auditEntry
    rw [List.map_append, ← h.audited, hown]

theorem answer_eq_some {i : ℕ} (h : s.answer backend t routeId batch answers i = some s') :
    ∃ c, batch.requests[i]? = some c ∧ answers[i]? = some none ∧ s' = s.setStage t routeId
      (.forwarding batch (answers.set i (some (forwardToBackend backend c routeId)))) := by
  unfold State.answer at h
  rcases hc : batch.requests[i]? with _ | c
  · simp [hc] at h
  · rcases ha : answers[i]? with _ | _ | outcome
    · simp [hc, ha] at h
    · simp only [hc, ha] at h
      exact ⟨c, rfl, rfl, (Option.some.inj h).symm⟩
    · simp [hc, ha] at h

theorem sound_answer {i : ℕ} (h : Sound backend s)
    (ht : s.tasks[t]? = some ⟨routeId, .forwarding batch answers⟩)
    (hanswer : s.answer backend t routeId batch answers i = some s') : Sound backend s' := by
  obtain ⟨c, hc, -, rfl⟩ := answer_eq_some hanswer
  set answers' := answers.set i (some (forwardToBackend backend c routeId))
  obtain ⟨hlock, hlocked, hcovered⟩ := hold_set h
    ⟨routeId, .forwarding batch answers'⟩ ht rfl rfl
  obtain ⟨hbatch, hanswers⟩ := h.stages _ (List.mem_of_getElem? ht)
  have hholder := holder_of_lock hlock ht
  have hholder' : (s.setStage t routeId (.forwarding batch answers')).holder =
      .forwarding batch answers' := holder_set ⟨routeId, _⟩ (h.lock_lt hlock) hlock rfl
  refine ⟨h.numbered, stages_set h.stages ⟨hbatch, ?_⟩, hlocked, h.paired, ?_, hcovered, ?_,
    h.audited, h.responded, h.responses⟩
  · exact forall₂_set hanswers hc fun outcome heq => (Option.some.inj heq).symm
  · rw [State.swapping, hholder']
    have haccounts := h.accounts
    rw [State.swapping, hholder] at haccounts
    exact haccounts
  · rw [State.inFlight, hholder']
    have hresolved := h.resolved
    rw [State.inFlight, hholder] at hresolved
    exact hresolved

theorem sound_settle {outcome : Except String (List (Completion J))} (h : Sound backend s)
    (ht : s.tasks[t]? = some ⟨routeId, .forwarding batch answers⟩)
    (hgather : State.gather answers = some outcome) :
    Sound backend (s.settle t routeId batch outcome) := by
  have hlock : s.lock = some t := (h.locked t).mpr ⟨_, ht, rfl⟩
  obtain ⟨hbatch, hanswers⟩ := h.stages _ (List.mem_of_getElem? ht)
  have hholder := holder_of_lock hlock ht
  have hholder' : (s.settle t routeId batch outcome).holder = .waiting := holder_of_unlocked rfl
  have hresolved := h.resolved
  have haccounts := h.accounts
  have htaken := h.nodup_taken
  rw [State.inFlight, hholder] at hresolved
  rw [State.swapping, hholder] at haccounts htaken
  have hresolved : s.forwarded.map (Call.own backend) =
      s.resolutions ++ batch.requests.map (Call.own backend) := hresolved
  have hsettled : State.settlements batch.futures outcome =
      batch.requests.map (Call.own backend) := by
    rw [hbatch.paired, settlements_of_gather hanswers hgather]
    exact List.map_congr_left fun c hc => by rw [Call.own, hbatch.routed c hc]
  -- the futures of the batch are not done
  have hnodup : ((s.resolutions ++ batch.requests.map (Call.own backend)).map Prod.fst).Nodup := by
    rw [← hresolved, List.map_map]
    rw [List.append_nil] at htaken
    exact htaken
  refine ⟨h.numbered, stages_set h.stages trivial, locked_set h.locked ht ?_ ?_, h.paired, ?_, ?_,
    ?_, h.audited, h.responded, h.responses⟩
  · show (none : Option ℕ) = some t ↔ false = true
    simp
  · intro t' hne
    show (none : Option ℕ) = some t' ↔ s.lock = some t'
    rw [hlock, Option.some.injEq]
    exact iff_of_false (by simp) (Ne.symm hne)
  · rw [State.swapping, hholder']
    exact haccounts
  · intro routeId'
    have hcount := countP_undrained_set ⟨routeId, .finished⟩ ht routeId'
    have hcovered := h.covered routeId'
    simp only [Task.undrained, Bool.false_eq_true, if_false] at hcount
    rw [State.undrained] at hcovered
    show (s.pending routeId').length ≤ (s.tasks.set t _).countP _
    omega
  · rw [State.inFlight, hholder', List.map_nil, List.append_nil]
    show s.forwarded.map _ = (State.settlements batch.futures outcome).foldl _ s.resolutions
    rw [hsettled, foldl_resolve hnodup, hresolved]

end Hold

/-- A resolved future holds what the backend made of its request. -/
theorem Sound.eq_own_of_resolution (h : Sound backend s) {r : ℕ × Except String (Completion J)}
    (hr : r ∈ s.resolutions) : ∃ c ∈ s.forwarded, r = c.own backend := by
  have hmem : r ∈ s.forwarded.map (Call.own backend) := by
    rw [h.resolved]
    exact List.mem_append_left _ hr
  obtain ⟨c, hc, rfl⟩ := List.mem_map.mp hmem
  exact ⟨c, hc, rfl⟩

theorem sound_respond (h : Sound backend s) {n : ℕ} {c : Call}
    {outcome : Except String (Completion J)} (hc : s.calls[n]? = some c)
    (hlookup : s.resolutions.lookup n = some outcome) (hnew : n ∉ s.responses.map Prod.fst) :
    Sound backend { s with responses := s.responses ++ [(n, respond c.tenantId outcome)] } := by
  refine ⟨h.numbered, h.stages, h.locked, h.paired, h.accounts, h.covered, h.resolved, h.audited,
    ?_, fun r hr => ?_⟩
  · show ((s.responses ++ [_]).map Prod.fst).Nodup
    rw [List.map_append]
    refine List.nodup_append.mpr ⟨h.responded, List.nodup_singleton _, fun n' hn' n'' hn'' => ?_⟩
    rintro rfl
    have heq : n' = n := List.mem_singleton.mp hn''
    exact hnew (heq ▸ hn')
  · rcases List.mem_append.mp hr with hr | hr
    · exact h.responses r hr
    · have hresolution : (n, outcome) ∈ s.resolutions := by
        obtain ⟨l₁, l₂, hl, _⟩ := List.lookup_eq_some_iff.mp hlookup
        rw [hl]
        exact List.mem_append_right _ List.mem_cons_self
      obtain ⟨c', hc', hown⟩ := h.eq_own_of_resolution hresolution
      -- the call of that number is the request that was forwarded
      have hid : c.id = c'.id := (h.numbered n c hc).trans (congrArg Prod.fst hown)
      have hmem := List.mem_of_getElem? hc
      obtain rfl := h.numbered.inj hmem (h.mem_calls_of_forwarded hc') hid
      refine ⟨c, hmem, ?_⟩
      rw [List.mem_singleton.mp hr, ← hown, h.numbered n c hc]

theorem step_drain {t : ℕ} (hstep : step backend s (.drain t) = some s') :
    ∃ routeId, s.lock = none ∧ s.tasks[t]? = some ⟨routeId, .waiting⟩ ∧
      s' = s.drain t routeId := by
  simp only [step] at hstep
  split at hstep
  · rename_i routeId hlock ht
    exact ⟨routeId, hlock, ht, (Option.some.inj hstep).symm⟩
  · cases hstep

theorem step_swapped {t : ℕ} (hstep : step backend s (.swapped t) = some s') :
    ∃ routeId batch, s.tasks[t]? = some ⟨routeId, .swapping batch⟩ ∧
      s' = s.forward t routeId batch := by
  simp only [step] at hstep
  split at hstep
  · rename_i routeId batch ht
    exact ⟨routeId, batch, ht, (Option.some.inj hstep).symm⟩
  · cases hstep

theorem step_answer {t i : ℕ} (hstep : step backend s (.answer t i) = some s') :
    ∃ routeId batch answers, s.tasks[t]? = some ⟨routeId, .forwarding batch answers⟩ ∧
      s.answer backend t routeId batch answers i = some s' := by
  simp only [step] at hstep
  split at hstep
  · rename_i routeId batch answers ht
    exact ⟨routeId, batch, answers, ht, hstep⟩
  · cases hstep

theorem step_gathered {t : ℕ} (hstep : step backend s (.gathered t) = some s') :
    ∃ routeId batch answers outcome, s.tasks[t]? = some ⟨routeId, .forwarding batch answers⟩ ∧
      State.gather answers = some outcome ∧ s' = s.settle t routeId batch outcome := by
  simp only [step] at hstep
  split at hstep
  · rename_i routeId batch answers ht
    obtain ⟨outcome, hgather, rfl⟩ := Option.map_eq_some_iff.mp hstep
    exact ⟨routeId, batch, answers, outcome, ht, hgather, rfl⟩
  · cases hstep

theorem step_respond {n : ℕ} (hstep : step backend s (.respond n) = some s') :
    ∃ c outcome, s.calls[n]? = some c ∧ s.resolutions.lookup n = some outcome ∧
      n ∉ s.responses.map Prod.fst ∧
      s' = { s with responses := s.responses ++ [(n, respond c.tenantId outcome)] } := by
  simp only [step] at hstep
  split at hstep
  · rename_i c outcome hc hlookup
    split at hstep
    · cases hstep
    · rename_i hnew
      exact ⟨c, outcome, hc, hlookup, hnew, (Option.some.inj hstep).symm⟩
  · cases hstep

/-- **One step**, whatever it is. -/
theorem sound_step (h : Sound backend s) {e : Event} (hstep : step backend s e = some s') :
    Sound backend s' := by
  cases e with
  | infer request tenantId granted =>
    obtain rfl := Option.some.inj hstep
    cases granted with
    | true => exact sound_enqueue request tenantId h
    | false => exact h
  | drain t =>
    obtain ⟨routeId, hlock, ht, rfl⟩ := step_drain hstep
    rcases drain_cases s t routeId with ⟨hpending, heq⟩ | ⟨queue, hget, hne, ⟨_, heq⟩ | heq⟩
    · rw [heq]
      exact sound_finish h hlock ht hpending
    · rw [heq]
      have hlt : t < s.tasks.length := (List.getElem?_eq_some_iff.mp ht).1
      exact sound_forward (sound_take h hlock ht hget hne) (List.getElem?_set_self hlt)
    · rw [heq]
      obtain ⟨hnumbered, hstages, hlocked, hpaired, haccounts, hcovered, hresolved, haudited,
        hresponded, hresponses⟩ := sound_take h hlock ht hget hne
      exact ⟨hnumbered, hstages, hlocked, hpaired, haccounts, hcovered, hresolved, haudited,
        hresponded, hresponses⟩
  | swapped t =>
    obtain ⟨routeId, batch, ht, rfl⟩ := step_swapped hstep
    exact sound_forward h ht
  | answer t i =>
    obtain ⟨routeId, batch, answers, ht, hanswer⟩ := step_answer hstep
    exact sound_answer h ht hanswer
  | gathered t =>
    obtain ⟨routeId, batch, answers, outcome, ht, hgather, rfl⟩ := step_gathered hstep
    exact sound_settle h ht hgather
  | respond n =>
    obtain ⟨c, outcome, hc, hlookup, hnew, rfl⟩ := step_respond hstep
    exact sound_respond h hc hlookup hnew

theorem sound_next (h : Sound backend s) (e : Event) : Sound backend (next backend s e) := by
  unfold next
  rcases hstep : step backend s e with _ | s'
  · exact h
  · exact sound_step h hstep

theorem sound_run (backend : Backend J) (events : List Event) :
    Sound backend (Runs.run (next backend) State.init events) :=
  Runs.invariant_run_of_step (I := Sound backend) (fun _ e h => sound_next h e) sound_init

end VllmProxy
