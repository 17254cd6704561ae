/-
The route-aware serving scheduler.

Requests are queued by route, each with the future its answer is for, and
`fetchNextSafeBatch` takes a batch from the front of the queue that was created
first.  A queue that has been emptied is deleted, and a route that comes back
gets a new one.

* `fetch_cases` — the batch is the front of the queue of a route;
* `runs_sound` — what holds of the queues and the fetched batches in every run;
* `conserves` — each batch is non-empty, of one route and bounded, requests
  stay with their futures, nothing is lost or duplicated, and each route is
  served in the order of submission;
* `validate_of_fetched` — so the homogeneity check never fails.
-/
import NeuralScalpel.KeyedFifo
import NeuralScalpel.Runs
import Mathlib.Data.List.Dedup
import Mathlib.Order.Lattice
import Mathlib.Order.Nat

namespace Serving

/-- A request; `π` is the type of its payload. -/
structure Request (π : Type) where
  requestId : String
  tenantId : String
  routeId : String
  payload : π
  deriving DecidableEq

/-- A micro-batch of requests of one route, with their futures. -/
structure ScheduledBatch (π φ τ : Type) where
  routeId : String
  requests : List (Request π)
  futures : List φ
  createdAt : τ
  deriving DecidableEq

/-- One queue for each route that has requests waiting. -/
structure RouteAwareScheduler (π φ τ : Type) where
  maxBatchSize : ℕ
  queues : Dict String (ScheduledBatch π φ τ)

variable {π φ τ : Type}

namespace ScheduledBatch

/-- Each request with its future. -/
def pairs (batch : ScheduledBatch π φ τ) : List (Request π × φ) :=
  batch.requests.zip batch.futures

/-- Append a request and its future. -/
def push (batch : ScheduledBatch π φ τ) (request : Request π) (future : φ) :
    ScheduledBatch π φ τ :=
  { batch with
    requests := batch.requests ++ [request]
    futures := batch.futures ++ [future] }

/-- The first `n` requests, as a batch of their own. -/
def front (batch : ScheduledBatch π φ τ) (n : ℕ) (now : τ) : ScheduledBatch π φ τ where
  routeId := batch.routeId
  requests := batch.requests.take n
  futures := batch.futures.take n
  createdAt := now

/-- What is left behind. -/
def trimmed (batch : ScheduledBatch π φ τ) (n : ℕ) : ScheduledBatch π φ τ :=
  { batch with
    requests := batch.requests.drop n
    futures := batch.futures.drop n }

theorem pairs_front (batch : ScheduledBatch π φ τ) (n : ℕ) (now : τ) :
    (batch.front n now).pairs = batch.pairs.take n := List.take_zipWith.symm

theorem pairs_trimmed (batch : ScheduledBatch π φ τ) (n : ℕ) :
    (batch.trimmed n).pairs = batch.pairs.drop n := List.drop_zipWith.symm

theorem pairs_push {batch : ScheduledBatch π φ τ}
    (h : batch.requests.length = batch.futures.length) (request : Request π) (future : φ) :
    (batch.push request future).pairs = batch.pairs ++ [(request, future)] := List.zip_append h

end ScheduledBatch

namespace RouteAwareScheduler

def init (maxBatchSize : ℕ) : RouteAwareScheduler π φ τ := ⟨maxBatchSize, .empty⟩

/-- `submit_request`, under the lock: the queue of the route is created when
there is none. -/
def submit (s : RouteAwareScheduler π φ τ) (request : Request π) (future : φ) (now : τ) :
    RouteAwareScheduler π φ τ :=
  let batch := (s.queues.get? request.routeId).getD ⟨request.routeId, [], [], now⟩
  { s with queues := s.queues.set request.routeId (batch.push request future) }

variable [LinearOrder τ]

/-- `min(queues, key=created_at)`: the first of the oldest queues. -/
def oldest : List (String × ScheduledBatch π φ τ) → Option (String × ScheduledBatch π φ τ)
  | [] => none
  | e :: rest =>
    match oldest rest with
    | none => some e
    | some e' => if e'.2.createdAt < e.2.createdAt then some e' else some e

/-- The next batch, `none` if all queues are empty. -/
def fetchNextSafeBatch (s : RouteAwareScheduler π φ τ) (now : τ) :
    Option (ScheduledBatch π φ τ) × RouteAwareScheduler π φ τ :=
  match oldest s.queues.entries with
  | none => (none, s)
  | some (oldestRoute, source) =>
    let left := source.trimmed s.maxBatchSize
    (some (source.front s.maxBatchSize now), { s with
      queues := if left.requests.isEmpty then s.queues.erase oldestRoute
        else s.queues.set oldestRoute left })

end RouteAwareScheduler

/-- What the homogeneity check raises: the route of the batch and the routes
found in it. -/
inductive Contamination
  | mixedRoutes (expected : String) (routeIds : List String)
  | headerMismatch (header : String) (routeIds : List String)
  deriving DecidableEq

/-- Every request in the batch has the route of its header. -/
def validateBatchHomogeneity (batch : ScheduledBatch π φ τ) : Except Contamination Bool :=
  if batch.requests.isEmpty then .ok true
  else
    let routeIds := (batch.requests.map Request.routeId).dedup
    if 1 < routeIds.length then .error (.mixedRoutes batch.routeId routeIds)
    else if !routeIds.isEmpty ∧ batch.routeId ∉ routeIds then
      .error (.headerMismatch batch.routeId routeIds)
    else .ok true

/-! ### Runs -/

/-- An operation on the scheduler, at the time of the clock. -/
inductive Operation (π φ τ : Type)
  | submit (request : Request π) (future : φ) (now : τ)
  | fetch (now : τ)

/-- The scheduler, with what has been submitted and the batches fetched. -/
structure History (π φ τ : Type) where
  scheduler : RouteAwareScheduler π φ τ
  submitted : List (Request π × φ)
  fetched : List (ScheduledBatch π φ τ)

namespace History

def start (maxBatchSize : ℕ) : History π φ τ := ⟨.init maxBatchSize, [], []⟩

/-- The requests and futures of the fetched batches, in order. -/
def taken (h : History π φ τ) : List (Request π × φ) := h.fetched.flatMap ScheduledBatch.pairs

/-- The requests and futures still queued, route by route. -/
def pending (h : History π φ τ) : List (Request π × φ) :=
  h.scheduler.queues.entries.flatMap fun e => e.2.pairs

def perform [LinearOrder τ] (h : History π φ τ) : Operation π φ τ → History π φ τ
  | .submit request future now => { h with
      scheduler := h.scheduler.submit request future now
      submitted := h.submitted ++ [(request, future)] }
  | .fetch now => { h with
      scheduler := (h.scheduler.fetchNextSafeBatch now).2
      fetched := h.fetched ++ (h.scheduler.fetchNextSafeBatch now).1.toList }

end History

/-! ### What one operation does -/

/-- A request and its future go by the route of the request. -/
def routeOf (p : Request π × φ) : String := p.1.routeId

/-- A batch of requests of its route, as many as there are futures. -/
structure ScheduledBatch.Homogeneous (batch : ScheduledBatch π φ τ) : Prop where
  nonempty : batch.requests ≠ []
  paired : batch.requests.length = batch.futures.length
  routed : ∀ request ∈ batch.requests, request.routeId = batch.routeId

theorem ScheduledBatch.Homogeneous.routeOf_eq {batch : ScheduledBatch π φ τ}
    (h : batch.Homogeneous) {p : Request π × φ} (hp : p ∈ batch.pairs) :
    routeOf p = batch.routeId := h.routed _ (List.of_mem_zip hp).1

theorem ScheduledBatch.Homogeneous.front {batch : ScheduledBatch π φ τ} (h : batch.Homogeneous)
    {n : ℕ} (hn : 1 ≤ n) (now : τ) : (batch.front n now).Homogeneous where
  nonempty := by
    intro hempty
    have hlength := congrArg List.length hempty
    have hpos := List.length_pos_of_ne_nil h.nonempty
    simp only [ScheduledBatch.front, List.length_take, List.length_nil] at hlength
    omega
  paired := by simp [ScheduledBatch.front, h.paired]
  routed := fun request hmem => h.routed request (List.mem_of_mem_take hmem)

theorem ScheduledBatch.Homogeneous.trimmed {batch : ScheduledBatch π φ τ} (h : batch.Homogeneous)
    {n : ℕ} (hn : (batch.trimmed n).requests.isEmpty = false) : (batch.trimmed n).Homogeneous where
  nonempty := fun hempty => by simp [hempty] at hn
  paired := by simp [ScheduledBatch.trimmed, h.paired]
  routed := fun request hmem => h.routed request (List.mem_of_mem_drop hmem)

theorem ScheduledBatch.Homogeneous.push {batch : ScheduledBatch π φ τ}
    (hpaired : batch.requests.length = batch.futures.length)
    (hrouted : ∀ request ∈ batch.requests, request.routeId = batch.routeId)
    {request : Request π} (hrequest : request.routeId = batch.routeId) (future : φ) :
    (batch.push request future).Homogeneous where
  nonempty := by simp [ScheduledBatch.push]
  paired := by simp [ScheduledBatch.push, hpaired]
  routed := by
    intro r hr
    rcases List.mem_append.mp hr with hr | hr
    · exact hrouted r hr
    · rw [List.mem_singleton.mp hr]
      exact hrequest

/-- A queue of requests has a first one. -/
theorem ScheduledBatch.Homogeneous.exists_head {batch : ScheduledBatch π φ τ}
    (h : batch.Homogeneous) : ∃ first rest, batch.pairs = first :: rest := by
  have hrequests := List.length_pos_of_ne_nil h.nonempty
  have hlength : 0 < batch.pairs.length := by
    have := h.paired
    simp only [ScheduledBatch.pairs, List.length_zip]
    omega
  exact List.exists_cons_of_length_pos hlength

/-- A submission goes to the end of the queue of its route, or makes it. -/
theorem submit_cases (s : RouteAwareScheduler π φ τ) (request : Request π) (future : φ) (now : τ) :
    (∃ batch, s.queues.get? request.routeId = some batch ∧
      ∀ route, (s.submit request future now).queues.get? route =
        if route = request.routeId then some (batch.push request future)
        else s.queues.get? route) ∨
    s.queues.get? request.routeId = none ∧
      ∀ route, (s.submit request future now).queues.get? route =
        if route = request.routeId then some ⟨request.routeId, [request], [future], now⟩
        else s.queues.get? route := by
  rcases hget : s.queues.get? request.routeId with _ | batch
  · refine Or.inr ⟨rfl, fun route => ?_⟩
    simp only [RouteAwareScheduler.submit, hget, Dict.get?_set]
    rfl
  · refine Or.inl ⟨batch, rfl, fun route => ?_⟩
    simp only [RouteAwareScheduler.submit, hget, Dict.get?_set]
    rfl

section Fetch

variable [LinearOrder τ]

theorem mem_of_oldest : ∀ {entries : List (String × ScheduledBatch π φ τ)}
    {e : String × ScheduledBatch π φ τ}, RouteAwareScheduler.oldest entries = some e →
    e ∈ entries := by
  intro entries
  induction entries with
  | nil => exact fun h => absurd h (by simp [RouteAwareScheduler.oldest])
  | cons e₀ rest ih =>
    intro e h
    rcases hrest : RouteAwareScheduler.oldest rest with _ | e'
    · simp only [RouteAwareScheduler.oldest, hrest] at h
      rw [Option.some.inj h]
      exact List.mem_cons_self
    · simp only [RouteAwareScheduler.oldest, hrest] at h
      by_cases hlt : e'.2.createdAt < e₀.2.createdAt
      · rw [if_pos hlt] at h
        exact List.mem_cons_of_mem _ (ih (hrest.trans h))
      · rw [if_neg hlt] at h
        rw [Option.some.inj h]
        exact List.mem_cons_self

theorem oldest_eq_none {entries : List (String × ScheduledBatch π φ τ)}
    (h : RouteAwareScheduler.oldest entries = none) : entries = [] := by
  cases entries with
  | nil => rfl
  | cons e rest =>
    rcases hrest : RouteAwareScheduler.oldest rest with _ | e'
    · simp [RouteAwareScheduler.oldest, hrest] at h
    · by_cases hlt : e'.2.createdAt < e.2.createdAt <;>
        simp [RouteAwareScheduler.oldest, hrest, hlt] at h

theorem oldest_le : ∀ {entries : List (String × ScheduledBatch π φ τ)}
    {e : String × ScheduledBatch π φ τ}, RouteAwareScheduler.oldest entries = some e →
    ∀ e' ∈ entries, e.2.createdAt ≤ e'.2.createdAt := by
  intro entries
  induction entries with
  | nil => exact fun h => absurd h (by simp [RouteAwareScheduler.oldest])
  | cons e₀ rest ih =>
    intro e h e' he'
    rcases hrest : RouteAwareScheduler.oldest rest with _ | e₁
    · simp only [RouteAwareScheduler.oldest, hrest] at h
      rw [oldest_eq_none hrest, List.mem_singleton] at he'
      rw [he', Option.some.inj h]
    · simp only [RouteAwareScheduler.oldest, hrest] at h
      by_cases hlt : e₁.2.createdAt < e₀.2.createdAt
      · rw [if_pos hlt] at h
        rcases List.mem_cons.mp he' with rfl | he'
        · rw [← Option.some.inj h]
          exact hlt.le
        · exact ih (hrest.trans h) e' he'
      · rw [if_neg hlt] at h
        obtain rfl := Option.some.inj h
        rcases List.mem_cons.mp he' with rfl | he'
        · exact le_rfl
        · exact (not_lt.mp hlt).trans (ih hrest e' he')

/-- A fetch finds no queue, or takes the front of the queue of a route, of one
that was created first. -/
theorem fetch_cases (s : RouteAwareScheduler π φ τ) (now : τ) :
    s.fetchNextSafeBatch now = (none, s) ∧ s.queues.entries = [] ∨
      ∃ route source, s.queues.get? route = some source ∧
        (∀ route' batch, s.queues.get? route' = some batch →
          source.createdAt ≤ batch.createdAt) ∧
        (s.fetchNextSafeBatch now).1 = some (source.front s.maxBatchSize now) ∧
        (s.fetchNextSafeBatch now).2.maxBatchSize = s.maxBatchSize ∧
        ∀ route', (s.fetchNextSafeBatch now).2.queues.get? route' =
          if route' = route then
            if (source.trimmed s.maxBatchSize).requests.isEmpty then none
            else some (source.trimmed s.maxBatchSize)
          else s.queues.get? route' := by
  unfold RouteAwareScheduler.fetchNextSafeBatch
  rcases hold : RouteAwareScheduler.oldest s.queues.entries with _ | e
  · exact Or.inl ⟨rfl, oldest_eq_none hold⟩
  · right
    obtain ⟨route, source⟩ := e
    refine ⟨route, source, Dict.mem_entries_iff.mp (mem_of_oldest hold),
      fun route' batch hget => ?_, rfl, rfl, fun route' => ?_⟩
    · exact oldest_le hold _ (Dict.mem_entries_iff.mpr hget)
    by_cases hempty : (source.trimmed s.maxBatchSize).requests.isEmpty = true
    · simp only [if_pos hempty, Dict.get?_erase]
    · simp only [if_neg hempty, Dict.get?_set]

/-- The requests queued for a route, with their futures. -/
def RouteAwareScheduler.waiting (s : RouteAwareScheduler π φ τ) (route : String) :
    List (Request π × φ) := ((s.queues.get? route).map ScheduledBatch.pairs).getD []

/-- Each queue is of its route. -/
def RouteAwareScheduler.Queued (s : RouteAwareScheduler π φ τ) : Prop :=
  ∀ route batch, s.queues.get? route = some batch → batch.routeId = route ∧ batch.Homogeneous

omit [LinearOrder τ] in
theorem queued_submit {s : RouteAwareScheduler π φ τ} (hs : s.Queued) (request : Request π)
    (future : φ) (now : τ) : (s.submit request future now).Queued := by
  intro route batch' hget
  by_cases hroute : route = request.routeId
  · subst hroute
    rcases submit_cases s request future now with ⟨batch, hold, hq⟩ | ⟨_, hq⟩
    · rw [hq, if_pos rfl] at hget
      obtain rfl := Option.some.inj hget
      obtain ⟨hheader, hok⟩ := hs _ _ hold
      exact ⟨hheader,
        ScheduledBatch.Homogeneous.push hok.paired hok.routed hheader.symm future⟩
    · rw [hq, if_pos rfl] at hget
      obtain rfl := Option.some.inj hget
      exact ⟨rfl, by simp, rfl, by simp⟩
  · rcases submit_cases s request future now with ⟨batch, _, hq⟩ | ⟨_, hq⟩ <;>
    · rw [hq, if_neg hroute] at hget
      exact hs route batch' hget

theorem queued_fetch {s : RouteAwareScheduler π φ τ} (hs : s.Queued) (now : τ) :
    (s.fetchNextSafeBatch now).2.Queued := by
  intro route' batch hget
  rcases fetch_cases s now with ⟨hnone, _⟩ | ⟨route, source, hsource, _, _, _, hq⟩
  · rw [hnone] at hget
    exact hs route' batch hget
  · rw [hq] at hget
    by_cases hroute : route' = route
    · subst hroute
      rw [if_pos rfl] at hget
      split_ifs at hget with hempty
      obtain rfl := Option.some.inj hget
      obtain ⟨hheader, hok⟩ := hs route' source hsource
      exact ⟨hheader, hok.trimmed (Bool.eq_false_iff.mpr hempty)⟩
    · rw [if_neg hroute] at hget
      exact hs route' batch hget

omit [LinearOrder τ] in
theorem waiting_submit {s : RouteAwareScheduler π φ τ} (hs : s.Queued) (request : Request π)
    (future : φ) (now : τ) (route : String) :
    (s.submit request future now).waiting route =
      if route = request.routeId then s.waiting route ++ [(request, future)]
      else s.waiting route := by
  unfold RouteAwareScheduler.waiting
  by_cases hroute : route = request.routeId
  · subst hroute
    rw [if_pos rfl]
    rcases submit_cases s request future now with ⟨batch, hold, hq⟩ | ⟨hnone, hq⟩
    · rw [hq, if_pos rfl, hold]
      exact ScheduledBatch.pairs_push (hs _ _ hold).2.paired request future
    · rw [hq, if_pos rfl, hnone]
      rfl
  · rw [if_neg hroute]
    rcases submit_cases s request future now with ⟨batch, _, hq⟩ | ⟨_, hq⟩ <;>
      rw [hq, if_neg hroute]

/-- What a fetch takes was first in the queue of its route. -/
theorem waiting_fetch {s : RouteAwareScheduler π φ τ} (hs : s.Queued) (now : τ) :
    s.fetchNextSafeBatch now = (none, s) ∨
      ∃ batch, (s.fetchNextSafeBatch now).1 = some batch ∧
        batch.requests.length = batch.futures.length ∧
        (∀ request ∈ batch.requests, request.routeId = batch.routeId) ∧
        s.waiting batch.routeId =
          batch.pairs ++ (s.fetchNextSafeBatch now).2.waiting batch.routeId ∧
        ∀ route, route ≠ batch.routeId →
          (s.fetchNextSafeBatch now).2.waiting route = s.waiting route := by
  rcases fetch_cases s now with ⟨hnone, _⟩ | ⟨route, source, hsource, _, hbatch, _, hq⟩
  · exact Or.inl hnone
  · obtain ⟨rfl, hok⟩ := hs route source hsource
    have hleft : (s.fetchNextSafeBatch now).2.waiting source.routeId =
        (source.trimmed s.maxBatchSize).pairs := by
      rw [RouteAwareScheduler.waiting, hq, if_pos rfl]
      by_cases hempty : (source.trimmed s.maxBatchSize).requests.isEmpty = true
      · rw [if_pos hempty, ScheduledBatch.pairs, List.isEmpty_iff.mp hempty]
        rfl
      · rw [if_neg hempty]
        rfl
    refine Or.inr ⟨_, hbatch, ?_,
      fun request hmem => hok.routed request (List.mem_of_mem_take hmem), ?_, fun route hne => ?_⟩
    · simp [ScheduledBatch.front, hok.paired]
    · show s.waiting source.routeId = _ ++ (s.fetchNextSafeBatch now).2.waiting source.routeId
      rw [hleft, ScheduledBatch.pairs_front, ScheduledBatch.pairs_trimmed,
        List.take_append_drop, RouteAwareScheduler.waiting, hsource]
      rfl
    · have hne : route ≠ source.routeId := hne
      rw [RouteAwareScheduler.waiting, hq, if_neg hne]
      rfl

end Fetch

/-! ### What every run keeps -/

namespace History

/-- The queues hold requests of their route, the batches are homogeneous and
bounded, and the accounts of each route agree. -/
structure Sound (maxBatchSize : ℕ) (h : History π φ τ) : Prop where
  limit : h.scheduler.maxBatchSize = maxBatchSize
  queues : ∀ route batch, h.scheduler.queues.get? route = some batch →
    batch.routeId = route ∧ batch.Homogeneous
  fetched : ∀ batch ∈ h.fetched, batch.Homogeneous ∧ batch.requests.length ≤ maxBatchSize
  accounts : KeyedFifo.Accounts routeOf h.submitted h.taken h.scheduler.waiting

theorem sound_start (maxBatchSize : ℕ) :
    (start maxBatchSize : History π φ τ).Sound maxBatchSize where
  limit := rfl
  queues _ _ hget := absurd hget (by simp [start, RouteAwareScheduler.init])
  fetched _ hmem := absurd hmem List.not_mem_nil
  accounts := KeyedFifo.Accounts.start

/-- A request is pending in a queue. -/
theorem mem_pending_iff {h : History π φ τ} {p : Request π × φ} :
    p ∈ h.pending ↔ ∃ route batch, h.scheduler.queues.get? route = some batch ∧
      p ∈ batch.pairs := by
  unfold pending
  rw [List.mem_flatMap]
  constructor
  · rintro ⟨⟨route, batch⟩, he, hp⟩
    exact ⟨route, batch, Dict.mem_entries_iff.mp he, hp⟩
  · rintro ⟨route, batch, hget, hp⟩
    exact ⟨(route, batch), Dict.mem_entries_iff.mpr hget, hp⟩

theorem mem_pending_iff_waiting {h : History π φ τ} {p : Request π × φ} :
    p ∈ h.pending ↔ ∃ route, p ∈ h.scheduler.waiting route := by
  rw [mem_pending_iff]
  refine exists_congr fun route => ?_
  unfold RouteAwareScheduler.waiting
  rcases h.scheduler.queues.get? route with _ | batch <;> simp

/-- What is queued is for the route of its queue. -/
theorem Sound.routeOf_of_mem {h : History π φ τ} {maxBatchSize : ℕ}
    (hs : h.Sound maxBatchSize) {route : String}
    {batch : ScheduledBatch π φ τ} (hget : h.scheduler.queues.get? route = some batch)
    {p : Request π × φ} (hp : p ∈ batch.pairs) : routeOf p = route := by
  obtain ⟨hheader, hok⟩ := hs.queues route batch hget
  exact (hok.routeOf_eq hp).trans hheader

/-- What is queued has been submitted. -/
theorem Sound.mem_submitted {h : History π φ τ} {maxBatchSize : ℕ}
    (hs : h.Sound maxBatchSize) {route : String}
    {batch : ScheduledBatch π φ τ} (hget : h.scheduler.queues.get? route = some batch)
    {p : Request π × φ} (hp : p ∈ batch.pairs) : p ∈ h.submitted := by
  have haccounts := hs.accounts route
  have hwaiting : h.scheduler.waiting route = batch.pairs := by
    rw [RouteAwareScheduler.waiting, hget]
    rfl
  have hmem : p ∈ KeyedFifo.ofKey routeOf route h.submitted := by
    rw [← haccounts, hwaiting]
    exact List.mem_append_right _ hp
  exact (KeyedFifo.mem_ofKey.mp hmem).1

variable [LinearOrder τ] {maxBatchSize : ℕ} {h : History π φ τ}

theorem sound_submit (hs : h.Sound maxBatchSize) (request : Request π) (future : φ) (now : τ) :
    (h.perform (.submit request future now)).Sound maxBatchSize := by
  have hwaiting := waiting_submit hs.queues request future now
  refine ⟨hs.limit, queued_submit hs.queues request future now, hs.fetched,
    hs.accounts.submit ?_ fun route hne => ?_⟩
  · exact (hwaiting request.routeId).trans (if_pos rfl)
  · exact (hwaiting route).trans (if_neg hne)

theorem sound_fetch (hmax : 1 ≤ maxBatchSize) (hs : h.Sound maxBatchSize) (now : τ) :
    (h.perform (.fetch now)).Sound maxBatchSize := by
  rcases waiting_fetch hs.queues now with hnone | ⟨batch, hbatch, _, hrouted, hself, hother⟩
  · have hsame : h.perform (.fetch now) = h := by
      simp [perform, hnone]
    rw [hsame]
    exact hs
  · rcases fetch_cases h.scheduler now with
      ⟨hnone, _⟩ | ⟨route, source, hsource, _, hfront, hlimit, _⟩
    · rw [hnone] at hbatch
      exact absurd hbatch (by simp)
    · have hok := (hs.queues route source hsource).2
      rw [hs.limit, hbatch] at hfront
      refine ⟨hlimit.trans hs.limit, queued_fetch hs.queues now, fun b hmem => ?_, ?_⟩
      · simp only [perform, hbatch, Option.toList_some, List.mem_append, List.mem_singleton] at hmem
        rcases hmem with hmem | rfl
        · exact hs.fetched b hmem
        · rw [Option.some.inj hfront]
          exact ⟨hok.front hmax now, List.length_take_le ..⟩
      · have htaken : (h.perform (.fetch now)).taken = h.taken ++ batch.pairs := by
          simp [taken, perform, hbatch]
        rw [htaken]
        exact hs.accounts.take (fun p hp => hrouted _ (List.of_mem_zip hp).1) hself hother

/-- Every run keeps the accounts. -/
theorem runs_sound (hmax : 1 ≤ maxBatchSize) (ops : List (Operation π φ τ)) :
    (Runs.run perform (start maxBatchSize) ops : History π φ τ).Sound maxBatchSize := by
  refine Runs.invariant_run_of_step (fun h op hs => ?_) (sound_start maxBatchSize)
  cases op with
  | submit request future now => exact sound_submit hs request future now
  | fetch now => exact sound_fetch hmax hs now

end History

/-! ### Nothing is lost, duplicated, mixed or reordered -/

/-- The requests an operation submits. -/
def Operation.submission : Operation π φ τ → Option (Request π × φ)
  | .submit request future _ => some (request, future)
  | .fetch _ => none

/-- The requests submitted in a run, with their futures. -/
def submissions (ops : List (Operation π φ τ)) : List (Request π × φ) :=
  ops.filterMap Operation.submission

theorem submitted_run [LinearOrder τ] (ops : List (Operation π φ τ)) (h : History π φ τ) :
    (Runs.run History.perform h ops).submitted = h.submitted ++ submissions ops := by
  induction ops generalizing h with
  | nil => exact (List.append_nil _).symm
  | cons op ops ih =>
    rw [Runs.run_cons, ih]
    cases op with
    | submit request future now =>
      show (h.submitted ++ [(request, future)]) ++ submissions ops = _
      rw [List.append_assoc]
      rfl
    | fetch now => rfl

/-- What is fetched and what is pending after the submissions. -/
structure Conserves (maxBatchSize : ℕ) (submitted : List (Request π × φ)) (h : History π φ τ) :
    Prop where
  nonempty : ∀ batch ∈ h.fetched, batch.requests ≠ []
  bounded : ∀ batch ∈ h.fetched, batch.requests.length ≤ maxBatchSize
  homogeneous : ∀ batch ∈ h.fetched, ∀ request ∈ batch.requests, request.routeId = batch.routeId
  paired : ∀ batch ∈ h.fetched, batch.requests.length = batch.futures.length ∧
    ∀ p ∈ batch.pairs, p ∈ submitted
  accounted : (h.taken ++ h.pending).Perm submitted
  ordered : ∀ route, KeyedFifo.ofKey routeOf route h.taken ++
    KeyedFifo.ofKey routeOf route h.pending = KeyedFifo.ofKey routeOf route submitted

/-- **The scheduler loses, duplicates, mixes and reorders nothing.** -/
theorem conserves [LinearOrder τ] {maxBatchSize : ℕ} (hmax : 1 ≤ maxBatchSize)
    (ops : List (Operation π φ τ)) :
    Conserves maxBatchSize (submissions ops)
      (Runs.run History.perform (.start maxBatchSize) ops) := by
  have hs := History.runs_sound hmax ops
  have hsubmitted : (Runs.run History.perform (.start maxBatchSize) ops).submitted =
      submissions ops := submitted_run ops _
  revert hs hsubmitted
  generalize (Runs.run History.perform (.start maxBatchSize) ops : History π φ τ) = h
  intro hs hsubmitted
  have hwaiting : ∀ route, KeyedFifo.ofKey routeOf route h.pending = h.scheduler.waiting route := by
    refine KeyedFifo.ofKey_flatMap_entries fun route batch hget p hp => ?_
    exact hs.routeOf_of_mem hget hp
  have haccounts : KeyedFifo.Accounts routeOf (submissions ops) h.taken
      fun route => KeyedFifo.ofKey routeOf route h.pending := by
    intro route
    show _ ++ KeyedFifo.ofKey routeOf route h.pending = _
    rw [hwaiting, hs.accounts route, hsubmitted]
  refine ⟨fun batch hb => (hs.fetched batch hb).1.nonempty, fun batch hb => (hs.fetched batch hb).2,
    fun batch hb => (hs.fetched batch hb).1.routed,
    fun batch hb => ⟨(hs.fetched batch hb).1.paired, fun p hp => ?_⟩, haccounts.perm, haccounts⟩
  have htaken : p ∈ h.taken := List.mem_flatMap_of_mem hb hp
  exact haccounts.perm.subset (List.mem_append_left _ htaken)

/-- A partly drained queue, and a route that comes back after its queue was
deleted. -/
theorem conserves_two :
    let request (id route : String) : Request Unit := ⟨id, "tenant", route, ()⟩
    let ops : List (Operation Unit ℕ ℕ) := [
      .submit (request "1" "a") 1 0, .submit (request "2" "b") 2 1, .submit (request "3" "a") 3 2,
      .submit (request "4" "a") 4 3, .fetch 4, .fetch 5, .submit (request "5" "a") 5 6, .fetch 7]
    Conserves 2 (submissions ops) (Runs.run History.perform (.start 2) ops) :=
  conserves (by decide) _

/-- A batch of requests of the route of its header passes the homogeneity check. -/
theorem validate_of_routed {batch : ScheduledBatch π φ τ}
    (h : ∀ request ∈ batch.requests, request.routeId = batch.routeId) :
    validateBatchHomogeneity batch = .ok true := by
  by_cases hempty : batch.requests = []
  · simp [validateBatchHomogeneity, hempty]
  · have hroutes : (batch.requests.map Request.routeId).dedup = [batch.routeId] := by
      have hconst : batch.requests.map Request.routeId =
          List.replicate batch.requests.length batch.routeId := by
        refine List.eq_replicate_iff.mpr ⟨List.length_map .., fun route hroute => ?_⟩
        obtain ⟨request, hmem, rfl⟩ := List.mem_map.mp hroute
        exact h request hmem
      rw [hconst, List.replicate_dedup (Nat.ne_of_gt (List.length_pos_of_ne_nil hempty))]
    simp [validateBatchHomogeneity, hempty, hroutes]

/-- The homogeneity check never fails on a fetched batch. -/
theorem validate_of_fetched [LinearOrder τ] {maxBatchSize : ℕ} (hmax : 1 ≤ maxBatchSize)
    (ops : List (Operation π φ τ)) {batch : ScheduledBatch π φ τ}
    (h : batch ∈ (Runs.run History.perform (.start maxBatchSize) ops).fetched) :
    validateBatchHomogeneity batch = .ok true :=
  validate_of_routed ((History.runs_sound hmax ops).fetched batch h).1.routed

end Serving
