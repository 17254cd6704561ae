/-
The drain loop of the serving scheduler.

The loop sleeps, fetches a batch and awaits the executor.  The requests have left
their queue by then, and nothing catches what the executor raises: it ends the
task of the loop, and the futures of the batch stay as they are.

* `accounted_run` — every request is pending, resolved or in the hands of the
  executor, as long as the executor raises nothing;
* `run_of_ended` — once the loop has ended nothing is resolved any more;
* `keepsRequests_iff` — so requests are kept, and the loop goes on, exactly in the
  runs whose executor never raises.
-/
import NeuralScalpel.ServingScheduler

namespace Serving

/-- How a future is resolved. -/
inductive Resolution (ρ ε : Type)
  | result (value : ρ)
  | exception (error : ε)
  deriving DecidableEq

/-- What ends the loop. -/
inductive LoopError (ε : Type)
  | contaminated (contamination : Contamination)
  | raised (error : ε)
  deriving DecidableEq

/-- Where the task of `_drain_loop` is: in its sleep, in the executor, or at an
end. -/
inductive DrainLoop (π φ τ ε : Type)
  | sleeping
  | executing (batch : ScheduledBatch π φ τ)
  | ended (error : LoopError ε)
  deriving DecidableEq

/-- The scheduler with its drain loop and the futures resolved so far. -/
structure Drain (π φ τ ρ ε : Type) where
  history : History π φ τ
  loop : DrainLoop π φ τ ε
  resolved : List (φ × Resolution ρ ε)

/-- A request is submitted, the sleep of the loop is over, or the executor
returns, with its futures resolved, or raises before it has resolved one. -/
inductive DrainEvent (π φ τ ρ ε : Type)
  | submit (request : Request π) (future : φ) (now : τ)
  | wake (now : τ)
  | resolve (resolution : φ → Resolution ρ ε)
  | raise (error : ε)

variable {π φ τ ρ ε : Type}

namespace Drain

/-- `start_drain_loop`, on an empty scheduler. -/
def start (maxBatchSize : ℕ) : Drain π φ τ ρ ε := ⟨.start maxBatchSize, .sleeping, []⟩

/-- One event.  What the loop is not waiting for changes nothing. -/
def step [LinearOrder τ] (d : Drain π φ τ ρ ε) : DrainEvent π φ τ ρ ε → Drain π φ τ ρ ε
  | .submit request future now =>
    { d with history := d.history.perform (.submit request future now) }
  | .wake now =>
    match d.loop with
    | .sleeping =>
      let fetched := { d with history := d.history.perform (.fetch now) }
      match (d.history.scheduler.fetchNextSafeBatch now).1 with
      | none => fetched
      | some batch =>
        match validateBatchHomogeneity batch with
        | .error contamination => { fetched with loop := .ended (.contaminated contamination) }
        | .ok _ => { fetched with loop := .executing batch }
    | _ => d
  | .resolve resolution =>
    match d.loop with
    | .executing batch => { d with
        loop := .sleeping
        resolved := d.resolved ++ batch.futures.map fun future => (future, resolution future) }
    | _ => d
  | .raise error =>
    -- the executor is awaited without a `try`
    match d.loop with
    | .executing _ => { d with loop := .ended (.raised error) }
    | _ => d

end Drain

/-! ### What the loop promises -/

/-- After an iteration the loop goes on, and every request is pending or its
future is resolved. -/
def KeepsRequests (d : Drain π φ τ ρ ε) : Prop :=
  (∀ batch, d.loop ≠ .executing batch) → d.loop = .sleeping ∧
    ∀ p ∈ d.history.submitted, p ∈ d.history.pending ∨
      ∃ resolution, (p.2, resolution) ∈ d.resolved

/-- The executor raises on no batch of the run. -/
def NeverRaises [LinearOrder τ] (maxBatchSize : ℕ) (events : List (DrainEvent π φ τ ρ ε)) : Prop :=
  Runs.Along Drain.step
    (fun d event => ∀ error, event = .raise error → ∀ batch, d.loop ≠ .executing batch)
    (.start maxBatchSize) events

/-- The loop has not ended, and every request is pending, resolved or in the batch
that is executed. -/
structure Drain.Accounted (d : Drain π φ τ ρ ε) : Prop where
  queued : d.history.scheduler.Queued
  running : ∀ error, d.loop ≠ .ended error
  accounted : ∀ p ∈ d.history.submitted, p ∈ d.history.pending ∨
    (∃ resolution, (p.2, resolution) ∈ d.resolved) ∨
    ∃ batch, d.loop = .executing batch ∧ p ∈ batch.pairs

theorem Drain.Accounted.keepsRequests {d : Drain π φ τ ρ ε} (h : d.Accounted) :
    KeepsRequests d := by
  intro hidle
  refine ⟨?_, fun p hp => ?_⟩
  · rcases hloop : d.loop with _ | batch | error
    · rfl
    · exact absurd hloop (hidle batch)
    · exact absurd hloop (h.running error)
  · rcases h.accounted p hp with hpending | hresolved | ⟨batch, hbatch, _⟩
    · exact Or.inl hpending
    · exact Or.inr hresolved
    · exact absurd hbatch (hidle batch)

/-! ### What one event does -/

theorem accounted_start {maxBatchSize : ℕ} :
    (Drain.start maxBatchSize : Drain π φ τ ρ ε).Accounted where
  queued _ _ hget := absurd hget (by simp [Drain.start, History.start, RouteAwareScheduler.init])
  running _ h := by simp [Drain.start] at h
  accounted p hp := absurd hp (by simp [Drain.start, History.start])

section Steps

variable [LinearOrder τ] {d : Drain π φ τ ρ ε} {maxBatchSize : ℕ}

/-- A submission adds to what is pending. -/
theorem pending_submit {h : History π φ τ} (hq : h.scheduler.Queued) {request : Request π}
    {future : φ} {now : τ} {p : Request π × φ} (hp : p ∈ h.pending ∨ p = (request, future)) :
    p ∈ (h.perform (.submit request future now)).pending := by
  have hwaiting := waiting_submit hq request future now
  refine History.mem_pending_iff_waiting.mpr ?_
  show ∃ route, p ∈ (h.scheduler.submit request future now).waiting route
  rcases hp with hp | rfl
  · obtain ⟨route, hmem⟩ := History.mem_pending_iff_waiting.mp hp
    refine ⟨route, ?_⟩
    rw [hwaiting]
    by_cases hroute : route = request.routeId
    · rw [if_pos hroute]
      exact List.mem_append_left _ hmem
    · rwa [if_neg hroute]
  · refine ⟨request.routeId, ?_⟩
    rw [hwaiting, if_pos rfl]
    exact List.mem_append_right _ (List.mem_singleton.mpr rfl)

/-- The loop wakes up to nothing, or hands a batch to the executor; what was
pending is still, or is in the batch. -/
theorem step_wake (hq : d.history.scheduler.Queued) (hloop : d.loop = .sleeping) (now : τ) :
    (d.step (.wake now)).history = d.history.perform (.fetch now) ∧
    (d.step (.wake now)).resolved = d.resolved ∧
    ((d.step (.wake now)).loop = .sleeping ∧
        (d.history.perform (.fetch now)).pending = d.history.pending ∨
      ∃ batch, (d.step (.wake now)).loop = .executing batch ∧
        ∀ p ∈ d.history.pending,
          p ∈ (d.history.perform (.fetch now)).pending ∨ p ∈ batch.pairs) := by
  rcases waiting_fetch hq now with hnone | ⟨batch, hbatch, _, hrouted, hself, hother⟩
  · simp [Drain.step, hloop, hnone, History.perform, History.pending]
  · have hvalid := validate_of_routed hrouted
    have hstep : d.step (.wake now) =
        { d with
          history := d.history.perform (.fetch now)
          loop := .executing batch } := by
      simp [Drain.step, hloop, hbatch, hvalid]
    rw [hstep]
    refine ⟨rfl, rfl, Or.inr ⟨batch, rfl, fun p hp => ?_⟩⟩
    obtain ⟨route, hmem⟩ := History.mem_pending_iff_waiting.mp hp
    by_cases hroute : route = batch.routeId
    · rw [hroute, hself, List.mem_append] at hmem
      rcases hmem with hmem | hmem
      · exact Or.inr hmem
      · exact Or.inl (History.mem_pending_iff_waiting.mpr ⟨_, hmem⟩)
    · rw [← hother route hroute] at hmem
      exact Or.inl (History.mem_pending_iff_waiting.mpr ⟨route, hmem⟩)

theorem accounted_submit (h : d.Accounted) (request : Request π) (future : φ) (now : τ) :
    (d.step (.submit request future now)).Accounted := by
  refine ⟨queued_submit h.queued request future now, h.running, fun p hp => ?_⟩
  have hp : p ∈ d.history.submitted ++ [(request, future)] := hp
  rw [List.mem_append, List.mem_singleton] at hp
  rcases hp with hp | rfl
  · rcases h.accounted p hp with hpending | hrest
    · exact Or.inl (pending_submit h.queued (Or.inl hpending))
    · exact Or.inr hrest
  · exact Or.inl (pending_submit h.queued (Or.inr rfl))

theorem accounted_wake (h : d.Accounted) (hloop : d.loop = .sleeping) (now : τ) :
    (d.step (.wake now)).Accounted := by
  obtain ⟨hhistory, hresolved, hcases⟩ := step_wake h.queued hloop now
  have hqueued : (d.step (.wake now)).history.scheduler.Queued := by
    rw [hhistory]
    exact queued_fetch h.queued now
  have hsubmitted : (d.step (.wake now)).history.submitted = d.history.submitted := by
    rw [hhistory]
    rfl
  rcases hcases with ⟨hidle, hpending⟩ | ⟨batch, hbatch, hpending⟩
  · refine ⟨hqueued, fun error herror => ?_, fun p hp => ?_⟩
    · rw [hidle] at herror
      exact absurd herror (by simp)
    · rw [hsubmitted] at hp
      rw [hhistory, hpending, hresolved, hidle, ← hloop]
      exact h.accounted p hp
  · refine ⟨hqueued, fun error herror => ?_, fun p hp => ?_⟩
    · rw [hbatch] at herror
      exact absurd herror (by simp)
    · rw [hsubmitted] at hp
      rw [hhistory, hresolved, hbatch]
      rcases h.accounted p hp with hp | hp | ⟨b, hb, _⟩
      · rcases hpending p hp with hp | hp
        · exact Or.inl hp
        · exact Or.inr (Or.inr ⟨batch, rfl, hp⟩)
      · exact Or.inr (Or.inl hp)
      · rw [hloop] at hb
        exact absurd hb (by simp)

/-- The requests of the batch are those whose futures are resolved. -/
theorem accounted_resolve (h : d.Accounted) {batch : ScheduledBatch π φ τ}
    (hloop : d.loop = .executing batch) (resolution : φ → Resolution ρ ε) :
    (d.step (.resolve resolution)).Accounted := by
  have hstep : d.step (.resolve resolution) =
      { d with
        loop := .sleeping
        resolved := d.resolved ++
          batch.futures.map fun future => (future, resolution future) } := by
    simp [Drain.step, hloop]
  rw [hstep]
  refine ⟨h.queued, fun error herror => absurd herror (by simp), fun p hp => ?_⟩
  rcases h.accounted p hp with hp | ⟨r, hr⟩ | ⟨b, hb, hp⟩
  · exact Or.inl hp
  · exact Or.inr (Or.inl ⟨r, List.mem_append_left _ hr⟩)
  · rw [hloop] at hb
    obtain rfl := DrainLoop.executing.inj hb
    have hfuture : p.2 ∈ batch.futures := (List.of_mem_zip hp).2
    exact Or.inr (Or.inl ⟨resolution p.2, List.mem_append_right _
      (List.mem_map.mpr ⟨p.2, hfuture, rfl⟩)⟩)

/-- An event keeps the accounts, unless it is the executor that raises. -/
theorem accounted_step (h : d.Accounted) (event : DrainEvent π φ τ ρ ε)
    (hraise : ∀ error, event = .raise error → ∀ batch, d.loop ≠ .executing batch) :
    (d.step event).Accounted := by
  -- what the loop is not waiting for changes nothing
  have hidle : d.step event = d → (d.step event).Accounted := fun hsame => by rwa [hsame]
  rcases hloop : d.loop with _ | batch | error
  · cases event with
    | submit request future now => exact accounted_submit h request future now
    | wake now => exact accounted_wake h hloop now
    | resolve resolution => exact hidle (by simp [Drain.step, hloop])
    | raise error => exact hidle (by simp [Drain.step, hloop])
  · cases event with
    | submit request future now => exact accounted_submit h request future now
    | wake now => exact hidle (by simp [Drain.step, hloop])
    | resolve resolution => exact accounted_resolve h hloop resolution
    | raise error => exact absurd hloop (hraise error rfl batch)
  · exact absurd hloop (h.running error)

/-- Once the loop has ended nothing is resolved any more. -/
theorem run_of_ended {error : LoopError ε} : ∀ {events : List (DrainEvent π φ τ ρ ε)}
    {d : Drain π φ τ ρ ε}, d.loop = .ended error →
    (Runs.run Drain.step d events).loop = .ended error ∧
      (Runs.run Drain.step d events).resolved = d.resolved := by
  intro events
  induction events with
  | nil => exact fun h => ⟨h, rfl⟩
  | cons event events ih =>
    intro d h
    have hstep : (d.step event).loop = .ended error ∧ (d.step event).resolved = d.resolved := by
      cases event <;> simp [Drain.step, h]
    rw [Runs.run_cons, ← hstep.2]
    exact ih hstep.1

/-- In a run whose executor never raises every request is accounted for. -/
theorem accounted_run {events : List (DrainEvent π φ τ ρ ε)}
    (hraise : NeverRaises maxBatchSize events) :
    (Runs.run Drain.step (.start maxBatchSize) events).Accounted := by
  refine Runs.invariant_run (I := Drain.Accounted) ?_ accounted_start hraise
  exact fun _ event h hevent => accounted_step h event hevent

/-- **The loop keeps every request, and goes on, exactly while the executor does
not raise.** -/
theorem keepsRequests_iff (maxBatchSize : ℕ) (events : List (DrainEvent π φ τ ρ ε)) :
    (∀ before later, events = before ++ later →
        KeepsRequests (Runs.run Drain.step (.start maxBatchSize) before)) ↔
      NeverRaises maxBatchSize events := by
  constructor
  · intro hkeeps
    refine Runs.along_iff.mpr fun before event later heq error hevent batch hloop => ?_
    subst hevent
    have hended : (Runs.run Drain.step (.start maxBatchSize)
        (before ++ [.raise error])).loop = .ended (.raised error) := by
      rw [Runs.run_append]
      simp [Drain.step, hloop]
    have hkept := hkeeps (before ++ [.raise error]) later (by simp [heq])
    have hgoes := (hkept fun batch hbatch => by simp [hended] at hbatch).1
    rw [hended] at hgoes
    exact absurd hgoes (by simp)
  · rintro hraise before later rfl
    exact (accounted_run (Runs.along_append.mp hraise).1).keepsRequests

end Steps

/-- The executor raises on the first of two batches: the request of that batch is
gone, its future is never resolved, and the other one is not served either. -/
theorem not_keepsRequests_raised :
    let request (id route : String) : Request Unit := ⟨id, "tenant", route, ()⟩
    let d : Drain Unit ℕ ℕ Unit Unit := Runs.run Drain.step (.start 16) [
      .submit (request "1" "a") 1 0, .submit (request "2" "b") 2 1, .wake 2, .raise (),
      .wake 3, .resolve fun _ => .result ()]
    ¬KeepsRequests d ∧ d.resolved = [] ∧ d.history.pending = [(request "2" "b", 2)] ∧
      ∀ events, (Runs.run Drain.step d events).resolved = [] := by
  intro request d
  have hended : d.loop = .ended (.raised ()) := by decide +kernel
  have hresolved : d.resolved = [] := by decide +kernel
  refine ⟨fun hkeeps => ?_, hresolved, by decide +kernel, fun events => ?_⟩
  · have hgoes := (hkeeps fun batch hbatch => by simp [hended] at hbatch).1
    rw [hended] at hgoes
    exact absurd hgoes (by simp)
  · rw [← hresolved]
    exact (run_of_ended hended).2

end Serving
