/-
The worker quarantine over runs of calls.

The table lets nothing out of the worker quarantine, and `infer` and
`ensureRoute` refuse to work in it.  `clearActiveRoute` has no guard, and a
rollback writes the phase past the table:

* `afterCall_of_quarantined` — a quarantined worker ignores a call, unless the
  call is a cleanup of a route left active;
* `quarantineAbsorbs_iff` — so the quarantine absorbs a run exactly when no
  cleanup of a quarantined worker meets an active route;
* `not_quarantineAbsorbs_cleanup` — a run in which one does.
-/
import NeuralScalpel.LeaveNoTrace

open Effect

/-- A write of a phase other than the worker quarantine, a weight delta or a
forward pass. -/
def Event.Disturbs : Event → Prop
  | .phaseSet phase => phase ≠ .workerQuarantined
  | .deltaAdded _ _ => True
  | .forward _ => True
  | _ => False

namespace Runtime

variable {w : Worker} {β : Type}

/-- Once the phase has been the worker quarantine after some calls of the run,
no later call moves the worker to another phase, adds a weight delta or runs an
inference function. -/
def QuarantineAbsorbs (w : Worker) (rt : Runtime) (calls : List (Call β)) : Prop :=
  ∀ earlier between call later, calls = earlier ++ between ++ call :: later →
    (Runs.run (afterCall w) rt earlier).phase = .workerQuarantined →
    let rt₁ := Runs.run (afterCall w) rt (earlier ++ between)
    (rt₁.afterCall w call).phase = .workerQuarantined ∧
      ∀ e ∈ eventsSince rt₁ (rt₁.afterCall w call), ¬e.Disturbs

/-! ### A quarantined worker -/

/-- A quarantined worker ignores a call, unless the call is a cleanup of a route
left active. -/
theorem afterCall_of_quarantined {rt : Runtime} {call : Call β}
    (hphase : rt.phase = .workerQuarantined)
    (hclear : ∀ env, call = .clearActiveRoute env → rt.activeRouteId = baseRoute) :
    rt.afterCall w call = rt := by
  have hignored : wp (perform w call) (fun _ rt' => rt' = rt) (fun _ rt' => rt' = rt) rt := by
    cases call with
    | infer request =>
      rw [perform, wp_map]
      exact wp_infer (fun _ _ => rfl) (fun _ _ => rfl) (fun _ _ _ _ hne => absurd hphase hne)
        fun _ _ _ _ hne => absurd hphase hne
    | ensureRoute activation =>
      rw [perform, wp_map]
      exact wp_ensureRoute (fun _ _ => rfl) (fun hne => absurd hphase hne)
        (fun hne => absurd hphase hne) fun hne => absurd hphase hne
    | clearActiveRoute env =>
      rw [perform, wp_map]
      exact wp_clearActiveRoute (fun _ => rfl) fun hne => absurd (hclear env rfl) hne
  exact wp_const_iff.mp hignored

/-- A quarantined worker ignores a run without such cleanups. -/
theorem run_of_quarantined : ∀ {calls : List (Call β)} {rt : Runtime},
    rt.phase = .workerQuarantined →
    (∀ before env later, calls = before ++ .clearActiveRoute env :: later →
      (Runs.run (afterCall w) rt before).phase = .workerQuarantined →
      (Runs.run (afterCall w) rt before).activeRouteId = baseRoute) →
    Runs.run (afterCall w) rt calls = rt := by
  intro calls
  induction calls with
  | nil => exact fun _ _ => rfl
  | cons call calls ih =>
    intro rt hphase hclear
    have hstep : rt.afterCall w call = rt := by
      refine afterCall_of_quarantined hphase fun env hcall => ?_
      exact hclear [] env calls (by rw [hcall, List.nil_append]) hphase
    rw [Runs.run_cons, hstep]
    refine ih hphase fun before env later hcalls => ?_
    have h := hclear (call :: before) env later (by rw [hcalls, List.cons_append])
    rwa [Runs.run_cons, hstep] at h

/-! ### The cleanup -/

/-- Every rollback goes through the rolling-back phase. -/
theorem performRollback_disturbs (faults : RollbackFaults) (routeId : String) (rt : Runtime) :
    wp (performRollback w faults routeId)
      (fun _ rt' => .phaseSet .rollingBack ∈ eventsSince rt rt')
      (fun _ rt' => .phaseSet .rollingBack ∈ eventsSince rt rt') rt := by
  have hmem : ∀ {rt' : Runtime} es, rt'.trace = rt.trace ++ [.phaseSet .rollingBack] ++ es →
      .phaseSet .rollingBack ∈ eventsSince rt rt' := fun {rt'} es htrace => by
    rw [eventsSince, htrace, List.append_assoc, List.drop_left]
    exact List.mem_cons_self
  refine wp_performRollback fun machine hmachine => ?_
  refine (keeps_rollback (R := Same trace) (fun _ _ _ => rfl) w faults _).mono ?_ ?_
  · intro _ r hr
    have hr : r.trace = rt.trace ++ [.phaseSet .rollingBack] ++ [] := by
      rw [hr, setMachine_trace, hmachine, List.append_nil]
    refine ⟨fun _ m _ => hmem [.phaseSet m.phase] ?_,
      fun _ m _ => hmem [.rollbackFailed, .phaseSet m.phase] ?_, fun _ _ => hmem [] hr⟩
    · rw [setMachine_trace, hr, List.append_nil]
    · rw [setMachine_trace, hr]
      simp
  · intro _ r hr m _
    refine hmem [.rollbackFailed, .phaseSet m.phase] ?_
    have hr : r.trace = rt.trace ++ [.phaseSet .rollingBack] := by
      rw [hr, setMachine_trace, hmachine]
    rw [setMachine_trace, hr]
    simp

/-- A cleanup of an active route disturbs any worker. -/
theorem clearActiveRoute_disturbs {rt : Runtime} (env : Environment)
    (hactive : rt.activeRouteId ≠ baseRoute) :
    .phaseSet .rollingBack ∈
      eventsSince rt (rt.afterCall w (.clearActiveRoute env : Call β)) := by
  have hwp : wp (perform w (.clearActiveRoute env : Call β))
      (fun _ rt' => .phaseSet .rollingBack ∈ eventsSince rt rt')
      (fun _ rt' => .phaseSet .rollingBack ∈ eventsSince rt rt') rt := by
    rw [perform, wp_map]
    exact wp_clearActiveRoute (fun hbase => absurd hbase hactive) fun _ =>
      (performRollback_disturbs _ _ rt).mono (fun _ _ h => h) fun _ _ h => h
  exact wp_const_iff.mp hwp

/-- **The quarantine absorbs a run exactly when no cleanup of a quarantined
worker meets a route left active.** -/
theorem quarantineAbsorbs_iff (w : Worker) (rt : Runtime) (calls : List (Call β)) :
    QuarantineAbsorbs w rt calls ↔
      ∀ before env later, calls = before ++ .clearActiveRoute env :: later →
        (Runs.run (afterCall w) rt before).phase = .workerQuarantined →
        (Runs.run (afterCall w) rt before).activeRouteId = baseRoute := by
  constructor
  · -- a cleanup that finds a route active writes another phase
    intro h before env later hcalls hphase
    by_contra hactive
    obtain ⟨_, hquiet⟩ := h before [] (.clearActiveRoute env) later
      (by rw [hcalls, List.append_nil]) hphase
    rw [List.append_nil] at hquiet
    exact hquiet _ (clearActiveRoute_disturbs env hactive) (by simp [Event.Disturbs])
  · intro h earlier between call later hcalls hphase rt₁
    -- from the quarantine on the state does not change
    have hstay : rt₁ = Runs.run (afterCall w) rt earlier := by
      show Runs.run (afterCall w) rt (earlier ++ between) = _
      rw [Runs.run_append]
      refine run_of_quarantined hphase fun before env rest hbetween hwq => ?_
      rw [← Runs.run_append] at hwq ⊢
      exact h (earlier ++ before) env (rest ++ call :: later) (by simp [hcalls, hbetween]) hwq
    have hphase₁ : rt₁.phase = .workerQuarantined := hstay ▸ hphase
    have hstep : rt₁.afterCall w call = rt₁ := by
      refine afterCall_of_quarantined hphase₁ fun env hcall => ?_
      exact h (earlier ++ between) env later (by rw [hcalls, hcall]) hphase₁
    rw [hstep, eventsSince, List.drop_length]
    exact ⟨hphase₁, fun e he => absurd he List.not_mem_nil⟩

/-- A request whose rollback fails quarantines a worker on which a route is
active, and the cleanup then makes it ready again. -/
theorem not_quarantineAbsorbs_cleanup :
    let calls : List (Call Unit) := [
      .ensureRoute ⟨Demo.quiet Demo.noFiles, "r", Demo.tenant⟩,
      .infer ⟨{ Demo.quiet Demo.noFiles with cycle := Demo.stuckRollback }, "s", Demo.tenant,
        fun _ => .ok ()⟩,
      .clearActiveRoute (Demo.quiet Demo.noFiles)]
    ¬QuarantineAbsorbs Demo.worker Demo.start calls := by
  intro calls h
  have hready := (h (calls.take 2) [] (.clearActiveRoute (Demo.quiet Demo.noFiles)) [] rfl
    (by decide +kernel)).1
  exact absurd hready (by decide +kernel)

end Runtime
