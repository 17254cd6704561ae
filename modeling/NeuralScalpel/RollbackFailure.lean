/-
Failed rollbacks and the calls they happen in.

A rollback that fails does not raise: it quarantines the worker and returns,
and the caller has to look at the phase.  `infer` does.  `ensureRoute` goes on
to a swap, which the quarantine refuses, unless the target is the base model
and there is nothing left to do; `clearActiveRoute` never looks.

* `performRollback_cases` — the outcomes of a rollback, with what each leaves;
* `performRollback_outcome` — when a rollback fails, and what it leaves;
* `failsLoudly_iff` — the calls in which a failed rollback is silent;
* `along_failsLoudly_iff` — the same over runs.
-/
import NeuralScalpel.LeaveNoTrace

open Effect

namespace Runtime

variable {w : Worker} {β : Type} {rt : Runtime}

/-- A rollback from this state fails: a layer cannot be restored, or a digest
differs from the one taken with its snapshot. -/
def RollbackFails (w : Worker) (faults : RollbackFaults) (rt : Runtime) : Prop :=
  match restoreLayers w faults rt.golden rt.store with
  | .error _ _ => True
  | .ok _ store => verifyRollback w faults rt.golden store = .ok false

/-- If a rollback inside the call fails, the call raises. -/
def FailsLoudly (w : Worker) (rt : Runtime) (call : Call β) : Prop :=
  (returned (perform w call) rt).isSome = true →
    ∀ e ∈ eventsSince rt (rt.afterCall w call), e.isRollbackFailed = false

/-- A rollback of the active route fails in a call that returns all the same: a
return to the base model, or a cleanup. -/
def SilentRollback (w : Worker) (rt : Runtime) : Call β → Prop
  | .infer _ => False
  | .ensureRoute activation => rt.phase ≠ .workerQuarantined ∧ rt.activeRouteId ≠ baseRoute ∧
      activation.routeId = baseRoute ∧ RollbackFails w activation.env.resident rt
  | .clearActiveRoute env => rt.activeRouteId ≠ baseRoute ∧ RollbackFails w env.resident rt

/-- No rollback has failed in between. -/
abbrev NoFailure : Runtime → Runtime → Prop := Emits fun e => e.isRollbackFailed = false

theorem swapFrame_noFailure : SwapFrame NoFailure :=
  swapFrame_emits (fun _ => rfl) fun _ _ => rfl

/-- A swap reports no failed rollback. -/
theorem swapIn_noFailure (env : Environment) (routeId : String) (routeData : Manifest)
    (deltas : Dict String Tensor) : Keeps NoFailure (swapIn w env routeId routeData deltas) :=
  keeps_swapIn swapFrame_noFailure (fun _ _ _ => Appends.one rfl rfl) routeId

/-- What a rollback from this state comes to: the base weights verified, or a
failure, or a digest that cannot be computed. -/
def rollbackOutcome (w : Worker) (faults : RollbackFaults) (rt : Runtime) : Except PyError Bool :=
  match restoreLayers w faults rt.golden rt.store with
  | .error _ _ => .ok false
  | .ok _ store => verifyRollback w faults rt.golden store

theorem rollbackFails_iff {faults : RollbackFaults} :
    RollbackFails w faults rt ↔ rollbackOutcome w faults rt = .ok false := by
  unfold RollbackFails rollbackOutcome
  cases restoreLayers w faults rt.golden rt.store with
  | ok _ store => exact Iff.rfl
  | error e store => exact iff_of_true trivial rfl

/-- A rollback by its outcome, with the phase it ends in and what it reports. -/
theorem performRollback_cases (faults : RollbackFaults) (routeId : String) (rt : Runtime) :
    wp (performRollback w faults routeId)
      (fun _ rt' =>
        (rollbackOutcome w faults rt = .ok false ∧ rt'.phase = .workerQuarantined ∧
          rt'.trace = rt.trace ++
            [.phaseSet .rollingBack, .rollbackFailed, .phaseSet .workerQuarantined]) ∨
        (rollbackOutcome w faults rt = .ok true ∧ rt'.phase = .ready ∧
          rt'.trace = rt.trace ++ [.phaseSet .rollingBack, .phaseSet .ready]))
      (fun e rt' => rollbackOutcome w faults rt = .error e ∧ rt'.phase = .rollingBack ∧
        rt'.trace = rt.trace ++ [.phaseSet .rollingBack]) rt := by
  refine wp_performRollback fun machine hmachine => ?_
  rw [rollback, wp_bind, wp_get, wp_zoom, wp]
  simp only [setMachine_golden, setMachine_store]
  unfold rollbackOutcome
  rcases restoreLayers w faults rt.golden rt.store with ⟨u, store⟩ | ⟨e, store⟩
  · -- all layers are restored: the digests decide
    refine ⟨fun hv m hm => Or.inr ⟨hv, hm, ?_⟩, fun hv m hm => Or.inl ⟨hv, hm, ?_⟩,
      fun e he => ⟨he, hmachine, ?_⟩⟩
    all_goals simp [*]
  · -- a layer is not
    refine fun m hm => Or.inl ⟨rfl, hm, ?_⟩
    simp [*]

/-- A rollback that fails says so and quarantines the worker; one that does not
says nothing. -/
theorem performRollback_outcome (faults : RollbackFaults) (routeId : String) (rt : Runtime) :
    wp (performRollback w faults routeId)
      (fun _ rt' =>
        (RollbackFails w faults rt ∧ rt'.phase = .workerQuarantined ∧
          .rollbackFailed ∈ eventsSince rt rt') ∨
        (¬RollbackFails w faults rt ∧ rt'.phase = .ready ∧ NoFailure rt rt'))
      (fun _ rt' => ¬RollbackFails w faults rt ∧ NoFailure rt rt') rt := by
  refine (performRollback_cases faults routeId rt).mono ?_ ?_
  · rintro _ rt' (⟨hfalse, hphase, htrace⟩ | ⟨htrue, hphase, htrace⟩)
    · refine Or.inl ⟨rollbackFails_iff.mpr hfalse, hphase, ?_⟩
      rw [eventsSince, htrace, List.drop_left]
      simp
    · refine Or.inr ⟨?_, hphase, _, htrace, by simp [Event.isRollbackFailed]⟩
      rw [rollbackFails_iff, htrue]
      simp
  · rintro e rt' ⟨hraised, -, htrace⟩
    refine ⟨?_, _, htrace, by simp [Event.isRollbackFailed]⟩
    rw [rollbackFails_iff, hraised]
    simp

/-! ### The calls -/

/-- A swap is refused unless the worker is ready. -/
theorem swapIn_of_not_ready {env : Environment} {routeId : String} {routeData : Manifest}
    {deltas : Dict String Tensor} (h : rt.phase ≠ .ready) :
    wp (swapIn w env routeId routeData deltas) (fun _ _ => False) (fun _ rt' => rt' = rt) rt := by
  rw [swapIn, wp_bind]
  exact wp_transition (fun hvalid => absurd (ready_of_verifying hvalid) h) fun _ _ => rfl

/-- A route cannot be activated on a quarantined worker. -/
theorem activate_of_quarantined {env : Environment} {routeId : String} {tenant : TenantContext}
    (h : rt.phase = .workerQuarantined) :
    wp (activate w env routeId tenant) (fun _ _ => False) (fun _ _ => True) rt := by
  have hready : rt.phase ≠ .ready := by
    rw [h]
    decide
  have hraises : ∀ {rt₁ : Runtime} {routeData deltas}, rt₁.phase = rt.phase →
      wp (swapIn w env routeId routeData deltas) (fun _ _ => False)
        (fun _ rt₂ => wp (performRollback w env.cycle routeId) (fun _ _ => True)
          (fun _ _ => True) rt₂) rt₁ := fun {rt₁ _ _} heq =>
    (swapIn_of_not_ready (heq ▸ hready)).mono (fun _ _ h => h) fun _ rt₂ _ =>
      Keeps.anything (performRollback w env.cycle routeId) rt₂
  exact wp_activate (fun _ _ => trivial) fun routeData _ =>
    wp_cachedDeltas (fun _ _ => hraises rfl) (fun _ _ _ => hraises rfl) fun _ => trivial

/-- A request does not return after a failed rollback. -/
theorem infer_failsLoudly (request : Request β) (rt : Runtime) :
    wp (serve w request) (fun _ => NoFailure rt) (fun _ _ => True) rt := by
  have hanything := fun rt₁ : Runtime =>
    Keeps.anything (performRollback w request.env.cycle request.routeId) rt₁
  refine wp_infer (fun _ _ => trivial) (fun _ _ => trivial) (fun _ e _ _ _ => ?_) ?_
  · exact (Keeps.anything (applyVerdict (evaluateFailure e.failureClass) request.routeId) rt).mono
      (fun _ _ _ _ => trivial) fun _ _ _ => trivial
  · intro routeData deltas _ _ _
    rw [wp_bind]
    refine (swapIn_noFailure _ _ _ _ rt).mono (fun _ rt₁ h₁ => ?_)
      fun _ rt₁ _ => hanything rt₁
    refine (keeps_runForward swapFrame_noFailure.phase (fun _ => Appends.one rfl rfl)
      request.inferenceFunc rt₁).mono (fun output rt₂ h₂ => ?_) fun _ rt₂ _ => hanything rt₂
    refine (performRollback_outcome _ _ rt₂).mono ?_ fun _ _ _ => trivial
    rintro _ rt₃ (⟨_, hwq, _⟩ | ⟨_, _, h₃⟩)
    · -- the final guard raises
      exact ⟨fun _ _ => trivial, fun hne => absurd hwq hne⟩
    · exact ⟨fun _ _ => trivial, fun _ => trans_of NoFailure h₁ (trans_of NoFailure h₂ h₃)⟩

/-- What `ensureRoute` returns from after the active route has been dropped. -/
theorem ensureFromBase_noFailure (env : Environment) (routeId : String) (tenant : TenantContext)
    (rt : Runtime) :
    wp (ensureFromBase w env routeId tenant) (fun _ => NoFailure rt) (fun _ _ => True) rt := by
  unfold ensureFromBase
  by_cases hbase : routeId = baseRoute
  · rw [if_pos hbase]
    exact refl_of NoFailure rt
  · rw [if_neg hbase]
    have hswap : ∀ {rt₁ : Runtime} {routeData deltas}, NoFailure rt rt₁ →
        wp (swapIn w env routeId routeData deltas)
          (fun _ rt₂ => NoFailure rt
            { rt₂ with activeRouteId := routeId, swapCount := rt₂.swapCount + 1 })
          (fun _ rt₂ => wp (performRollback w env.cycle routeId) (fun _ _ => True)
            (fun _ _ => True) rt₂) rt₁ := fun {rt₁ routeData deltas} h₁ =>
      (swapIn_noFailure env routeId routeData deltas rt₁).mono
        (fun _ _ h₂ => trans_of NoFailure h₁ h₂) fun _ rt₂ _ =>
          Keeps.anything (performRollback w env.cycle routeId) rt₂
    exact wp_activate (fun _ _ => trivial) fun routeData _ =>
      wp_cachedDeltas (fun _ _ => hswap (refl_of NoFailure rt))
        (fun _ _ _ => hswap (Appends.nothing rfl)) fun _ => trivial

theorem ensureRoute_failsLoudly (activation : Activation)
    (h : ¬SilentRollback w rt (.ensureRoute activation : Call β)) :
    wp (ensure w activation) (fun _ => NoFailure rt) (fun _ _ => True) rt := by
  refine wp_ensureRoute (fun _ _ => trivial) (fun _ _ => refl_of NoFailure rt)
    (fun _ _ _ => ensureFromBase_noFailure _ _ _ rt) fun hphase _ hactive => ?_
  refine (performRollback_outcome _ _ rt).mono ?_ fun _ _ _ => trivial
  rintro _ rt₁ (⟨hfails, hwq, _⟩ | ⟨_, _, h₁⟩)
  · -- the rollback has failed and the target is a route: its swap is refused
    have hne : activation.routeId ≠ baseRoute := fun hbase => h ⟨hphase, hactive, hbase, hfails⟩
    rw [ensureFromBase, if_neg hne]
    have hwq' : ({ rt₁ with activeRouteId := baseRoute } : Runtime).phase = .workerQuarantined :=
      hwq
    exact (activate_of_quarantined hwq').mono
      (fun _ _ hfalse => hfalse.elim) fun _ _ _ => trivial
  · exact (ensureFromBase_noFailure _ _ _ _).mono
      (fun _ _ h₂ => trans_of NoFailure (show NoFailure rt _ from h₁) h₂) fun _ _ _ => trivial

theorem clearActiveRoute_failsLoudly (env : Environment)
    (h : ¬SilentRollback w rt (.clearActiveRoute env : Call β)) :
    wp (clearActiveRoute w env) (fun _ => NoFailure rt) (fun _ _ => True) rt := by
  refine wp_clearActiveRoute (fun _ => refl_of NoFailure rt) fun hactive => ?_
  refine (performRollback_outcome _ _ rt).mono ?_ fun _ _ _ => trivial
  rintro _ rt₁ (⟨hfails, _⟩ | ⟨_, _, h₁⟩)
  · exact absurd ⟨hactive, hfails⟩ h
  · exact h₁

/-- A silent rollback does happen: the call returns and a rollback has failed. -/
theorem silent_of_silentRollback {call : Call β} (h : SilentRollback w rt call) :
    wp (perform w call) (fun _ rt' => .rollbackFailed ∈ eventsSince rt rt') (fun _ _ => False)
      rt := by
  cases call with
  | infer request => exact h.elim
  | ensureRoute activation =>
    obtain ⟨hphase, hactive, hbase, hfails⟩ := h
    rw [perform, wp_map]
    refine wp_ensureRoute (fun hwq => absurd hwq hphase)
      (fun _ heq => absurd (heq.trans hbase) hactive) (fun _ _ heq => absurd heq hactive)
      fun _ _ _ => ?_
    refine (performRollback_outcome _ _ rt).mono ?_ fun _ _ hnot => hnot.1 hfails
    rintro _ rt₁ (⟨_, _, hmem⟩ | ⟨hnot, _⟩)
    · rw [ensureFromBase, if_pos hbase]
      exact hmem
    · exact absurd hfails hnot
  | clearActiveRoute env =>
    obtain ⟨hactive, hfails⟩ := h
    rw [perform, wp_map]
    refine wp_clearActiveRoute (fun heq => absurd heq hactive) fun _ => ?_
    refine (performRollback_outcome _ _ rt).mono ?_ fun _ _ hnot => hnot.1 hfails
    rintro _ rt₁ (⟨_, _, hmem⟩ | ⟨hnot, _⟩)
    · exact hmem
    · exact absurd hfails hnot

/-- A failed rollback makes the call raise, unless it is the rollback of the
active route in a return to the base model or in a cleanup. -/
theorem failsLoudly_iff (w : Worker) (rt : Runtime) (call : Call β) :
    FailsLoudly w rt call ↔ ¬SilentRollback w rt call := by
  constructor
  · intro hloud hsilent
    obtain ⟨hreturns, hraises⟩ := wp_iff.mp (silent_of_silentRollback hsilent)
    rcases hr : returned (perform w call) rt with _ | reply
    · exact hraises hr
    · have hsome : (returned (perform w call) rt).isSome = true := by
        rw [hr]
        rfl
      exact absurd (hloud hsome _ (hreturns reply hr)) (by simp [Event.isRollbackFailed])
  · intro hnot
    have hwp : wp (perform w call) (fun _ => NoFailure rt) (fun _ _ => True) rt := by
      cases call with
      | infer request =>
        rw [perform, wp_map]
        exact infer_failsLoudly request rt
      | ensureRoute activation =>
        rw [perform, wp_map]
        exact ensureRoute_failsLoudly activation hnot
      | clearActiveRoute env =>
        rw [perform, wp_map]
        exact clearActiveRoute_failsLoudly env hnot
    intro hsome e he
    obtain ⟨reply, hr⟩ := Option.isSome_iff_exists.mp hsome
    exact ((wp_iff.mp hwp).1 reply hr).of_mem_drop he

/-- **Where failed rollbacks are silent.**  In a run of calls every failed
rollback makes its call raise exactly when no call of the run is a return to the
base model or a cleanup whose rollback of the active route fails. -/
theorem along_failsLoudly_iff (w : Worker) (rt : Runtime) (calls : List (Call β)) :
    Runs.Along (afterCall w) (FailsLoudly w) rt calls ↔
      Runs.Along (afterCall w) (fun rt call => ¬SilentRollback w rt call) rt calls :=
  Runs.along_congr fun rt call => failsLoudly_iff w rt call

/-- A return to the base model whose rollback cannot restore a layer returns
normally. -/
theorem not_failsLoudly_base :
    ¬Runs.Along (afterCall Demo.worker) (FailsLoudly Demo.worker) Demo.start ([
      .ensureRoute ⟨Demo.quiet Demo.noFiles, "r", Demo.tenant⟩,
      .ensureRoute ⟨{ Demo.quiet Demo.noFiles with resident := Demo.stuckRollback }, baseRoute,
        Demo.tenant⟩] : List (Call Unit)) := by
  rintro ⟨_, hloud, _⟩
  exact absurd (hloud (by decide +kernel)) (by decide +kernel)

end Runtime
