/-
Phases a request ends in.

Whatever step of a request raises, its rollback is reached; and the rollback
ends ready or in the worker quarantine, unless computing a digest raises, which
no handler catches.

* `performRollback_settled` — where a rollback ends;
* `serve_settled` — where a request that enters the lock ends;
* `endsSettled_run` — over every run of requests, with the digest that raises.
-/
import NeuralScalpel.RollbackFailure

open Effect

namespace Runtime

variable {w : Worker} {base : Store} {β : Type} {rt : Runtime}

/-- Ready, or quarantined for good. -/
def Settled (rt : Runtime) : Prop := rt.phase = .ready ∨ rt.phase = .workerQuarantined

instance (rt : Runtime) : Decidable (Settled rt) := inferInstanceAs (Decidable (_ ∨ _))

/-- A rollback from this state restores every layer and then fails to compute a
digest before it has found a mismatch. -/
def VerificationRaises (w : Worker) (faults : RollbackFaults) (rt : Runtime) : Prop :=
  match restoreLayers w faults rt.golden rt.store with
  | .error _ _ => False
  | .ok _ store => ∃ e, verifyRollback w faults rt.golden store = .error e

theorem verificationRaises_iff {faults : RollbackFaults} :
    VerificationRaises w faults rt ↔ ∃ e, rollbackOutcome w faults rt = .error e := by
  unfold VerificationRaises rollbackOutcome
  cases restoreLayers w faults rt.golden rt.store with
  | ok _ store => exact Iff.rfl
  | error e store => simp

/-- Where a rollback ends. -/
theorem performRollback_settled (faults : RollbackFaults) (routeId : String) (rt : Runtime) :
    wp (performRollback w faults routeId)
      (fun _ rt' => Settled rt' ∧ ¬VerificationRaises w faults rt)
      (fun _ rt' => rt'.phase = .rollingBack ∧ VerificationRaises w faults rt) rt := by
  refine (performRollback_cases faults routeId rt).mono ?_ ?_
  · rintro _ rt' (⟨hfalse, hphase, -⟩ | ⟨htrue, hphase, -⟩)
    · refine ⟨Or.inr hphase, ?_⟩
      rw [verificationRaises_iff, hfalse]
      simp
    · refine ⟨Or.inl hphase, ?_⟩
      rw [verificationRaises_iff, htrue]
      simp
  · rintro e rt' ⟨hraised, hphase, -⟩
    exact ⟨hphase, verificationRaises_iff.mpr ⟨e, hraised⟩⟩

/-! ### Requests -/

/-- The request gets to the locked section, with this route and these deltas. -/
structure EntersLock (w : Worker) (rt : Runtime) (request : Request β) (routeData : Manifest)
    (deltas : Dict String Tensor) : Prop where
  accepted : rt.phase ≠ .workerQuarantined
  verified : rt.registry.getVerifiedRoute request.routeId w.runtimeModelHash request.tenant =
    .ok routeData
  validated : validatePayload request.env.files w.payloadBaseDir w.maxPayloadBytes routeData =
    .ok deltas

/-- The steps under the lock up to the rollback. -/
def lifecycle (w : Worker) (request : Request β) (routeData : Manifest)
    (deltas : Dict String Tensor) : EStateM PyError Runtime β :=
  swapIn w request.env request.routeId routeData deltas >>= fun _ =>
    runForward request.inferenceFunc

/-- The state in which the rollback of a request starts. -/
def beforeRollback (w : Worker) (rt : Runtime) (request : Request β) (routeData : Manifest)
    (deltas : Dict String Tensor) : Runtime :=
  after (lifecycle w request routeData deltas) rt

/-- A request that has entered the lock ends settled, unless the verification of
its rollback raises. -/
theorem serve_settled {request : Request β} {routeData : Manifest} {deltas : Dict String Tensor}
    (h : EntersLock w rt request routeData deltas) :
    Settled (afterRequest w rt request) ↔
      ¬VerificationRaises w request.env.cycle (beforeRollback w rt request routeData deltas) := by
  set rt₁ := beforeRollback w rt request routeData deltas with hrt₁
  have houtcome : ∀ {rt' : Runtime}, rt'.phase = .rollingBack → ¬Settled rt' := by
    intro rt' hphase hsettled
    rcases hsettled with hready | hwq
    · exact absurd (hphase.symm.trans hready) (by decide)
    · exact absurd (hphase.symm.trans hwq) (by decide)
  -- what the rollback makes of the state it starts in
  have hrollback : wp (performRollback w request.env.cycle request.routeId)
      (fun _ rt' => Settled rt' ↔ ¬VerificationRaises w request.env.cycle rt₁)
      (fun _ rt' => Settled rt' ↔ ¬VerificationRaises w request.env.cycle rt₁) rt₁ :=
    (performRollback_settled _ _ rt₁).mono (fun _ _ ⟨hs, hv⟩ => iff_of_true hs hv)
      fun _ _ ⟨hphase, hv⟩ => iff_of_false (houtcome hphase) (not_not.mpr hv)
  suffices hwp : wp (serve w request)
      (fun _ rt' => Settled rt' ↔ ¬VerificationRaises w request.env.cycle rt₁)
      (fun _ rt' => Settled rt' ↔ ¬VerificationRaises w request.env.cycle rt₁) rt from
    wp_const_iff.mp hwp
  refine wp_infer (fun hwq => absurd hwq h.accepted) (fun e he => ?_)
    (fun routeData' e hroute he _ => ?_) fun routeData' deltas' hroute hvalid _ => ?_
  · rw [h.verified] at he
    cases he
  -- the payload validates, so this is not the way out
  · rw [h.verified] at hroute
    cases hroute
    rw [h.validated] at he
    cases he
  · rw [h.verified] at hroute
    cases hroute
    rw [h.validated] at hvalid
    cases hvalid
    -- whether the lifecycle returns or raises, its rollback starts in the same state
    have hafter : wp (lifecycle w request routeData deltas) (fun _ rt' => rt' = rt₁)
        (fun _ rt' => rt' = rt₁) rt := wp_const_iff.mpr rfl
    refine hafter.mono ?_ ?_
    · rintro output rt' rfl
      exact hrollback.mono (fun _ _ hs => ⟨fun _ _ => hs, fun _ => hs⟩) fun _ _ hs => hs
    · rintro e rt' rfl
      exact hrollback

/-! ### Digests -/

/-- Over snapshots of the base weights, only a digest that cannot be computed
makes the verification raise. -/
theorem verifyLayers_error {faults : RollbackFaults} {golden : Golden} (hok : golden.Ok w base)
    {store : Store} {e : PyError} : ∀ {entries : List (String × String)} {i : ℕ},
    (∀ entry ∈ entries, entry ∈ golden.checksums.entries) →
      verifyLayers w faults golden store i entries = .error e →
      ∃ j message, faults.checksum j = .raised message := by
  intro entries
  induction entries with
  | nil =>
    intro i _ h
    cases h
  | cons entry entries ih =>
    intro i hmem h
    obtain ⟨name, expected⟩ := entry
    obtain ⟨address, hmapped, -⟩ :=
      hok.digest (Dict.mem_entries_iff.mp (hmem _ List.mem_cons_self))
    rw [verifyLayers, hmapped.subscript_eq] at h
    rcases bind_eq_error.mp h with hsub | ⟨address', -, h⟩
    · cases hsub
    · rcases bind_eq_error.mp h with hread | ⟨actual, -, h⟩
      · cases hdigest : faults.checksum i with
        | raised message => exact ⟨i, message, hdigest⟩
        | computed =>
          rw [hdigest] at hread
          cases hread
        | drifted other =>
          rw [hdigest] at hread
          cases hread
      -- a mismatch ends the loop without an exception
      · by_cases hne : actual ≠ expected
        · rw [if_pos hne] at h
          cases h
        · rw [if_neg hne] at h
          exact ih (fun e' he' => hmem e' (List.mem_cons_of_mem _ he')) h

theorem raised_of_verificationRaises {faults : RollbackFaults} (hok : rt.golden.Ok w base)
    (h : VerificationRaises w faults rt) : ∃ j message, faults.checksum j = .raised message := by
  unfold VerificationRaises at h
  cases hrestore : restoreLayers w faults rt.golden rt.store with
  | error e store =>
    rw [hrestore] at h
    exact h.elim
  | ok u store =>
    rw [hrestore] at h
    obtain ⟨e, he⟩ := h
    exact verifyLayers_error hok (fun _ h => h) he

/-! ### Runs of requests -/

/-- A request that enters the lock ends settled. -/
def EndsSettled (w : Worker) (rt : Runtime) (request : Request β) : Prop :=
  (∃ routeData deltas, EntersLock w rt request routeData deltas) →
    Settled (afterRequest w rt request)

/-- The rollback of a request that enters the lock raises in its verification. -/
def StaysRollingBack (w : Worker) (rt : Runtime) (request : Request β) : Prop :=
  ∃ routeData deltas, EntersLock w rt request routeData deltas ∧
    VerificationRaises w request.env.cycle (beforeRollback w rt request routeData deltas)

theorem endsSettled_iff (w : Worker) (rt : Runtime) (request : Request β) :
    EndsSettled w rt request ↔ ¬StaysRollingBack w rt request := by
  constructor
  · rintro hends ⟨routeData, deltas, henters, hraises⟩
    exact (serve_settled henters).mp (hends ⟨routeData, deltas, henters⟩) hraises
  · rintro hnot ⟨routeData, deltas, henters⟩
    exact (serve_settled henters).mpr fun hraises => hnot ⟨routeData, deltas, henters, hraises⟩

/-- In a run of requests a verification raises only if a digest cannot be
computed. -/
theorem raised_of_staysRollingBack {request : Request β} (h : Undisturbed w base rt)
    (hstays : StaysRollingBack w rt request) :
    ∃ j message, request.env.cycle.checksum j = .raised message := by
  obtain ⟨routeData, deltas, henters, hraises⟩ := hstays
  -- the swap and the forward pass leave snapshots of the base weights
  have hrecoverable : Recoverable w base (beforeRollback w rt request routeData deltas) :=
    wp_const_iff.mp (swapAndForward_spec request.inferenceFunc h.recoverable
      (h.restored henters.accepted))
  exact raised_of_verificationRaises hrecoverable.golden hraises

/-- **Where requests end.**  In every run of requests to a fresh worker, a
request that enters the lock ends ready or quarantined exactly when the
verification of its rollback does not raise, and it raises only where computing
a digest does. -/
theorem endsSettled_run (w : Worker) (registry : RouteRegistry) (base : Store)
    (requests : List (Request β)) :
    Runs.Along (afterRequest w)
      (fun rt request => (EndsSettled w rt request ↔ ¬StaysRollingBack w rt request) ∧
        (StaysRollingBack w rt request →
          ∃ j message, request.env.cycle.checksum j = .raised message))
      (fresh registry base) requests := by
  refine (Runs.along_true (fresh registry base) requests).of_invariant (I := Undisturbed w base)
    (fun rt request h _ => afterRequest_undisturbed request h) (fun rt request h _ => ?_)
    (undisturbed_fresh w registry base)
  exact ⟨endsSettled_iff w rt request, raised_of_staysRollingBack h⟩

/-- The first digest of the verification cannot be computed: the phase stays
where the rollback has put it. -/
theorem not_endsSettled_digest :
    let failing : Request Unit :=
      ⟨{ Demo.quiet Demo.noFiles with cycle := ⟨fun _ => none, fun _ => .raised "device lost"⟩ },
        "r", Demo.tenant, fun _ => .ok ()⟩
    (afterRequest Demo.worker Demo.start failing).phase = .rollingBack ∧
      ¬Runs.Along (afterRequest Demo.worker) (EndsSettled Demo.worker) Demo.start [failing] := by
  intro failing
  have hphase : (afterRequest Demo.worker Demo.start failing).phase = .rollingBack :=
    by decide +kernel
  refine ⟨hphase, ?_⟩
  rintro ⟨hends, -⟩
  have henters : EntersLock Demo.worker Demo.start failing (Demo.route "r" none [Demo.layer "w"])
      .empty := ⟨by decide, rfl, rfl⟩
  have hsettled := hends ⟨_, _, henters⟩
  unfold Settled at hsettled
  rw [hphase] at hsettled
  exact absurd hsettled (by decide)

end Runtime
