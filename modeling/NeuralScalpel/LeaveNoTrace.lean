/-
Transactional inference leaves no trace.

Between requests of the transactional gateway a worker that is not quarantined
has its base weights, whichever step of which request raised.  The invariant is
`Undisturbed`: the golden snapshots lead back to the base weights, and unless
the worker is quarantined it is already there.

* `infer_undisturbed` — one request keeps the invariant;
* `undisturbed_run` — so does every run of requests;
* `store_eq_base_of_ready` — a ready worker has its base weights, exactly.
-/
import NeuralScalpel.Gateways

open Effect

namespace Runtime

variable {w : Worker} {base : Store} {β : Type}

/-- The golden snapshots lead back to the base weights, and a worker that is
not quarantined has them. -/
structure Undisturbed (w : Worker) (base : Store) (rt : Runtime) : Prop where
  recoverable : Recoverable w base rt
  restored : rt.phase ≠ .workerQuarantined → rt.store = base

theorem undisturbed_fresh (w : Worker) (registry : RouteRegistry) (base : Store) :
    Undisturbed w base (fresh registry base) where
  recoverable := .of_base rfl Golden.ok_empty
  restored _ := rfl

theorem Undisturbed.of_base {rt : Runtime} (h : Recoverable w base rt) (hstore : rt.store = base) :
    Undisturbed w base rt := ⟨h, fun _ => hstore⟩

/-- A rollback brings an undisturbed state back from any recoverable one. -/
theorem performRollback_undisturbed {faults : RollbackFaults} {routeId : String} {rt : Runtime}
    (h : Recoverable w base rt) :
    wp (performRollback w faults routeId) (fun _ => Undisturbed w base)
      (fun _ => Undisturbed w base) rt := by
  refine (performRollback_spec h).mono ?_ fun _ _ ⟨hrec, hstore⟩ => .of_base hrec hstore
  rintro _ rt' ⟨hrec, hwq | ⟨_, hstore⟩⟩
  · -- a failed rollback may leave deltas behind, on a quarantined worker only
    exact ⟨hrec, fun hne => absurd hwq hne⟩
  · exact .of_base hrec hstore

/-- The swap and the forward pass of a request, from a worker that has its base
weights: the state stays recoverable. -/
theorem swapAndForward_spec {env : Environment} {routeId : String} {routeData : Manifest}
    {deltas : Dict String Tensor} {rt : Runtime} (f : Store → Except PyError β)
    (h : Recoverable w base rt) (hstore : rt.store = base) :
    wp (swapIn w env routeId routeData deltas >>= fun _ => runForward f)
      (fun _ => Recoverable w base) (fun _ => Recoverable w base) rt := by
  rw [wp_bind]
  refine (swapIn_spec h fun _ => hstore).mono ?_ fun _ _ h => h
  rintro _ rt₁ ⟨hrec, hphase, _⟩
  exact wp_runForward hphase (fun _ _ _ => hrec.congr rfl rfl) fun _ _ _ => hrec.congr rfl rfl

/-- One request, whatever raises in it, keeps the worker undisturbed. -/
theorem infer_undisturbed {rt : Runtime} (request : Request β) (h : Undisturbed w base rt) :
    wp (serve w request) (fun _ => Undisturbed w base) (fun _ => Undisturbed w base) rt := by
  refine wp_infer (fun _ _ => h) (fun _ _ => h) ?_ ?_
  · -- a rejected payload touches neither the weights nor the snapshots
    intro routeData e _ _ hphase
    have hframe : ∀ rt', Same (fun rt : Runtime => (rt.store, rt.golden)) rt rt' →
        Undisturbed w base rt' := fun rt' hsame => by
      obtain ⟨hstore, hgolden⟩ := Prod.mk.inj hsame
      exact .of_base (h.recoverable.congr hstore hgolden) (hstore.trans (h.restored hphase))
    exact (keeps_applyVerdict (R := Same fun rt : Runtime => (rt.store, rt.golden))
      (fun _ _ => rfl) (fun _ _ _ => rfl) _ _ rt).mono (fun _ rt' hs _ => hframe rt' hs)
      fun _ rt' hs => hframe rt' hs
  · -- whether the cycle returns or raises, its rollback starts in a recoverable state
    intro routeData deltas _ _ hphase
    refine (swapAndForward_spec request.inferenceFunc h.recoverable (h.restored hphase)).mono
      (fun output rt₁ hrec => ?_) fun _ rt₁ hrec => performRollback_undisturbed hrec
    exact (performRollback_undisturbed hrec).mono (fun _ _ hu => ⟨fun _ _ => hu, fun _ => hu⟩)
      fun _ _ hu => hu

theorem afterRequest_undisturbed {rt : Runtime} (request : Request β) (h : Undisturbed w base rt) :
    Undisturbed w base (afterRequest w rt request) :=
  wp_const_iff.mp (infer_undisturbed request h)

/-- Every run of requests keeps the worker undisturbed. -/
theorem undisturbed_run (requests : List (Request β)) {rt : Runtime} (h : Undisturbed w base rt) :
    Undisturbed w base (Runs.run (afterRequest w) rt requests) :=
  Runs.invariant_run_of_step (fun _ request h => afterRequest_undisturbed request h) h

/-- **Transactional inference leaves no trace.**  After any sequence of requests
to a fresh worker, whichever of their steps raised, a ready worker has exactly
the weights it started with. -/
theorem store_eq_base_of_ready (w : Worker) (registry : RouteRegistry) (base : Store)
    (requests : List (Request β)) :
    (Runs.run (afterRequest w) (fresh registry base) requests).phase = .ready →
      (Runs.run (afterRequest w) (fresh registry base) requests).store = base := by
  intro hready
  refine (undisturbed_run requests (undisturbed_fresh w registry base)).restored fun hwq => ?_
  rw [hready] at hwq
  exact absurd hwq (by decide)

/-- A run of two requests, in the first of which adding the delta raises. -/
theorem store_eq_base_of_ready_two :
    let failing : Request Unit :=
      ⟨{ Demo.quiet Demo.noFiles with swap := ⟨fun _ => none, fun _ => none, fun _ => some "oom"⟩ },
        "r", Demo.tenant, fun _ => .ok ()⟩
    let passing : Request Unit := ⟨Demo.quiet Demo.noFiles, "s", Demo.tenant, fun _ => .ok ()⟩
    (Runs.run (afterRequest Demo.worker) Demo.start [failing, passing]).phase = .ready ∧
      (Runs.run (afterRequest Demo.worker) Demo.start [failing, passing]).store = Demo.base := by
  intro failing passing
  have hready :
      (Runs.run (afterRequest Demo.worker) Demo.start [failing, passing]).phase = .ready :=
    by decide +kernel
  exact ⟨hready, store_eq_base_of_ready Demo.worker _ Demo.base [failing, passing] hready⟩

end Runtime
