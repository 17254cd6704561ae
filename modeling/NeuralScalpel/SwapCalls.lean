/-
What a call does around its swap.

A call gets to one swap at most.  Before and after it the call writes phases,
reads, and rolls back: it adds no delta, and leaves the golden snapshots and
the layouts of the live tensors alone.

* `Idle` — the steps of a call outside its swap;
* `Swaps` — the call gets to the capture of a route;
* `wp_perform_of_swapIn` — what idle steps and the swap keep, the call keeps.
-/
import NeuralScalpel.PayloadQuarantine
import NeuralScalpel.RollbackFailure

open Effect

namespace Runtime

variable {w : Worker} {β : Type} {rt : Runtime}

/-! ### Idle steps -/

/-- The golden snapshots and the layouts of the live tensors are left alone, and
no delta is added. -/
structure Idle (rt rt' : Runtime) : Prop where
  golden : rt'.golden = rt.golden
  layout : KeepsLayout rt rt'
  noDelta : NoDelta rt rt'

instance : IsPreorder Runtime Idle where
  refl rt := ⟨rfl, refl_of KeepsLayout rt, refl_of NoDelta rt⟩
  trans _ _ _ h h' := ⟨h'.golden.trans h.golden, trans_of KeepsLayout h.layout h'.layout,
    trans_of NoDelta h.noDelta h'.noDelta⟩

theorem idle_of_eq {rt rt' : Runtime} (hgolden : rt'.golden = rt.golden)
    (hstore : rt'.store = rt.store) (htrace : rt'.trace = rt.trace) : Idle rt rt' := by
  refine ⟨hgolden, ?_, Appends.nothing htrace⟩
  rw [KeepsLayout, hstore]
  exact refl_of SameLayouts rt.store

theorem idle_phase (machine : RuntimeStateMachine) (rt : Runtime) :
    Idle rt (setMachine machine rt) := ⟨rfl, refl_of KeepsLayout rt, Appends.one rfl rfl⟩

theorem rollbackFrame_idle : RollbackFrame Idle where
  phase := idle_phase
  restored _ _ h := ⟨rfl, h, Appends.nothing rfl⟩
  counted _ _ := idle_of_eq rfl rfl rfl
  failed rt := ⟨rfl, refl_of KeepsLayout rt, Appends.one rfl rfl⟩

/-! ### Calls -/

/-- The environment of a call. -/
def environment : Call β → Environment
  | .infer request => request.env
  | .ensureRoute activation => activation.env
  | .clearActiveRoute env => env

/-- The call gets to the capture of this route, with the golden snapshots as
they are. -/
def Swaps (w : Worker) (rt : Runtime) (routeData : Manifest) : Call β → Prop
  | .infer request => rt.phase = .ready ∧
      rt.registry.getVerifiedRoute request.routeId w.runtimeModelHash request.tenant =
        .ok routeData ∧
      validates w request.env routeData = true
  | .ensureRoute activation => rt.activeRouteId ≠ activation.routeId ∧
      activation.routeId ≠ baseRoute ∧
      (rt.activeRouteId = baseRoute → rt.phase = .ready) ∧
      (rt.activeRouteId ≠ baseRoute → rt.phase ≠ .workerQuarantined ∧
        rollbackOutcome w activation.env.resident rt = .ok true) ∧
      rt.registry.getVerifiedRoute activation.routeId w.runtimeModelHash activation.tenant =
        .ok routeData ∧
      (rt.validatedDeltaCache.contains activation.routeId = true ∨
        validates w activation.env routeData = true)
  | .clearActiveRoute _ => False

section Calls

variable {A : Runtime → Prop}

/-- An idle program keeps what idle steps keep. -/
theorem wp_of_idle {α : Type} {m : EStateM PyError Runtime α}
    (hA : ∀ rt₁ rt₂, A rt₁ → Idle rt₁ rt₂ → A rt₂) (hm : Keeps Idle m) (h : A rt) :
    wp m (fun _ => A) (fun _ => A) rt :=
  (hm rt).mono (fun _ _ hidle => hA _ _ h hidle) fun _ _ hidle => hA _ _ h hidle

theorem keeps_performRollback_idle (w : Worker) (faults : RollbackFaults) (routeId : String) :
    Keeps Idle (performRollback w faults routeId) :=
  keeps_performRollback rollbackFrame_idle w faults routeId

/-- A request is idle before and after its swap. -/
theorem wp_infer_of_swapIn (hA : ∀ rt₁ rt₂, A rt₁ → Idle rt₁ rt₂ → A rt₂) (request : Request β)
    (h : A rt)
    (hswap : ∀ routeData deltas, Swaps w rt routeData (.infer request) →
      wp (swapIn w request.env request.routeId routeData deltas) (fun _ => A) (fun _ => A) rt) :
    wp (serve w request) (fun _ => A) (fun _ => A) rt := by
  have hrollback : ∀ {rt₁}, A rt₁ → wp (performRollback w request.env.cycle request.routeId)
      (fun _ => A) (fun _ => A) rt₁ := wp_of_idle hA (keeps_performRollback_idle w _ _)
  refine wp_infer (fun _ _ => h) (fun _ _ => h) (fun _ e _ _ _ => ?_) ?_
  · have hverdict : Keeps Idle (applyVerdict (evaluateFailure e.failureClass) request.routeId) :=
      keeps_applyVerdict idle_phase (fun _ _ _ => idle_of_eq rfl rfl rfl) _ _
    exact (wp_of_idle hA hverdict h).mono (fun _ _ h _ => h) fun _ _ h => h
  · intro routeData deltas hroute hvalid _
    have hcycle : wp (swapIn w request.env request.routeId routeData deltas) (fun _ => A)
        (fun _ => A) rt := by
      by_cases hready : rt.phase = .ready
      · exact hswap routeData deltas ⟨hready, hroute, validates_of_eq_ok hvalid⟩
      · -- the swap is refused before the capture
        exact (swapIn_of_not_ready hready).mono (fun _ _ h => h.elim) fun _ _ heq => heq ▸ h
    rw [wp_bind]
    refine hcycle.mono (fun _ rt₁ h₁ => ?_) fun _ rt₁ h₁ => hrollback h₁
    have hforward : Keeps Idle (runForward request.inferenceFunc) :=
      keeps_runForward idle_phase (fun _ => ⟨rfl, refl_of KeepsLayout _, Appends.one rfl rfl⟩) _
    refine (wp_of_idle hA hforward h₁).mono (fun _ rt₂ h₂ => ?_) fun _ rt₂ h₂ => hrollback h₂
    exact (hrollback h₂).mono (fun _ _ h₃ => ⟨fun _ _ => h₃, fun _ => h₃⟩) fun _ _ h₃ => h₃

/-- An activation is idle before and after its swap. -/
theorem wp_activate_of_swapIn (hA : ∀ rt₁ rt₂, A rt₁ → Idle rt₁ rt₂ → A rt₂) {env : Environment}
    {routeId : String} {tenant : TenantContext} (h : A rt)
    (hswap : ∀ rt₁ routeData deltas, Idle rt rt₁ → rt₁.phase = rt.phase →
      rt.registry.getVerifiedRoute routeId w.runtimeModelHash tenant = .ok routeData →
      rt.validatedDeltaCache.contains routeId = true ∨ validates w env routeData = true →
      wp (swapIn w env routeId routeData deltas) (fun _ => A) (fun _ => A) rt₁) :
    wp (activate w env routeId tenant) (fun _ => A) (fun _ => A) rt := by
  refine wp_activate (fun _ _ => h) fun routeData hroute => ?_
  have hcycle : ∀ {rt₁ deltas}, Idle rt rt₁ → rt₁.phase = rt.phase →
      rt.validatedDeltaCache.contains routeId = true ∨ validates w env routeData = true →
      wp (swapIn w env routeId routeData deltas)
        (fun _ rt₂ => A { rt₂ with activeRouteId := routeId, swapCount := rt₂.swapCount + 1 })
        (fun _ rt₂ => wp (performRollback w env.cycle routeId)
          (fun _ rt₃ => A { rt₃ with activeRouteId := baseRoute }) (fun _ => A) rt₂) rt₁ :=
    fun {rt₁ deltas} hidle hphase hdeltas =>
      (hswap rt₁ routeData deltas hidle hphase hroute hdeltas).mono
        (fun _ rt₂ h₂ => hA rt₂ _ h₂ (idle_of_eq rfl rfl rfl)) fun _ rt₂ h₂ =>
          (wp_of_idle hA (keeps_performRollback_idle w env.cycle routeId) h₂).mono
            (fun _ rt₃ h₃ => hA rt₃ _ h₃ (idle_of_eq rfl rfl rfl)) fun _ _ h₃ => h₃
  refine wp_cachedDeltas (fun deltas hget => ?_) (fun _ deltas hvalid => ?_) fun _ => h
  · exact hcycle (refl_of Idle rt) rfl (Or.inl (Dict.contains_iff.mpr ⟨deltas, hget⟩))
  · exact hcycle (idle_of_eq rfl rfl rfl) rfl (Or.inr (validates_of_eq_ok hvalid))

/-- From the base route only a ready worker gets to the capture of a route. -/
theorem wp_ensureFromBase_of_swapIn (hA : ∀ rt₁ rt₂, A rt₁ → Idle rt₁ rt₂ → A rt₂)
    {env : Environment} {routeId : String} {tenant : TenantContext} (h : A rt)
    (hswap : ∀ rt₁ routeData deltas, Idle rt rt₁ → rt.phase = .ready → routeId ≠ baseRoute →
      rt.registry.getVerifiedRoute routeId w.runtimeModelHash tenant = .ok routeData →
      rt.validatedDeltaCache.contains routeId = true ∨ validates w env routeData = true →
      wp (swapIn w env routeId routeData deltas) (fun _ => A) (fun _ => A) rt₁) :
    wp (ensureFromBase w env routeId tenant) (fun _ => A) (fun _ => A) rt := by
  rw [ensureFromBase]
  by_cases htarget : routeId = baseRoute
  · rw [if_pos htarget]
    exact h
  · rw [if_neg htarget]
    refine wp_activate_of_swapIn hA h fun rt₁ routeData deltas hidle hphase hroute hdeltas => ?_
    by_cases hready : rt.phase = .ready
    · exact hswap rt₁ routeData deltas hidle hready htarget hroute hdeltas
    · exact (swapIn_of_not_ready (hphase ▸ hready)).mono (fun _ _ h => h.elim)
        fun _ _ heq => heq ▸ hA rt rt₁ h hidle

theorem wp_ensure_of_swapIn (hA : ∀ rt₁ rt₂, A rt₁ → Idle rt₁ rt₂ → A rt₂)
    (activation : Activation) (h : A rt)
    (hswap : ∀ rt₁ routeData deltas, Idle rt rt₁ →
      Swaps w rt routeData (.ensureRoute activation : Call β) →
      wp (swapIn w activation.env activation.routeId routeData deltas) (fun _ => A) (fun _ => A)
        rt₁) :
    wp (ensure w activation) (fun _ => A) (fun _ => A) rt := by
  refine wp_ensureRoute (fun _ _ => h) (fun _ _ => h) (fun _ hactive hbase => ?_)
    fun hterm hactive hresident => ?_
  · refine wp_ensureFromBase_of_swapIn hA h fun rt₁ routeData deltas hidle hready htarget hroute
      hdeltas => ?_
    exact hswap rt₁ routeData deltas hidle ⟨hactive, htarget, fun _ => hready,
      fun hne => absurd hbase hne, hroute, hdeltas⟩
  · -- the rollback of the active route
    refine ((keeps_performRollback rollbackFrame_books w _ _).and_wp
      ((keeps_performRollback_idle w _ _).and_wp (performRollback_cases _ _ rt))).mono ?_
      fun _ rt₁ h₁ => hA rt rt₁ h h₁.2.1
    rintro _ rt₁ ⟨hbooks, hidle, houtcome⟩
    obtain ⟨hregistry, hcache, -, -⟩ := books_eq_iff.mp hbooks
    have hdrop : Idle rt₁ { rt₁ with activeRouteId := baseRoute } := idle_of_eq rfl rfl rfl
    have hdropped := trans_of Idle hidle hdrop
    have h₁ : A { rt₁ with activeRouteId := baseRoute } := hA rt _ h hdropped
    refine wp_ensureFromBase_of_swapIn hA h₁ fun rt₂ routeData deltas hidle₂ hready htarget hroute
      hdeltas => ?_
    rcases houtcome with ⟨-, hwq, -⟩ | ⟨hrestored, -, -⟩
    · -- a worker whose rollback has failed is not ready
      exact absurd (hwq.symm.trans hready) (by decide)
    · refine hswap rt₂ routeData deltas (trans_of Idle hdropped hidle₂) ⟨hactive, htarget,
        fun heq => absurd heq hresident, fun _ => ⟨hterm, hrestored⟩, hregistry ▸ hroute, ?_⟩
      exact hcache ▸ hdeltas

/-- A call is idle before and after its swap. -/
theorem wp_perform_of_swapIn (hA : ∀ rt₁ rt₂, A rt₁ → Idle rt₁ rt₂ → A rt₂) (call : Call β)
    (h : A rt)
    (hswap : ∀ rt₁ routeId routeData deltas, Idle rt rt₁ → Swaps w rt routeData call →
      wp (swapIn w (environment call) routeId routeData deltas) (fun _ => A) (fun _ => A) rt₁) :
    wp (perform w call) (fun _ => A) (fun _ => A) rt := by
  cases call with
  | infer request =>
    rw [perform, wp_map]
    exact wp_infer_of_swapIn hA request h fun routeData deltas hswaps =>
      hswap rt _ routeData deltas (refl_of Idle rt) hswaps
  | ensureRoute activation =>
    rw [perform, wp_map]
    exact wp_ensure_of_swapIn hA activation h fun rt₁ routeData deltas hidle hswaps =>
      hswap rt₁ _ routeData deltas hidle hswaps
  | clearActiveRoute env =>
    rw [perform, wp_map]
    refine wp_clearActiveRoute (fun _ => h) fun _ => ?_
    exact (wp_of_idle hA (keeps_performRollback_idle w _ _) h).mono
      (fun _ rt₁ h₁ => hA rt₁ _ h₁ (idle_of_eq rfl rfl rfl)) fun _ _ h₁ => h₁

end Calls

end Runtime
