/-
The gateways by cases.

Each gateway either refuses, stops before it touches the weights, or runs one
swap with its rollback.  The rules below take these cases apart once, and the
results about whole runs are proved from them:

* `wp_infer` — refused, not verified, not valid, or one full cycle;
* `wp_activate` — the part of `ensureRoute` that swaps a route in;
* `wp_ensureRoute`, `wp_clearActiveRoute` — with the route left active by an
  earlier call dropped first;
* `keeps_infer`, `keeps_ensureRoute` — the frame of a whole call;
* `infer_emits`, `ensureRoute_emits` — the events of a call, from those of its
  swap.
-/
import NeuralScalpel.Restoration

open Effect

namespace Runtime

variable {w : Worker} {env : Environment} {routeId : String} {tenant : TenantContext} {β : Type}
  {rt : Runtime}

/-- The payload validates with the files of the call. -/
def validates (w : Worker) (env : Environment) (routeData : Manifest) : Bool :=
  match validatePayload env.files w.payloadBaseDir w.maxPayloadBytes routeData with
  | .ok _ => true
  | .error _ => false

theorem validates_of_eq_ok {env : Environment} {routeData : Manifest}
    {deltas : Dict String Tensor}
    (h : validatePayload env.files w.payloadBaseDir w.maxPayloadBytes routeData = .ok deltas) :
    validates w env routeData = true := by
  rw [validates, h]

/-- A swap handed the deltas of a validation applies those. -/
theorem eq_of_deltasToApply {files files' : FileSystem} {limit : ℕ} {routeData : Manifest}
    {deltas deltas' : Dict String Tensor}
    (hvalid : validatePayload files w.payloadBaseDir limit routeData = .ok deltas)
    (happly : deltasToApply w files' routeData deltas = .ok deltas') : deltas' = deltas := by
  unfold deltasToApply at happly
  by_cases h : (deltas.isEmpty && routeData.payload.isSome) = true
  · obtain ⟨hempty, _⟩ := Bool.and_eq_true_iff.mp h
    rw [if_pos h] at happly
    rw [loadPayloadDeltas_of_empty hvalid hempty happly, Dict.isEmpty_iff.mp hempty]
  · rw [if_neg h] at happly
    exact (Except.ok.inj happly).symm

/-! ### The forward pass -/

/-- The state in which the inference function runs. -/
def forwarding (machine : RuntimeStateMachine) (rt : Runtime) : Runtime :=
  { rt.setMachine machine with
    trace := (rt.setMachine machine).trace ++ [.forward rt.store] }

theorem wp_runForward {f : Store → Except PyError β} {Q : β → Runtime → Prop}
    {E : PyError → Runtime → Prop} (hphase : rt.phase = .swapped)
    (hQ : ∀ machine b, f rt.store = .ok b → Q b (rt.forwarding machine))
    (hE : ∀ machine e, f rt.store = .error e → E e (rt.forwarding machine)) :
    wp (runForward f) Q E rt := by
  rw [runForward, wp_bind]
  refine wp_transition_of_valid hphase (by decide) fun machine _ => ?_
  simp only [wp_bind, wp_get, wp_modify, wp_ofExcept]
  exact ⟨hQ machine, hE machine⟩

theorem keeps_runForward {R : Runtime → Runtime → Prop} [IsPreorder Runtime R]
    (hphase : ∀ machine rt, R rt (setMachine machine rt))
    (hforward : ∀ rt : Runtime, R rt { rt with trace := rt.trace ++ [.forward rt.store] })
    (f : Store → Except PyError β) : Keeps R (runForward f) := by
  refine Keeps.bind (keeps_transition hphase _ _ _) fun _ => fun rt => ?_
  simp only [wp_bind, wp_get, wp_modify, wp_ofExcept]
  exact ⟨fun _ _ => hforward rt, fun _ _ => hforward rt⟩

/-! ### Transactional inference -/

section Infer

variable {f : Store → Except PyError β} {Q : β → Runtime → Prop} {E : PyError → Runtime → Prop}

/-- `infer` by cases, with the exceptions it raises of its own. -/
theorem wp_infer_raising
    (hterminal : rt.phase = .workerQuarantined → E (.runtimeError
      "CRITICAL: Worker is QUARANTINED. Cannot accept requests. Restart required.") rt)
    (hverify : ∀ e, rt.registry.getVerifiedRoute routeId w.runtimeModelHash tenant = .error e →
      E e rt)
    (hvalidate : ∀ routeData e,
      rt.registry.getVerifiedRoute routeId w.runtimeModelHash tenant = .ok routeData →
      validatePayload env.files w.payloadBaseDir w.maxPayloadBytes routeData = .error e →
      rt.phase ≠ .workerQuarantined →
      wp (applyVerdict (evaluateFailure e.failureClass) routeId)
        (fun _ => E (.runtimeError (evaluateFailure e.failureClass).message)) E rt)
    (hcycle : ∀ routeData deltas,
      rt.registry.getVerifiedRoute routeId w.runtimeModelHash tenant = .ok routeData →
      validatePayload env.files w.payloadBaseDir w.maxPayloadBytes routeData = .ok deltas →
      rt.phase ≠ .workerQuarantined →
      wp (swapIn w env routeId routeData deltas >>= fun _ => runForward f)
        (fun output rt₁ => wp (performRollback w env.cycle routeId)
          (fun _ rt₂ => (rt₂.phase = .workerQuarantined → E (.runtimeError
              "CRITICAL: Rollback checksum mismatch. Worker QUARANTINED.") rt₂) ∧
            (rt₂.phase ≠ .workerQuarantined → Q output rt₂)) E rt₁)
        (fun e rt₁ => wp (performRollback w env.cycle routeId) (fun _ => E e) E rt₁) rt) :
    wp (infer w env routeId tenant f) Q E rt := by
  rw [infer, wp_bind, wp_get]
  by_cases hterm : rt.machine.isTerminal = true
  · rw [if_pos hterm]
    exact hterminal (RuntimeStateMachine.isTerminal_iff.mp hterm)
  · have hphase : rt.phase ≠ .workerQuarantined :=
      fun h => hterm (RuntimeStateMachine.isTerminal_iff.mpr h)
    rw [if_neg hterm, wp_bind, wp_ofExcept]
    refine ⟨fun routeData hroute => ?_, hverify⟩
    rw [wp_bind, validateOrQuarantine]
    rcases hval : validatePayload env.files w.payloadBaseDir w.maxPayloadBytes routeData
      with e | deltas
    · rw [wp_bind]
      exact hvalidate routeData e hroute hval hphase
    · rw [wp_pure, wp_bind, wp_attempt]
      refine (hcycle routeData deltas hroute hval hphase).mono ?_ ?_
      · intro output rt₁ h
        rw [wp_bind]
        refine h.mono (fun _ rt₂ ⟨hq, hnq⟩ => ?_) fun _ _ h => h
        rw [wp_bind, wp_get]
        by_cases hterm₂ : rt₂.machine.isTerminal = true
        · rw [if_pos hterm₂]
          exact hq (RuntimeStateMachine.isTerminal_iff.mp hterm₂)
        · rw [if_neg hterm₂]
          exact hnq fun h => hterm₂ (RuntimeStateMachine.isTerminal_iff.mpr h)
      · -- the exception of the cycle is raised again whatever the rollback did
        intro e rt₁ h
        rw [wp_bind]
        exact h

/-- `infer` by cases, whatever exceptions it raises of its own. -/
theorem wp_infer
    (hterminal : rt.phase = .workerQuarantined → ∀ e, E e rt)
    (hverify : ∀ e, rt.registry.getVerifiedRoute routeId w.runtimeModelHash tenant = .error e →
      E e rt)
    (hvalidate : ∀ routeData e,
      rt.registry.getVerifiedRoute routeId w.runtimeModelHash tenant = .ok routeData →
      validatePayload env.files w.payloadBaseDir w.maxPayloadBytes routeData = .error e →
      rt.phase ≠ .workerQuarantined →
      wp (applyVerdict (evaluateFailure e.failureClass) routeId) (fun _ rt' => ∀ e, E e rt') E rt)
    (hcycle : ∀ routeData deltas,
      rt.registry.getVerifiedRoute routeId w.runtimeModelHash tenant = .ok routeData →
      validatePayload env.files w.payloadBaseDir w.maxPayloadBytes routeData = .ok deltas →
      rt.phase ≠ .workerQuarantined →
      wp (swapIn w env routeId routeData deltas >>= fun _ => runForward f)
        (fun output rt₁ => wp (performRollback w env.cycle routeId)
          (fun _ rt₂ => (rt₂.phase = .workerQuarantined → ∀ e, E e rt₂) ∧
            (rt₂.phase ≠ .workerQuarantined → Q output rt₂)) E rt₁)
        (fun e rt₁ => wp (performRollback w env.cycle routeId) (fun _ => E e) E rt₁) rt) :
    wp (infer w env routeId tenant f) Q E rt := by
  refine wp_infer_raising (fun hwq => hterminal hwq _) hverify
    (fun routeData e hroute hval hphase => ?_) fun routeData deltas hroute hval hphase => ?_
  · exact (hvalidate routeData e hroute hval hphase).mono (fun _ _ h => h _) fun _ _ h => h
  · refine (hcycle routeData deltas hroute hval hphase).mono (fun _ _ h => ?_) fun _ _ h => h
    exact h.mono (fun _ _ ⟨hq, hnq⟩ => ⟨fun hwq => hq hwq _, hnq⟩) fun _ _ h => h

end Infer

/-! ### Persistent activation -/

section Ensure

variable {Q : Bool → Runtime → Prop} {E : PyError → Runtime → Prop}

/-- The deltas come from the cache, or are validated now and cached. -/
theorem wp_cachedDeltas {routeData : Manifest} {Q : Dict String Tensor → Runtime → Prop}
    (hcached : ∀ deltas, rt.validatedDeltaCache.get? routeId = some deltas → Q deltas rt)
    (hvalid : rt.validatedDeltaCache.get? routeId = none → ∀ deltas,
      validatePayload env.files w.payloadBaseDir w.maxPayloadBytes routeData = .ok deltas →
      Q deltas { rt with validatedDeltaCache := rt.validatedDeltaCache.set routeId deltas })
    (hinvalid : ∀ e, E e rt) : wp (cachedDeltas w env routeId routeData) Q E rt := by
  rw [cachedDeltas, wp_bind, wp_get]
  rcases hget : rt.validatedDeltaCache.get? routeId with _ | deltas
  · rw [wp_bind]
    rcases hval : validatePayload env.files w.payloadBaseDir w.maxPayloadBytes routeData
      with e | deltas
    · exact hinvalid _
    · exact hvalid hget deltas hval
  · exact hcached deltas hget

/-- `activate` by cases. -/
theorem wp_activate
    (hverify : ∀ e, rt.registry.getVerifiedRoute routeId w.runtimeModelHash tenant = .error e →
      E e rt)
    (hdeltas : ∀ routeData,
      rt.registry.getVerifiedRoute routeId w.runtimeModelHash tenant = .ok routeData →
      wp (cachedDeltas w env routeId routeData)
        (fun deltas rt₁ => wp (swapIn w env routeId routeData deltas)
          (fun _ rt₂ => Q true
            { rt₂ with activeRouteId := routeId, swapCount := rt₂.swapCount + 1 })
          (fun e rt₂ => wp (performRollback w env.cycle routeId)
            (fun _ rt₃ => E e { rt₃ with activeRouteId := baseRoute }) E rt₂) rt₁) E rt) :
    wp (activate w env routeId tenant) Q E rt := by
  rw [activate, wp_bind, wp_get, wp_bind, wp_ofExcept]
  refine ⟨fun routeData hroute => ?_, hverify⟩
  rw [wp_bind]
  refine (hdeltas routeData hroute).mono (fun deltas rt₁ h => ?_) fun _ _ h => h
  rw [wp_bind, wp_attempt]
  refine h.mono (fun _ _ h => h) fun e rt₂ h => ?_
  rw [wp_bind]
  exact h

/-- Dropping the active route is a rollback, and then no route is active. -/
theorem wp_dropActiveRoute {Q : Unit → Runtime → Prop}
    (h : wp (performRollback w env.resident rt.activeRouteId)
      (fun _ rt' => Q () { rt' with activeRouteId := baseRoute }) E rt) :
    wp (dropActiveRoute w env) Q E rt := by
  rw [dropActiveRoute, wp_bind, wp_get, wp_bind]
  exact h

/-- What `ensureRoute` does once no route is active. -/
def ensureFromBase (w : Worker) (env : Environment) (routeId : String) (tenant : TenantContext) :
    EStateM PyError Runtime Bool :=
  if routeId = baseRoute then pure true else activate w env routeId tenant

/-- `ensureRoute` by cases. -/
theorem wp_ensureRoute
    (hterminal : rt.phase = .workerQuarantined → ∀ e, E e rt)
    (hactive : rt.phase ≠ .workerQuarantined → rt.activeRouteId = routeId → Q false rt)
    (hbase : rt.phase ≠ .workerQuarantined → rt.activeRouteId ≠ routeId →
      rt.activeRouteId = baseRoute → wp (ensureFromBase w env routeId tenant) Q E rt)
    (hresident : rt.phase ≠ .workerQuarantined → rt.activeRouteId ≠ routeId →
      rt.activeRouteId ≠ baseRoute →
      wp (performRollback w env.resident rt.activeRouteId)
        (fun _ rt₁ => wp (ensureFromBase w env routeId tenant) Q E
          { rt₁ with activeRouteId := baseRoute }) E rt) :
    wp (ensureRoute w env routeId tenant) Q E rt := by
  rw [ensureRoute, wp_bind, wp_get]
  by_cases hterm : rt.machine.isTerminal = true
  · rw [if_pos hterm]
    exact hterminal (RuntimeStateMachine.isTerminal_iff.mp hterm) _
  · have hphase : rt.phase ≠ .workerQuarantined :=
      fun h => hterm (RuntimeStateMachine.isTerminal_iff.mpr h)
    rw [if_neg hterm]
    by_cases hact : rt.activeRouteId = routeId
    · rw [if_pos hact]
      exact hactive hphase hact
    · rw [if_neg hact]
      by_cases hres : rt.activeRouteId = baseRoute
      · rw [if_neg (not_not.mpr hres)]
        exact hbase hphase hact hres
      · rw [if_pos hres, wp_bind]
        exact wp_dropActiveRoute (hresident hphase hact hres)

/-- `clearActiveRoute` by cases; it has no guard. -/
theorem wp_clearActiveRoute
    (hbase : rt.activeRouteId = baseRoute → Q false rt)
    (hresident : rt.activeRouteId ≠ baseRoute →
      wp (performRollback w env.resident rt.activeRouteId)
        (fun _ rt₁ => Q true { rt₁ with activeRouteId := baseRoute }) E rt) :
    wp (clearActiveRoute w env) Q E rt := by
  rw [clearActiveRoute, wp_bind, wp_get]
  by_cases hres : rt.activeRouteId = baseRoute
  · rw [if_neg (not_not.mpr hres)]
    exact hbase hres
  · rw [if_pos hres, wp_bind]
    exact wp_dropActiveRoute (hresident hres)

end Ensure

/-! ### Frames of a call -/

/-- Every write the persistent gateway makes is in `R`. -/
structure EnsureFrame (R : Runtime → Runtime → Prop) : Prop
    extends SwapFrame R, RollbackFrame R where
  applied : ∀ routeData deltas (rt : Runtime),
    R rt { rt with trace := rt.trace ++ [.swapApplied routeData deltas] }
  cached : ∀ cache rt, R rt { rt with validatedDeltaCache := cache }
  activated : ∀ routeId n rt, R rt { rt with activeRouteId := routeId, swapCount := n }

/-- Every write a call makes is in `R`. -/
structure CallFrame (R : Runtime → Runtime → Prop) : Prop extends EnsureFrame R where
  forward : ∀ rt : Runtime, R rt { rt with trace := rt.trace ++ [.forward rt.store] }
  quarantined : ∀ registry (rt : Runtime), registry.routes = rt.registry.routes →
    R rt { rt with registry := registry }

section CallFrames

variable {R : Runtime → Runtime → Prop} [IsPreorder Runtime R]

theorem keeps_infer (hR : CallFrame R) (w : Worker) (env : Environment) (routeId : String)
    (tenant : TenantContext) (f : Store → Except PyError β) :
    Keeps R (infer w env routeId tenant f) := by
  have hrollback := keeps_performRollback hR.toRollbackFrame w env.cycle routeId
  refine Keeps.bind Keeps.get fun rt => Keeps.ite (fun _ => Keeps.throw _) fun _ => ?_
  refine Keeps.bind (Keeps.ofExcept _) fun routeData => Keeps.bind ?_ fun deltas => ?_
  · unfold validateOrQuarantine
    cases validatePayload env.files w.payloadBaseDir w.maxPayloadBytes routeData
    · exact Keeps.bind (keeps_applyVerdict hR.toSwapFrame.phase hR.quarantined _ _) fun _ =>
        Keeps.throw _
    · exact Keeps.pure _
  · refine Keeps.bind (Keeps.attempt (Keeps.bind (keeps_swapIn hR.toSwapFrame
      (fun _ rt _ => hR.applied _ _ rt) _) fun _ =>
      keeps_runForward hR.toSwapFrame.phase hR.forward f)) fun outcome => ?_
    cases outcome
    · exact Keeps.bind hrollback fun _ => Keeps.throw _
    · exact Keeps.bind hrollback fun _ => Keeps.bind Keeps.get fun _ =>
        Keeps.ite (fun _ => Keeps.throw _) fun _ => Keeps.pure _

theorem keeps_dropActiveRoute (hR : EnsureFrame R) (w : Worker) (env : Environment) :
    Keeps R (dropActiveRoute w env) := by
  refine Keeps.bind Keeps.get fun rt => ?_
  exact Keeps.bind (keeps_performRollback hR.toRollbackFrame w env.resident _) fun _ =>
    Keeps.modify fun rt => hR.activated baseRoute rt.swapCount rt

theorem keeps_cachedDeltas (hR : EnsureFrame R) (w : Worker) (env : Environment) (routeId : String)
    (routeData : Manifest) : Keeps R (cachedDeltas w env routeId routeData) :=
  fun rt => wp_cachedDeltas (fun _ _ => refl_of R rt) (fun _ _ _ => hR.cached _ rt)
    fun _ => refl_of R rt

theorem keeps_activate (hR : EnsureFrame R) (w : Worker) (env : Environment) (routeId : String)
    (tenant : TenantContext) : Keeps R (activate w env routeId tenant) := by
  refine Keeps.bind Keeps.get fun rt => Keeps.bind (Keeps.ofExcept _) fun routeData => ?_
  refine Keeps.bind (keeps_cachedDeltas hR w env routeId routeData) fun deltas => ?_
  refine Keeps.bind (Keeps.attempt (keeps_swapIn hR.toSwapFrame
    (fun _ rt _ => hR.applied _ _ rt) routeId)) fun outcome => ?_
  cases outcome
  · refine Keeps.bind (keeps_performRollback hR.toRollbackFrame w env.cycle routeId) fun _ => ?_
    exact Keeps.bind (Keeps.modify fun rt => hR.activated baseRoute rt.swapCount rt) fun _ =>
      Keeps.throw _
  · exact Keeps.bind (Keeps.modify fun rt => hR.activated routeId _ rt) fun _ => Keeps.pure _

theorem keeps_ensureRoute (hR : EnsureFrame R) (w : Worker) (env : Environment) (routeId : String)
    (tenant : TenantContext) : Keeps R (ensureRoute w env routeId tenant) := by
  refine Keeps.bind Keeps.get fun rt => Keeps.ite (fun _ => Keeps.throw _) fun _ => ?_
  have hrest : Keeps R (ensureFromBase w env routeId tenant) :=
    Keeps.ite (fun _ => Keeps.pure _) fun _ => keeps_activate hR w env routeId tenant
  refine Keeps.ite (fun _ => Keeps.pure _) fun _ => Keeps.ite (fun _ => ?_) fun _ => hrest
  exact Keeps.bind (keeps_dropActiveRoute hR w env) fun _ => hrest

end CallFrames

/-- The persistent gateway leaves the registry alone. -/
theorem ensureFrame_registry : EnsureFrame (Same registry) where
  phase _ _ := rfl
  golden _ _ := rfl
  applied _ _ _ := rfl
  added _ _ _ _ _ _ := rfl
  restored _ _ _ := rfl
  counted _ _ := rfl
  failed _ := rfl
  cached _ _ := rfl
  activated _ _ _ := rfl

/-- No call registers a route or takes one out. -/
theorem callFrame_routes : CallFrame (Same fun rt : Runtime => rt.registry.routes) where
  phase _ _ := rfl
  golden _ _ := rfl
  applied _ _ _ := rfl
  added _ _ _ _ _ _ := rfl
  restored _ _ _ := rfl
  counted _ _ := rfl
  failed _ := rfl
  forward _ := rfl
  quarantined _ _ h := h
  cached _ _ := rfl
  activated _ _ _ := rfl

/-! ### The events of a call -/

section Events

variable {P : Event → Prop}

/-- The events of `infer`, from those of its swap and its forward pass. -/
theorem infer_emits {f : Store → Except PyError β} (hphase : ∀ p, P (.phaseSet p))
    (hfailed : P .rollbackFailed)
    (hcycle : ∀ routeData deltas,
      rt.registry.getVerifiedRoute routeId w.runtimeModelHash tenant = .ok routeData →
      validatePayload env.files w.payloadBaseDir w.maxPayloadBytes routeData = .ok deltas →
      rt.phase ≠ .workerQuarantined →
      wp (swapIn w env routeId routeData deltas >>= fun _ => runForward f)
        (fun _ => Emits P rt) (fun _ => Emits P rt) rt) :
    wp (infer w env routeId tenant f) (fun _ => Emits P rt) (fun _ => Emits P rt) rt := by
  have hrefl : Emits P rt rt := refl_of _ rt
  have hrollback : RollbackFrame (Emits P) := rollbackFrame_emits hphase hfailed
  refine wp_infer (fun _ _ => hrefl) (fun _ _ => hrefl) (fun _ _ _ _ _ => ?_) ?_
  · exact (keeps_applyVerdict hrollback.phase (fun _ _ _ => Appends.nothing rfl) _ _ rt).mono
      (fun _ _ he _ => he) fun _ _ he => he
  · intro routeData deltas hroute hvalid hterm
    have hfinish : ∀ {rt₁}, Emits P rt rt₁ → wp (performRollback w env.cycle routeId)
        (fun _ => Emits P rt) (fun _ => Emits P rt) rt₁ := fun {rt₁} he =>
      (keeps_performRollback hrollback w _ _ rt₁).mono (fun _ _ he' => trans_of _ he he')
        fun _ _ he' => trans_of _ he he'
    refine (hcycle routeData deltas hroute hvalid hterm).mono (fun output rt₁ he => ?_)
      fun _ rt₁ he => hfinish he
    exact (hfinish he).mono (fun _ _ he' => ⟨fun _ _ => he', fun _ => he'⟩) fun _ _ he' => he'

/-- The events of a swap, and of the rollback when it raises. -/
theorem swapCycle_emits (hrollback : RollbackFrame (Emits P)) {rt₁ : Runtime} {routeData : Manifest}
    {deltas : Dict String Tensor} (h₁ : Emits P rt rt₁)
    (hswap : wp (swapIn w env routeId routeData deltas) (fun _ => Emits P rt₁)
      (fun _ => Emits P rt₁) rt₁) :
    wp (swapIn w env routeId routeData deltas)
      (fun _ rt₂ => Emits P rt
        { rt₂ with activeRouteId := routeId, swapCount := rt₂.swapCount + 1 })
      (fun _ rt₂ => wp (performRollback w env.cycle routeId)
        (fun _ rt₃ => Emits P rt { rt₃ with activeRouteId := baseRoute })
        (fun _ => Emits P rt) rt₂) rt₁ := by
  refine hswap.mono (fun _ rt₂ h₂ => trans_of (Emits P) h₁ (show Emits P rt₁ _ from h₂))
    fun _ rt₂ h₂ => ?_
  have h₁₂ := trans_of (Emits P) h₁ h₂
  exact (keeps_performRollback hrollback w _ _ rt₂).mono
    (fun _ _ h₃ => trans_of (Emits P) h₁₂ (show Emits P rt₂ _ from h₃))
    fun _ _ h₃ => trans_of (Emits P) h₁₂ h₃

/-- The events of an activation with no other route active. -/
theorem ensureFromBase_emits (hrollback : RollbackFrame (Emits P)) {rt₁ : Runtime}
    (h₁ : Emits P rt rt₁)
    (hswap : ∀ rt₂ routeData deltas, routeId ≠ baseRoute →
      rt₁.registry.getVerifiedRoute routeId w.runtimeModelHash tenant = .ok routeData →
      rt₁.validatedDeltaCache.get? routeId = some deltas ∨
        rt₁.validatedDeltaCache.get? routeId = none ∧
          validatePayload env.files w.payloadBaseDir w.maxPayloadBytes routeData = .ok deltas →
      rt₂.golden = rt₁.golden → rt₂.store = rt₁.store →
      wp (swapIn w env routeId routeData deltas) (fun _ => Emits P rt₂)
        (fun _ => Emits P rt₂) rt₂) :
    wp (ensureFromBase w env routeId tenant) (fun _ => Emits P rt) (fun _ => Emits P rt) rt₁ := by
  unfold ensureFromBase
  by_cases hbase : routeId = baseRoute
  · rw [if_pos hbase]
    exact h₁
  · rw [if_neg hbase]
    refine wp_activate (fun _ _ => h₁) fun routeData hroute => ?_
    refine wp_cachedDeltas (fun deltas hget => ?_) (fun hnone deltas hvalid => ?_) fun _ => h₁
    · exact swapCycle_emits hrollback h₁
        (hswap rt₁ routeData deltas hbase hroute (Or.inl hget) rfl rfl)
    · exact swapCycle_emits hrollback (trans_of (Emits P) h₁ (Appends.nothing rfl))
        (hswap _ routeData deltas hbase hroute (Or.inr ⟨hnone, hvalid⟩) rfl rfl)

/-- The events of `ensureRoute`, from those of its swap.  The swap starts after
the active route has been dropped, with the registry, the delta cache and the
snapshots of the call and live tensors of the same layout. -/
theorem ensureRoute_emits (hphase : ∀ p, P (.phaseSet p)) (hfailed : P .rollbackFailed)
    (hswap : ∀ rt₁ routeData deltas, rt.phase ≠ .workerQuarantined → rt.activeRouteId ≠ routeId →
      routeId ≠ baseRoute →
      rt.registry.getVerifiedRoute routeId w.runtimeModelHash tenant = .ok routeData →
      rt.validatedDeltaCache.get? routeId = some deltas ∨
        rt.validatedDeltaCache.get? routeId = none ∧
          validatePayload env.files w.payloadBaseDir w.maxPayloadBytes routeData = .ok deltas →
      rt₁.golden = rt.golden → KeepsLayout rt rt₁ →
      wp (swapIn w env routeId routeData deltas) (fun _ => Emits P rt₁)
        (fun _ => Emits P rt₁) rt₁) :
    wp (ensureRoute w env routeId tenant) (fun _ => Emits P rt) (fun _ => Emits P rt) rt := by
  have hrollback : RollbackFrame (Emits P) := rollbackFrame_emits hphase hfailed
  have hrefl : Emits P rt rt := refl_of _ rt
  have hrest : ∀ rt₁ : Runtime, rt.phase ≠ .workerQuarantined → rt.activeRouteId ≠ routeId →
      rt₁.registry = rt.registry → rt₁.validatedDeltaCache = rt.validatedDeltaCache →
      rt₁.golden = rt.golden → KeepsLayout rt rt₁ → Emits P rt rt₁ →
      wp (ensureFromBase w env routeId tenant) (fun _ => Emits P rt) (fun _ => Emits P rt) rt₁ := by
    intro rt₁ hterm hactive hregistry hcache hgolden hlayout h₁
    refine ensureFromBase_emits hrollback h₁
      fun rt₂ routeData deltas hbase hroute hdeltas hg hs => ?_
    rw [hregistry] at hroute
    rw [hcache] at hdeltas
    have hlayout₂ : KeepsLayout rt rt₂ := by
      intro a
      rw [hs]
      exact hlayout a
    exact hswap rt₂ routeData deltas hterm hactive hbase hroute hdeltas (hg.trans hgolden) hlayout₂
  refine wp_ensureRoute (fun _ _ => hrefl) (fun _ _ => hrefl)
    (fun hterm hactive _ => hrest rt hterm hactive rfl rfl rfl (refl_of KeepsLayout rt) hrefl)
    fun hterm hactive _ => ?_
  -- the rollback of the active route keeps the registry, the cache, the snapshots and the layouts
  have hkept := (keeps_performRollback rollbackFrame_books w env.resident rt.activeRouteId).and_wp
    ((keeps_performRollback rollbackFrame_golden w env.resident rt.activeRouteId).and_wp
    ((keeps_performRollback rollbackFrame_layout w env.resident rt.activeRouteId).and_wp
      (keeps_performRollback hrollback w env.resident rt.activeRouteId rt)))
  refine hkept.mono (fun _ rt₁ ⟨hbooks, hgolden, hlayout, h₁⟩ => ?_) fun _ _ h => h.2.2.2
  obtain ⟨hregistry, hcache, -, -⟩ := books_eq_iff.mp hbooks
  exact hrest _ hterm hactive hregistry hcache hgolden hlayout h₁

end Events

end Runtime

/-! ### A small worker

Two parameters with one element each, and environments in which chosen steps
fail, to evaluate the runtime on. -/

namespace Demo

def tensor (q : ℚ) : Tensor := ⟨[1], "float32", [.finite q], rfl⟩

def base : Store := fun _ => tensor 0

def worker : Worker where
  model := some ((Dict.empty.set "w" 0).set "v" 1)
  runtimeModelHash := "model"
  payloadBaseDir := none
  maxPayloadBytes := 100
  checksum t := if t = tensor 0 then "base" else "moved"

def layer (name : String) : LayerSpec := ⟨name, [1], "float32", none, none⟩

/-- A route for the worker, open to every tenant. -/
def route (routeId : String) (payload : Option PayloadBlock) (layers : List LayerSpec) : Manifest :=
  ⟨routeId, none, some "model", none, none, none, payload, layers⟩

/-- A registry with these routes, all in production. -/
def registryOf (routes : List Manifest) : RouteRegistry :=
  { RouteRegistry.empty with
    routes := routes.foldl (fun d m => d.set m.routeId m) .empty
    statuses := routes.foldl (fun d m => d.set m.routeId .production) .empty }

def tenant : TenantContext := ⟨"tenant"⟩

/-- A file with the given tensors. -/
def fileOf (tensors : Dict String Tensor) : PayloadFile := ⟨.ok 1, .ok "", .ok tensors⟩

def noFiles : FileSystem := fun _ => none

def noRollbackFaults : RollbackFaults := ⟨fun _ => none, fun _ => .computed⟩

/-- The first layer cannot be restored. -/
def stuckRollback : RollbackFaults := ⟨fun _ => some "device lost", fun _ => .computed⟩

/-- Nothing fails. -/
def quiet (files : FileSystem) : Environment :=
  ⟨files, ⟨fun _ => none, fun _ => none, fun _ => none⟩, noRollbackFaults, noRollbackFaults⟩

/-- A fresh worker with two simulated routes on the same parameter. -/
def start : Runtime :=
  .fresh (registryOf [route "r" none [layer "w"], route "s" none [layer "w"]]) base

end Demo
