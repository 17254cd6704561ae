/-
What the operations of the runtime change.

Every operation writes few fields of the state, and the rest is framed: a
`Keeps` lemma says which part of the state all its runs leave alone, whether
they return or raise.

* `wp_transition`, `wp_forceTransition` — one phase write;
* `Runtime.books` — the registry, the delta cache, the active route and the
  swap counter, which no step of a swap or of a rollback touches;
* `appends_…` — which events an operation adds to the trace;
* `sameLayout_…` — no operation changes the shape or the element type of a
  live tensor.
-/
import NeuralScalpel.Runtime

open Effect

namespace Runtime

variable {Q : Unit → Runtime → Prop} {E : PyError → Runtime → Prop} {rt : Runtime}

/-! ### Single steps -/

@[simp] theorem wp_raiseIf {σ : Type} {fault : Option String} {Q : Unit → σ → Prop}
    {E : PyError → σ → Prop} {s : σ} :
    wp (raiseIf fault) Q E s ↔
      (fault = none → Q () s) ∧ (∀ message, fault = some message → E (.external message) s) := by
  cases fault <;> simp [raiseIf]

theorem addInPlace_eq_ok {live delta sum : Tensor} :
    addInPlace live delta = .ok sum ↔ live.add_ delta = some sum := by
  unfold addInPlace
  cases live.add_ delta <;> simp

theorem copyInPlace_eq_ok {live snapshot restored : Tensor} :
    copyInPlace live snapshot = .ok restored ↔ live.copy_ snapshot = some restored := by
  unfold copyInPlace
  cases live.copy_ snapshot <;> simp

/-! ### Phase writes -/

section SetMachine

variable (machine : RuntimeStateMachine) (rt : Runtime)

@[simp] theorem setMachine_machine : (setMachine machine rt).machine = machine := rfl

@[simp] theorem setMachine_phase : (setMachine machine rt).phase = machine.phase := rfl

@[simp] theorem setMachine_store : (setMachine machine rt).store = rt.store := rfl

@[simp] theorem setMachine_golden : (setMachine machine rt).golden = rt.golden := rfl

@[simp] theorem setMachine_registry : (setMachine machine rt).registry = rt.registry := rfl

@[simp] theorem setMachine_activeRouteId :
    (setMachine machine rt).activeRouteId = rt.activeRouteId := rfl

@[simp] theorem setMachine_rollbackCount :
    (setMachine machine rt).rollbackCount = rt.rollbackCount := rfl

@[simp] theorem setMachine_trace :
    (setMachine machine rt).trace = rt.trace ++ [.phaseSet machine.phase] := rfl

end SetMachine

/-- A transition succeeds exactly when the table allows it, and then writes the
phase; otherwise it raises and changes nothing. -/
theorem wp_transition {target : RuntimePhase} {reason routeId : String}
    (hQ : target ∈ validTransitions rt.phase → ∀ machine, machine.phase = target →
      Q () (rt.setMachine machine))
    (hE : target ∉ validTransitions rt.phase → ∀ e, E e rt) :
    wp (transition target reason routeId) Q E rt := by
  rw [transition, wp_bind, wp_get]
  cases hm : rt.machine.transition target reason routeId with
  | ok machine =>
    obtain ⟨hvalid, hphase⟩ := RuntimeStateMachine.transition_eq_ok hm
    exact hQ hvalid machine hphase
  | error e =>
    refine hE (fun hvalid => ?_) _
    obtain ⟨machine, hok, _⟩ := RuntimeStateMachine.transition_of_valid hvalid reason routeId
    rw [hok] at hm
    exact absurd hm (by simp)

/-- An allowed transition. -/
theorem wp_transition_of_valid {phase target : RuntimePhase} {reason routeId : String}
    (hphase : rt.phase = phase) (hvalid : target ∈ validTransitions phase)
    (hQ : ∀ machine, machine.phase = target → Q () (rt.setMachine machine)) :
    wp (transition target reason routeId) Q E rt :=
  wp_transition (fun _ => hQ) fun h => absurd (hphase ▸ hvalid) h

/-- A transition with a handler: the phase is written, or the handler runs. -/
theorem wp_transitionOr {target : RuntimePhase} {reason : String} {handler : Runtime → Runtime}
    (hQ : target ∈ validTransitions rt.phase → ∀ machine, machine.phase = target →
      Q () (rt.setMachine machine))
    (hhandler : target ∉ validTransitions rt.phase → Q () (handler rt)) :
    wp (transitionOr target reason handler) Q E rt := by
  rw [transitionOr, wp_bind, wp_attempt]
  exact wp_transition hQ fun h _ => hhandler h

/-- A forced transition always writes the phase. -/
theorem wp_forceTransition {target : RuntimePhase}
    (hQ : ∀ machine, machine.phase = target → Q () (rt.setMachine machine)) :
    wp (forceTransition target) Q E rt :=
  wp_transitionOr (fun _ => hQ) fun _ => hQ _ rfl

/-- What a phase write keeps, a transition keeps. -/
theorem keeps_transition {R : Runtime → Runtime → Prop} [IsPreorder Runtime R]
    (hR : ∀ machine rt, R rt (setMachine machine rt)) (target : RuntimePhase)
    (reason routeId : String) : Keeps R (transition target reason routeId) :=
  fun rt => wp_transition (fun _ machine _ => hR machine rt) fun _ _ => refl_of R rt

theorem keeps_transitionOr {R : Runtime → Runtime → Prop}
    (hR : ∀ machine rt, R rt (setMachine machine rt)) (target : RuntimePhase) (reason : String)
    {handler : Runtime → Runtime} (hhandler : ∀ rt, R rt (handler rt)) :
    Keeps R (transitionOr target reason handler) :=
  fun rt => wp_transitionOr (fun _ machine _ => hR machine rt) fun _ => hhandler rt

theorem keeps_forceTransition {R : Runtime → Runtime → Prop}
    (hR : ∀ machine rt, R rt (setMachine machine rt)) (target : RuntimePhase) :
    Keeps R (forceTransition target) :=
  keeps_transitionOr hR _ _ fun rt => hR _ rt

/-- What phase writes and quarantining a route keep, a verdict keeps. -/
theorem keeps_applyVerdict {R : Runtime → Runtime → Prop} [IsPreorder Runtime R]
    (hR : ∀ machine rt, R rt (setMachine machine rt))
    (hquarantine : ∀ registry (rt : Runtime), registry.routes = rt.registry.routes →
      R rt { rt with registry := registry })
    (verdict : FailureVerdict) (routeId : String) : Keeps R (applyVerdict verdict routeId) := by
  refine Keeps.ite (fun _ => ?_) fun _ => Keeps.pure ()
  refine Keeps.ite (fun _ => keeps_transitionOr hR _ _ fun rt => hR _ rt) fun _ => ?_
  refine Keeps.ite (fun _ => ?_) fun _ => Keeps.pure ()
  refine Keeps.bind (Keeps.zoom (RouteRegistry.routes_quarantineRoute _ _) hquarantine) fun _ => ?_
  exact keeps_transitionOr hR _ _ fun rt => refl_of R rt

/-! ### Frames of a swap and of a rollback -/

/-- The tensors of the second store have the layouts of the first's. -/
def SameLayouts (store store' : Store) : Prop := ∀ a, Tensor.SameLayout (store' a) (store a)

instance : IsPreorder Store SameLayouts where
  refl store a := Tensor.SameLayout.refl (store a)
  trans _ _ _ h h' a := (h' a).trans (h a)

theorem sameLayouts_update {store : Store} {address : ℕ} {t : Tensor}
    (h : Tensor.SameLayout t (store address)) :
    SameLayouts store (Function.update store address t) := by
  intro a
  by_cases ha : a = address
  · subst ha
    rw [Function.update_self]
    exact h
  · rw [Function.update_of_ne ha]
    exact Tensor.SameLayout.refl _

/-- Every write a swap makes is in `R`, except the note of the deltas it applies. -/
structure SwapFrame (R : Runtime → Runtime → Prop) : Prop where
  phase : ∀ machine rt, R rt (setMachine machine rt)
  golden : ∀ golden rt, R rt { rt with golden := golden }
  added : ∀ layer address delta sum (rt : Runtime), (rt.store address).add_ delta = some sum →
    R rt { rt with
      store := Function.update rt.store address sum
      trace := rt.trace ++ [.deltaAdded layer (rt.store address)] }

/-- Every write a rollback makes is in `R`. -/
structure RollbackFrame (R : Runtime → Runtime → Prop) : Prop where
  phase : ∀ machine rt, R rt (setMachine machine rt)
  restored : ∀ store (rt : Runtime), SameLayouts rt.store store → R rt { rt with store := store }
  counted : ∀ n (rt : Runtime), R rt { rt with rollbackCount := n }
  failed : ∀ rt : Runtime, R rt { rt with trace := rt.trace ++ [.rollbackFailed] }

section Frames

variable {R : Runtime → Runtime → Prop} [IsPreorder Runtime R]

theorem keeps_captureSnapshot (hgolden : ∀ golden rt, R rt { rt with golden := golden })
    (w : Worker) (faults : SwapFaults) (routeData : Manifest) :
    Keeps R (captureSnapshot w faults routeData) := by
  unfold captureSnapshot
  rcases w.model with _ | state
  · exact Keeps.throw _
  · refine Keeps.bind Keeps.get fun rt => Keeps.ite (fun _ => Keeps.pure ()) fun _ => ?_
    exact Keeps.zoom (Keeps.anything _) fun golden rt _ => hgolden golden rt

/-- The delta of a layer is in `R`. -/
abbrev KeepsAdded (R : Runtime → Runtime → Prop) : Prop :=
  ∀ layer address delta sum (rt : Runtime), (rt.store address).add_ delta = some sum →
    R rt { rt with
      store := Function.update rt.store address sum
      trace := rt.trace ++ [.deltaAdded layer (rt.store address)] }

theorem keeps_swapLayer (hR : KeepsAdded R) (state : Dict String ℕ) (faults : SwapFaults)
    (routeData : Manifest) (deltas : Dict String Tensor) (i : ℕ) (layer : LayerSpec) :
    Keeps R (swapLayer state faults routeData deltas i layer) := by
  intro rt
  rw [swapLayer, wp_bind, wp_get]
  rcases state.get? (rt.golden.target layer.name) with _ | address
  · exact refl_of R rt
  · simp only [wp_bind, wp_ofExcept, wp_raiseIf, wp_modify]
    refine ⟨fun delta _ => ⟨fun _ => ⟨fun sum hsum => ?_, ?_⟩, ?_⟩, ?_⟩
    · exact hR layer address delta sum rt (addInPlace_eq_ok.mp hsum)
    all_goals exact fun _ _ => refl_of R rt

theorem keeps_applySwap {w : Worker} {env : Environment} {routeData : Manifest}
    {validatedDeltas : Dict String Tensor} (hR : KeepsAdded R)
    (happlied : ∀ deltas rt, deltasToApply w env.files routeData validatedDeltas = .ok deltas →
      R rt { rt with trace := rt.trace ++ [.swapApplied routeData deltas] }) :
    Keeps R (applySwap w env routeData validatedDeltas) := by
  unfold applySwap
  rcases w.model with _ | state
  · exact Keeps.throw _
  · intro rt
    rw [wp_bind, wp_ofExcept]
    refine ⟨fun deltas hdeltas => ?_, fun _ _ => refl_of R rt⟩
    refine Keeps.bind (Keeps.modify fun rt => happlied deltas rt hdeltas) (fun _ => ?_) rt
    exact Keeps.forEach (keeps_swapLayer hR state env.swap routeData deltas) _ _

/-- What its writes keep, a swap keeps; the deltas it applies are those handed
over or those loaded. -/
theorem keeps_swapIn {w : Worker} {env : Environment} {routeData : Manifest}
    {validatedDeltas : Dict String Tensor} (hR : SwapFrame R)
    (happlied : ∀ deltas rt, deltasToApply w env.files routeData validatedDeltas = .ok deltas →
      R rt { rt with trace := rt.trace ++ [.swapApplied routeData deltas] })
    (routeId : String) : Keeps R (swapIn w env routeId routeData validatedDeltas) := by
  refine Keeps.bind (keeps_transition hR.phase _ _ _) fun _ => ?_
  refine Keeps.bind (keeps_captureSnapshot hR.golden _ _ _) fun _ => ?_
  refine Keeps.bind (keeps_transition hR.phase _ _ _) fun _ => ?_
  refine Keeps.bind (keeps_transition hR.phase _ _ _) fun _ => ?_
  refine Keeps.bind (keeps_applySwap hR.added happlied) fun _ => ?_
  exact keeps_transition hR.phase _ _ _

theorem sameLayouts_restoreLayers (w : Worker) (faults : RollbackFaults) (golden : Golden) :
    Keeps SameLayouts (restoreLayers w faults golden) := by
  refine Keeps.forEach (fun i entry store => ?_) _ _
  simp only [restoreLayer, wp_bind, wp_ofExcept, wp_raiseIf, wp_get, wp_set]
  refine ⟨fun address _ => ⟨fun _ => ⟨fun restored hcopy => ?_, ?_⟩, ?_⟩, ?_⟩
  · exact sameLayouts_update (Tensor.sameLayout_of_copy_ (copyInPlace_eq_ok.mp hcopy))
  all_goals exact fun _ _ => refl_of SameLayouts store

omit [IsPreorder Runtime R] in
theorem keeps_rollback (hrestored : ∀ store (rt : Runtime), SameLayouts rt.store store →
      R rt { rt with store := store }) (w : Worker) (faults : RollbackFaults) :
    Keeps R (rollback w faults) := by
  intro rt
  rw [rollback, wp_bind, wp_get]
  exact Keeps.zoom (sameLayouts_restoreLayers w faults rt.golden)
    (fun store rt h => hrestored store rt h) rt

/-- A failed rollback quarantines the worker. -/
theorem keeps_failRollback (hR : RollbackFrame R) {fc : FailureClass}
    (hfc : (evaluateFailure fc).targetPhase = .workerQuarantined) (routeId : String) :
    Keeps R (failRollback fc routeId) := by
  refine Keeps.bind (Keeps.modify fun rt => hR.failed rt) fun _ => ?_
  refine Keeps.ite (fun _ => ?_) fun _ => Keeps.pure ()
  exact Keeps.ite (fun _ => keeps_transitionOr hR.phase _ _ fun rt => hR.phase _ rt) fun h =>
    absurd hfc h

theorem keeps_performRollback (hR : RollbackFrame R) (w : Worker) (faults : RollbackFaults)
    (routeId : String) : Keeps R (performRollback w faults routeId) := by
  refine Keeps.bind (keeps_forceTransition hR.phase _) fun _ => ?_
  refine Keeps.bind (Keeps.attempt (keeps_rollback hR.restored w faults)) fun outcome => ?_
  rcases outcome with e | u
  · exact keeps_failRollback hR rfl routeId
  · refine Keeps.bind Keeps.get fun rt => Keeps.bind (Keeps.ofExcept _) fun verified => ?_
    rcases verified with _ | _
    · exact keeps_failRollback hR rfl routeId
    · refine Keeps.bind (Keeps.modify fun rt => hR.counted _ rt) fun _ => ?_
      exact keeps_forceTransition hR.phase _

end Frames

/-! ### What is framed -/

/-- What no step of a swap or of a rollback touches. -/
def books (rt : Runtime) :
    RouteRegistry × Dict String (Dict String Tensor) × String × ℕ :=
  (rt.registry, rt.validatedDeltaCache, rt.activeRouteId, rt.swapCount)

theorem books_eq_iff {rt rt' : Runtime} :
    rt'.books = rt.books ↔ rt'.registry = rt.registry ∧
      rt'.validatedDeltaCache = rt.validatedDeltaCache ∧ rt'.activeRouteId = rt.activeRouteId ∧
      rt'.swapCount = rt.swapCount := by
  simp [books]

/-- No live tensor has changed its shape or its element type. -/
def KeepsLayout (rt rt' : Runtime) : Prop := SameLayouts rt.store rt'.store

instance : IsPreorder Runtime KeepsLayout where
  refl rt := refl_of SameLayouts rt.store
  trans _ _ _ h h' := trans_of SameLayouts h h'

/-- The events added to the trace satisfy `P`. -/
abbrev Emits (P : Event → Prop) : Runtime → Runtime → Prop := Appends trace P

theorem swapFrame_books : SwapFrame (Same books) where
  phase _ _ := rfl
  golden _ _ := rfl
  added _ _ _ _ _ _ := rfl

theorem swapFrame_rollbackCount : SwapFrame (Same rollbackCount) where
  phase _ _ := rfl
  golden _ _ := rfl
  added _ _ _ _ _ _ := rfl

theorem swapFrame_layout : SwapFrame KeepsLayout where
  phase _ rt := refl_of SameLayouts rt.store
  golden _ rt := refl_of SameLayouts rt.store
  added _ address delta sum rt h := by
    obtain ⟨_, rfl⟩ := Tensor.add_eq_some.mp h
    exact sameLayouts_update (Tensor.sameLayout_plus _ _)

theorem swapFrame_emits {P : Event → Prop} (hphase : ∀ p, P (.phaseSet p))
    (hadded : ∀ layer live, P (.deltaAdded layer live)) : SwapFrame (Emits P) where
  phase machine _ := Appends.one rfl (hphase machine.phase)
  golden _ _ := Appends.nothing rfl
  added layer _ _ _ _ _ := Appends.one rfl (hadded layer _)

theorem rollbackFrame_books : RollbackFrame (Same books) where
  phase _ _ := rfl
  restored _ _ _ := rfl
  counted _ _ := rfl
  failed _ := rfl

theorem rollbackFrame_golden : RollbackFrame (Same golden) where
  phase _ _ := rfl
  restored _ _ _ := rfl
  counted _ _ := rfl
  failed _ := rfl

theorem rollbackFrame_layout : RollbackFrame KeepsLayout where
  phase _ rt := refl_of SameLayouts rt.store
  restored _ _ h := h
  counted _ rt := refl_of SameLayouts rt.store
  failed rt := refl_of SameLayouts rt.store

theorem rollbackFrame_emits {P : Event → Prop} (hphase : ∀ p, P (.phaseSet p))
    (hfailed : P .rollbackFailed) : RollbackFrame (Emits P) where
  phase machine _ := Appends.one rfl (hphase machine.phase)
  restored _ _ _ := Appends.nothing rfl
  counted _ _ := Appends.nothing rfl
  failed _ := Appends.one rfl hfailed

end Runtime
