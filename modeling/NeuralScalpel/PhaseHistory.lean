/-
The recorded history of the phases.

Transitions are recorded, but a phase that is written by force is not.  The
history accounts for the phase as long as it is a chain of allowed transitions
from ready that ends there.  A rollback forces its first phase unless it starts
while swapping, swapped, forwarding or rolling back already.

* `accounted_transition`, `broken_transition` — what a transition does to the
  account;
* `performRollback_accounted` — what a rollback does;
* `accounted_afterCall_iff` — the calls after which the account is no longer
  complete;
* `accounted_run_iff` — the same over runs.
-/
import NeuralScalpel.RollbackFailure
import NeuralScalpel.SettledPhases

open Effect

/-! ### Chains of transitions -/

namespace RuntimeStateMachine

/-- The phase a history leads to, if each record starts where the one before has
ended and the table allows it. -/
def chainEnd : RuntimePhase → List TransitionRecord → Option RuntimePhase
  | phase, [] => some phase
  | phase, record :: history =>
    if record.fromPhase = phase ∧ record.toPhase ∈ validTransitions phase then
      chainEnd record.toPhase history
    else none

theorem chainEnd_append {history history' : List TransitionRecord} : ∀ {phase : RuntimePhase},
    chainEnd phase (history ++ history') =
      (chainEnd phase history).bind fun phase => chainEnd phase history' := by
  induction history with
  | nil => exact rfl
  | cons record history ih =>
    intro phase
    rw [List.cons_append, chainEnd, chainEnd]
    split_ifs
    · exact ih
    · rfl

/-- The history is a chain from ready to the current phase. -/
def Accounted (m : RuntimeStateMachine) : Prop := chainEnd .ready m.history = some m.phase

instance (m : RuntimeStateMachine) : Decidable m.Accounted :=
  inferInstanceAs (Decidable (_ = _))

/-- The history is no chain. -/
def Broken (m : RuntimeStateMachine) : Prop := chainEnd .ready m.history = none

theorem Broken.not_accounted {m : RuntimeStateMachine} (h : m.Broken) : ¬m.Accounted := by
  intro hm
  unfold Broken at h
  unfold Accounted at hm
  rw [h] at hm
  cases hm

theorem accounted_initial : initial.Accounted := rfl

theorem transition_eq {m m' : RuntimeStateMachine} {target : RuntimePhase}
    {reason routeId : String} (h : m.transition target reason routeId = .ok m') :
    target ∈ validTransitions m.phase ∧ m'.phase = target ∧
      m'.history = m.history ++ [⟨m.phase, target, reason, routeId⟩] := by
  unfold transition at h
  split_ifs at h with hvalid
  cases h
  exact ⟨hvalid, rfl, rfl⟩

/-- A transition goes on with the chain. -/
theorem accounted_transition {m m' : RuntimeStateMachine} {target : RuntimePhase}
    {reason routeId : String} (h : m.transition target reason routeId = .ok m')
    (hm : m.Accounted) : m'.Accounted := by
  obtain ⟨hvalid, hphase, hhistory⟩ := transition_eq h
  unfold Accounted at hm ⊢
  rw [hhistory, chainEnd_append, hm, hphase]
  exact if_pos ⟨rfl, hvalid⟩

/-- After a phase that is not accounted for, the next transition breaks the chain. -/
theorem broken_transition {m m' : RuntimeStateMachine} {target : RuntimePhase}
    {reason routeId : String} (h : m.transition target reason routeId = .ok m')
    (hm : ¬m.Accounted) : m'.Broken := by
  obtain ⟨-, -, hhistory⟩ := transition_eq h
  unfold Accounted at hm
  unfold Broken
  rw [hhistory, chainEnd_append]
  cases hend : chainEnd .ready m.history with
  | none => rfl
  -- the new record starts elsewhere than the chain has ended
  | some phase =>
    have hne : m.phase ≠ phase := fun heq => hm (heq ▸ hend)
    exact if_neg fun h => hne h.1

/-- A longer history of a broken one is broken. -/
theorem Broken.of_isPrefix {m m' : RuntimeStateMachine} (h : m.Broken)
    (hle : m.history <+: m'.history) : m'.Broken := by
  obtain ⟨more, hmore⟩ := hle
  unfold Broken at h ⊢
  rw [← hmore, chainEnd_append, h]
  rfl

end RuntimeStateMachine

/-- A rollback can start here without forcing the phase to another one. -/
def RuntimePhase.Recordable (phase : RuntimePhase) : Prop :=
  phase = .rollingBack ∨ .rollingBack ∈ validTransitions phase

instance (phase : RuntimePhase) : Decidable phase.Recordable :=
  inferInstanceAs (Decidable (_ ∨ _))

namespace Runtime

open RuntimeStateMachine

variable {w : Worker} {β : Type} {rt : Runtime}

def Accounted (rt : Runtime) : Prop := rt.machine.Accounted

instance (rt : Runtime) : Decidable rt.Accounted :=
  inferInstanceAs (Decidable rt.machine.Accounted)

def Broken (rt : Runtime) : Prop := rt.machine.Broken

/-! ### Phase writes, with what they record -/

section PhaseWrites

variable {Q : Unit → Runtime → Prop} {E : PyError → Runtime → Prop}

/-- A transition, with the machine it makes. -/
theorem wp_transition_machine {target : RuntimePhase} {reason routeId : String}
    (hQ : ∀ machine, rt.machine.transition target reason routeId = .ok machine →
      Q () (rt.setMachine machine))
    (hE : target ∉ validTransitions rt.phase → ∀ e, E e rt) :
    wp (transition target reason routeId) Q E rt := by
  rw [transition, wp_bind, wp_get]
  cases hm : rt.machine.transition target reason routeId with
  | ok machine => exact hQ machine hm
  | error e =>
    refine hE (fun hvalid => ?_) _
    obtain ⟨machine, hok, _⟩ := transition_of_valid hvalid reason routeId
    rw [hok] at hm
    cases hm

/-- A transition the table allows, with a handler that is not needed. -/
theorem wp_transitionOr_of_valid {target : RuntimePhase} {reason : String}
    {handler : Runtime → Runtime} (hvalid : target ∈ validTransitions rt.phase)
    (hQ : ∀ machine, rt.machine.transition target reason "" = .ok machine →
      Q () (rt.setMachine machine)) :
    wp (transitionOr target reason handler) Q E rt := by
  rw [transitionOr, wp_bind, wp_attempt]
  exact wp_transition_machine hQ fun hnot => absurd hvalid hnot

/-- An allowed transition from a phase that is accounted for. -/
theorem wp_transition_accounted {phase target : RuntimePhase} {reason routeId : String}
    (h : rt.Accounted) (hphase : rt.phase = phase) (hvalid : target ∈ validTransitions phase)
    (hQ : ∀ machine, (rt.setMachine machine).Accounted →
      (rt.setMachine machine).phase = target → Q () (rt.setMachine machine)) :
    wp (transition target reason routeId) Q E rt :=
  wp_transition_machine (fun machine hm => hQ machine (accounted_transition hm h)
    (transition_eq hm).2.1) fun hnot => absurd (hphase ▸ hvalid) hnot

/-- A transition the table does not allow: the handler runs. -/
theorem wp_transitionOr_of_not_valid {target : RuntimePhase} {reason : String}
    {handler : Runtime → Runtime} (hvalid : target ∉ validTransitions rt.phase)
    (hQ : Q () (handler rt)) : wp (transitionOr target reason handler) Q E rt := by
  rw [transitionOr, wp_bind, wp_attempt]
  refine wp_transition_machine (fun machine hm => ?_) fun _ _ => hQ
  exact absurd (transition_eq hm).1 hvalid

/-- The first phase write of a rollback keeps the account exactly when it is
recorded or changes nothing. -/
theorem wp_forceRollingBack (h : rt.Accounted)
    (hQ : ∀ machine : RuntimeStateMachine, machine.phase = .rollingBack →
      (machine.Accounted ↔ rt.phase.Recordable) → Q () (rt.setMachine machine)) :
    wp (forceTransition .rollingBack) Q E rt := by
  by_cases hvalid : .rollingBack ∈ validTransitions rt.phase
  · refine wp_transitionOr_of_valid hvalid fun machine hm => ?_
    exact hQ machine (transition_eq hm).2.1
      (iff_of_true (accounted_transition hm h) (Or.inr hvalid))
  · refine wp_transitionOr_of_not_valid hvalid (hQ _ rfl ?_)
    -- the history stays, and leads to the phase of before
    have hend : chainEnd .ready rt.machine.history = some rt.phase := h
    show chainEnd .ready rt.machine.history = some .rollingBack ↔ _
    rw [hend, Option.some_inj, RuntimePhase.Recordable, or_iff_left hvalid]

end PhaseWrites

/-! ### Rollbacks -/

/-- A rollback to the end: after its first phase write it makes one more
transition, from rolling back, unless its verification raises. -/
theorem wp_performRollback_machine {Q : Unit → Runtime → Prop} {E : PyError → Runtime → Prop}
    {faults : RollbackFaults} {routeId : String} (h : rt.Accounted)
    (hQ : ∀ (machine : RuntimeStateMachine) (rt' : Runtime), machine.phase = .rollingBack →
      (machine.Accounted ↔ rt.phase.Recordable) →
      (∃ target reason, machine.transition target reason "" = .ok rt'.machine) → Q () rt')
    (hE : ∀ (e : PyError) (rt' : Runtime), rt'.phase = .rollingBack →
      (rt'.Accounted ↔ rt.phase.Recordable) → E e rt') :
    wp (performRollback w faults routeId) Q E rt := by
  rw [performRollback, wp_bind]
  refine wp_forceRollingBack h fun machine hphase haccount => ?_
  have hfail : ∀ {fc : FailureClass} {r : Runtime},
      (evaluateFailure fc).targetPhase = .workerQuarantined → r.machine = machine →
      wp (failRollback fc routeId) Q E r := by
    intro fc r hfc hr
    have hscope : (evaluateFailure fc).quarantineScope.isSome = true := by
      rw [scope_of_workerQuarantined hfc]
      rfl
    rw [failRollback, wp_bind, wp_modify, applyVerdict, if_pos hscope, if_pos hfc]
    have hr' : r.phase = .rollingBack := (congrArg RuntimeStateMachine.phase hr).trans hphase
    have hvalid : .workerQuarantined ∈ validTransitions r.phase := by
      rw [hr']
      decide
    refine wp_transitionOr_of_valid hvalid fun machine' hm => hQ machine _ hphase haccount ?_
    exact ⟨_, _, hr ▸ hm⟩
  rw [wp_bind, wp_attempt]
  have hkeeps : Keeps (Same Runtime.machine) (rollback w faults) :=
    keeps_rollback (fun _ _ _ => rfl) w faults
  refine (hkeeps (rt.setMachine machine)).mono (fun _ r hr => ?_) fun _ r hr => hfail rfl hr
  have hr' : r.phase = .rollingBack := (congrArg RuntimeStateMachine.phase hr).trans hphase
  simp only [wp_bind, wp_get, wp_ofExcept]
  refine ⟨fun verified _ => ?_, fun e _ => hE e r hr' ?_⟩
  · rcases verified with _ | _
    · exact hfail rfl hr
    -- all layers are verified: the rollback ends ready
    · have hvalid : .ready ∈ validTransitions
          ({ r with rollbackCount := r.rollbackCount + 1 } : Runtime).phase := by
        show .ready ∈ validTransitions r.phase
        rw [hr']
        decide
      refine wp_transitionOr_of_valid hvalid fun machine' hm => hQ machine _ hphase haccount ?_
      have hr'' : ({ r with rollbackCount := r.rollbackCount + 1 } : Runtime).machine = machine :=
        hr
      exact ⟨_, _, hr'' ▸ hm⟩
  · rw [Accounted, show r.machine = machine from hr]
    exact haccount

/-- A rollback keeps the account exactly when it can start without forcing the
phase; otherwise the history it leaves is broken, unless it raises first. -/
theorem performRollback_accounted (faults : RollbackFaults) (routeId : String)
    (h : rt.Accounted) :
    wp (performRollback w faults routeId)
      (fun _ rt' => (rt'.Accounted ↔ rt.phase.Recordable) ∧
        (¬rt.phase.Recordable → rt'.Broken))
      (fun _ rt' => rt'.Accounted ↔ rt.phase.Recordable) rt := by
  refine wp_performRollback_machine h (fun machine rt' _ haccount hlast => ?_)
    fun _ _ _ haccount => haccount
  obtain ⟨target, reason, hlast⟩ := hlast
  by_cases hrecordable : rt.phase.Recordable
  · have hm : machine.Accounted := haccount.mpr hrecordable
    exact ⟨iff_of_true (accounted_transition hlast hm) hrecordable, fun hnot =>
      absurd hrecordable hnot⟩
  · have hbroken : rt'.machine.Broken :=
      broken_transition hlast fun hm => hrecordable (haccount.mp hm)
    exact ⟨iff_of_false hbroken.not_accounted hrecordable, fun _ => hbroken⟩

/-! ### Captures and swaps -/

theorem checkLayer_congr {layer : LayerSpec} {target : String} {live live' : Tensor}
    (h : Tensor.SameLayout live' live) :
    checkLayer layer target live' = checkLayer layer target live := by
  unfold checkLayer
  rw [h.1, h.2]

/-- Whether a capture returns depends on the snapshots and the layouts only. -/
theorem returns_captureSnapshot_congr {faults : SwapFaults} {routeData : Manifest}
    {rt rt' : Runtime} (hgolden : rt'.golden = rt.golden) (hlayout : KeepsLayout rt rt') :
    Returns (captureSnapshot w faults routeData) rt' ↔
      Returns (captureSnapshot w faults routeData) rt := by
  unfold Returns captureSnapshot
  rcases w.model with _ | state
  · exact Iff.rfl
  · simp only [wp_bind, wp_get, hgolden]
    by_cases hcovers : rt.golden.covers routeData = true
    · rw [if_pos hcovers, if_pos hcovers]
      exact Iff.rfl
    · rw [if_neg hcovers, if_neg hcovers]
      simp only [wp_zoom, wp_bind, wp_set]
      refine returns_forEach_congr (fun i layer golden golden' => ?_) routeData.layers 0
        Golden.empty Golden.empty
      simp only [Returns, captureLayer, wp_bind, wp_ofExcept, wp_raiseIf, wp_modify,
        checkLayer_congr (hlayout _)]

theorem returns_captureSnapshot_setMachine {faults : SwapFaults} {routeData : Manifest}
    (machine : RuntimeStateMachine) :
    Returns (captureSnapshot w faults routeData) (rt.setMachine machine) ↔
      Returns (captureSnapshot w faults routeData) rt := by
  have hgolden : (rt.setMachine machine).golden = rt.golden := rfl
  exact returns_captureSnapshot_congr hgolden (refl_of SameLayouts rt.store)

/-- The rollback after this swap forces the phase: the capture of a ready worker
raises, or the swap is refused in a phase a rollback cannot start in. -/
def SwapForces (w : Worker) (faults : SwapFaults) (rt : Runtime) (routeData : Manifest) : Prop :=
  if rt.phase = .ready then ¬Returns (captureSnapshot w faults routeData) rt
  else ¬rt.phase.Recordable

/-- What is known of the account when the rollback of a swap starts. -/
def AtRollback (w : Worker) (faults : SwapFaults) (rt : Runtime) (routeData : Manifest)
    (rt' : Runtime) : Prop :=
  rt'.Accounted ∧ (rt'.phase.Recordable ↔ ¬SwapForces w faults rt routeData)

theorem Accounted.of_same {rt rt' : Runtime} (h : rt.Accounted)
    (hsame : Same Runtime.machine rt rt') : rt'.Accounted := by
  rw [Accounted, show rt'.machine = rt.machine from hsame]
  exact h

theorem phase_of_same {rt rt' : Runtime} (hsame : Same Runtime.machine rt rt') :
    rt'.phase = rt.phase := congrArg RuntimeStateMachine.phase hsame

/-- The steps of a swap after its capture, none of which forces a phase. -/
theorem applyAndFinish_accounted {env : Environment} {routeData : Manifest}
    {deltas : Dict String Tensor} (h : rt.Accounted) (hphase : rt.phase = .verifying) :
    wp (do
        transition .snapshotCaptured "" ""
        transition .swapping "" ""
        applySwap w env routeData deltas
        transition .swapped "" "")
      (fun _ rt' => rt'.Accounted ∧ rt'.phase = .swapped)
      (fun _ rt' => rt'.Accounted ∧ rt'.phase.Recordable) rt := by
  rw [wp_bind]
  refine wp_transition_accounted h hphase (by decide) fun machine₁ h₁ hphase₁ => ?_
  rw [wp_bind]
  refine wp_transition_accounted h₁ hphase₁ (by decide) fun machine₂ h₂ hphase₂ => ?_
  rw [wp_bind]
  have hmachine : Keeps (Same Runtime.machine) (applySwap w env routeData deltas) :=
    keeps_applySwap (fun _ _ _ _ _ _ => rfl) fun _ _ _ => rfl
  refine (hmachine _).mono (fun _ rt₃ hsame => ?_) fun _ rt₃ hsame => ?_
  · exact wp_transition_accounted (h₂.of_same hsame) ((phase_of_same hsame).trans hphase₂)
      (by decide) fun machine₄ h₄ hphase₄ => ⟨h₄, hphase₄⟩
  · refine ⟨h₂.of_same hsame, ?_⟩
    rw [phase_of_same hsame, hphase₂]
    decide

/-- The swap of a ready worker whose capture returns forces nothing. -/
theorem swapIn_of_captured {env : Environment} {routeId : String} {routeData : Manifest}
    {deltas : Dict String Tensor} (h : rt.Accounted) (hready : rt.phase = .ready)
    (hreturns : Returns (captureSnapshot w env.swap routeData) rt) :
    wp (swapIn w env routeId routeData deltas) (fun _ rt' => rt'.Accounted ∧ rt'.phase = .swapped)
      (fun _ rt' => rt'.Accounted ∧ rt'.phase.Recordable) rt := by
  rw [swapIn, wp_bind]
  refine wp_transition_accounted h hready (by decide) fun machine h₁ hphase₁ => ?_
  have hcapture : Returns (captureSnapshot w env.swap routeData) (rt.setMachine machine) :=
    (returns_captureSnapshot_setMachine machine).mpr hreturns
  rw [wp_bind]
  have hmachine : Keeps (Same Runtime.machine) (captureSnapshot w env.swap routeData) :=
    keeps_captureSnapshot (fun _ _ => rfl) w env.swap routeData
  refine hcapture.wp ((hmachine _).mono (fun _ rt₂ hsame => ?_) fun _ _ _ => trivial)
  exact applyAndFinish_accounted (h₁.of_same hsame) ((phase_of_same hsame).trans hphase₁)

/-- When the capture of a ready worker raises, the swap stops while verifying. -/
theorem swapIn_of_not_captured {env : Environment} {routeId : String} {routeData : Manifest}
    {deltas : Dict String Tensor} (h : rt.Accounted) (hready : rt.phase = .ready)
    (hraises : ¬Returns (captureSnapshot w env.swap routeData) rt) :
    wp (swapIn w env routeId routeData deltas) (fun _ _ => False)
      (fun _ rt' => rt'.Accounted ∧ ¬rt'.phase.Recordable) rt := by
  rw [swapIn, wp_bind]
  refine wp_transition_accounted h hready (by decide) fun machine h₁ hphase₁ => ?_
  -- the transition to verifying does not help the capture
  have hcapture : ¬Returns (captureSnapshot w env.swap routeData) (rt.setMachine machine) :=
    mt (returns_captureSnapshot_setMachine machine).mp hraises
  have hmachine : Keeps (Same Runtime.machine) (captureSnapshot w env.swap routeData) :=
    keeps_captureSnapshot (fun _ _ => rfl) w env.swap routeData
  rw [wp_bind]
  refine (hmachine.and_wp (not_returns_iff.mp hcapture)).mono (fun _ _ hfalse => hfalse.2.elim) ?_
  rintro _ rt₂ ⟨hsame, -⟩
  refine ⟨h₁.of_same hsame, ?_⟩
  rw [phase_of_same hsame, hphase₁]
  decide

theorem swapIn_accounted {env : Environment} {routeId : String} {routeData : Manifest}
    {deltas : Dict String Tensor} (h : rt.Accounted) :
    wp (swapIn w env routeId routeData deltas)
      (fun _ rt' => rt'.phase = .swapped ∧ AtRollback w env.swap rt routeData rt')
      (fun _ => AtRollback w env.swap rt routeData) rt := by
  unfold AtRollback SwapForces
  by_cases hready : rt.phase = .ready
  · rw [if_pos hready]
    by_cases hreturns : Returns (captureSnapshot w env.swap routeData) rt
    · refine (swapIn_of_captured h hready hreturns).mono ?_ ?_
      · rintro _ rt' ⟨h', hphase⟩
        refine ⟨hphase, h', iff_of_true ?_ (not_not.mpr hreturns)⟩
        rw [hphase]
        decide
      · rintro _ rt' ⟨h', hrecordable⟩
        exact ⟨h', iff_of_true hrecordable (not_not.mpr hreturns)⟩
    · refine (swapIn_of_not_captured h hready hreturns).mono (fun _ _ hfalse => hfalse.elim) ?_
      rintro _ rt' ⟨h', hnot⟩
      exact ⟨h', iff_of_false hnot (not_not.mpr hreturns)⟩
  · -- the swap is refused
    rw [if_neg hready]
    refine (swapIn_of_not_ready hready).mono (fun _ _ hfalse => hfalse.elim) ?_
    rintro _ rt' rfl
    exact ⟨h, not_not.symm⟩

/-! ### Requests -/

/-- The verdict on a rejected payload either records its phase or leaves it. -/
theorem applyVerdict_accounted {fc : FailureClass} {routeId : String} (hfc : fc.ofPayload)
    (h : rt.Accounted) :
    wp (applyVerdict (evaluateFailure fc) routeId) (fun _ => Accounted) (fun _ => Accounted)
      rt := by
  unfold applyVerdict
  rcases hfc with hroute | hnone
  · by_cases hscope : (evaluateFailure fc).quarantineScope.isSome = true
    · rw [if_pos hscope, hroute, if_neg (by decide), if_pos rfl, wp_bind, wp_zoom]
      refine (RouteRegistry.routes_quarantineRoute routeId (evaluateFailure fc).message
        rt.registry).mono (fun _ registry _ => ?_) fun _ registry _ => h
      -- a refused transition is logged, and the phase stays
      by_cases hvalid : .routeQuarantined ∈ validTransitions rt.phase
      · exact wp_transitionOr_of_valid hvalid fun machine hm => accounted_transition hm h
      · exact wp_transitionOr_of_not_valid hvalid h
    · rw [if_neg hscope]
      exact h
  -- some failures have no scope to quarantine
  · rw [hnone, if_neg (by decide)]
    exact h

theorem lifecycle_accounted {request : Request β} {routeData : Manifest}
    {deltas : Dict String Tensor} (h : rt.Accounted) :
    wp (lifecycle w request routeData deltas)
      (fun _ => AtRollback w request.env.swap rt routeData)
      (fun _ => AtRollback w request.env.swap rt routeData) rt := by
  rw [lifecycle, wp_bind]
  refine (swapIn_accounted h).mono ?_ fun _ _ hat => hat
  rintro _ rt₁ ⟨hphase, haccount, hrecordable⟩
  -- from swapped on every phase is one a rollback can start in
  have hforces : ¬SwapForces w request.env.swap rt routeData := by
    refine hrecordable.mp ?_
    rw [hphase]
    decide
  have hforward : ∀ {rt' : Runtime}, rt'.Accounted → rt'.phase = .forwarding →
      AtRollback w request.env.swap rt routeData rt' := by
    intro rt' h' hphase'
    refine ⟨h', iff_of_true ?_ hforces⟩
    rw [hphase']
    decide
  rw [runForward, wp_bind]
  refine wp_transition_accounted haccount hphase (by decide) fun machine h₂ hphase₂ => ?_
  simp only [wp_bind, wp_get, wp_modify, wp_ofExcept]
  exact ⟨fun _ _ => hforward h₂ hphase₂, fun _ _ => hforward h₂ hphase₂⟩

/-- The rollback of a swap keeps the account unless the swap makes it force the
phase. -/
theorem performRollback_atRollback {swapFaults : SwapFaults} {faults : RollbackFaults}
    {routeId : String} {routeData : Manifest} {rt₁ : Runtime}
    (h : AtRollback w swapFaults rt routeData rt₁) :
    wp (performRollback w faults routeId)
      (fun _ rt' => rt'.Accounted ↔ ¬SwapForces w swapFaults rt routeData)
      (fun _ rt' => rt'.Accounted ↔ ¬SwapForces w swapFaults rt routeData) rt₁ :=
  (performRollback_accounted faults routeId h.1).mono (fun _ _ h' => h'.1.trans h.2)
    fun _ _ h' => h'.trans h.2

/-- The request enters the lock, and the rollback of its swap forces the phase. -/
def RequestForces (w : Worker) (rt : Runtime) (request : Request β) : Prop :=
  ∃ routeData deltas, EntersLock w rt request routeData deltas ∧
    SwapForces w request.env.swap rt routeData

theorem serve_accounted (request : Request β) (h : rt.Accounted) :
    wp (serve w request) (fun _ rt' => rt'.Accounted ↔ ¬RequestForces w rt request)
      (fun _ rt' => rt'.Accounted ↔ ¬RequestForces w rt request) rt := by
  have hstays : (∀ routeData deltas, ¬EntersLock w rt request routeData deltas) →
      ∀ {rt' : Runtime}, rt'.Accounted → (rt'.Accounted ↔ ¬RequestForces w rt request) :=
    fun hnot _ h' => iff_of_true h' fun ⟨routeData, deltas, henters, _⟩ =>
      hnot routeData deltas henters
  refine wp_infer (fun hwq e => ?_) (fun e he => ?_) (fun routeData e hroute he hphase => ?_)
    fun routeData deltas hroute hvalid hphase => ?_
  · exact hstays (fun _ _ henters => henters.accepted hwq) h
  · refine hstays (fun _ _ henters => ?_) h
    cases he.symm.trans henters.verified
  · have hnot : ∀ routeData' deltas, ¬EntersLock w rt request routeData' deltas := by
      intro routeData' deltas henters
      cases hroute.symm.trans henters.verified
      cases he.symm.trans henters.validated
    exact (applyVerdict_accounted (ofPayload_of_validatePayload he) h).mono
      (fun _ _ h' _ => hstays hnot h') fun _ _ h' => hstays hnot h'
  · have hforces : RequestForces w rt request ↔ SwapForces w request.env.swap rt routeData := by
      constructor
      · rintro ⟨routeData', deltas', henters, hforces⟩
        cases hroute.symm.trans henters.verified
        exact hforces
      · exact fun hforces => ⟨routeData, deltas, ⟨hphase, hroute, hvalid⟩, hforces⟩
    rw [hforces]
    refine (lifecycle_accounted h).mono (fun output rt₁ hat => ?_) fun _ rt₁ hat =>
      performRollback_atRollback hat
    exact (performRollback_atRollback hat).mono (fun _ _ h' => ⟨fun _ _ => h', fun _ => h'⟩)
      fun _ _ h' => h'

/-! ### Histories only grow -/

def HistoryGrows (rt rt' : Runtime) : Prop := rt.machine.history <+: rt'.machine.history

instance : IsPreorder Runtime HistoryGrows where
  refl _ := List.prefix_refl _
  trans _ _ _ h h' := List.IsPrefix.trans h h'

theorem grows_of_same {rt rt' : Runtime} (h : rt'.machine = rt.machine) : HistoryGrows rt rt' := by
  rw [HistoryGrows, h]

theorem grows_transition (target : RuntimePhase) (reason routeId : String) :
    Keeps HistoryGrows (transition target reason routeId) :=
  fun rt => wp_transition_machine (fun _ hm => ⟨_, (transition_eq hm).2.2.symm⟩)
    fun _ _ => refl_of HistoryGrows rt

theorem grows_transitionOr (target : RuntimePhase) (reason : String) {handler : Runtime → Runtime}
    (hhandler : ∀ rt, HistoryGrows rt (handler rt)) :
    Keeps HistoryGrows (transitionOr target reason handler) := by
  intro rt
  rw [transitionOr, wp_bind, wp_attempt]
  exact wp_transition_machine (fun _ hm => ⟨_, (transition_eq hm).2.2.symm⟩)
    fun _ _ => hhandler rt

theorem grows_forceTransition (target : RuntimePhase) :
    Keeps HistoryGrows (forceTransition target) :=
  grows_transitionOr _ _ fun _ => List.prefix_refl _

theorem grows_failRollback {fc : FailureClass}
    (hfc : (evaluateFailure fc).targetPhase = .workerQuarantined) (routeId : String) :
    Keeps HistoryGrows (failRollback fc routeId) := by
  refine Keeps.bind (Keeps.modify fun _ => grows_of_same rfl) fun _ => ?_
  refine Keeps.ite (fun _ => ?_) fun _ => Keeps.pure ()
  exact Keeps.ite (fun _ => grows_transitionOr _ _ fun _ => List.prefix_refl _) fun h =>
    absurd hfc h

theorem grows_performRollback (w : Worker) (faults : RollbackFaults) (routeId : String) :
    Keeps HistoryGrows (performRollback w faults routeId) := by
  refine Keeps.bind (grows_forceTransition _) fun _ => ?_
  refine Keeps.bind (Keeps.attempt (keeps_rollback (fun _ _ _ => grows_of_same rfl) w faults))
    fun outcome => ?_
  rcases outcome with e | u
  · exact grows_failRollback rfl routeId
  · refine Keeps.bind Keeps.get fun rt => Keeps.bind (Keeps.ofExcept _) fun verified => ?_
    rcases verified with _ | _
    · exact grows_failRollback rfl routeId
    · exact Keeps.bind (Keeps.modify fun _ => grows_of_same rfl) fun _ => grows_forceTransition _

theorem grows_swapIn (env : Environment) (routeId : String) (routeData : Manifest)
    (deltas : Dict String Tensor) : Keeps HistoryGrows (swapIn w env routeId routeData deltas) := by
  refine Keeps.bind (grows_transition _ _ _) fun _ => ?_
  refine Keeps.bind (keeps_captureSnapshot (fun _ _ => grows_of_same rfl) _ _ _) fun _ => ?_
  refine Keeps.bind (grows_transition _ _ _) fun _ => ?_
  refine Keeps.bind (grows_transition _ _ _) fun _ => ?_
  refine Keeps.bind (keeps_applySwap (fun _ _ _ _ _ _ => grows_of_same rfl)
    fun _ _ _ => grows_of_same rfl) fun _ => ?_
  exact grows_transition _ _ _

theorem grows_ensureFromBase (env : Environment) (routeId : String) (tenant : TenantContext) :
    Keeps HistoryGrows (ensureFromBase w env routeId tenant) := by
  refine Keeps.ite (fun _ => Keeps.pure _) fun _ => ?_
  refine Keeps.bind Keeps.get fun rt => Keeps.bind (Keeps.ofExcept _) fun routeData => ?_
  refine Keeps.bind ?_ fun deltas => ?_
  · exact fun rt => wp_cachedDeltas (fun _ _ => refl_of HistoryGrows rt)
      (fun _ _ _ => grows_of_same rfl) fun _ => refl_of HistoryGrows rt
  · refine Keeps.bind (Keeps.attempt (grows_swapIn env routeId routeData deltas)) fun outcome => ?_
    cases outcome with
    | error e =>
      refine Keeps.bind (grows_performRollback w env.cycle routeId) fun _ => ?_
      exact Keeps.bind (Keeps.modify fun _ => grows_of_same rfl) fun _ => Keeps.throw e
    | ok u => exact Keeps.bind (Keeps.modify fun _ => grows_of_same rfl) fun _ => Keeps.pure _

/-! ### Activations -/

theorem swapForces_congr (w : Worker) (swapFaults : SwapFaults) (routeData : Manifest)
    {rt rt' : Runtime} (hphase : rt'.phase = rt.phase) (hgolden : rt'.golden = rt.golden)
    (hlayout : KeepsLayout rt rt') :
    SwapForces w swapFaults rt' routeData ↔ SwapForces w swapFaults rt routeData := by
  unfold SwapForces
  rw [hphase, returns_captureSnapshot_congr hgolden hlayout]

/-- The deltas of a route can be had: from the cache or from its payload. -/
def HasDeltas (w : Worker) (rt : Runtime) (activation : Activation) (routeData : Manifest) :
    Prop :=
  rt.validatedDeltaCache.contains activation.routeId = true ∨
    validates w activation.env routeData = true

theorem wp_cachedDeltas_of_hasDeltas {activation : Activation} {routeData : Manifest}
    {Q : Dict String Tensor → Runtime → Prop} {E : PyError → Runtime → Prop}
    (h : HasDeltas w rt activation routeData)
    (hQ : ∀ (deltas : Dict String Tensor) (rt₁ : Runtime), rt₁.machine = rt.machine →
      rt₁.golden = rt.golden → rt₁.store = rt.store → Q deltas rt₁) :
    wp (cachedDeltas w activation.env activation.routeId routeData) Q E rt := by
  rw [cachedDeltas, wp_bind, wp_get]
  cases hget : rt.validatedDeltaCache.get? activation.routeId with
  | some deltas => exact hQ deltas rt rfl rfl rfl
  | none =>
    have hvalid : validates w activation.env routeData = true := by
      refine h.resolve_left fun hcached => ?_
      obtain ⟨deltas, hdeltas⟩ := Dict.contains_iff.mp hcached
      cases hget.symm.trans hdeltas
    unfold validates at hvalid
    rw [wp_bind]
    rcases hval : validatePayload activation.env.files w.payloadBaseDir w.maxPayloadBytes routeData
      with e | deltas
    · rw [hval] at hvalid
      cases hvalid
    · exact hQ deltas _ rfl rfl rfl

theorem wp_cachedDeltas_of_not_hasDeltas {activation : Activation} {routeData : Manifest}
    {Q : Dict String Tensor → Runtime → Prop} {E : PyError → Runtime → Prop}
    (h : ¬HasDeltas w rt activation routeData) (hE : ∀ e, E e rt) :
    wp (cachedDeltas w activation.env activation.routeId routeData) Q E rt := by
  refine wp_cachedDeltas (fun deltas hget => ?_) (fun _ deltas hvalid => ?_) hE
  · exact absurd (Or.inl (Dict.contains_iff.mpr ⟨deltas, hget⟩)) h
  · exact absurd (Or.inr (validates_of_eq_ok hvalid)) h

/-- Once no route is active, the activation gets to a swap of a route like this. -/
def ActivatesWith (w : Worker) (rt : Runtime) (activation : Activation) (P : Manifest → Prop) :
    Prop :=
  activation.routeId ≠ baseRoute ∧ ∃ routeData,
    rt.registry.getVerifiedRoute activation.routeId w.runtimeModelHash activation.tenant =
      .ok routeData ∧
    HasDeltas w rt activation routeData ∧ P routeData

/-- What an activation of a route gets to, with its manifest at hand. -/
theorem activatesWith_iff {activation : Activation} {routeData : Manifest} {P : Manifest → Prop}
    (hroute : rt.registry.getVerifiedRoute activation.routeId w.runtimeModelHash
      activation.tenant = .ok routeData) :
    ActivatesWith w rt activation P ↔
      activation.routeId ≠ baseRoute ∧ HasDeltas w rt activation routeData ∧ P routeData := by
  constructor
  · rintro ⟨htarget, routeData', hroute', hdeltas, hP⟩
    cases hroute.symm.trans hroute'
    exact ⟨htarget, hdeltas, hP⟩
  · rintro ⟨htarget, hdeltas, hP⟩
    exact ⟨htarget, routeData, hroute, hdeltas, hP⟩

/-- The swap of an activation, and its rollback when it raises. -/
theorem activationCycle_accounted {env : Environment} {routeId : String} {routeData : Manifest}
    {deltas : Dict String Tensor} {rt₁ : Runtime} (h : rt.Accounted)
    (hmachine : rt₁.machine = rt.machine) (hgolden : rt₁.golden = rt.golden)
    (hstore : rt₁.store = rt.store) :
    wp (swapIn w env routeId routeData deltas)
      (fun _ rt₂ => ({ rt₂ with
          activeRouteId := routeId
          swapCount := rt₂.swapCount + 1 } : Runtime).Accounted ↔
        ¬SwapForces w env.swap rt routeData)
      (fun _ rt₂ => wp (performRollback w env.cycle routeId)
        (fun _ rt₃ => ({ rt₃ with activeRouteId := baseRoute } : Runtime).Accounted ↔
          ¬SwapForces w env.swap rt routeData)
        (fun _ rt₃ => rt₃.Accounted ↔ ¬SwapForces w env.swap rt routeData) rt₂) rt₁ := by
  have hlayout : KeepsLayout rt rt₁ := by
    rw [KeepsLayout, hstore]
    exact refl_of SameLayouts rt.store
  -- reading the deltas changes nothing the swap depends on
  rw [← swapForces_congr w env.swap routeData (phase_of_same hmachine) hgolden hlayout]
  refine (swapIn_accounted (h.of_same hmachine)).mono ?_ fun _ rt₂ hat =>
    performRollback_atRollback hat
  rintro _ rt₂ ⟨hphase, haccount, hrecordable⟩
  refine iff_of_true haccount (hrecordable.mp ?_)
  rw [hphase]
  decide

theorem activate_accounted {activation : Activation} (h : rt.Accounted)
    (htarget : activation.routeId ≠ baseRoute) :
    wp (activate w activation.env activation.routeId activation.tenant)
      (fun _ rt' => rt'.Accounted ↔
        ¬ActivatesWith w rt activation (SwapForces w activation.env.swap rt))
      (fun _ rt' => rt'.Accounted ↔
        ¬ActivatesWith w rt activation (SwapForces w activation.env.swap rt)) rt := by
  refine wp_activate (fun e he => ?_) fun routeData hroute => ?_
  · refine iff_of_true h ?_
    rintro ⟨-, routeData, hroute, -⟩
    cases he.symm.trans hroute
  · rw [activatesWith_iff hroute, and_iff_right htarget]
    by_cases hdeltas : HasDeltas w rt activation routeData
    · rw [and_iff_right hdeltas]
      exact wp_cachedDeltas_of_hasDeltas hdeltas fun deltas rt₁ hmachine hgolden hstore =>
        activationCycle_accounted h hmachine hgolden hstore
    · exact wp_cachedDeltas_of_not_hasDeltas hdeltas fun e =>
        iff_of_true h fun hactivates => hdeltas hactivates.1

theorem ensureFromBase_accounted {activation : Activation} (h : rt.Accounted) :
    wp (ensureFromBase w activation.env activation.routeId activation.tenant)
      (fun _ rt' => rt'.Accounted ↔
        ¬ActivatesWith w rt activation (SwapForces w activation.env.swap rt))
      (fun _ rt' => rt'.Accounted ↔
        ¬ActivatesWith w rt activation (SwapForces w activation.env.swap rt)) rt := by
  rw [ensureFromBase]
  by_cases htarget : activation.routeId = baseRoute
  · rw [if_pos htarget]
    exact iff_of_true h fun hactivates => hactivates.1 htarget
  · rw [if_neg htarget]
    exact activate_accounted h htarget

/-- After the rollback of the active route, the swap forces the phase: the
rollback has failed, or it has succeeded and the capture raises. -/
def ResidentForces (w : Worker) (env : Environment) (rt : Runtime) (routeData : Manifest) : Prop :=
  RollbackFails w env.resident rt ∨
    ¬VerificationRaises w env.resident rt ∧ ¬Returns (captureSnapshot w env.swap routeData) rt

/-- What a rollback of the active route that returns leaves for the swap. -/
theorem swapForces_after_resident {env : Environment} {routeData : Manifest} {rt₁ : Runtime}
    (hgolden : rt₁.golden = rt.golden) (hlayout : KeepsLayout rt rt₁)
    (hverified : ¬VerificationRaises w env.resident rt)
    (houtcome : RollbackFails w env.resident rt ∧ rt₁.phase = .workerQuarantined ∨
      ¬RollbackFails w env.resident rt ∧ rt₁.phase = .ready) :
    SwapForces w env.swap rt₁ routeData ↔ ResidentForces w env rt routeData := by
  unfold SwapForces ResidentForces
  rcases houtcome with ⟨hfails, hwq⟩ | ⟨hnot, hready⟩
  -- a quarantined worker refuses the swap, and its rollback forces the phase
  · rw [hwq, if_neg (by decide)]
    exact iff_of_true (by decide) (Or.inl hfails)
  · rw [if_pos hready, or_iff_right hnot, and_iff_right hverified,
      returns_captureSnapshot_congr hgolden hlayout]

theorem activatesWith_congr {activation : Activation} {P P' : Manifest → Prop} {rt₁ : Runtime}
    (hregistry : rt₁.registry = rt.registry)
    (hcache : rt₁.validatedDeltaCache = rt.validatedDeltaCache)
    (hP : ∀ routeData, P routeData ↔ P' routeData) :
    ActivatesWith w rt₁ activation P ↔ ActivatesWith w rt activation P' := by
  simp only [ActivatesWith, HasDeltas, hregistry, hcache, hP]

def ActivationForces (w : Worker) (rt : Runtime) (activation : Activation) : Prop :=
  rt.phase ≠ .workerQuarantined ∧ rt.activeRouteId ≠ activation.routeId ∧
    if rt.activeRouteId = baseRoute then
      ActivatesWith w rt activation (SwapForces w activation.env.swap rt)
    else
      ¬rt.phase.Recordable ∨ ActivatesWith w rt activation (ResidentForces w activation.env rt)

/-- From a broken history no account is reached again. -/
theorem ensureFromBase_broken {activation : Activation} (h : rt.Broken) :
    wp (ensureFromBase w activation.env activation.routeId activation.tenant)
      (fun _ rt' => ¬rt'.Accounted) (fun _ rt' => ¬rt'.Accounted) rt := by
  have hfinal : ∀ {rt' : Runtime}, HistoryGrows rt rt' → ¬rt'.Accounted :=
    fun hgrows => (h.of_isPrefix hgrows).not_accounted
  exact (grows_ensureFromBase _ _ _ _).mono (fun _ _ h => hfinal h) fun _ _ h => hfinal h

theorem ensure_accounted (activation : Activation) (h : rt.Accounted) :
    wp (ensure w activation) (fun _ rt' => rt'.Accounted ↔ ¬ActivationForces w rt activation)
      (fun _ rt' => rt'.Accounted ↔ ¬ActivationForces w rt activation) rt := by
  unfold ActivationForces
  refine wp_ensureRoute (fun hwq e => ?_) (fun _ hactive => ?_) (fun hphase hactive hbase => ?_)
    fun hphase hactive hresident => ?_
  · exact iff_of_true h fun hforces => hforces.1 hwq
  · exact iff_of_true h fun hforces => hforces.2.1 hactive
  · rw [if_pos hbase]
    simp only [ne_eq, hphase, hactive, not_false_eq_true, true_and]
    exact ensureFromBase_accounted h
  · rw [if_neg hresident]
    simp only [ne_eq, hphase, hactive, not_false_eq_true, true_and]
    refine ((keeps_performRollback rollbackFrame_books w _ _).and_wp
      ((keeps_performRollback rollbackFrame_golden w _ _).and_wp
      ((keeps_performRollback rollbackFrame_layout w _ _).and_wp
      ((performRollback_outcome _ _ rt).and ((performRollback_settled _ _ rt).and
        (performRollback_accounted _ _ h)))))).mono ?_ ?_
    · rintro _ rt₁ ⟨hbooks, hgolden, hlayout, houtcome, ⟨-, hverified⟩, haccount, hbroken⟩
      obtain ⟨hregistry, hcache, -, -⟩ := books_eq_iff.mp hbooks
      by_cases hrecordable : rt.phase.Recordable
      · have houtcome' : RollbackFails w activation.env.resident rt ∧
            rt₁.phase = .workerQuarantined ∨
              ¬RollbackFails w activation.env.resident rt ∧ rt₁.phase = .ready :=
          houtcome.imp (fun h => ⟨h.1, h.2.1⟩) fun h => ⟨h.1, h.2.1⟩
        have hdropped : ({ rt₁ with activeRouteId := baseRoute } : Runtime).Accounted :=
          haccount.mpr hrecordable
        have hforces : ActivatesWith w { rt₁ with activeRouteId := baseRoute } activation
            (SwapForces w activation.env.swap { rt₁ with activeRouteId := baseRoute }) ↔
              ActivatesWith w rt activation (ResidentForces w activation.env rt) :=
          activatesWith_congr hregistry hcache fun routeData =>
            swapForces_after_resident hgolden hlayout hverified houtcome'
        rw [or_iff_right (not_not.mpr hrecordable), ← hforces]
        exact ensureFromBase_accounted hdropped
      · -- the history is broken for good
        have hforced : ¬¬(¬rt.phase.Recordable ∨
            ActivatesWith w rt activation (ResidentForces w activation.env rt)) :=
          not_not.mpr (Or.inl hrecordable)
        have hstart : ({ rt₁ with activeRouteId := baseRoute } : Runtime).Broken :=
          hbroken hrecordable
        exact (ensureFromBase_broken hstart).mono (fun _ _ h => iff_of_false h hforced)
          fun _ _ h => iff_of_false h hforced
    · rintro e rt₁ ⟨-, -, -, ⟨hnot, -⟩, ⟨-, hraises⟩, haccount⟩
      -- the call ends with the exception of the verification
      rw [haccount]
      have hactivates : ¬ActivatesWith w rt activation (ResidentForces w activation.env rt) := by
        rintro ⟨-, routeData, -, -, hfails | ⟨hverified, -⟩⟩
        · exact hnot hfails
        · exact hverified hraises
      rw [or_iff_left hactivates, not_not]

/-! ### Runs -/

/-- A rollback of the call forces the phase to another one. -/
def CallForces (w : Worker) (rt : Runtime) : Call β → Prop
  | .infer request => RequestForces w rt request
  | .ensureRoute activation => ActivationForces w rt activation
  | .clearActiveRoute _ => rt.activeRouteId ≠ baseRoute ∧ ¬rt.phase.Recordable

/-- From a phase that is accounted for, a call keeps the account exactly when
none of its rollbacks forces the phase. -/
theorem accounted_afterCall_iff {call : Call β} (h : rt.Accounted) :
    (rt.afterCall w call).Accounted ↔ ¬CallForces w rt call := by
  suffices hwp : wp (perform w call) (fun _ rt' => rt'.Accounted ↔ ¬CallForces w rt call)
      (fun _ rt' => rt'.Accounted ↔ ¬CallForces w rt call) rt from wp_const_iff.mp hwp
  cases call with
  | infer request =>
    rw [perform, wp_map]
    exact serve_accounted request h
  | ensureRoute activation =>
    rw [perform, wp_map]
    exact ensure_accounted activation h
  | clearActiveRoute env =>
    rw [perform, wp_map, CallForces]
    refine wp_clearActiveRoute (fun hbase => ?_) fun hactive => ?_
    · exact iff_of_true h fun hforces => hforces.1 hbase
    · rw [and_iff_right hactive, not_not]
      exact (performRollback_accounted _ _ h).mono (fun _ _ h' => h'.1) fun _ _ h' => h'

/-- **The history as an account.**  In a run of calls of a fresh runtime the
history is a chain from ready to the phase after every call exactly when no
rollback of the run forces the phase to another one. -/
theorem accounted_run_iff (w : Worker) (registry : RouteRegistry) (base : Store)
    (calls : List (Call β)) :
    Runs.Along (afterCall w) (fun rt call => (rt.afterCall w call).Accounted)
        (fresh registry base) calls ↔
      Runs.Along (afterCall w) (fun rt call => ¬CallForces w rt call) (fresh registry base) calls :=
  Runs.along_invariant_iff (fun _ _ h => accounted_afterCall_iff h) accounted_initial

/-- A snapshot cannot be taken: from verifying the phase is forced to rolling
back, which the history does not show. -/
theorem not_accounted_capture :
    let failing : Call Unit := .infer
      ⟨{ Demo.quiet Demo.noFiles with
          swap := ⟨fun _ => some "out of memory", fun _ => none, fun _ => none⟩ },
        "r", Demo.tenant, fun _ => .ok ()⟩
    ¬Runs.Along (afterCall Demo.worker) (fun rt call => (rt.afterCall Demo.worker call).Accounted)
      Demo.start [failing] := by
  intro failing
  rintro ⟨haccount, -⟩
  exact absurd haccount (by decide +kernel)

end Runtime
