/-
Verdicts and swaps of concurrent requests.

Only the locked section of `infer` is exclusive.  The verdict on a bad payload
is made outside, and its transition is valid in three of the phases a swap goes
through, so it can land in the middle of the swap of another request.

* `agrees_step`, `mutual_exclusion` — who holds the lock, and in which phase;
* `answers_of_undisturbed` — a request none of whose own operations fails
  returns the output of its inference, if no verdict lands in its swap and no
  rollback of another request fails;
* `not_answers_verdict` — a verdict that lands there makes it raise.
-/
import NeuralScalpel.ConcurrentInfer

open Effect

namespace ConcurrentInfer

variable {ι β : Type}

/-! ### Phases -/

/-- The phase in which a thread at this stage finds the runtime, if all
rollbacks succeed. -/
def Stage.InPhase : Stage β → RuntimePhase → Prop
  | .quarantining e, _ | .condemning e, _ => e.failureClass.ofPayload
  | .verifying _ _, phase | .releasing _, phase => phase = .ready
  | .capturing _ _, phase | .captured _ _, phase => phase = .verifying ∨ phase = .routeQuarantined
  | .swapping _ _, phase => phase = .snapshotCaptured ∨ phase = .routeQuarantined
  | .applying _ _, phase | .swapped, phase => phase = .swapping ∨ phase = .routeQuarantined
  | .forwarding, phase => phase = .swapped
  | .inferring, phase => phase = .forwarding
  | .failing _ _, _ => False
  | _, _ => True

/-- The thread is about to make the transition of a verdict. -/
def Stage.verdictPending : Stage β → Bool
  | .condemning e => (evaluateFailure e.failureClass).quarantineScope.isSome
  | _ => false

/-- What a thread outside the lock may do to the phase: a verdict makes its
transition if the table allows it. -/
def Stage.Verdict (stage : Stage β) (phase phase' : RuntimePhase) : Prop :=
  phase' = phase ∨ stage.verdictPending = true ∧
    .routeQuarantined ∈ validTransitions phase ∧ phase' = .routeQuarantined

/-- A verdict lands only where the holder of the lock has to expect one. -/
theorem Stage.InPhase.of_verdict {stage other : Stage β} {phase phase' : RuntimePhase}
    (h : stage.InPhase phase) (hv : other.Verdict phase phase') : stage.InPhase phase' := by
  rcases hv with rfl | ⟨_, hvalid, rfl⟩
  · exact h
  · cases stage <;> simp only [InPhase] at h ⊢ <;> first
      | exact h
      | exact Or.inr trivial
      | (subst h; exact absurd hvalid (by decide))

theorem ne_workerQuarantined_of_verdict {other : Stage β} {phase phase' : RuntimePhase}
    (h : other.Verdict phase phase') (hne : phase ≠ .workerQuarantined) :
    phase' ≠ .workerQuarantined := by
  rcases h with rfl | ⟨_, _, rfl⟩
  · exact hne
  · decide

/-- No verdict touches a ready runtime. -/
theorem ready_of_verdict {other : Stage β} {phase phase' : RuntimePhase}
    (h : other.Verdict phase phase') (hready : phase = .ready) : phase' = .ready := by
  rcases h with rfl | ⟨_, hvalid, _⟩
  · exact hready
  · subst hready
    exact absurd hvalid (by decide)

/-- If the thread is about to restore or check the weights, that succeeds. -/
def RollsBack (w : Worker) (request : Request β) : Stage β → Runtime → Prop
  | .restoring _, rt => Returns (Runtime.rollback w request.env.cycle) rt
  | .checking _, rt =>
    Runtime.verifyRollback w request.env.cycle rt.golden rt.store = .ok true
  | _, _ => True

/-- The operation of its own that the thread is about to make succeeds. -/
def Succeeds (w : Worker) (request : Request β) : Stage β → Runtime → Prop
  | .resolving, rt => (rt.registry.getVerifiedRoute request.routeId w.runtimeModelHash
      request.tenant).isOk = true
  | .validating routeData, _ =>
    (validatePayload request.env.files w.payloadBaseDir w.maxPayloadBytes routeData).isOk = true
  | .capturing routeData _, rt =>
    Returns (Runtime.captureSnapshot w request.env.swap routeData) rt
  | .applying routeData deltas, rt =>
    Returns (Runtime.applySwap w request.env routeData deltas) rt
  | .inferring, rt => (request.inferenceFunc rt.store).isOk = true
  | stage, rt => RollsBack w request stage rt

theorem exists_of_isOk {ε α : Type} {x : Except ε α} (h : x.isOk = true) : ∃ a, x = .ok a := by
  rcases x with e | a
  · exact absurd h (by simp [Except.isOk, Except.toBool])
  · exact ⟨a, rfl⟩

section Turn

variable {w : Worker} {request : Request β} {rt : Runtime}

/-- What holds after each outcome of a turn holds after the move. -/
theorem move_spec {stage : Stage β} {P : Stage β → Runtime → Prop}
    (h : wp (turn w request stage) P (fun e => P (stage.onRaise e)) rt) :
    P (move w request stage rt).1 (move w request stage rt).2 := by
  unfold wp at h
  unfold move
  split <;> simp_all

/-- Adding the deltas of a route does not write the phase. -/
theorem phase_applySwap (env : Environment) (routeData : Manifest) (deltas : Dict String Tensor) :
    Keeps (Same Runtime.phase) (Runtime.applySwap w env routeData deltas) :=
  Runtime.keeps_applySwap (fun _ _ _ _ _ _ => rfl) fun _ _ _ => rfl

theorem phase_captureSnapshot (faults : SwapFaults) (routeData : Manifest) :
    Keeps (Same Runtime.phase) (Runtime.captureSnapshot w faults routeData) :=
  Runtime.keeps_captureSnapshot (fun _ _ => rfl) w faults routeData

/-- Whatever an operation returns or raises. -/
theorem wp_any {α : Type} {m : EStateM PyError Runtime α} {P : α → Prop} {E : PyError → Prop}
    (hP : ∀ a, P a) (hE : ∀ e, E e) : wp m (fun a _ => P a) (fun e _ => E e) rt :=
  (Keeps.anything m rt).mono (fun a _ _ => hP a) fun e _ _ => hE e

/-- A turn neither enters the locked section nor leaves it. -/
theorem turn_locked (stage : Stage β) :
    wp (turn w request stage) (fun next _ => next.locked = stage.locked)
      (fun e _ => (stage.onRaise e).locked = stage.locked) rt := by
  cases stage with
  | entering | guarding =>
    rw [turn, wp_bind, wp_get]
    by_cases h : rt.machine.isTerminal = true
    · rw [if_pos h]
      rfl
    · rw [if_neg h]
      rfl
  | validating routeData =>
    rw [turn]
    cases validatePayload request.env.files w.payloadBaseDir w.maxPayloadBytes routeData <;> rfl
  | waiting | releasing | finished => rfl
  | resolving | inferring | settling =>
    simp only [turn, wp_bind, wp_get, wp_modify]
    exact wp_any (fun _ => rfl) fun _ => rfl
  | checking result =>
    rw [turn, wp_bind, wp_get, wp_bind, wp_ofExcept]
    refine ⟨fun verified _ => ?_, fun _ _ => rfl⟩
    cases verified <;> rfl
  | restoring =>
    rw [turn, wp_bind, wp_attempt]
    exact wp_any (fun _ => rfl) fun _ => rfl
  | _ =>
    rw [turn, wp_bind]
    exact wp_any (fun _ => rfl) fun _ => rfl

/-- A thread outside the lock touches the phase only with a verdict. -/
theorem turn_unlocked {stage : Stage β} (hstage : stage.locked = false)
    (hin : stage.InPhase rt.phase) :
    wp (turn w request stage)
      (fun next rt' => next.InPhase rt'.phase ∧ stage.Verdict rt.phase rt'.phase)
      (fun _ rt' => stage.Verdict rt.phase rt'.phase) rt := by
  have hsame : stage.Verdict rt.phase rt.phase := Or.inl rfl
  cases stage with
  | entering | guarding =>
    rw [turn, wp_bind, wp_get]
    by_cases h : rt.machine.isTerminal = true
    · rw [if_pos h]
      exact hsame
    · rw [if_neg h]
      exact ⟨trivial, hsame⟩
  | resolving =>
    rw [turn, wp_bind, wp_get, wp_bind, wp_ofExcept]
    exact ⟨fun _ _ => ⟨trivial, hsame⟩, fun _ _ => hsame⟩
  | validating routeData =>
    rw [turn]
    rcases hval : validatePayload request.env.files w.payloadBaseDir w.maxPayloadBytes routeData
      with e | deltas
    · exact ⟨ofPayload_of_validatePayload hval, hsame⟩
    · exact ⟨trivial, hsame⟩
  | quarantining e =>
    have hkept : Keeps (Same Runtime.phase)
        (quarantineFor (evaluateFailure e.failureClass) request.routeId) := by
      refine Keeps.ite (fun _ => ?_) fun _ => Keeps.pure ()
      exact Keeps.zoom (Keeps.anything _) fun _ _ _ => rfl
    rw [turn, wp_bind]
    refine (hkept rt).mono (fun _ rt' h => ⟨hin, Or.inl h⟩) fun _ rt' h => Or.inl h
  | condemning e =>
    rw [turn, wp_bind]
    have hcondemn : wp (condemn (evaluateFailure e.failureClass))
        (fun _ rt' => (Stage.condemning e : Stage β).Verdict rt.phase rt'.phase)
        (fun _ _ => False) rt := by
      unfold condemn
      by_cases hscope : (evaluateFailure e.failureClass).quarantineScope.isSome = true
      · rw [if_pos hscope]
        rcases hin with htarget | hnone
        · rw [htarget, if_neg (by decide), if_pos rfl]
          refine Runtime.wp_transitionOr (fun hvalid _ hphase => ?_) fun _ => hsame
          exact Or.inr ⟨hscope, hvalid, hphase⟩
        · rw [hnone] at hscope
          exact absurd hscope (by decide)
      · rw [if_neg hscope]
        exact hsame
    exact hcondemn.mono (fun _ _ h => h) fun _ _ hfalse => hfalse.elim
  | waiting | finished => exact ⟨trivial, hsame⟩
  | _ => exact absurd hstage (by simp [Stage.locked])

/-- The holder of the lock goes through the phases of a swap, if rollbacks
succeed. -/
theorem turn_locked_inPhase {stage : Stage β} (hstage : stage.locked = true)
    (hin : stage.InPhase rt.phase) (hne : rt.phase ≠ .workerQuarantined)
    (hrolls : RollsBack w request stage rt) :
    wp (turn w request stage)
      (fun next rt' => next.InPhase rt'.phase ∧ rt'.phase ≠ .workerQuarantined)
      (fun e rt' => (stage.onRaise e).InPhase rt'.phase ∧ rt'.phase ≠ .workerQuarantined) rt := by
  cases stage with
  | verifying =>
    rw [turn, wp_bind]
    exact Runtime.wp_transition_of_valid hin (by decide) fun machine hm =>
      ⟨Or.inl hm, ne_of_eq_of_ne hm (by decide)⟩
  | captured | swapping | swapped =>
    -- refused if a verdict has landed since the last transition
    rw [turn, wp_bind]
    refine Runtime.wp_transition (fun _ machine hm => ?_) fun _ _ => ⟨trivial, hne⟩
    exact ⟨by simp [Stage.InPhase, hm], ne_of_eq_of_ne hm (by decide)⟩
  | forwarding =>
    rw [turn, wp_bind]
    exact Runtime.wp_transition_of_valid hin (by decide) fun machine hm =>
      ⟨hm, ne_of_eq_of_ne hm (by decide)⟩
  | capturing routeData =>
    rw [turn, wp_bind]
    refine (phase_captureSnapshot request.env.swap routeData rt).mono (fun _ rt' h => ?_)
      fun _ rt' h => ⟨trivial, ne_of_eq_of_ne h hne⟩
    exact ⟨show (Stage.capturing _ _ : Stage β).InPhase rt'.phase from h ▸ hin,
      ne_of_eq_of_ne h hne⟩
  | applying routeData deltas =>
    rw [turn, wp_bind]
    refine (phase_applySwap request.env routeData deltas rt).mono (fun _ rt' h => ?_)
      fun _ rt' h => ⟨trivial, ne_of_eq_of_ne h hne⟩
    exact ⟨show (Stage.applying _ _ : Stage β).InPhase rt'.phase from h ▸ hin,
      ne_of_eq_of_ne h hne⟩
  | inferring =>
    simp only [turn, wp_bind, wp_get, wp_modify, wp_ofExcept]
    exact ⟨fun _ _ => ⟨trivial, hne⟩, fun _ _ => ⟨trivial, hne⟩⟩
  | rollingBack =>
    rw [turn, wp_bind]
    exact Runtime.wp_forceTransition fun machine hm => ⟨trivial, ne_of_eq_of_ne hm (by decide)⟩
  | restoring =>
    rw [turn, wp_bind, wp_attempt]
    have hphase : Keeps (Same Runtime.phase) (Runtime.rollback w request.env.cycle) :=
      Runtime.keeps_rollback (fun _ _ _ => rfl) w request.env.cycle
    exact hrolls.wp ((hphase rt).mono (fun _ rt' h => ⟨trivial, ne_of_eq_of_ne h hne⟩)
      fun _ _ h => h)
  | checking =>
    rw [turn, wp_bind, wp_get, wp_bind, wp_ofExcept, hrolls]
    refine ⟨fun verified h => ?_, fun _ h => absurd h (by simp)⟩
    obtain rfl := Except.ok.inj h
    exact ⟨trivial, hne⟩
  | settling =>
    rw [turn, wp_bind, wp_modify, wp_bind]
    exact Runtime.wp_forceTransition fun machine hm => ⟨hm, ne_of_eq_of_ne hm (by decide)⟩
  | failing => exact hin.elim
  | releasing => exact ⟨hin, hne⟩
  | _ => exact absurd hstage (by simp [Stage.locked])

end Turn

/-! ### The lock -/

section Lock

variable {w : Worker} {calls : ι → Request β} {i : ι} {stage : Stage β} {shared : Shared ι}

/-- A step of a thread by cases. -/
theorem act_cases {P : Stage β × Shared ι → Prop}
    (hacquire : ∀ routeData deltas, stage = .waiting routeData deltas → shared.lock = none →
      P (.verifying routeData deltas, { shared with lock := some i }))
    (hblocked : ∀ routeData deltas j, stage = .waiting routeData deltas → shared.lock = some j →
      P (stage, shared))
    (hrelease : ∀ result, stage = .releasing result →
      P (Stage.afterRelease result, { shared with lock := none }))
    (hmove : (∀ routeData deltas, stage ≠ .waiting routeData deltas) →
      (∀ result, stage ≠ .releasing result) →
      P ((move w (calls i) stage shared.runtime).1,
        { shared with runtime := (move w (calls i) stage shared.runtime).2 })) :
    P (act w calls i stage shared) := by
  cases stage with
  | waiting routeData deltas =>
    rcases hlock : shared.lock with _ | j
    · simpa only [act, hlock] using hacquire routeData deltas rfl hlock
    · simpa only [act, hlock] using hblocked routeData deltas j rfl hlock
  | releasing result => exact hrelease result rfl
  | _ => exact hmove (fun _ _ => by simp) fun _ => by simp

/-- What is known of a thread and the shared state, if all rollbacks succeed. -/
structure Agrees (i : ι) (stage : Stage β) (shared : Shared ι) : Prop where
  mutex : stage.locked = true ↔ shared.lock = some i
  free : shared.lock = none → shared.runtime.phase = .ready
  inPhase : stage.InPhase shared.runtime.phase
  not_quarantined : shared.runtime.phase ≠ .workerQuarantined

/-- Outside the lock the phase is of no concern. -/
theorem Stage.InPhase.of_unlocked {stage : Stage β} {phase phase' : RuntimePhase}
    (h : stage.InPhase phase) (hstage : stage.locked = false) : stage.InPhase phase' := by
  cases stage <;> first
    | exact h
    | exact absurd hstage (by simp [Stage.locked])

theorem onRaise_of_unlocked {stage : Stage β} (h : stage.locked = false) (e : PyError) :
    stage.onRaise e = .finished (.error e) := by
  cases stage <;> first
    | rfl
    | exact absurd h (by simp [Stage.locked])

/-- A move of a thread outside the lock. -/
theorem move_unlocked (w : Worker) (request : Request β) {rt : Runtime}
    (hstage : stage.locked = false) (hin : stage.InPhase rt.phase) :
    (move w request stage rt).1.InPhase (move w request stage rt).2.phase ∧
      stage.Verdict rt.phase (move w request stage rt).2.phase := by
  refine move_spec (P := fun next rt' => next.InPhase rt'.phase ∧
    stage.Verdict rt.phase rt'.phase) ((turn_unlocked hstage hin).mono (fun _ _ h => h) ?_)
  intro e rt' hverdict
  rw [onRaise_of_unlocked hstage]
  exact ⟨trivial, hverdict⟩

/-- A step establishes the assertion of its thread. -/
theorem agrees_act (h : Agrees i stage shared)
    (hrolls : RollsBack w (calls i) stage shared.runtime) :
    Agrees i (act w calls i stage shared).1 (act w calls i stage shared).2 := by
  refine act_cases (P := fun next => Agrees i next.1 next.2) ?_ ?_ ?_ ?_
  · intro routeData deltas _ hlock
    exact ⟨by simp [Stage.locked], fun hnone => absurd hnone (by simp), h.free hlock,
      h.not_quarantined⟩
  · intro _ _ _ _ _
    exact h
  · rintro result rfl
    have hready : shared.runtime.phase = .ready := h.inPhase
    refine ⟨?_, fun _ => hready, ?_, h.not_quarantined⟩
    · rcases result with e | output <;> simp [Stage.afterRelease, Stage.locked]
    · rcases result with e | output <;> trivial
  · intro _ _
    have hlocked : (move w (calls i) stage shared.runtime).1.locked = stage.locked :=
      move_spec (P := fun next _ => next.locked = stage.locked) (turn_locked stage)
    rcases hstage : stage.locked with _ | _
    · obtain ⟨hin, hverdict⟩ := move_unlocked w (calls i) hstage h.inPhase
      exact ⟨hlocked ▸ h.mutex, fun hnone => ready_of_verdict hverdict (h.free hnone), hin,
        ne_workerQuarantined_of_verdict hverdict h.not_quarantined⟩
    · have hlock : shared.lock = some i := h.mutex.mp hstage
      obtain ⟨hin, hne⟩ := move_spec (P := fun next rt' => next.InPhase rt'.phase ∧
        rt'.phase ≠ .workerQuarantined) (turn_locked_inPhase hstage h.inPhase h.not_quarantined
          hrolls)
      refine ⟨hlocked ▸ h.mutex, fun hnone => ?_, hin, hne⟩
      exact absurd (hlock.symm.trans hnone) (by simp)

/-- A step disturbs no other thread's assertion. -/
theorem agrees_act_of_ne {j : ι} {other : Stage β} (hj : Agrees j other shared)
    (h : Agrees i stage shared) (hne : j ≠ i)
    (hrolls : RollsBack w (calls i) stage shared.runtime) :
    Agrees j other (act w calls i stage shared).2 := by
  have hafter : Agrees i (act w calls i stage shared).1 (act w calls i stage shared).2 :=
    agrees_act h hrolls
  have hnot : (some i : Option ι) ≠ some j := fun heq => hne (Option.some.inj heq).symm
  -- while another thread holds the lock, this one is outside
  have hout : shared.lock = some i → other.locked = false := fun hlock => by
    have hother : other.locked ≠ true := fun htrue => hnot (hlock.symm.trans (hj.mutex.mp htrue))
    exact Bool.eq_false_iff.mpr hother
  revert hafter
  refine act_cases (P := fun next => Agrees i next.1 next.2 → Agrees j other next.2) ?_ ?_ ?_ ?_
  · intro routeData deltas _ hlock _
    have hother : other.locked ≠ true := fun htrue =>
      absurd (hlock.symm.trans (hj.mutex.mp htrue)) (by simp)
    exact ⟨⟨fun htrue => absurd htrue hother, fun heq => absurd heq hnot⟩,
      fun hnone => absurd hnone (by simp), hj.inPhase, hj.not_quarantined⟩
  · intro _ _ _ _ _ _
    exact hj
  · rintro result rfl hafter
    have hfalse := hout (h.mutex.mp rfl)
    exact ⟨⟨fun htrue => absurd (hfalse.symm.trans htrue) (by simp),
      fun heq => absurd heq (by simp)⟩, hafter.free, hj.inPhase, hj.not_quarantined⟩
  · intro _ _ hafter
    refine ⟨hj.mutex, hafter.free, ?_, hafter.not_quarantined⟩
    rcases hstage : stage.locked with _ | _
    · exact hj.inPhase.of_verdict (move_unlocked w (calls i) hstage h.inPhase).2
    · exact hj.inPhase.of_unlocked (hout (h.mutex.mp hstage))

end Lock

section Runs

variable [DecidableEq ι] {w : Worker} {calls : ι → Request β} {c : Config ι β}

/-- The state after a step of thread `i`. -/
abbrev step (w : Worker) (calls : ι → Request β) : Config ι β → ι → Config ι β :=
  Interleaving.step (act w calls)

/-- The next step restores or checks the weights only with success. -/
def NextRollsBack (w : Worker) (calls : ι → Request β) (c : Config ι β) (i : ι) : Prop :=
  RollsBack w (calls i) (c.stage i) c.shared.runtime

theorem agrees_step {i : ι} (h : Interleaving.Holds Agrees c) (hrolls : NextRollsBack w calls c i) :
    Interleaving.Holds Agrees (step w calls c i) :=
  Interleaving.holds_step (agrees_act (h i) hrolls) fun j hj =>
    agrees_act_of_ne (h j) (h i) hj hrolls

omit [DecidableEq ι] in
/-- A runtime at rest. -/
theorem agrees_start {rt : Runtime} (hready : rt.phase = .ready) :
    Interleaving.Holds Agrees (start rt : Config ι β) := by
  intro i
  exact ⟨⟨fun h => absurd h (by simp [start, Stage.locked]), fun h => absurd h (by simp [start])⟩,
    fun _ => hready, trivial, ne_of_eq_of_ne hready (by decide)⟩

omit [DecidableEq ι] in
/-- Two threads are never in the locked section together. -/
theorem mutual_exclusion (h : Interleaving.Holds Agrees c) {i j : ι}
    (hi : (c.stage i).locked = true) (hj : (c.stage j).locked = true) : i = j :=
  Option.some.inj (((h i).mutex.mp hi).symm.trans ((h j).mutex.mp hj))

end Runs

/-! ### An undisturbed request -/

/-- Between its first transition and the end of its swap. -/
def Stage.swapInProgress : Stage β → Bool
  | .capturing _ _ | .captured _ _ | .swapping _ _ | .applying _ _ | .swapped => true
  | _ => false

/-- The result the call is going to give. -/
def Stage.carried : Stage β → Option (Except PyError β)
  | .rollingBack result | .restoring result | .checking result | .settling result
  | .failing _ result | .releasing result | .finished result => some result
  | .guarding output => some (.ok output)
  | _ => none

/-- Nothing has gone wrong for the call so far. -/
def Stage.OnTrack : Stage β → RuntimePhase → Prop
  | .quarantining _, _ | .condemning _, _ | .failing _ _, _ => False
  | .capturing _ _, phase | .captured _ _, phase | .swapping _ _, phase | .applying _ _, phase
  | .swapped, phase => phase ≠ .routeQuarantined
  | .rollingBack result, _ | .restoring result, _ | .checking result, _ | .settling result, _
  | .releasing result, _ | .finished result, _ => ∃ output, result = .ok output
  | _, _ => True

section OnTrack

variable {w : Worker} {request : Request β} {rt : Runtime} {stage : Stage β}

theorem Stage.OnTrack.of_phase {phase phase' : RuntimePhase} (h : stage.OnTrack phase)
    (hphase : stage.swapInProgress = true → phase' = phase) : stage.OnTrack phase' := by
  cases stage <;> first
    | exact h
    | exact (hphase rfl).symm ▸ h

/-- A call whose next operation succeeds stays on track. -/
theorem turn_onTrack (hin : stage.InPhase rt.phase) (hne : rt.phase ≠ .workerQuarantined)
    (hon : stage.OnTrack rt.phase) (hsucceeds : Succeeds w request stage rt) :
    wp (turn w request stage) (fun next rt' => next.OnTrack rt'.phase) (fun _ _ => False) rt := by
  have hguard : rt.machine.isTerminal ≠ true := fun h =>
    hne (RuntimeStateMachine.isTerminal_iff.mp h)
  cases stage with
  | entering =>
    rw [turn, wp_bind, wp_get, if_neg hguard]
    trivial
  | guarding output =>
    rw [turn, wp_bind, wp_get, if_neg hguard]
    exact ⟨output, rfl⟩
  | resolving =>
    obtain ⟨routeData, hroute⟩ := exists_of_isOk hsucceeds
    rw [turn, wp_bind, wp_get, hroute]
    trivial
  | validating =>
    obtain ⟨deltas, hvalid⟩ := exists_of_isOk hsucceeds
    rw [turn, hvalid]
    trivial
  | verifying =>
    rw [turn, wp_bind]
    exact Runtime.wp_transition_of_valid hin (by decide) fun machine hm =>
      ne_of_eq_of_ne hm (by decide)
  | captured | swapping | swapped =>
    rw [turn, wp_bind]
    rcases hin with hphase | hphase
    · refine Runtime.wp_transition_of_valid hphase (by decide) fun machine hm => ?_
      first
        | exact trivial
        | exact ne_of_eq_of_ne hm (by decide)
    · exact absurd hphase hon
  | forwarding =>
    rw [turn, wp_bind]
    exact Runtime.wp_transition_of_valid hin (by decide) fun _ _ => trivial
  | capturing routeData =>
    rw [turn, wp_bind]
    exact Returns.wp hsucceeds ((phase_captureSnapshot request.env.swap routeData rt).mono
      (fun _ _ h => ne_of_eq_of_ne h hon) fun _ _ h => h)
  | applying routeData deltas =>
    rw [turn, wp_bind]
    exact Returns.wp hsucceeds ((phase_applySwap request.env routeData deltas rt).mono
      (fun _ _ h => ne_of_eq_of_ne h hon) fun _ _ h => h)
  | inferring =>
    obtain ⟨output, houtput⟩ := exists_of_isOk hsucceeds
    simp only [turn, wp_bind, wp_get, wp_modify, houtput]
    exact ⟨output, rfl⟩
  | rollingBack =>
    rw [turn, wp_bind]
    exact Runtime.wp_forceTransition fun _ _ => hon
  | restoring =>
    rw [turn, wp_bind, wp_attempt]
    exact Returns.wp hsucceeds (wp_any (fun _ => hon) fun e => trivial)
  | checking =>
    have hverified : Runtime.verifyRollback w request.env.cycle rt.golden rt.store = .ok true :=
      hsucceeds
    rw [turn, wp_bind, wp_get, wp_bind, hverified]
    exact hon
  | settling =>
    rw [turn, wp_bind, wp_modify, wp_bind]
    exact Runtime.wp_forceTransition fun _ _ => hon
  | quarantining | condemning | failing => exact hon.elim
  | waiting => trivial
  | releasing | finished => exact hon

end OnTrack

theorem Stage.locked_of_swapInProgress {stage : Stage β} (h : stage.swapInProgress = true) :
    stage.locked = true := by
  cases stage <;> first
    | rfl
    | exact absurd h (by simp [swapInProgress])

section Undisturbed

variable [DecidableEq ι] {w : Worker} {calls : ι → Request β} {c : Config ι β} {t i : ι}

/-- If the call `t` is next, its next operation succeeds. -/
def OwnSucceeds (w : Worker) (calls : ι → Request β) (t : ι) (c : Config ι β) (i : ι) : Prop :=
  i = t → Succeeds w (calls t) (c.stage t) c.shared.runtime

/-- The next step is a verdict transition in the middle of the swap of `t`. -/
def Interferes (t : ι) (c : Config ι β) (i : ι) : Prop :=
  (c.stage t).swapInProgress = true ∧ (c.stage i).verdictPending = true

/-- The next step neither fails a rollback nor interferes with the swap of `t`. -/
def Undisturbing (w : Worker) (calls : ι → Request β) (t : ι) (c : Config ι β) (i : ι) : Prop :=
  NextRollsBack w calls c i ∧ ¬Interferes t c i

omit [DecidableEq ι] in
/-- A step of the call keeps it on track. -/
theorem onTrack_act (h : Agrees t (c.stage t) c.shared)
    (hon : (c.stage t).OnTrack c.shared.runtime.phase)
    (hsucceeds : Succeeds w (calls t) (c.stage t) c.shared.runtime) :
    (act w calls t (c.stage t) c.shared).1.OnTrack
      (act w calls t (c.stage t) c.shared).2.runtime.phase := by
  refine act_cases (P := fun next => next.1.OnTrack next.2.runtime.phase) ?_ ?_ ?_ ?_
  · intro _ _ _ _
    trivial
  · intro _ _ _ _ _
    exact hon
  · intro result hresult
    rw [hresult] at hon
    obtain ⟨output, rfl⟩ := hon
    trivial
  · intro _ _
    exact move_spec (P := fun next rt' => next.OnTrack rt'.phase)
      ((turn_onTrack h.inPhase h.not_quarantined hon hsucceeds).mono (fun _ _ h => h)
        fun _ _ hfalse => hfalse.elim)

omit [DecidableEq ι] in
/-- A step of another thread changes the phase during the swap of `t` only if
it interferes. -/
theorem phase_act_of_ne (h : Interleaving.Holds Agrees c) (hne : t ≠ i)
    (hnot : ¬Interferes t c i) (hswap : (c.stage t).swapInProgress = true) :
    (act w calls i (c.stage i) c.shared).2.runtime.phase = c.shared.runtime.phase := by
  have hout : (c.stage i).locked = false := by
    refine Bool.eq_false_iff.mpr fun hlocked => hne ?_
    exact mutual_exclusion h (Stage.locked_of_swapInProgress hswap) hlocked
  refine act_cases (P := fun next => next.2.runtime.phase = c.shared.runtime.phase) ?_ ?_ ?_ ?_
  · intro _ _ _ _
    rfl
  · intro _ _ _ _ _
    rfl
  · intro _ _
    rfl
  · intro _ _
    rcases (move_unlocked w (calls i) hout (h i).inPhase).2 with
      hsame | ⟨hpending, _⟩
    · exact hsame
    · exact absurd ⟨hswap, hpending⟩ hnot

theorem onTrack_step (h : Interleaving.Holds Agrees c)
    (hon : (c.stage t).OnTrack c.shared.runtime.phase) (hown : OwnSucceeds w calls t c i)
    (hnot : ¬Interferes t c i) :
    ((step w calls c i).stage t).OnTrack (step w calls c i).shared.runtime.phase := by
  rw [Interleaving.shared_step]
  by_cases hti : t = i
  · subst hti
    rw [Interleaving.stage_step_self]
    exact onTrack_act (h t) hon (hown rfl)
  · rw [Interleaving.stage_step_of_ne c hti]
    exact hon.of_phase (phase_act_of_ne h hti hnot)

/-- A call none of whose own operations fails stays on track in a run that does
not disturb it. -/
theorem onTrack_run {rt : Runtime} {schedule : List ι} (hready : rt.phase = .ready)
    (hown : Runs.Along (step w calls) (OwnSucceeds w calls t) (start rt) schedule)
    (hquiet : Runs.Along (step w calls) (Undisturbing w calls t) (start rt) schedule) :
    Interleaving.Holds Agrees (Runs.run (step w calls) (start rt) schedule) ∧
      ((Runs.run (step w calls) (start rt) schedule).stage t).OnTrack
        (Runs.run (step w calls) (start rt) schedule).shared.runtime.phase := by
  refine Runs.invariant_run (I := fun c : Config ι β => Interleaving.Holds Agrees c ∧
    (c.stage t).OnTrack c.shared.runtime.phase) ?_ ⟨agrees_start hready, trivial⟩ (hown.and hquiet)
  intro c i hc hi
  obtain ⟨hagrees, hon⟩ := hc
  obtain ⟨hsucceeds, hrolls, hnot⟩ := hi
  exact ⟨agrees_step hagrees hrolls, onTrack_step hagrees hon hsucceeds hnot⟩

end Undisturbed

/-! ### The output of an inference -/

section Output

variable {w : Worker} {request : Request β} {rt : Runtime}

/-- An output is carried on, or has just been computed. -/
theorem turn_carried (stage : Stage β) :
    wp (turn w request stage)
      (fun next _ => ∀ output, next.carried = some (.ok output) →
        stage.carried = some (.ok output) ∨
          stage = .inferring ∧ request.inferenceFunc rt.store = .ok output)
      (fun e _ => ∀ output, (stage.onRaise e).carried = some (.ok output) →
        stage.carried = some (.ok output)) rt := by
  have hraise : ∀ e output, (stage.onRaise e).carried = some (.ok output) →
      stage.carried = some (.ok output) := by
    intro e output h
    cases stage <;> exact absurd h (by simp [Stage.onRaise, Stage.carried])
  cases stage with
  | entering | guarding =>
    rw [turn, wp_bind, wp_get]
    by_cases h : rt.machine.isTerminal = true
    · rw [if_pos h]
      exact hraise _
    · rw [if_neg h]
      exact fun _ h => Or.inl h
  | validating routeData =>
    rw [turn]
    cases validatePayload request.env.files w.payloadBaseDir w.maxPayloadBytes routeData <;>
      exact fun _ h => Or.inl h
  | waiting | releasing | finished => exact fun _ h => Or.inl h
  | inferring =>
    simp only [turn, wp_bind, wp_get, wp_modify, wp_ofExcept]
    refine ⟨fun output houtput output' h => ?_, fun e _ => hraise e⟩
    obtain rfl : output = output' := Except.ok.inj (Option.some.inj h)
    exact Or.inr ⟨trivial, houtput⟩
  | resolving | settling =>
    simp only [turn, wp_bind, wp_get, wp_modify]
    exact wp_any (fun _ _ h => Or.inl h) hraise
  | checking result =>
    rw [turn, wp_bind, wp_get, wp_bind, wp_ofExcept]
    refine ⟨fun verified _ => ?_, fun e _ => hraise e⟩
    cases verified <;> exact fun _ h => Or.inl h
  | restoring =>
    rw [turn, wp_bind, wp_attempt]
    exact wp_any (fun _ _ h => Or.inl h) fun _ _ h => Or.inl h
  | condemning =>
    rw [turn, wp_bind]
    exact wp_any (fun _ => hraise _) hraise
  | _ =>
    rw [turn, wp_bind]
    exact wp_any (fun _ _ h => Or.inl h) hraise

end Output

section Inferred

variable [DecidableEq ι] {w : Worker} {calls : ι → Request β} {c : Config ι β} {t i : ι}

/-- In the run of the schedule the inference of `t` has run and returned this. -/
def Inferred (w : Worker) (calls : ι → Request β) (t : ι) (c : Config ι β) (schedule : List ι)
    (output : β) : Prop :=
  ∃ before later, schedule = before ++ t :: later ∧
    (Runs.run (step w calls) c before).stage t = .inferring ∧
    (calls t).inferenceFunc (Runs.run (step w calls) c before).shared.runtime.store = .ok output

/-- An output is carried on by a step, or computed in it. -/
theorem carried_step {output : β}
    (h : ((step w calls c i).stage t).carried = some (.ok output)) :
    (c.stage t).carried = some (.ok output) ∨ i = t ∧ c.stage t = .inferring ∧
      (calls t).inferenceFunc c.shared.runtime.store = .ok output := by
  by_cases hti : t = i
  · subst hti
    rw [Interleaving.stage_step_self] at h
    revert h
    refine act_cases (P := fun next => next.1.carried = some (.ok output) →
      (c.stage t).carried = some (.ok output) ∨ t = t ∧ c.stage t = .inferring ∧
        (calls t).inferenceFunc c.shared.runtime.store = .ok output) ?_ ?_ ?_ ?_
    · intro _ _ _ _ h
      exact absurd h (by simp [Stage.carried])
    · intro _ _ _ _ _ h
      exact Or.inl h
    · intro result hresult h
      rw [hresult]
      rcases result with e | output' <;> exact Or.inl h
    · intro _ _ h
      have hmove : ∀ output,
          (move w (calls t) (c.stage t) c.shared.runtime).1.carried = some (.ok output) →
            (c.stage t).carried = some (.ok output) ∨ c.stage t = .inferring ∧
              (calls t).inferenceFunc c.shared.runtime.store = .ok output :=
        move_spec (P := fun next _ => ∀ output, next.carried = some (.ok output) → _)
          ((turn_carried (c.stage t)).mono (fun _ _ h => h) fun _ _ h o ho => Or.inl (h o ho))
      exact (hmove output h).imp_right fun h => ⟨rfl, h⟩
  · rw [Interleaving.stage_step_of_ne c hti] at h
    exact Or.inl h

/-- An output a call is going to give is the output of its inference. -/
theorem inferred_of_carried {schedule : List ι} (hstart : (c.stage t).carried = none) {output : β}
    (h : ((Runs.run (step w calls) c schedule).stage t).carried = some (.ok output)) :
    Inferred w calls t c schedule output := by
  induction schedule using List.reverseRecOn with
  | nil => exact absurd (hstart.symm.trans h) (by simp)
  | append_singleton schedule i ih =>
    rw [Runs.run_append] at h
    rcases carried_step h with hcarried | ⟨rfl, hstage, houtput⟩
    · obtain ⟨before, later, rfl, hbefore⟩ := ih hcarried
      exact ⟨before, later ++ [i], by simp, hbefore⟩
    · exact ⟨schedule, [], rfl, hstage, houtput⟩

end Inferred

/-! ### Coming to an end -/

/-- How many steps a call has left at most. -/
def Stage.rank : Stage β → ℕ
  | .entering => 18
  | .resolving => 17
  | .validating _ => 16
  | .quarantining _ => 2
  | .condemning _ => 1
  | .waiting _ _ => 15
  | .verifying _ _ => 14
  | .capturing _ _ => 13
  | .captured _ _ => 12
  | .swapping _ _ => 11
  | .applying _ _ => 10
  | .swapped => 9
  | .forwarding => 8
  | .inferring => 7
  | .rollingBack _ => 6
  | .restoring _ => 5
  | .checking _ => 4
  | .settling _ => 3
  | .failing _ _ => 3
  | .releasing _ => 2
  | .guarding _ => 1
  | .finished _ => 0

section Rank

variable {w : Worker} {calls : ι → Request β}

/-- A thread that neither waits nor releases gets closer to the end with every
turn. -/
theorem turn_rank {request : Request β} {rt : Runtime} {stage : Stage β}
    (hwait : ∀ routeData deltas, stage ≠ .waiting routeData deltas)
    (hrelease : ∀ result, stage ≠ .releasing result) (hend : ∀ result, stage ≠ .finished result) :
    wp (turn w request stage) (fun next _ => next.rank < stage.rank)
      (fun e _ => (stage.onRaise e).rank < stage.rank) rt := by
  have hraise : ∀ e, (stage.onRaise e).rank < stage.rank := by
    intro e
    cases stage <;> first
      | exact absurd rfl (hwait _ _)
      | exact absurd rfl (hrelease _)
      | exact absurd rfl (hend _)
      | simp [Stage.onRaise, Stage.rank]
  cases stage with
  | waiting routeData deltas => exact absurd rfl (hwait routeData deltas)
  | releasing result => exact absurd rfl (hrelease result)
  | finished result => exact absurd rfl (hend result)
  | entering | guarding =>
    rw [turn, wp_bind, wp_get]
    by_cases h : rt.machine.isTerminal = true
    · rw [if_pos h]
      exact hraise _
    · rw [if_neg h]
      exact Nat.lt_succ_self _
  | validating routeData =>
    rw [turn]
    cases validatePayload request.env.files w.payloadBaseDir w.maxPayloadBytes routeData <;>
      simp [Stage.rank]
  | resolving | inferring | settling =>
    simp only [turn, wp_bind, wp_get, wp_modify]
    exact wp_any (fun _ => Nat.lt_succ_self _) hraise
  | checking result =>
    rw [turn, wp_bind, wp_get, wp_bind, wp_ofExcept]
    refine ⟨fun verified _ => ?_, fun e _ => hraise e⟩
    cases verified <;> exact Nat.lt_succ_self _
  | restoring =>
    rw [turn, wp_bind, wp_attempt]
    exact wp_any (fun _ => Nat.lt_succ_self _) fun _ => by simp [Stage.rank]
  | condemning =>
    rw [turn, wp_bind]
    exact wp_any (fun _ => hraise _) hraise
  | _ =>
    rw [turn, wp_bind]
    exact wp_any (fun _ => Nat.lt_succ_self _) hraise

/-- Every step of a thread gets it closer to its end, unless it has finished or
waits for the lock. -/
theorem act_rank (w : Worker) (calls : ι → Request β) (i : ι) (stage : Stage β)
    (shared : Shared ι) :
    (act w calls i stage shared).1.rank < stage.rank ∨
      act w calls i stage shared = (stage, shared) ∧
        ((∃ result, stage = .finished result) ∨
          ∃ routeData deltas j, stage = .waiting routeData deltas ∧ shared.lock = some j) := by
  refine act_cases (P := fun next => next.1.rank < stage.rank ∨ next = (stage, shared) ∧ _)
    ?_ ?_ ?_ ?_
  · rintro _ _ rfl _
    exact Or.inl (Nat.lt_succ_self _)
  · intro routeData deltas j hstage hlock
    exact Or.inr ⟨rfl, Or.inr ⟨routeData, deltas, j, hstage, hlock⟩⟩
  · rintro result rfl
    left
    rcases result with e | output <;> simp [Stage.afterRelease, Stage.rank]
  · intro hwait hrelease
    by_cases hend : ∃ result, stage = .finished result
    · right
      obtain ⟨result, rfl⟩ := hend
      exact ⟨rfl, Or.inl ⟨result, rfl⟩⟩
    · left
      exact move_spec (P := fun next _ => next.rank < stage.rank)
        (turn_rank hwait hrelease fun result h => hend ⟨result, h⟩)

variable [DecidableEq ι] {c : Config ι β}

/-- Threads come to rest only when all of them have finished: none waits for a
lock that is never given back. -/
theorem finished_of_quiescent (h : Interleaving.Holds Agrees c)
    (hrest : Interleaving.Quiescent (act w calls) c) (i : ι) :
    ∃ result, c.stage i = .finished result := by
  have hstuck : ∀ j, (∃ result, c.stage j = .finished result) ∨
      ∃ routeData deltas k, c.stage j = .waiting routeData deltas ∧ c.shared.lock = some k := by
    intro j
    rcases act_rank w calls j (c.stage j) c.shared with hlt | ⟨_, hcases⟩
    · rw [Interleaving.stage_of_quiescent hrest j] at hlt
      exact absurd hlt (Nat.lt_irrefl _)
    · exact hcases
  rcases hstuck i with hend | ⟨_, _, k, _, hlock⟩
  · exact hend
  · -- the holder of the lock is in the locked section, so it can move
    have hlocked : (c.stage k).locked = true := (h k).mutex.mpr hlock
    rcases hstuck k with ⟨result, hk⟩ | ⟨_, _, _, hk, _⟩ <;>
      exact absurd hlocked (by simp [hk, Stage.locked])

/-- Finitely many requests always come to rest. -/
theorem requests_come_to_rest [Fintype ι] (c : Config ι β) :
    ∃ schedule, Interleaving.Quiescent (act w calls) (Runs.run (step w calls) c schedule) :=
  Interleaving.exists_quiescent Stage.rank
    (fun i stage shared => (act_rank w calls i stage shared).symm.imp_left And.left) c

end Rank

/-! ### Requests that do not fail each other -/

section Answers

variable [DecidableEq ι]

/-- If none of the call's own operations fails in the run, then it returns the
output of its inference: that is its result once it has finished, and when no
thread can move any more it has. -/
def AnswersIfHealthy (w : Worker) (calls : ι → Request β) (t : ι) (rt : Runtime)
    (schedule : List ι) : Prop :=
  Runs.Along (step w calls) (OwnSucceeds w calls t) (start rt) schedule →
    let c := Runs.run (step w calls) (start rt) schedule
    (∀ result, c.stage t = .finished result →
      ∃ output, result = .ok output ∧ Inferred w calls t (start rt) schedule output) ∧
    (Interleaving.Quiescent (act w calls) c → ∃ result, c.stage t = .finished result)

/-- **Requests do not fail each other outside of swaps.**  From a ready runtime,
in every run in which no verdict transition is made in the middle of the swap
of the call and no rollback fails, the call returns the output of its inference
if its own operations succeed. -/
theorem answers_of_undisturbed (w : Worker) (calls : ι → Request β) (t : ι) {rt : Runtime}
    (hready : rt.phase = .ready) {schedule : List ι}
    (hquiet : Runs.Along (step w calls) (Undisturbing w calls t) (start rt) schedule) :
    AnswersIfHealthy w calls t rt schedule := by
  intro hown c
  obtain ⟨hagrees, hon⟩ := onTrack_run hready hown hquiet
  refine ⟨fun result hresult => ?_, fun hrest => finished_of_quiescent hagrees hrest t⟩
  have hon' : (c.stage t).OnTrack c.shared.runtime.phase := hon
  rw [hresult] at hon'
  obtain ⟨output, rfl⟩ := hon'
  refine ⟨output, rfl, inferred_of_carried rfl ?_⟩
  show (c.stage t).carried = some (.ok output)
  rw [hresult]
  rfl

end Answers

instance (w : Worker) (request : Request β) (stage : Stage β) (rt : Runtime) :
    Decidable (RollsBack w request stage rt) := by
  cases stage <;> unfold RollsBack <;> infer_instance

instance (w : Worker) (request : Request β) (stage : Stage β) (rt : Runtime) :
    Decidable (Succeeds w request stage rt) := by
  cases stage <;> unfold Succeeds <;> infer_instance

section Decide

variable [DecidableEq ι] (w : Worker) (calls : ι → Request β) (t : ι) (c : Config ι β) (i : ι)

instance : Decidable (OwnSucceeds w calls t c i) :=
  inferInstanceAs (Decidable (i = t → Succeeds _ _ _ _))

instance : Decidable (Undisturbing w calls t c i) :=
  inferInstanceAs (Decidable (RollsBack _ _ _ _ ∧ ¬(_ = true ∧ _ = true)))

end Decide

end ConcurrentInfer

namespace Demo

/-- A good route, and one whose payload file is not there. -/
def halfBad : Runtime :=
  .fresh (registryOf [route "r" none [layer "w"], route "s" (some ⟨"/gone", none⟩) [layer "v"]])
    base

/-- The first call is for the good route, the second for the bad one. -/
def twoCalls (i : Fin 2) : Request ℕ :=
  ⟨quiet noFiles, if i = 0 then "r" else "s", tenant, fun _ => .ok 7⟩

/-- The second call fails before the first begins. -/
def oneAfterTheOther : List (Fin 2) := List.replicate 5 1 ++ List.replicate 18 0

/-- The verdict of the second call is made during the swap of the first. -/
def verdictInSwap : List (Fin 2) :=
  List.replicate 4 1 ++ List.replicate 5 0 ++ [1] ++ List.replicate 7 0

end Demo

namespace ConcurrentInfer

theorem answers_of_undisturbed_two :
    AnswersIfHealthy Demo.worker Demo.twoCalls 0 Demo.halfBad Demo.oneAfterTheOther :=
  answers_of_undisturbed Demo.worker Demo.twoCalls 0 rfl (by decide +kernel)

/-- A verdict in the middle of its swap makes a request raise. -/
theorem not_answers_verdict :
    ¬AnswersIfHealthy Demo.worker Demo.twoCalls 0 Demo.halfBad Demo.verdictInSwap := by
  intro h
  obtain ⟨hanswers, _⟩ := h (by decide +kernel)
  obtain ⟨output, houtput, _⟩ := hanswers _ rfl
  exact absurd houtput (by simp)

end ConcurrentInfer
