/-
The runtime state machine.

The phases of the hot-swap lifecycle, the table of valid transitions, and the
machine that checks every transition against the table and records it:

* `transition_eq_ok` — a transition succeeds exactly when the table allows it;
* `not_valid_of_workerQuarantined` — the table lets nothing out of the worker
  quarantine.
-/
import NeuralScalpel.Effect

/-- Every phase the hot-swap runtime can occupy. -/
inductive RuntimePhase
  | ready
  | verifying
  | snapshotCaptured
  | swapping
  | swapped
  | forwarding
  | rollingBack
  | routeQuarantined
  | workerQuarantined
  deriving DecidableEq, Repr

/-- The value of a phase, as logs and messages show it. -/
def RuntimePhase.value : RuntimePhase → String
  | ready => "READY"
  | verifying => "VERIFYING"
  | snapshotCaptured => "SNAPSHOT_CAPTURED"
  | swapping => "SWAPPING"
  | swapped => "SWAPPED"
  | forwarding => "FORWARDING"
  | rollingBack => "ROLLING_BACK"
  | routeQuarantined => "ROUTE_QUARANTINED"
  | workerQuarantined => "WORKER_QUARANTINED"

inductive QuarantineScope
  | route
  | worker
  deriving DecidableEq, Repr

/-- Raised when the runtime attempts an illegal state transition. -/
structure InvalidStateTransition where
  current : RuntimePhase
  attempted : RuntimePhase
  deriving DecidableEq, Repr

def InvalidStateTransition.message (e : InvalidStateTransition) : String :=
  s!"Invalid state transition: {e.current.value} → {e.attempted.value}. " ++
    "Check the transition table for valid successors."

open RuntimePhase in
/-- The transition table: the phases that may follow each phase. -/
def validTransitions : RuntimePhase → List RuntimePhase
  | ready => [verifying]
  | verifying => [snapshotCaptured, routeQuarantined]
  | snapshotCaptured => [swapping, routeQuarantined]
  | swapping => [swapped, rollingBack, routeQuarantined]
  | swapped => [forwarding, rollingBack]
  | forwarding => [rollingBack]
  | rollingBack => [ready, routeQuarantined, workerQuarantined]
  | routeQuarantined => [ready, workerQuarantined]
  | workerQuarantined => []

/-- The table lets nothing out of the worker quarantine. -/
theorem not_valid_of_workerQuarantined (target : RuntimePhase) :
    target ∉ validTransitions .workerQuarantined := List.not_mem_nil

/-- A record of one state transition, for audit trails. -/
structure TransitionRecord where
  fromPhase : RuntimePhase
  toPhase : RuntimePhase
  reason : String
  routeId : String
  deriving DecidableEq, Repr

structure RuntimeStateMachine where
  phase : RuntimePhase
  history : List TransitionRecord
  quarantineScope : Option QuarantineScope
  quarantineReason : String
  deriving DecidableEq, Repr

namespace RuntimeStateMachine

/-- A new machine is ready and has no history. -/
def initial : RuntimeStateMachine := ⟨.ready, [], none, ""⟩

def isTerminal (m : RuntimeStateMachine) : Bool := m.phase == .workerQuarantined

theorem isTerminal_iff {m : RuntimeStateMachine} :
    m.isTerminal = true ↔ m.phase = .workerQuarantined := by
  rw [isTerminal, beq_iff_eq]

/-- The quarantine metadata after entering `target`. -/
def quarantineMetadata (m : RuntimeStateMachine) (target : RuntimePhase) (reason : String) :
    Option QuarantineScope × String :=
  match target with
  | .routeQuarantined => (some .route, reason)
  | .workerQuarantined => (some .worker, reason)
  | .ready => (none, "")
  | _ => (m.quarantineScope, m.quarantineReason)

/-- Attempts a state transition; raises if the table does not allow it. -/
def transition (m : RuntimeStateMachine) (target : RuntimePhase) (reason routeId : String) :
    Except InvalidStateTransition RuntimeStateMachine :=
  if target ∈ validTransitions m.phase then
    .ok {
      phase := target
      history := m.history ++ [⟨m.phase, target, reason, routeId⟩]
      quarantineScope := (m.quarantineMetadata target reason).1
      quarantineReason := (m.quarantineMetadata target reason).2 }
  else
    .error ⟨m.phase, target⟩

theorem transition_of_valid {m : RuntimeStateMachine} {target : RuntimePhase}
    (h : target ∈ validTransitions m.phase) (reason routeId : String) :
    ∃ m', m.transition target reason routeId = .ok m' ∧ m'.phase = target :=
  ⟨_, if_pos h, rfl⟩

theorem transition_of_not_valid {m : RuntimeStateMachine} {target : RuntimePhase}
    (h : target ∉ validTransitions m.phase) (reason routeId : String) :
    m.transition target reason routeId = .error ⟨m.phase, target⟩ := if_neg h

/-- A transition succeeds exactly when the table allows it. -/
theorem transition_eq_ok {m m' : RuntimeStateMachine} {target : RuntimePhase}
    {reason routeId : String} (h : m.transition target reason routeId = .ok m') :
    target ∈ validTransitions m.phase ∧ m'.phase = target := by
  by_cases hv : target ∈ validTransitions m.phase
  · obtain ⟨m'', h', hphase⟩ := transition_of_valid hv reason routeId
    rw [h'] at h
    cases h
    exact ⟨hv, hphase⟩
  · rw [transition_of_not_valid hv] at h
    exact absurd h (by simp)

end RuntimeStateMachine
