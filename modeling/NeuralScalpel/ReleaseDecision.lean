/-
The release decision of a diagnostic report.

The decision is taken from the other gates and written over the earlier one;
each branch writes some of its five fields.

* `finalizeReleaseDecision` — the branches;
* `finalize_eq` — each overwrites the fields it writes and leaves the others;
* `finalize_agrees_iff` — exactly when two reports whose gates agree end with
  the same decision.
-/
import NeuralScalpel.DeltaHealth
import NeuralScalpel.JsonValue

namespace AdapterTransferDiagnosticReport

structure MetadataGateResult where
  status : String
  baseModelName : String
  baseModelMatches : Bool
  adapterType : String
  rank : ℤ
  loraAlpha : ℤ
  targetModules : List String
  license : String
  warnings : List String

structure CompatibilityResult (S : Type) where
  verdict : String
  score : S
  compatibilityScore : S
  hiddenSizeRatio : S
  layerCountRatio : S
  familyMatch : Bool
  tokenizerMatch : Bool
  tokenizerCheckStatus : String
  notes : List String

structure FeasibilityResult where
  verdict : String
  feasible : Bool
  layerMappingType : String
  gqaAwareRequired : Bool
  moduleMappingStatus : String
  shapeCompatible : Bool
  notes : List String

structure TargetEvaluationResult (S : Type) where
  verdict : String
  regressionRate : S
  accuracyDelta : S
  sentinelPass : Bool
  notes : List String

structure ReleaseDecisionGateResult where
  verdict : String := "INCONCLUSIVE"
  recommendation : String := ""
  reasons : List String := []
  requiredArtifacts : List String := []
  suggestedProjectionMode : Option String := none
  deriving DecidableEq, Repr

/-- The gates the decision is to depend on. -/
structure Gates (S : Type) where
  metadata : MetadataGateResult
  sourceQuality : Dict String (JsonValue S)
  deltaHealth : DeltaHealthResult S
  compatibility : CompatibilityResult S
  feasibility : FeasibilityResult
  targetEvaluation : TargetEvaluationResult S

structure DiagnosticReport (S : Type) where
  gates : Gates S
  releaseDecision : ReleaseDecisionGateResult

variable {S : Type}

/-! ### The decision -/

/-- `source_verdict == "POSITIVE_TEACHER" and source_status == "PASS"`. -/
def positiveTeacher (gate : Dict String (JsonValue S)) : Bool :=
  let sourceVerdict := gate.get? "verdict"
  let sourceStatus :=
    match gate.get? "gate_status" with
    | some status => some status
    | none => gate.get? "status"
  sourceVerdict.any (JsonValue.isStr "POSITIVE_TEACHER") &&
    sourceStatus.any (JsonValue.isStr "PASS")

/-- `finalize_release_decision`. -/
def finalizeReleaseDecision (report : DiagnosticReport S) : DiagnosticReport S :=
  let gates := report.gates
  let decision := report.releaseDecision
  if gates.targetEvaluation.verdict = "POSITIVE_TARGET_TRANSFER" then
    { report with releaseDecision := { decision with
        verdict := "RELEASE_READY"
        recommendation := "PUBLISH_WITH_FULL_BENCHMARKS"
        requiredArtifacts := ["diagnostic_report.json", "target_evaluation_results.json",
          "projected_adapter/", "README.md"] } }
  else if gates.targetEvaluation.verdict = "TARGET_INTERFERENCE" then
    { report with releaseDecision := { decision with
        verdict := "RESEARCH_ONLY"
        recommendation := "DO_NOT_RELEASE" } }
  else
    let decision :=
      if positiveTeacher gates.sourceQuality then
        if gates.feasibility.verdict = "FEASIBLE" ∨ gates.feasibility.feasible then
          if gates.deltaHealth.verdict = "HEALTHY_DELTA" then
            { decision with
              verdict := "PROJECTION_CANDIDATE"
              recommendation := "PROCEED_TO_TARGET_EVALUATION"
              requiredArtifacts := ["diagnostic_report.json"] }
          else if gates.deltaHealth.verdict ∈ ["LOW_SPECTRAL_ENTROPY", "MODERATELY_CONCENTRATED"]
          then
            { decision with
              verdict := "PROJECTION_CANDIDATE"
              recommendation := "PROCEED_WITH_PIECEWISE_OR_ADAPTIVE_PROJECTION"
              requiredArtifacts := ["diagnostic_report.json"]
              suggestedProjectionMode := some "piecewise" }
          else { decision with verdict := "SOURCE_READY" }
        else { decision with verdict := "SOURCE_READY" }
      else { decision with verdict := "INCONCLUSIVE" }
    if decision.verdict = "INCONCLUSIVE" then
      { report with releaseDecision := { decision with
          reasons := ["Source quality or metadata not verified"] } }
    else { report with releaseDecision := decision }

/-! ### What is written -/

/-- The fields a branch writes; the verdict always. -/
structure Advice where
  verdict : String
  recommendation : Option String := none
  reasons : Option (List String) := none
  requiredArtifacts : Option (List String) := none
  suggestedProjectionMode : Option (Option String) := none
  deriving DecidableEq

namespace Advice

/-- Written over an earlier decision. -/
def onto (advice : Advice) (decision : ReleaseDecisionGateResult) : ReleaseDecisionGateResult where
  verdict := advice.verdict
  recommendation := advice.recommendation.getD decision.recommendation
  reasons := advice.reasons.getD decision.reasons
  requiredArtifacts := advice.requiredArtifacts.getD decision.requiredArtifacts
  suggestedProjectionMode :=
    advice.suggestedProjectionMode.getD decision.suggestedProjectionMode

/-- Two decisions agree on the fields that are not written. -/
structure SameUnwritten (advice : Advice) (decision decision' : ReleaseDecisionGateResult) :
    Prop where
  recommendation : advice.recommendation = none →
    decision.recommendation = decision'.recommendation
  reasons : advice.reasons = none → decision.reasons = decision'.reasons
  requiredArtifacts : advice.requiredArtifacts = none →
    decision.requiredArtifacts = decision'.requiredArtifacts
  suggestedProjectionMode : advice.suggestedProjectionMode = none →
    decision.suggestedProjectionMode = decision'.suggestedProjectionMode

theorem getD_eq_getD_iff {α : Type} {written : Option α} {x y : α} :
    written.getD x = written.getD y ↔ (written = none → x = y) := by
  cases written <;> simp

/-- Two decisions are the same after the advice exactly when they agree on what
it does not write. -/
theorem onto_eq_onto_iff {advice : Advice} {decision decision' : ReleaseDecisionGateResult} :
    advice.onto decision = advice.onto decision' ↔
      advice.SameUnwritten decision decision' := by
  rw [onto, onto, ReleaseDecisionGateResult.mk.injEq]
  constructor
  · rintro ⟨-, hrecommendation, hreasons, hartifacts, hmode⟩
    exact ⟨getD_eq_getD_iff.mp hrecommendation, getD_eq_getD_iff.mp hreasons,
      getD_eq_getD_iff.mp hartifacts, getD_eq_getD_iff.mp hmode⟩
  · rintro ⟨hrecommendation, hreasons, hartifacts, hmode⟩
    exact ⟨rfl, getD_eq_getD_iff.mpr hrecommendation, getD_eq_getD_iff.mpr hreasons,
      getD_eq_getD_iff.mpr hartifacts, getD_eq_getD_iff.mpr hmode⟩

end Advice

def releaseReady : Advice where
  verdict := "RELEASE_READY"
  recommendation := some "PUBLISH_WITH_FULL_BENCHMARKS"
  requiredArtifacts := some ["diagnostic_report.json", "target_evaluation_results.json",
    "projected_adapter/", "README.md"]

def researchOnly : Advice where
  verdict := "RESEARCH_ONLY"
  recommendation := some "DO_NOT_RELEASE"

def projectionCandidate : Advice where
  verdict := "PROJECTION_CANDIDATE"
  recommendation := some "PROCEED_TO_TARGET_EVALUATION"
  requiredArtifacts := some ["diagnostic_report.json"]

def piecewiseCandidate : Advice where
  verdict := "PROJECTION_CANDIDATE"
  recommendation := some "PROCEED_WITH_PIECEWISE_OR_ADAPTIVE_PROJECTION"
  requiredArtifacts := some ["diagnostic_report.json"]
  suggestedProjectionMode := some (some "piecewise")

def sourceReady : Advice where
  verdict := "SOURCE_READY"

def inconclusive : Advice where
  verdict := "INCONCLUSIVE"
  reasons := some ["Source quality or metadata not verified"]

/-- The advice the gates call for. -/
def adviceOf (gates : Gates S) : Advice :=
  if gates.targetEvaluation.verdict = "POSITIVE_TARGET_TRANSFER" then releaseReady
  else if gates.targetEvaluation.verdict = "TARGET_INTERFERENCE" then researchOnly
  else if positiveTeacher gates.sourceQuality then
    if gates.feasibility.verdict = "FEASIBLE" ∨ gates.feasibility.feasible then
      if gates.deltaHealth.verdict = "HEALTHY_DELTA" then projectionCandidate
      else if gates.deltaHealth.verdict ∈ ["LOW_SPECTRAL_ENTROPY", "MODERATELY_CONCENTRATED"]
      then piecewiseCandidate
      else sourceReady
    else sourceReady
  else inconclusive

/-- The decision is the advice of the gates, over the earlier decision. -/
theorem finalize_eq (report : DiagnosticReport S) :
    finalizeReleaseDecision report =
      { report with releaseDecision := (adviceOf report.gates).onto report.releaseDecision } := by
  unfold finalizeReleaseDecision adviceOf
  by_cases hpositive : report.gates.targetEvaluation.verdict = "POSITIVE_TARGET_TRANSFER"
  · simp only [if_pos hpositive]
    rfl
  simp only [if_neg hpositive]
  by_cases hinterference : report.gates.targetEvaluation.verdict = "TARGET_INTERFERENCE"
  · simp only [if_pos hinterference]
    rfl
  simp only [if_neg hinterference]
  by_cases hteacher : positiveTeacher report.gates.sourceQuality = true
  · simp only [if_pos hteacher]
    by_cases hfeasible :
        report.gates.feasibility.verdict = "FEASIBLE" ∨ report.gates.feasibility.feasible = true
    · simp only [if_pos hfeasible]
      by_cases hhealthy : report.gates.deltaHealth.verdict = "HEALTHY_DELTA"
      · simp only [if_pos hhealthy]
        rfl
      simp only [if_neg hhealthy]
      by_cases hpiecewise : report.gates.deltaHealth.verdict ∈
          ["LOW_SPECTRAL_ENTROPY", "MODERATELY_CONCENTRATED"]
      · simp only [if_pos hpiecewise]
        rfl
      · simp only [if_neg hpiecewise]
        rfl
    · simp only [if_neg hfeasible]
      rfl
  · simp only [if_neg hteacher]
    rfl

/-! ### Two reports -/

/-- Two reports whose gates agree end with the same decision exactly when their
earlier decisions agree on the fields that the advice of the gates does not
write. -/
theorem finalize_agrees_iff {report report' : DiagnosticReport S}
    (hgates : report.gates = report'.gates) :
    (finalizeReleaseDecision report).releaseDecision =
        (finalizeReleaseDecision report').releaseDecision ↔
      (adviceOf report.gates).SameUnwritten report.releaseDecision report'.releaseDecision := by
  rw [finalize_eq, finalize_eq, ← hgates]
  exact Advice.onto_eq_onto_iff

/-- Gates of an adapter with a good teacher and a low spectral entropy. -/
def lowEntropyGates (targetVerdict : String) : Gates ℚ where
  metadata := ⟨"PASS", "", true, "LORA", 8, 16, [], "apache-2.0", []⟩
  sourceQuality :=
    (Dict.empty.set "verdict" (.str "POSITIVE_TEACHER")).set "gate_status" (.str "PASS")
  deltaHealth := ⟨⟨"LOW_SPECTRAL_ENTROPY", 0, []⟩, 1, 0⟩
  compatibility := ⟨"COMPATIBLE", 1, 1, 1, 1, true, true, "PASS", []⟩
  feasibility := ⟨"FEASIBLE", true, "direct", false, "PASS", true, []⟩
  targetEvaluation := ⟨targetVerdict, 0, 0, true, []⟩

theorem finalize_agrees_pending :
    (finalizeReleaseDecision ⟨lowEntropyGates "PENDING", {}⟩).releaseDecision =
        (finalizeReleaseDecision ⟨lowEntropyGates "PENDING", { verdict := "" }⟩).releaseDecision ↔
      (adviceOf (lowEntropyGates "PENDING")).SameUnwritten {} { verdict := "" } :=
  finalize_agrees_iff rfl

/-! ### Finalised again and again -/

/-- The decision after a report is finalised under each of some gates. -/
def finalizeAll (decision : ReleaseDecisionGateResult) (history : List (Gates S)) :
    ReleaseDecisionGateResult :=
  history.foldl (fun decision gates => (finalizeReleaseDecision ⟨gates, decision⟩).releaseDecision)
    decision

theorem finalizeAll_snoc (decision : ReleaseDecisionGateResult) (history : List (Gates S))
    (gates : Gates S) :
    finalizeAll decision (history ++ [gates]) =
      (adviceOf gates).onto (finalizeAll decision history) := by
  rw [finalizeAll, List.foldl_append, List.foldl_cons, List.foldl_nil, finalize_eq]
  rfl

/-- Only one advice writes the mode. -/
theorem suggestedProjectionMode_adviceOf (gates : Gates S) :
    (adviceOf gates).suggestedProjectionMode =
      if adviceOf gates = piecewiseCandidate then some (some "piecewise") else none := by
  unfold adviceOf
  split_ifs <;> first | rfl | contradiction

/-- Once the mode is suggested, no later gates take it back. -/
theorem suggestedProjectionMode_finalizeAll (history : List (Gates S)) :
    (finalizeAll {} history).suggestedProjectionMode =
      if ∃ gates ∈ history, adviceOf gates = piecewiseCandidate then some "piecewise"
      else none := by
  induction history using List.reverseRecOn with
  | nil => simp [finalizeAll]
  | append_singleton history gates ih =>
    rw [finalizeAll_snoc]
    show (adviceOf gates).suggestedProjectionMode.getD _ = _
    rw [suggestedProjectionMode_adviceOf, ih]
    by_cases hlast : adviceOf gates = piecewiseCandidate
    · have hsome : ∃ gates' ∈ history ++ [gates], adviceOf gates' = piecewiseCandidate :=
        ⟨gates, List.mem_append_right _ (List.mem_singleton_self gates), hlast⟩
      rw [if_pos hlast, if_pos hsome]
      rfl
    · have hiff : (∃ gates' ∈ history ++ [gates], adviceOf gates' = piecewiseCandidate) ↔
          ∃ gates' ∈ history, adviceOf gates' = piecewiseCandidate := by
        simp only [List.mem_append, List.mem_singleton, or_and_right, exists_or,
          exists_eq_left, hlast, or_false]
      rw [if_neg hlast]
      simp only [hiff, Option.getD_none]

/-- A report that is finalised, evaluated on the target and finalised again keeps
the mode; one that is finalised once with the same gates has none. -/
theorem not_finalize_agrees_again :
    (finalizeAll {} [lowEntropyGates "PENDING", lowEntropyGates "POSITIVE_TARGET_TRANSFER"]
        ).suggestedProjectionMode = some "piecewise" ∧
      (finalizeAll {} [lowEntropyGates "POSITIVE_TARGET_TRANSFER"]).suggestedProjectionMode =
        none := by
  decide

end AdapterTransferDiagnosticReport
