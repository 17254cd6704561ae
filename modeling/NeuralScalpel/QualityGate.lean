/-
The quality gate of source adapters.

A report is judged by a cascade: collapse, empty outputs and regressions fail
it, then its gain over the base decides, and repetitions take a pass back to a
warning.  Missing rates count as zero in the comparisons, but not in the notes.

* `generateVerdict` — the cascade;
* `generateVerdict_spec` — the status it gives, or the rate it misses;
* `statusOf_mono` — no better report gets a worse status;
* `givesMonotone_iff` — exactly when two calls give their statuses in order.
-/
import NeuralScalpel.DeltaHealth
import NeuralScalpel.Effect
import NeuralScalpel.FloatFormat
import NeuralScalpel.Tensor

/-! ### Comparing floats -/

namespace Scalar

/-- `<`; false for NaN. -/
def lt : Scalar → Scalar → Bool
  | finite p, finite q => decide (p < q)
  | finite _, inf negative => !negative
  | inf negative, finite _ => negative
  | inf negative, inf negative' => negative && !negative'
  | nan, _ => false
  | _, nan => false

/-- `<=`; false for NaN. -/
def le : Scalar → Scalar → Bool
  | finite p, finite q => decide (p ≤ q)
  | finite _, inf negative => !negative
  | inf negative, finite _ => negative
  | inf negative, inf negative' => negative || !negative'
  | nan, _ => false
  | _, nan => false

theorem le_trans {a b c : Scalar} (hab : le a b = true) (hbc : le b c = true) : le a c = true := by
  cases a <;> cases b <;> cases c <;> grind [le]

theorem lt_of_lt_of_le {a b c : Scalar} (hab : lt a b = true) (hbc : le b c = true) :
    lt a c = true := by
  cases a <;> cases b <;> cases c <;> grind [lt, le]

/-- `abs`. -/
def abs : Scalar → Scalar
  | finite q => finite |q|
  | inf _ => inf false
  | nan => nan

/-- `f"{x*100:.1f}"`; the product is a float too. -/
def percent : Scalar → String
  | finite q =>
    let sign := if q < 0 then "-" else ""
    if FloatFormat.double.Overflows (|q| * 100) then sign ++ "inf"
    else sign ++ DeltaHealthAnalyzer.fixedOne (FloatFormat.double.nearest (|q| * 100))
  | inf negative => if negative then "-inf" else "inf"
  | nan => "nan"

end Scalar

/-! ### The gate -/

namespace SourceAdapterQualityReport

inductive TeacherVerdict
  | inconclusive
  | unstableTeacher
  | negativeTeacher
  | positiveTeacher
  | weakPositiveTeacher
  | neutralTeacher
  deriving DecidableEq, Repr

inductive GateStatus
  | fail
  | warning
  | pass
  deriving DecidableEq, Repr

inductive TeacherRecommendation
  | waitingForEval
  | primaryMetricMissing
  | doNotProject
  | proceedToProjection
  | proceedWithCaution
  | projectionNotPrioritized
  deriving DecidableEq, Repr

structure QualityGateConfig where
  primaryMetric : String := "execution_accuracy"
  positiveDeltaThreshold : Scalar := .finite (3 / 100)
  weakPositiveThreshold : Scalar := .finite 0
  negativeDeltaThreshold : Scalar := .finite (-1 / 100)
  maxRegressionRate : Scalar := .finite (10 / 100)
  maxEmptyOutputRate : Scalar := .finite (5 / 100)
  maxRepetitionRate : Scalar := .finite (10 / 100)

structure QualityReport where
  delta : Dict String Scalar := .empty
  regressionRate : Scalar := 0
  stability : Dict String Scalar := .empty
  verdict : TeacherVerdict := .inconclusive
  gateStatus : GateStatus := .warning
  recommendation : TeacherRecommendation := .waitingForEval
  notes : List String := []

/-- `self.stability.get(key, 0.0)`. -/
def QualityReport.rate (report : QualityReport) (key : String) : Scalar :=
  (report.stability.get? key).getD 0

/-- `self.stability.get("collapse_detected", 0.0) > 0.5`. -/
def QualityReport.collapsed (report : QualityReport) : Bool :=
  (Scalar.finite (1 / 2)).lt (report.rate "collapse_detected")

/-- A method of the report. -/
abbrev Method := EStateM PyError QualityReport

/-- `self.stability[key]`. -/
def stabilityOf (key : String) : Method Scalar := do
  match (← get).stability.get? key with
  | some rate => pure rate
  | none => throw (.keyError key)

def note (text : String) : Method Unit :=
  modify fun report => { report with notes := report.notes ++ [text] }

def judge (verdict : TeacherVerdict) (gateStatus : GateStatus)
    (recommendation : TeacherRecommendation) : Method Unit :=
  modify fun report => { report with
    verdict := verdict
    gateStatus := gateStatus
    recommendation := recommendation }

/-- The verdict by the gain over the base. -/
def scoreVerdict (config : QualityGateConfig) (diff : Scalar) : Method Unit :=
  if config.positiveDeltaThreshold.le diff then
    judge .positiveTeacher .pass .proceedToProjection
  else if config.weakPositiveThreshold.lt diff then
    judge .weakPositiveTeacher .warning .proceedWithCaution
  else if diff.le config.negativeDeltaThreshold then do
    judge .negativeTeacher .fail .doNotProject
    note ("Adapter degrades base model performance by " ++ diff.abs.percent ++ "%.")
  else judge .neutralTeacher .warning .projectionNotPrioritized

/-- Repetitions take a pass back. -/
def polishStatus (config : QualityGateConfig) : Method Unit := do
  if config.maxRepetitionRate.lt ((← get).rate "repetition_rate") then
    let repetition ← stabilityOf "repetition_rate"
    note ("High repetition detected (" ++ repetition.percent ++ "%).")
    if (← get).gateStatus = .pass then
      modify fun report => { report with
        gateStatus := .warning
        recommendation := .proceedWithCaution }

/-- `generate_verdict`. -/
def generateVerdict (config : QualityGateConfig) : Method Unit := do
  let report ← get
  match report.delta.get? config.primaryMetric with
  | none =>
    judge .inconclusive .warning .primaryMetricMissing
    note ("Primary metric '" ++ config.primaryMetric ++ "' not found in evaluation results.")
  | some diff =>
    if report.collapsed then
      judge .unstableTeacher .fail .doNotProject
      note "Severe model collapse detected (Adapter output is significantly worse than base)."
    else if config.maxEmptyOutputRate.lt (report.rate "empty_output_rate") then
      judge .unstableTeacher .fail .doNotProject
      let empty ← stabilityOf "empty_output_rate"
      note ("High empty output rate (" ++ empty.percent ++ "%) exceeds threshold (" ++
        config.maxEmptyOutputRate.percent ++ "%).")
    else if config.maxRegressionRate.lt report.regressionRate then
      judge .negativeTeacher .fail .doNotProject
      note ("High regression rate (" ++ report.regressionRate.percent ++
        "%) exceeds threshold (" ++ config.maxRegressionRate.percent ++ "%).")
    else
      scoreVerdict config diff
      polishStatus config

/-! ### The status -/

namespace GateStatus

def rank : GateStatus → ℕ
  | fail => 0
  | warning => 1
  | pass => 2

/-- FAIL < WARNING < PASS. -/
instance : LinearOrder GateStatus :=
  LinearOrder.lift' rank fun s s' h => by cases s <;> cases s' <;> first | rfl | cases h

end GateStatus

/-- The status by the gain. -/
def scoreStatus (config : QualityGateConfig) (diff : Scalar) : GateStatus :=
  if config.positiveDeltaThreshold.le diff then .pass
  else if config.weakPositiveThreshold.lt diff then .warning
  else if diff.le config.negativeDeltaThreshold then .fail
  else .warning

/-- The best status repetitions leave. -/
def repetitionCap (config : QualityGateConfig) (report : QualityReport) : GateStatus :=
  if config.maxRepetitionRate.lt (report.rate "repetition_rate") then .warning else .pass

/-- A rate fails the report whatever its gain. -/
def failsEarly (config : QualityGateConfig) (report : QualityReport) : Bool :=
  report.collapsed || config.maxEmptyOutputRate.lt (report.rate "empty_output_rate") ||
    config.maxRegressionRate.lt report.regressionRate

/-- The status of a report. -/
def statusOf (config : QualityGateConfig) (report : QualityReport) (diff : Scalar) : GateStatus :=
  if failsEarly config report then .fail
  else min (scoreStatus config diff) (repetitionCap config report)

/-- A rate above its limit that is not in the report. -/
def Missing (limit : Scalar) (report : QualityReport) (key : String) : Prop :=
  limit.lt (report.rate key) = true ∧ report.stability.get? key = none

/-- A missing rate counts as zero. -/
theorem missing_iff {limit : Scalar} {report : QualityReport} {key : String} :
    Missing limit report key ↔ limit.lt 0 = true ∧ report.stability.get? key = none := by
  refine and_congr_left fun hnone => ?_
  rw [QualityReport.rate, hnone, Option.getD_none]

/-- The gate needs a rate for a note that is not in the report. -/
def MissesRate (config : QualityGateConfig) (report : QualityReport) : Prop :=
  report.collapsed = false ∧
    (Missing config.maxEmptyOutputRate report "empty_output_rate" ∨
      failsEarly config report = false ∧
        Missing config.maxRepetitionRate report "repetition_rate")

section

variable {config : QualityGateConfig} {report : QualityReport} {diff : Scalar}

theorem wp_stabilityOf {key : String} {Q : Scalar → QualityReport → Prop}
    {E : PyError → QualityReport → Prop} :
    Effect.wp (stabilityOf key) Q E report ↔
      (∀ rate, report.stability.get? key = some rate → Q rate report) ∧
        (report.stability.get? key = none → E (.keyError key) report) := by
  unfold stabilityOf
  rw [Effect.wp_bind, Effect.wp_get]
  rcases report.stability.get? key with _ | rate <;> simp

theorem scoreVerdict_spec :
    Effect.wp (scoreVerdict config diff)
      (fun _ report' => report'.gateStatus = scoreStatus config diff ∧
        report'.stability = report.stability)
      (fun _ _ => False) report := by
  unfold scoreVerdict scoreStatus judge note
  split_ifs <;> simp

/-- Polishing caps the status, or misses the rate. -/
theorem polishStatus_spec :
    Effect.wp (polishStatus config)
      (fun _ report' => ¬Missing config.maxRepetitionRate report "repetition_rate" ∧
        report'.gateStatus = min report.gateStatus (repetitionCap config report))
      (fun _ _ => Missing config.maxRepetitionRate report "repetition_rate") report := by
  unfold polishStatus repetitionCap Missing
  rw [Effect.wp_bind, Effect.wp_get]
  by_cases hlimit : config.maxRepetitionRate.lt (report.rate "repetition_rate") = true
  · rw [if_pos hlimit, if_pos hlimit, Effect.wp_bind, wp_stabilityOf]
    refine ⟨fun rate hrate => ?_, fun hnone => ⟨hlimit, hnone⟩⟩
    have hfound : ¬Missing config.maxRepetitionRate report "repetition_rate" := by
      rintro ⟨-, hnone⟩
      rw [hrate] at hnone
      cases hnone
    rw [Effect.wp_bind, note, Effect.wp_modify, Effect.wp_bind, Effect.wp_get]
    rcases hstatus : report.gateStatus with _ | _ | _
    · exact ⟨hfound, rfl⟩
    · exact ⟨hfound, rfl⟩
    · exact ⟨hfound, rfl⟩
  · rw [if_neg hlimit, if_neg hlimit]
    refine ⟨fun h => hlimit h.1, ?_⟩
    rcases report.gateStatus with _ | _ | _ <;> rfl

theorem statusOf_of_failsEarly (hearly : failsEarly config report = true) :
    statusOf config report diff = .fail :=
  if_pos hearly

/-- A report that fails early misses at most its rate of empty outputs. -/
theorem missesRate_of_failsEarly (hearly : failsEarly config report = true) :
    MissesRate config report ↔ report.collapsed = false ∧
      Missing config.maxEmptyOutputRate report "empty_output_rate" := by
  refine and_congr_right fun _ => or_iff_left ?_
  rintro ⟨hnot, -⟩
  rw [hearly] at hnot
  cases hnot

/-- A report that does not fail early misses at most its repetition rate. -/
theorem missesRate_of_not_failsEarly (hearly : failsEarly config report = false) :
    MissesRate config report ↔ Missing config.maxRepetitionRate report "repetition_rate" := by
  have hrates := hearly
  simp only [failsEarly, Bool.or_eq_false_iff] at hrates
  obtain ⟨⟨hcollapse, hempty⟩, -⟩ := hrates
  constructor
  · rintro ⟨-, hmissing | ⟨-, hmissing⟩⟩
    · exact absurd (hempty.symm.trans hmissing.1) Bool.false_ne_true
    · exact hmissing
  · exact fun hmissing => ⟨hcollapse, Or.inr ⟨hearly, hmissing⟩⟩

/-- What the gate does with a report that has the primary metric. -/
theorem generateVerdict_spec (hdiff : report.delta.get? config.primaryMetric = some diff) :
    Effect.wp (generateVerdict config)
      (fun _ report' => ¬MissesRate config report ∧
        report'.gateStatus = statusOf config report diff)
      (fun _ _ => MissesRate config report) report := by
  unfold generateVerdict
  rw [Effect.wp_bind, Effect.wp_get, hdiff]
  by_cases hcollapse : report.collapsed = true
  · -- a collapse is noted without its rate
    have hearly : failsEarly config report = true := by simp [failsEarly, hcollapse]
    have hfound : ¬MissesRate config report := fun h =>
      Bool.false_ne_true (h.1.symm.trans hcollapse)
    simp only [if_pos hcollapse]
    exact ⟨hfound, (statusOf_of_failsEarly hearly).symm⟩
  simp only [if_neg hcollapse]
  rw [Bool.not_eq_true] at hcollapse
  by_cases hempty : config.maxEmptyOutputRate.lt (report.rate "empty_output_rate") = true
  · have hearly : failsEarly config report = true := by simp [failsEarly, hempty]
    simp only [if_pos hempty]
    rw [Effect.wp_bind, judge, Effect.wp_modify, Effect.wp_bind, wp_stabilityOf,
      missesRate_of_failsEarly hearly]
    refine ⟨fun rate hrate => ⟨?_, (statusOf_of_failsEarly hearly).symm⟩,
      fun hnone => ⟨hcollapse, hempty, hnone⟩⟩
    rintro ⟨-, -, hnone⟩
    rw [show report.stability.get? "empty_output_rate" = some rate from hrate] at hnone
    cases hnone
  simp only [if_neg hempty]
  by_cases hregression : config.maxRegressionRate.lt report.regressionRate = true
  · have hearly : failsEarly config report = true := by simp [failsEarly, hregression]
    have hfound : ¬MissesRate config report := fun h =>
      hempty ((missesRate_of_failsEarly hearly).mp h).2.1
    simp only [if_pos hregression]
    exact ⟨hfound, (statusOf_of_failsEarly hearly).symm⟩
  simp only [if_neg hregression]
  have hearly : failsEarly config report = false := by
    simp [failsEarly, hcollapse, hempty, hregression]
  have hstatus : statusOf config report diff =
      min (scoreStatus config diff) (repetitionCap config report) := if_neg (by rw [hearly]; decide)
  rw [Effect.wp_bind, hstatus, missesRate_of_not_failsEarly hearly]
  refine scoreVerdict_spec.mono (fun _ report' h => ?_) fun _ _ h => h.elim
  obtain ⟨hscore, hstability⟩ := h
  have hrate : report'.rate = report.rate := by
    funext key
    rw [QualityReport.rate, QualityReport.rate, hstability]
  have hpolish := @polishStatus_spec config report'
  simpa only [Missing, repetitionCap, hrate, hstability, hscore] using hpolish

end

/-! ### Two reports -/

/-- The second report gains at least as much, and each of its rates is at most
that of the first. -/
structure AtLeastAsGood (config : QualityGateConfig) (report report' : QualityReport) : Prop where
  delta : ∃ diff diff', report.delta.get? config.primaryMetric = some diff ∧
    report'.delta.get? config.primaryMetric = some diff' ∧ diff.le diff' = true
  regression : report'.regressionRate.le report.regressionRate = true
  empty : (report'.rate "empty_output_rate").le (report.rate "empty_output_rate") = true
  collapse : (report'.rate "collapse_detected").le (report.rate "collapse_detected") = true
  repetition : (report'.rate "repetition_rate").le (report.rate "repetition_rate") = true

/-- The gate returns and leaves the status. -/
def Gives (config : QualityGateConfig) (report : QualityReport) (status : GateStatus) : Prop :=
  Effect.returned (generateVerdict config) report = some () ∧
    (Effect.after (generateVerdict config) report).gateStatus = status

/-- The gate gives the second report a status at least as good as the first. -/
def GivesMonotone (config : QualityGateConfig) (report report' : QualityReport) : Prop :=
  ∃ status status', Gives config report status ∧ Gives config report' status' ∧ status ≤ status'

section

variable {config : QualityGateConfig} {report report' : QualityReport} {diff diff' : Scalar}

theorem GateStatus.fail_le (status : GateStatus) : .fail ≤ status := by
  cases status <;> decide

theorem GateStatus.le_pass (status : GateStatus) : status ≤ .pass := by
  cases status <;> decide

theorem scoreStatus_mono (h : diff.le diff' = true) :
    scoreStatus config diff ≤ scoreStatus config diff' := by
  unfold scoreStatus
  by_cases hpositive : config.positiveDeltaThreshold.le diff' = true
  · rw [if_pos hpositive]
    exact GateStatus.le_pass _
  -- what the second does not reach the first does not reach either
  have hpositive' : ¬config.positiveDeltaThreshold.le diff = true :=
    fun h' => hpositive (Scalar.le_trans h' h)
  rw [if_neg hpositive, if_neg hpositive']
  by_cases hweak : config.weakPositiveThreshold.lt diff' = true
  · rw [if_pos hweak]
    split_ifs <;> decide
  have hweak' : ¬config.weakPositiveThreshold.lt diff = true :=
    fun h' => hweak (Scalar.lt_of_lt_of_le h' h)
  rw [if_neg hweak, if_neg hweak']
  by_cases hnegative : diff'.le config.negativeDeltaThreshold = true
  · rw [if_pos hnegative, if_pos (Scalar.le_trans h hnegative)]
  · rw [if_neg hnegative]
    split_ifs <;> decide

theorem repetitionCap_mono
    (h : (report'.rate "repetition_rate").le (report.rate "repetition_rate") = true) :
    repetitionCap config report ≤ repetitionCap config report' := by
  unfold repetitionCap
  by_cases hlimit : config.maxRepetitionRate.lt (report'.rate "repetition_rate") = true
  · rw [if_pos hlimit, if_pos (Scalar.lt_of_lt_of_le hlimit h)]
  · rw [if_neg hlimit]
    exact GateStatus.le_pass _

theorem AtLeastAsGood.failsEarly (h : AtLeastAsGood config report report')
    (hfails : failsEarly config report' = true) : failsEarly config report = true := by
  unfold SourceAdapterQualityReport.failsEarly at hfails ⊢
  rw [Bool.or_eq_true, Bool.or_eq_true] at hfails ⊢
  rcases hfails with (hcollapse | hempty) | hregression
  · exact Or.inl (Or.inl (Scalar.lt_of_lt_of_le hcollapse h.collapse))
  · exact Or.inl (Or.inr (Scalar.lt_of_lt_of_le hempty h.empty))
  · exact Or.inr (Scalar.lt_of_lt_of_le hregression h.regression)

/-- No better report gets a worse status. -/
theorem statusOf_mono (h : AtLeastAsGood config report report') (hdiff : diff.le diff' = true) :
    statusOf config report diff ≤ statusOf config report' diff' := by
  unfold statusOf
  by_cases hfails : failsEarly config report = true
  · rw [if_pos hfails]
    exact GateStatus.fail_le _
  · rw [if_neg hfails, if_neg fun hfails' => hfails (h.failsEarly hfails')]
    exact min_le_min (scoreStatus_mono hdiff) (repetitionCap_mono h.repetition)

theorem gives_iff (hdiff : report.delta.get? config.primaryMetric = some diff)
    {status : GateStatus} :
    Gives config report status ↔
      ¬MissesRate config report ∧ statusOf config report diff = status := by
  obtain ⟨hreturns, hraises⟩ := Effect.wp_iff.mp (generateVerdict_spec hdiff)
  constructor
  · rintro ⟨hreturned, hstatus⟩
    obtain ⟨hfound, hafter⟩ := hreturns () hreturned
    exact ⟨hfound, hafter ▸ hstatus⟩
  · rintro ⟨hfound, hstatus⟩
    have hreturned : Effect.returned (generateVerdict config) report = some () := by
      rcases hcase : Effect.returned (generateVerdict config) report with _ | u
      · exact absurd (hraises hcase) hfound
      · rfl
    exact ⟨hreturned, (hreturns () hreturned).2.trans hstatus⟩

/-- With limits that are not negative, every report that has the primary metric
is given its status. -/
theorem gives_statusOf (hdiff : report.delta.get? config.primaryMetric = some diff)
    (hempty : config.maxEmptyOutputRate.lt 0 = false)
    (hrepetition : config.maxRepetitionRate.lt 0 = false) :
    Gives config report (statusOf config report diff) := by
  refine (gives_iff hdiff).mpr ⟨?_, rfl⟩
  rintro ⟨-, hmissing | ⟨-, hmissing⟩⟩
  · exact absurd (hempty.symm.trans (missing_iff.mp hmissing).1) Bool.false_ne_true
  · exact absurd (hrepetition.symm.trans (missing_iff.mp hmissing).1) Bool.false_ne_true

/-- Two calls give their statuses in order exactly when neither needs a rate
that is missing. -/
theorem givesMonotone_iff (h : AtLeastAsGood config report report') :
    GivesMonotone config report report' ↔
      ¬MissesRate config report ∧ ¬MissesRate config report' := by
  obtain ⟨diff, diff', hdiff, hdiff', hle⟩ := h.delta
  constructor
  · rintro ⟨status, status', hgives, hgives', -⟩
    exact ⟨((gives_iff hdiff).mp hgives).1, ((gives_iff hdiff').mp hgives').1⟩
  · rintro ⟨hfound, hfound'⟩
    exact ⟨_, _, (gives_iff hdiff).mpr ⟨hfound, rfl⟩, (gives_iff hdiff').mpr ⟨hfound', rfl⟩,
      statusOf_mono h hle⟩

/-- A report of a gain, with the given rates. -/
def gaining (gain : ℚ) (stability : Dict String Scalar) : QualityReport :=
  { delta := Dict.empty.set "execution_accuracy" (.finite gain), stability := stability }

theorem givesMonotone_gaining :
    GivesMonotone {} (gaining 0 .empty) (gaining (1 / 20) .empty) ↔
      ¬MissesRate {} (gaining 0 .empty) ∧ ¬MissesRate {} (gaining (1 / 20) .empty) :=
  givesMonotone_iff
    ⟨⟨_, _, rfl, rfl, by decide +kernel⟩, by decide, by decide, by decide, by decide⟩

/-- With a negative limit for repetitions the report without the rate raises and
keeps its pass; the one with the rate zero is taken back to a warning. -/
theorem not_givesMonotone_missing :
    AtLeastAsGood { maxRepetitionRate := .finite (-1) } (gaining (1 / 20) .empty)
        (gaining (1 / 20) (Dict.empty.set "repetition_rate" 0)) ∧
      Effect.raised (generateVerdict { maxRepetitionRate := .finite (-1) })
        (gaining (1 / 20) .empty) = some (.keyError "repetition_rate") ∧
      (Effect.after (generateVerdict { maxRepetitionRate := .finite (-1) })
        (gaining (1 / 20) .empty)).gateStatus = .pass ∧
      Gives { maxRepetitionRate := .finite (-1) }
        (gaining (1 / 20) (Dict.empty.set "repetition_rate" 0)) .warning ∧
      ¬GivesMonotone { maxRepetitionRate := .finite (-1) } (gaining (1 / 20) .empty)
        (gaining (1 / 20) (Dict.empty.set "repetition_rate" 0)) := by
  refine ⟨⟨⟨_, _, rfl, rfl, by decide +kernel⟩, by decide, by decide, by decide, by decide⟩,
    by decide +kernel, by decide +kernel, ⟨by decide +kernel, by decide +kernel⟩, ?_⟩
  rintro ⟨status, status', ⟨hreturned, -⟩, -, -⟩
  exact absurd hreturned (by decide +kernel)

end

end SourceAdapterQualityReport
