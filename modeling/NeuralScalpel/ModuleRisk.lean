/-
Module risk, from the runs of an interference registry.

The attention sweep walks through the tested alphas in order, keeps those that
passed, and remembers the first that failed; the largest kept one is reported
as safe.

* `attentionEntry`, `moduleRiskReport` — the report;
* `foldlM_sweepStep` — what the sweep keeps and remembers;
* `le_safeMax_iff` — which alphas the reported one covers;
* `attentionEntry_sound_iff` — exactly when all of them passed.
-/
import NeuralScalpel.AlphaMap
import NeuralScalpel.Finding
import Mathlib.Data.List.MinMax
import Mathlib.Data.List.Sort

/-! ### Runs -/

/-- What a run fixed and broke. -/
structure RunStats where
  fixed : List String
  regressed : List String
  sentinelRegressed : Bool
  deriving DecidableEq

/-- No sentinel and no case regressed. -/
def RunStats.passed (stats : RunStats) : Bool :=
  !stats.sentinelRegressed && stats.regressed.length == 0

/-- The entry of the attention modules. -/
structure AttentionEntry (S : Type) where
  riskLevel : String
  safeAlphaMax : ℤ
  testedAlphas : List ℤ
  firstSentinelRegressionAlpha : Option ℤ
  recommendation : String
  riskScore : S
  fixed : ℕ
  regressed : ℕ
  sentinelRegression : Bool
  deriving DecidableEq

/-- The entry of modules that were only run at alpha four. -/
structure ComponentEntry (S : Type) where
  riskLevel : String
  riskScore : S
  recommendation : String
  fixed : ℕ
  regressed : ℕ
  sentinelRegression : Bool
  deriving DecidableEq

structure RiskReport (S : Type) where
  attention : Option (AttentionEntry S)
  mlp : Option (ComponentEntry S)
  downProj : Option (ComponentEntry S)
  deriving DecidableEq

namespace ModuleRisk

section

variable {S : Type} [Field S] [LinearOrder S]

/-- The score of `calculate_risk`. -/
def riskScore (stats : RunStats) : S :=
  if stats.sentinelRegressed then if stats.regressed.length > 0 then 0.9 else 0.7
  else (stats.regressed.length : S) /
    ((stats.fixed.length : S) + (stats.regressed.length : S) + 1e-6)

/-- `calculate_risk`: level, score and recommendation. -/
def calculateRisk (stats : RunStats) : String × S × String :=
  let score : S := riskScore stats
  if score > 0.8 then ("CRITICAL", score, "EXCLUDE")
  else if score > 0.5 ∨ stats.sentinelRegressed = true then
    ("HIGH", score, "EXCLUDE_OR_ULTRA_LOW_ALPHA")
  else if score > 0.1 then ("MEDIUM", score, "REDUCE_ALPHA")
  else ("LOW", score, "ALLOW_LOW_ALPHA")

end

/-! ### The attention sweep -/

/-- `name.split("_a")[1]`. -/
def alphaText (name : String) : Except PyError (List Char) :=
  match findIn "_a".toList name.toList with
  | none => .error (.external "IndexError: list index out of range")
  | some i =>
    let rest := name.toList.drop (i + 2)
    match findIn "_a".toList rest with
    | none => .ok rest
    | some j => .ok (rest.take j)

/-- `int(name.split("_a")[1])`. -/
def alphaOf (int : List Char → Except PyError ℤ) (name : String) : Except PyError ℤ := do
  int (← alphaText name)

def runName (alpha : ℤ) : String := "attention_a" ++ toString alpha

/-- The runs whose names begin with `attention_a`. -/
def attentionRuns (runs : Dict String RunStats) : Dict String RunStats :=
  .ofWrites (runs.entries.filter fun e => "attention_a".toList.isPrefixOf e.1.toList)

structure SweepState where
  safeAlphas : List ℤ
  firstRegression : Option ℤ
  deriving DecidableEq

/-- One alpha of the sweep. -/
def sweepStep (attnRuns : Dict String RunStats) (state : SweepState) (alpha : ℤ) :
    Except PyError SweepState :=
  match attnRuns.get? (runName alpha) with
  | none => .error (.keyError (runName alpha))
  | some stats =>
    if stats.passed then .ok { state with safeAlphas := state.safeAlphas ++ [alpha] }
    else if state.firstRegression.isNone then .ok { state with firstRegression := some alpha }
    else .ok state

/-- `max(safe_alphas) if safe_alphas else 0`. -/
def safeMax (safeAlphas : List ℤ) : ℤ := safeAlphas.max?.getD 0

variable {S : Type} [Field S] [LinearOrder S]

/-- The entry of the attention modules, if there are runs of them. -/
def attentionEntry (int : List Char → Except PyError ℤ) (runs : Dict String RunStats) :
    Except PyError (Option (AttentionEntry S)) :=
  match (attentionRuns runs).entries with
  | [] => .ok none
  | (_, firstStats) :: _ => do
    let alphas ← (attentionRuns runs).keys.mapM (alphaOf int)
    let testedAlphas := alphas.insertionSort (· ≤ ·)
    let swept ← testedAlphas.foldlM (sweepStep (attentionRuns runs)) ⟨[], none⟩
    let safe := safeMax swept.safeAlphas
    let repStats := ((attentionRuns runs).get? (runName safe)).getD firstStats
    pure (some {
      riskLevel := if safe > 0 then "CONDITIONAL_LOW" else "HIGH"
      safeAlphaMax := safe
      testedAlphas := testedAlphas
      firstSentinelRegressionAlpha := swept.firstRegression
      recommendation := if safe > 0 then "ALLOW_ALPHA_LE_" ++ toString safe else "EXCLUDE"
      riskScore := (calculateRisk repStats).2.1
      fixed := repStats.fixed.length
      regressed := repStats.regressed.length
      sentinelRegression := repStats.sentinelRegressed })

def componentEntry (recommendation : String) (stats : RunStats) : ComponentEntry S where
  riskLevel := (calculateRisk (S := S) stats).1
  riskScore := (calculateRisk stats).2.1
  recommendation := recommendation
  fixed := stats.fixed.length
  regressed := stats.regressed.length
  sentinelRegression := stats.sentinelRegressed

/-- The report of `main`. -/
def moduleRiskReport (int : List Char → Except PyError ℤ) (runs : Dict String RunStats) :
    Except PyError (RiskReport S) := do
  let attention ← attentionEntry int runs
  pure {
    attention := attention
    mlp := (runs.get? "mlp_a4").map (componentEntry "EXCLUDE_OR_ALPHA_LE_1")
    downProj := (runs.get? "down_proj_a4").map (componentEntry "EXCLUDE") }

/-! ### What the sweep keeps -/

/-- The run of an alpha passed. -/
def passedAt (attnRuns : Dict String RunStats) (alpha : ℤ) : Bool :=
  (attnRuns.get? (runName alpha)).any RunStats.passed

/-- One step keeps the alpha or remembers it. -/
theorem sweepStep_ok {attnRuns : Dict String RunStats} {state state' : SweepState} {alpha : ℤ}
    (h : sweepStep attnRuns state alpha = .ok state') :
    state' = ⟨state.safeAlphas ++ [alpha].filter (passedAt attnRuns),
      state.firstRegression.or ([alpha].find? fun a => !passedAt attnRuns a)⟩ := by
  unfold sweepStep at h
  rcases hstats : attnRuns.get? (runName alpha) with _ | stats
  · rw [hstats] at h
    cases h
  · have hpassed : passedAt attnRuns alpha = stats.passed := by
      rw [passedAt, hstats, Option.any_some]
    simp only [hstats] at h
    rcases state with ⟨safe, first⟩
    cases hrun : stats.passed with
    | true =>
      rw [hrun] at h hpassed
      cases h
      simp [hpassed]
    | false =>
      rw [hrun] at h hpassed
      cases first with
      | none =>
        cases h
        simp [hpassed]
      | some alpha' =>
        cases h
        simp [hpassed]

/-- The sweep keeps the alphas that passed and remembers the first that failed. -/
theorem foldlM_sweepStep {attnRuns : Dict String RunStats} : ∀ {alphas : List ℤ}
    {state state' : SweepState}, alphas.foldlM (sweepStep attnRuns) state = .ok state' →
      state' = ⟨state.safeAlphas ++ alphas.filter (passedAt attnRuns),
        state.firstRegression.or (alphas.find? fun a => !passedAt attnRuns a)⟩ := by
  intro alphas
  induction alphas with
  | nil =>
    intro state state' h
    cases h
    simp
  | cons alpha alphas ih =>
    intro state state' h
    obtain ⟨next, hnext, hrest⟩ := Effect.bind_eq_ok.mp h
    rw [ih hrest, sweepStep_ok hnext]
    cases hpassed : passedAt attnRuns alpha with
    | true => simp [hpassed]
    | false => cases hfirst : state.firstRegression <;> simp [hpassed]

/-- The alphas up to the reported one are those up to one that was kept, and
none above zero when none was. -/
theorem le_safeMax_iff {safeAlphas : List ℤ} {alpha : ℤ} :
    alpha ≤ safeMax safeAlphas ↔
      (∃ safe ∈ safeAlphas, alpha ≤ safe) ∨ (safeAlphas = [] ∧ alpha ≤ 0) := by
  unfold safeMax
  rcases hmax : safeAlphas.max? with _ | best
  · obtain rfl := List.max?_eq_none_iff.mp hmax
    simp
  · obtain ⟨hbest, hle⟩ := List.max?_eq_some_iff.mp hmax
    rw [Option.getD_some]
    constructor
    · exact fun h => Or.inl ⟨best, hbest, h⟩
    · rintro (⟨safe, hsafe, h⟩ | ⟨rfl, -⟩)
      · exact h.trans (hle safe hsafe)
      · exact absurd hbest List.not_mem_nil

/-! ### The reported alpha -/

/-- There is a run at the alpha, with these stats. -/
def TestedWith (int : List Char → Except PyError ℤ) (runs : Dict String RunStats) (alpha : ℤ)
    (stats : RunStats) : Prop :=
  ∃ name, (attentionRuns runs).get? name = some stats ∧ alphaOf int name = .ok alpha

/-- The runs at alphas up to the bound passed. -/
def SoundUpTo (int : List Char → Except PyError ℤ) (runs : Dict String RunStats) (bound : ℤ) :
    Prop :=
  ∀ alpha stats, TestedWith int runs alpha stats → alpha ≤ bound → stats.passed = true

/-- A tested alpha whose run passed. -/
def SafeAlpha (int : List Char → Except PyError ℤ) (runs : Dict String RunStats) (alpha : ℤ) :
    Prop :=
  (∃ stats, TestedWith int runs alpha stats) ∧ passedAt (attentionRuns runs) alpha = true

/-- Each run that failed was at an alpha above every safe one, and above zero if
there is none. -/
def OutcomesOrdered (int : List Char → Except PyError ℤ) (runs : Dict String RunStats) : Prop :=
  ∀ alpha stats, TestedWith int runs alpha stats → stats.passed = false →
    (∀ safe, SafeAlpha int runs safe → safe < alpha) ∧
      ((∀ safe, ¬SafeAlpha int runs safe) → 0 < alpha)

theorem mem_of_mapM_ok {α β : Type} {f : α → Except PyError β} : ∀ {l : List α} {r : List β},
    l.mapM f = .ok r → ∀ b, b ∈ r ↔ ∃ a ∈ l, f a = .ok b := by
  intro l
  induction l with
  | nil =>
    intro r h b
    cases h
    simp
  | cons a l ih =>
    intro r h b
    rw [List.mapM_cons] at h
    obtain ⟨c, hc, h⟩ := Effect.bind_eq_ok.mp h
    obtain ⟨r', hr', h⟩ := Effect.bind_eq_ok.mp h
    cases h
    rw [List.mem_cons, ih hr']
    simp [hc, eq_comm]

/-- What the entry says of the sweep. -/
theorem attentionEntry_eq_some {int : List Char → Except PyError ℤ} {runs : Dict String RunStats}
    {entry : AttentionEntry S} (h : attentionEntry int runs = .ok (some entry)) :
    (∀ alpha, alpha ∈ entry.testedAlphas ↔ ∃ stats, TestedWith int runs alpha stats) ∧
      entry.safeAlphaMax =
        safeMax (entry.testedAlphas.filter (passedAt (attentionRuns runs))) := by
  unfold attentionEntry at h
  split at h
  case h_1 => cases h
  case h_2 =>
    obtain ⟨alphas, halphas, h⟩ := Effect.bind_eq_ok.mp h
    obtain ⟨swept, hswept, h⟩ := Effect.bind_eq_ok.mp h
    cases h
    refine ⟨fun alpha => ?_, ?_⟩
    · show alpha ∈ alphas.insertionSort _ ↔ _
      rw [List.mem_insertionSort, mem_of_mapM_ok halphas]
      constructor
      · rintro ⟨name, hname, halpha⟩
        obtain ⟨stats, hstats⟩ := Dict.contains_iff.mp (Dict.mem_keys_iff.mp hname)
        exact ⟨stats, name, hstats, halpha⟩
      · rintro ⟨stats, name, hstats, halpha⟩
        exact ⟨name, Dict.mem_keys_iff.mpr (Dict.contains_iff.mpr ⟨stats, hstats⟩), halpha⟩
    · show safeMax swept.safeAlphas = _
      rw [foldlM_sweepStep hswept]
      rfl

/-- The runs the reported alpha covers passed exactly when the outcomes are
ordered. -/
theorem attentionEntry_sound_iff {int : List Char → Except PyError ℤ}
    {runs : Dict String RunStats} {report : RiskReport S} {entry : AttentionEntry S}
    (h : moduleRiskReport int runs = .ok report) (hentry : report.attention = some entry) :
    SoundUpTo int runs entry.safeAlphaMax ↔ OutcomesOrdered int runs := by
  obtain ⟨attention, hattention, hreport⟩ := Effect.bind_eq_ok.mp h
  cases hreport
  obtain rfl : attention = some entry := hentry
  obtain ⟨htested, hmax⟩ := attentionEntry_eq_some hattention
  have hsafe : ∀ safe, safe ∈ entry.testedAlphas.filter (passedAt (attentionRuns runs)) ↔
      SafeAlpha int runs safe := by
    intro safe
    rw [List.mem_filter, htested, SafeAlpha]
  have hcovers : ∀ alpha, alpha ≤ entry.safeAlphaMax ↔
      (∃ safe, SafeAlpha int runs safe ∧ alpha ≤ safe) ∨
        ((∀ safe, ¬SafeAlpha int runs safe) ∧ alpha ≤ 0) := by
    intro alpha
    rw [hmax, le_safeMax_iff, List.eq_nil_iff_forall_not_mem]
    simp only [hsafe]
  unfold SoundUpTo OutcomesOrdered
  constructor
  · intro hsound alpha stats hrun hfailed
    have habove : ¬alpha ≤ entry.safeAlphaMax := fun hle => by
      rw [hsound alpha stats hrun hle] at hfailed
      cases hfailed
    rw [hcovers, not_or] at habove
    constructor
    · intro safe hsafe
      exact not_le.mp fun hle => habove.1 ⟨safe, hsafe, hle⟩
    · intro hnone
      exact not_le.mp fun hle => habove.2 ⟨hnone, hle⟩
  · intro hordered alpha stats hrun hle
    by_contra hfailed
    obtain ⟨hsafes, hpositive⟩ := hordered alpha stats hrun (Bool.not_eq_true _ ▸ hfailed)
    rcases (hcovers alpha).mp hle with ⟨safe, hsafe, hle⟩ | ⟨hnone, hle⟩
    · exact absurd (hsafes safe hsafe) (not_lt.mpr hle)
    · exact absurd (hpositive hnone) (not_lt.mpr hle)

/-- The smaller of two alphas passed. -/
def orderedRuns : Dict String RunStats :=
  (Dict.empty.set "attention_a6" ⟨["joins_002"], ["joins_007"], true⟩).set
    "attention_a4" ⟨[], [], false⟩

def orderedEntry : AttentionEntry ℚ :=
  ⟨"CONDITIONAL_LOW", 4, [4, 6], some 6, "ALLOW_ALPHA_LE_4", 0, 0, 0, false⟩

theorem attentionEntry_sound_ordered :
    SoundUpTo readInt orderedRuns orderedEntry.safeAlphaMax ↔
      OutcomesOrdered readInt orderedRuns := by
  have hreport : moduleRiskReport readInt orderedRuns = .ok ⟨some orderedEntry, none, none⟩ := by
    decide +kernel
  exact attentionEntry_sound_iff hreport rfl

/-- The larger of two alphas passed. -/
def lateRuns : Dict String RunStats :=
  (Dict.empty.set "attention_a2" ⟨[], ["joins_007"], false⟩).set "attention_a4" ⟨[], [], false⟩

/-- The alpha two broke a case, and alphas up to four are allowed. -/
theorem not_sound_late :
    moduleRiskReport (S := ℚ) readInt lateRuns =
        .ok ⟨some ⟨"CONDITIONAL_LOW", 4, [2, 4], some 2, "ALLOW_ALPHA_LE_4", 0, 0, 0, false⟩,
          none, none⟩ ∧
      ¬SoundUpTo readInt lateRuns 4 := by
  refine ⟨by decide +kernel, fun h => ?_⟩
  have hpassed := h 2 ⟨[], ["joins_007"], false⟩ ⟨"attention_a2", by decide, by decide +kernel⟩
    (by decide)
  exact absurd hpassed (by decide)

end ModuleRisk
