/-
Recommended alphas.

A module has a budget for the norm of its delta, relative to the norm of the
target weight.  The recommender divides the budget by the ratio measured at
alpha one and clamps the quotient; the report scales the alpha in use in the
same way, and classifies modules by other names.

* `recommendAlpha`, `generateRecommendationReport` — the two;
* `recommendAlpha_mul_le_iff` — exactly when an alpha keeps the budget;
* `policies_agree_iff` — exactly when a name has one policy in both.
-/
import NeuralScalpel.Decimals
import NeuralScalpel.DictFill
import NeuralScalpel.FailurePolicy
import NeuralScalpel.LoraKeys
import NeuralScalpel.Rounding
import Mathlib.Algebra.Order.Field.Basic
import Mathlib.Tactic.Positivity

/-! ### The recommender -/

structure AlphaBudgets (S : Type) where
  attention : S
  mlp : S
  default : S

namespace AlphaRecommender

section

variable {S : Type} [Field S]

/-- The budgets of a target model size. -/
def budgetsFor (targetModelSize : String) : AlphaBudgets S :=
  if inKey "0.5B" targetModelSize then ⟨0.002, 0.00002, 0.001⟩ else ⟨0.001, 0.00001, 0.0005⟩

/-- The budget `recommend_alpha` gives a module; none for one kept at zero. -/
def recommendBudget (budgets : AlphaBudgets S) (moduleName : String) : Option S :=
  if anyInKey ["q_proj", "k_proj", "v_proj", "o_proj"] moduleName then some budgets.attention
  else if anyInKey ["gate_proj", "up_proj"] moduleName then some budgets.mlp
  else if inKey "down_proj" moduleName then none
  else some budgets.default

variable [LinearOrder S]

/-- Where alphas of a budget are clamped. -/
def clampRange (budgets : AlphaBudgets S) (budget : S) : S × S :=
  if budget = budgets.attention then (0.125, 16.0) else (0.01, 1.0)

def clamp (range : S × S) (alpha : S) : S := min (max alpha range.1) range.2

/-- `a / b`. -/
def divide (a b : S) : Except PyError S :=
  if b = 0 then .error (.external "ZeroDivisionError: float division by zero") else .ok (a / b)

/-- `recommend_alpha`. -/
def recommendAlpha (budgets : AlphaBudgets S) (moduleName : String) (rawDeltaNormRatio : S) :
    Except PyError S :=
  match recommendBudget budgets moduleName with
  | none => .ok 0
  | some budget => do
    let recAlpha ← divide budget (rawDeltaNormRatio + 1e-10)
    pure (clamp (clampRange budgets budget) recAlpha)

end

/-! ### The report -/

section

variable {S : Type} [Field S] [LinearOrder S]

/-- The budget the report takes for a module. -/
def reportBudget (budgets : AlphaBudgets S) (mType : String) : S :=
  if inKey "gate" mType || inKey "up" mType then budgets.mlp else budgets.attention

variable [FloorRing S]

/-- `round(x, 4)`. -/
def roundFour (x : S) : S := (roundHalfEven (x * ((10 : ℕ) : S) ^ 4) : S) / ((10 : ℕ) : S) ^ 4

/-- The alpha the report recommends for a module. -/
def reportAlpha (budgets : AlphaBudgets S) (currentAlphaMap : Dict String S) (mType : String)
    (stats : Dict String S) : Except PyError S :=
  match stats.get? "p90_norm_ratio" with
  | none => .error (.keyError "p90_norm_ratio")
  | some p90Ratio =>
    let currentAlpha := (currentAlphaMap.get? mType).getD 16.0
    let budget := reportBudget budgets mType
    if inKey "down_proj" mType then .ok 0
    else do
      let quotient ← divide budget (p90Ratio + 1e-10)
      pure (roundFour (clamp (clampRange budgets budget) (currentAlpha * quotient)))

/-- What the report writes under a name. -/
def reportEntry (budgets : AlphaBudgets S) (currentAlphaMap : Dict String S) (mType : String)
    (stats : Dict String S) : Except PyError (Option S) :=
  if mType = "_metadata" then .ok none
  else some <$> reportAlpha budgets currentAlphaMap mType stats

/-- `str` of a number that is not negative and has at most four decimals. -/
def floatText (x : S) : String :=
  String.ofList (decimalText 4 (roundHalfEven (x * ((10 : ℕ) : S) ^ 4)).toNat)

/-- `module=alpha`. -/
def itemText (entry : String × S) : String := entry.1 ++ "=" ++ floatText entry.2

/-- `alpha_map_str`. -/
def alphaMapText (recommendedMap : Dict String S) : String :=
  ",".intercalate (recommendedMap.entries.map itemText) ++
    if recommendedMap.contains "down_proj" then "" else ",down_proj=0.0"

/-- `generate_recommendation_report`. -/
def generateRecommendationReport (metricsSummary : Dict String (Dict String S))
    (currentAlphaMap : Dict String S) (targetModelSize : String) :
    Except PyError (Dict String S × String) := do
  let recommendedMap ← Dict.fill (reportEntry (budgetsFor targetModelSize) currentAlphaMap)
    metricsSummary.entries .empty
  pure (recommendedMap, alphaMapText recommendedMap)

end

/-! ### The budget is kept -/

section

variable {S : Type} [Field S] [LinearOrder S] [IsStrictOrderedRing S]

/-- A clamped alpha keeps a budget exactly when the least alpha does. -/
theorem clamp_mul_le_iff {lo hi budget ratio : S} (hhi : lo ≤ hi) (hbudget : 0 ≤ budget)
    (hratio : 0 ≤ ratio) :
    clamp (lo, hi) (budget / (ratio + 1e-10)) * ratio ≤ budget ↔ lo * ratio ≤ budget := by
  have htiny : (0 : S) < 1e-10 := by norm_num
  have hpos : 0 < ratio + 1e-10 := by linarith
  constructor
  · intro h
    have hle : lo ≤ clamp (lo, hi) (budget / (ratio + 1e-10)) := le_min (le_max_right _ _) hhi
    exact (mul_le_mul_of_nonneg_right hle hratio).trans h
  · intro h
    -- the quotient keeps the budget, and the alpha is at most it or the least one
    have hquotient : budget / (ratio + 1e-10) * ratio ≤ budget := by
      rw [div_mul_eq_mul_div, div_le_iff₀ hpos]
      exact mul_le_mul_of_nonneg_left (by linarith) hbudget
    have hle : clamp (lo, hi) (budget / (ratio + 1e-10)) ≤ max (budget / (ratio + 1e-10)) lo :=
      min_le_left _ _
    refine (mul_le_mul_of_nonneg_right hle hratio).trans ?_
    rw [max_mul_of_nonneg _ _ hratio]
    exact max_le hquotient h

omit [IsStrictOrderedRing S] in
theorem clampRange_cases (budgets : AlphaBudgets S) (budget : S) :
    clampRange budgets budget = (0.125, 16.0) ∨ clampRange budgets budget = (0.01, 1.0) := by
  unfold clampRange
  split_ifs
  · exact Or.inl rfl
  · exact Or.inr rfl

theorem clampRange_le (budgets : AlphaBudgets S) (budget : S) :
    (clampRange budgets budget).1 ≤ (clampRange budgets budget).2 := by
  rcases clampRange_cases budgets budget with h | h
  · rw [h]
    norm_num
  · rw [h]
    norm_num

theorem budgetsFor_nonneg (size name : String) {budget : S}
    (h : recommendBudget (budgetsFor size) name = some budget) : 0 ≤ budget := by
  have hall : (0 : S) ≤ (budgetsFor size).attention ∧ (0 : S) ≤ (budgetsFor size).mlp ∧
      (0 : S) ≤ (budgetsFor size).default := by
    unfold budgetsFor
    split_ifs <;> norm_num
  unfold recommendBudget at h
  split_ifs at h <;> cases h
  · exact hall.1
  · exact hall.2.1
  · exact hall.2.2

theorem recommendAlpha_of_some {budgets : AlphaBudgets S} {name : String} {budget ratio : S}
    (hbudget : recommendBudget budgets name = some budget) (hratio : 0 ≤ ratio) :
    recommendAlpha budgets name ratio =
      .ok (clamp (clampRange budgets budget) (budget / (ratio + 1e-10))) := by
  have htiny : (0 : S) < 1e-10 := by norm_num
  have hne : ratio + 1e-10 ≠ 0 := by linarith
  unfold recommendAlpha divide
  simp only [hbudget, if_neg hne]
  rfl

/-- An alpha keeps the budget of its module exactly when the least alpha of its
range does, and one of a module kept at zero always. -/
theorem recommendAlpha_mul_le_iff (size name : String) {ratio : S} (hratio : 0 ≤ ratio) :
    (∃ alpha, recommendAlpha (budgetsFor size) name ratio = .ok alpha ∧
        alpha * ratio ≤ (recommendBudget (budgetsFor size) name).getD 0) ↔
      ∀ budget, recommendBudget (budgetsFor size) name = some budget →
        (clampRange (budgetsFor size) budget).1 * ratio ≤ budget := by
  rcases hbudget : recommendBudget (budgetsFor size) name with _ | budget
  · refine iff_of_true ⟨0, ?_, ?_⟩ fun _ h => by cases h
    · unfold recommendAlpha
      rw [hbudget]
    · rw [zero_mul]
      exact le_rfl
  · rw [recommendAlpha_of_some hbudget hratio]
    simp only [Except.ok.injEq, exists_eq_left', Option.getD_some, Option.some_inj, forall_eq']
    exact clamp_mul_le_iff (clampRange_le _ _) (budgetsFor_nonneg size name hbudget) hratio

/-- The budgets of the small model. -/
def smallBudgets : AlphaBudgets ℚ := budgetsFor "0.5B"

theorem recommendAlpha_mul_le_qProj :
    (∃ alpha, recommendAlpha smallBudgets "q_proj" (1 / 2) = .ok alpha ∧
        alpha * (1 / 2) ≤ (recommendBudget smallBudgets "q_proj").getD 0) ↔
      ∀ budget, recommendBudget smallBudgets "q_proj" = some budget →
        (clampRange smallBudgets budget).1 * (1 / 2) ≤ budget :=
  recommendAlpha_mul_le_iff "0.5B" "q_proj" (by norm_num)

/-- At the ratio one half the least alpha of the attention range spends thirty
times the budget. -/
theorem recommendAlpha_exceeds :
    recommendBudget smallBudgets "q_proj" = some 0.002 ∧
      recommendAlpha smallBudgets "q_proj" (1 / 2) = .ok 0.125 ∧
      ¬(0.125 * (1 / 2) : ℚ) ≤ 0.002 := by
  decide +kernel

end

/-! ### One policy -/

section

variable {S : Type} [Field S] [LinearOrder S]

/-- The budget and the range of `recommend_alpha`; none for the zero policy. -/
def recommendPolicy (budgets : AlphaBudgets S) (name : String) : Option (S × S × S) :=
  (recommendBudget budgets name).map fun budget => (budget, clampRange budgets budget)

/-- The budget and the range of the report. -/
def reportPolicy (budgets : AlphaBudgets S) (name : String) : Option (S × S × S) :=
  if inKey "down_proj" name then none
  else some (reportBudget budgets name, clampRange budgets (reportBudget budgets name))

/-- A module name, as the two tests read it. -/
structure NameTests where
  attention : Bool
  mlp : Bool
  down : Bool
  gateOrUp : Bool

def nameTests (name : String) : NameTests where
  attention := anyInKey ["q_proj", "k_proj", "v_proj", "o_proj"] name
  mlp := anyInKey ["gate_proj", "up_proj"] name
  down := inKey "down_proj" name
  gateOrUp := inKey "gate" name || inKey "up" name

/-- The name is of one class in both tests. -/
def ClassifiedAlike (name : String) : Prop :=
  let tests := nameTests name
  (tests.attention = true ∧ tests.down = false ∧ tests.gateOrUp = false) ∨
    (tests.attention = false ∧ tests.mlp = true ∧ tests.down = false) ∨
      (tests.attention = false ∧ tests.mlp = false ∧ tests.down = true)

instance (name : String) : Decidable (ClassifiedAlike name) :=
  inferInstanceAs (Decidable (_ ∨ _))

/-- A gate or up projection mentions a gate or up. -/
theorem gateOrUp_of_mlp (name : String) (h : (nameTests name).mlp = true) :
    (nameTests name).gateOrUp = true := by
  obtain ⟨s, hs, hname⟩ := List.any_eq_true.mp h
  refine (Bool.or_eq_true _ _).mpr ?_
  rcases List.mem_pair.mp hs with rfl | rfl
  · exact Or.inl (inKey_of_longer ⟨"_proj".toList, by decide⟩ hname)
  · exact Or.inr (inKey_of_longer ⟨"_proj".toList, by decide⟩ hname)

/-- The recommender follows its policy. -/
theorem recommendAlpha_eq (budgets : AlphaBudgets S) (name : String) (ratio : S) :
    recommendAlpha budgets name ratio =
      match recommendPolicy budgets name with
      | none => .ok 0
      | some (budget, range) => clamp range <$> divide budget (ratio + 1e-10) := by
  unfold recommendAlpha recommendPolicy
  rcases recommendBudget budgets name with _ | budget
  · rfl
  · exact bind_pure_comp (clamp (clampRange budgets budget)) (divide budget (ratio + 1e-10))

/-- The report follows its policy. -/
theorem reportAlpha_eq [FloorRing S] (budgets : AlphaBudgets S) (alphas : Dict String S)
    {name : String} {stats : Dict String S} {ratio : S}
    (hratio : stats.get? "p90_norm_ratio" = some ratio) :
    reportAlpha budgets alphas name stats =
      match reportPolicy budgets name with
      | none => .ok 0
      | some (budget, range) =>
        (fun quotient => roundFour (clamp range ((alphas.get? name).getD 16.0 * quotient))) <$>
          divide budget (ratio + 1e-10) := by
  unfold reportAlpha reportPolicy
  simp only [hratio]
  split_ifs
  · rfl
  · exact bind_pure_comp _ (divide (reportBudget budgets name) (ratio + 1e-10))

/-- The tests decide both policies. -/
theorem recommendPolicy_eq (budgets : AlphaBudgets S) (name : String) :
    recommendPolicy budgets name =
      if (nameTests name).attention then some (budgets.attention, (0.125, 16.0))
      else if (nameTests name).mlp then some (budgets.mlp, clampRange budgets budgets.mlp)
      else if (nameTests name).down then none
      else some (budgets.default, clampRange budgets budgets.default) := by
  unfold recommendPolicy recommendBudget nameTests
  split_ifs
  · exact congrArg (fun range => some (budgets.attention, range)) (if_pos rfl)
  · rfl
  · rfl
  · rfl

theorem reportPolicy_eq (budgets : AlphaBudgets S) (name : String) :
    reportPolicy budgets name =
      if (nameTests name).down then none
      else if (nameTests name).gateOrUp then some (budgets.mlp, clampRange budgets budgets.mlp)
      else some (budgets.attention, (0.125, 16.0)) := by
  unfold reportPolicy reportBudget nameTests
  split_ifs
  · rfl
  · rfl
  · exact congrArg (fun range => some (budgets.attention, range)) (if_pos rfl)

variable [IsStrictOrderedRing S]

theorem budgetsFor_distinct (size : String) :
    (budgetsFor size : AlphaBudgets S).attention ≠ (budgetsFor size).mlp ∧
      (budgetsFor size : AlphaBudgets S).attention ≠ (budgetsFor size).default ∧
      (budgetsFor size : AlphaBudgets S).mlp ≠ (budgetsFor size).default := by
  unfold budgetsFor
  split_ifs <;> norm_num

/-- A name has one policy in both exactly when it is of one class in both. -/
theorem policies_agree_iff (size name : String) :
    recommendPolicy (budgetsFor size : AlphaBudgets S) name =
        reportPolicy (budgetsFor size) name ↔ ClassifiedAlike name := by
  obtain ⟨hmlp, hdefault, hother⟩ := budgetsFor_distinct (S := S) size
  have hgate := gateOrUp_of_mlp name
  rw [recommendPolicy_eq, reportPolicy_eq]
  unfold ClassifiedAlike
  revert hgate
  rcases nameTests name with ⟨attention, mlp, down, gateOrUp⟩
  intro hgate
  -- the budgets differ, so they tell the classes apart
  cases attention with
  | true => cases down <;> cases gateOrUp <;> simp [hmlp]
  | false =>
    cases mlp with
    | true =>
      obtain rfl : gateOrUp = true := hgate rfl
      cases down <;> simp
    | false => cases down <;> cases gateOrUp <;> simp [hdefault.symm, hother.symm]

theorem policies_agree_qProj :
    recommendPolicy smallBudgets "q_proj" = reportPolicy smallBudgets "q_proj" ↔
      ClassifiedAlike "q_proj" :=
  policies_agree_iff "0.5B" "q_proj"

/-- An output head has the default budget in the recommender and the attention
budget in the report. -/
theorem policies_differ_lmHead :
    recommendPolicy smallBudgets "lm_head" = some (0.001, (0.01, 1.0)) ∧
      reportPolicy smallBudgets "lm_head" = some (0.002, (0.125, 16.0)) ∧
      recommendPolicy smallBudgets "lm_head" ≠ reportPolicy smallBudgets "lm_head" := by
  decide +kernel

end

end AlphaRecommender
