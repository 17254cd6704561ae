/-
What the rounds of the transport plan converge to.

A round solves for the row duals and then for the column duals.  The columns
of the plan are exact after every round, and the logarithm of a sum of
exponentials moves no further than its arguments, so the rows never get worse.

* `residual_round_le` — a round after the first does not increase the residual;
* `sinkhornLoop_eq` — the loop runs some number of rounds, and stops early only
  below the threshold;
* `sinkhornKnopp_plan` — the returned plan is positive with exact columns, and
  no earlier plan is better;
* `soft_plan` — in soft mode the fallback is never taken.

The laws of `exp` and `log` are hypotheses.
-/
import NeuralScalpel.Effect
import NeuralScalpel.WassersteinRouting
import Mathlib.Analysis.SpecialFunctions.Log.Basic

namespace WassersteinRouting

/-- The laws of the exponential and the logarithm. -/
structure ExpLog {K : Type} [Field K] [LinearOrder K] (math : RoutingMath K) : Prop where
  exp_pos : ∀ x, 0 < math.exp x
  exp_add : ∀ x y, math.exp (x + y) = math.exp x * math.exp y
  exp_le : ∀ {x y}, x ≤ y → math.exp x ≤ math.exp y
  log_exp : ∀ x, math.log (math.exp x) = x
  exp_log : ∀ {x}, 0 < x → math.exp (math.log x) = x

section

variable {K : Type} [Field K] [LinearOrder K] [IsStrictOrderedRing K] {math : RoutingMath K}

/-! ### The logarithm of a sum of exponentials -/

namespace ExpLog

section

omit [IsStrictOrderedRing K]

variable (h : ExpLog math)
include h

theorem log_le {x y : K} (hx : 0 < x) (hxy : x ≤ y) : math.log x ≤ math.log y := by
  by_contra hlt
  have hexp := h.exp_le (not_le.mp hlt).le
  rw [h.exp_log (hx.trans_le hxy), h.exp_log hx] at hexp
  exact hlt (le_of_eq (congrArg math.log (le_antisymm hxy hexp)))

theorem exp_zero : math.exp 0 = 1 := by
  have hadd := h.exp_add 0 0
  rw [add_zero] at hadd
  exact mul_left_cancel₀ (h.exp_pos 0).ne' (hadd.symm.trans (mul_one _).symm)

theorem log_mul_exp {x : K} (hx : 0 < x) (c : K) :
    math.log (x * math.exp c) = math.log x + c := by
  rw [← h.log_exp (math.log x + c), h.exp_add, h.exp_log hx]

end

variable (h : ExpLog math) {n : ℕ} (hn : 0 < n)
include h hn

theorem sum_exp_pos (x : Fin n → K) : 0 < ∑ i, math.exp (x i) :=
  Finset.sum_pos (fun i _ => h.exp_pos (x i)) ⟨⟨0, hn⟩, Finset.mem_univ _⟩

theorem exp_logSumExp (x : Fin n → K) :
    math.exp (logSumExp math x) = ∑ i, math.exp (x i) := h.exp_log (h.sum_exp_pos hn x)

/-- A shift of all arguments is a shift of the value. -/
theorem logSumExp_add_const (x : Fin n → K) (c : K) :
    (logSumExp math fun i => x i + c) = logSumExp math x + c := by
  unfold logSumExp
  simp only [h.exp_add]
  rw [← Finset.sum_mul, h.log_mul_exp (h.sum_exp_pos hn x)]

theorem logSumExp_le {x y : Fin n → K} (hxy : ∀ i, x i ≤ y i) :
    logSumExp math x ≤ logSumExp math y :=
  h.log_le (h.sum_exp_pos hn x) (Finset.sum_le_sum fun i _ => h.exp_le (hxy i))

/-- The value moves no further than the arguments. -/
theorem abs_logSumExp_sub_le {x y : Fin n → K} {c : K} (hxy : ∀ i, |x i - y i| ≤ c) :
    |logSumExp math x - logSumExp math y| ≤ c := by
  have hle : ∀ {x y : Fin n → K}, (∀ i, |x i - y i| ≤ c) →
      logSumExp math x ≤ logSumExp math y + c := by
    intro x y hxy
    rw [← h.logSumExp_add_const hn]
    exact h.logSumExp_le hn fun i => by linarith [(abs_le.mp (hxy i)).2]
  have hleft := hle hxy
  have hright := hle fun i => (abs_sub_comm (y i) (x i)).trans_le (hxy i)
  exact abs_le.mpr ⟨by linarith, by linarith⟩

end ExpLog

/-! ### The greatest absolute value -/

omit [IsStrictOrderedRing K] in
theorem abs_le_maxAbs {n : ℕ} (x : Fin n → K) (i : Fin n) : |x i| ≤ maxAbs x := by
  have hmem : |x i| ∈ (List.finRange n).map fun i => |x i| :=
    List.mem_map_of_mem (List.mem_finRange i)
  unfold maxAbs
  rcases hmax : ((List.finRange n).map fun i => |x i|).max? with _ | top
  · rw [List.max?_eq_none_iff.mp hmax] at hmem
    exact absurd hmem List.not_mem_nil
  · exact (List.max?_eq_some_iff.mp hmax).2 _ hmem

omit [IsStrictOrderedRing K] in
theorem maxAbs_le {n : ℕ} {x : Fin n → K} {c : K} (hc : 0 ≤ c) (h : ∀ i, |x i| ≤ c) :
    maxAbs x ≤ c := by
  unfold maxAbs
  rcases hmax : ((List.finRange n).map fun i => |x i|).max? with _ | top
  · exact hc
  · obtain ⟨i, -, hi⟩ := List.mem_map.mp (List.max?_eq_some_iff.mp hmax).1
    exact hi ▸ h i

theorem maxAbs_nonneg {n : ℕ} (x : Fin n → K) : 0 ≤ maxAbs x := by
  rcases Nat.eq_zero_or_pos n with rfl | hn
  · exact le_refl 0
  · exact le_trans (abs_nonneg _) (abs_le_maxAbs x ⟨0, hn⟩)

/-! ### One round -/

section Round

variable {S T : ℕ} (kLog : HeadMatrix K S T)

/-- The column marginals of the plan after a round, as logarithms. -/
theorem logSumExp_col (h : ExpLog math) (hS : 0 < S) (duals : Duals K S T) (j : Fin T) :
    (logSumExp math fun i => logPlan kLog (sinkhornRound math kLog duals) i j) = -math.log T := by
  set next := sinkhornRound math kLog duals with hnext
  have hplan : (fun i => logPlan kLog next i j) =
      fun i => (kLog i j + next.logU i) + next.logV j := by
    funext i
    show next.logU i + kLog i j + next.logV j = _
    ring
  rw [hplan, h.logSumExp_add_const hS]
  show (logSumExp math fun i => kLog i j + next.logU i) +
    (-math.log T - logSumExp math fun i => kLog i j + next.logU i) = _
  ring

/-- The row marginals are off by what the next round changes the row duals. -/
theorem logSumExp_row (h : ExpLog math) (hT : 0 < T) (duals : Duals K S T) (i : Fin S) :
    (logSumExp math fun j => logPlan kLog duals i j) - -math.log S =
      duals.logU i - (sinkhornRound math kLog duals).logU i := by
  have hplan : (fun j => logPlan kLog duals i j) =
      fun j => (kLog i j + duals.logV j) + duals.logU i := by
    funext j
    show duals.logU i + kLog i j + duals.logV j = _
    ring
  rw [hplan, h.logSumExp_add_const hT]
  show _ = duals.logU i - (-math.log S - logSumExp math fun j => kLog i j + duals.logV j)
  ring

/-- After a round only the rows are off. -/
theorem residual_round (h : ExpLog math) (hS : 0 < S) (hT : 0 < T) (duals : Duals K S T) :
    let next := sinkhornRound math kLog duals
    residual math kLog next =
      maxAbs fun i => next.logU i - (sinkhornRound math kLog next).logU i := by
  intro next
  have hcols : (maxAbs fun j => (logSumExp math fun i => logPlan kLog next i j) - -math.log T) ≤
      0 := by
    refine maxAbs_le (le_refl 0) fun j => ?_
    rw [logSumExp_col kLog h hS, sub_self, abs_zero]
  unfold residual
  simp only [logSumExp_row kLog h hT]
  exact max_eq_left (hcols.trans (maxAbs_nonneg _))

/-- A round after the first does not increase the residual. -/
theorem residual_round_le (h : ExpLog math) (hS : 0 < S) (hT : 0 < T) (duals : Duals K S T) :
    let next := sinkhornRound math kLog duals
    residual math kLog (sinkhornRound math kLog next) ≤ residual math kLog next := by
  intro next
  rw [residual_round kLog h hS hT duals, residual_round kLog h hS hT next]
  set second := sinkhornRound math kLog next
  -- the column duals move no further than the row duals, and these no further than before
  have hV : ∀ j, |next.logV j - second.logV j| ≤
      maxAbs fun i => next.logU i - second.logU i := by
    intro j
    show |-math.log T - (logSumExp math fun i => kLog i j + next.logU i) -
      (-math.log T - logSumExp math fun i => kLog i j + second.logU i)| ≤ _
    rw [sub_sub_sub_cancel_left]
    refine h.abs_logSumExp_sub_le hS fun i => ?_
    rw [add_sub_add_left_eq_sub, abs_sub_comm]
    exact abs_le_maxAbs (fun i => next.logU i - second.logU i) i
  refine maxAbs_le (maxAbs_nonneg _) fun i => ?_
  show |-math.log S - (logSumExp math fun j => kLog i j + next.logV j) -
    (-math.log S - logSumExp math fun j => kLog i j + second.logV j)| ≤ _
  rw [sub_sub_sub_cancel_left]
  refine h.abs_logSumExp_sub_le hT fun j => ?_
  rw [add_sub_add_left_eq_sub, abs_sub_comm]
  exact hV j

/-! ### All rounds -/

/-- The duals after so many rounds. -/
def rounds (math : RoutingMath K) (n : ℕ) : Duals K S T :=
  (sinkhornRound math kLog)^[n] ⟨fun _ => 0, fun _ => 0⟩

omit [LinearOrder K] [IsStrictOrderedRing K] in
theorem rounds_succ (math : RoutingMath K) (n : ℕ) :
    rounds kLog math (n + 1) = sinkhornRound math kLog (rounds kLog math n) :=
  Function.iterate_succ_apply' _ _ _

/-- No round is worse than an earlier one. -/
theorem residual_rounds_le (h : ExpLog math) (hS : 0 < S) (hT : 0 < T) {m n : ℕ} (hm : 0 < m)
    (hmn : m ≤ n) :
    residual math kLog (rounds kLog math n) ≤ residual math kLog (rounds kLog math m) := by
  induction n, hmn using Nat.le_induction with
  | base => exact le_refl _
  | succ n hmn ih =>
    obtain ⟨k, rfl⟩ := Nat.exists_eq_succ_of_ne_zero (hm.trans_le hmn).ne'
    refine le_trans ?_ ih
    rw [rounds_succ, rounds_succ]
    exact residual_round_le kLog h hS hT (rounds kLog math k)

omit [IsStrictOrderedRing K] in
/-- The loop runs some of the rounds it may, at least one, and not all of them
only below the threshold. -/
theorem sinkhornLoop_eq (math : RoutingMath K) (stopThr : K) : ∀ remaining i done : ℕ,
    ∃ k ≤ remaining,
      sinkhornLoop math kLog stopThr remaining i (rounds kLog math done) =
        rounds kLog math (done + k) ∧
      (0 < remaining → 0 < k) ∧
      (k = remaining ∨ residual math kLog (rounds kLog math (done + k)) < stopThr)
  | 0, _, _ => ⟨0, le_refl 0, rfl, id, Or.inl rfl⟩
  | remaining + 1, i, done => by
    unfold sinkhornLoop
    rw [← rounds_succ]
    by_cases hstop : i % 10 = 0 ∧ residual math kLog (rounds kLog math (done + 1)) < stopThr
    · rw [if_pos hstop]
      exact ⟨1, Nat.le_add_left 1 _, rfl, fun _ => Nat.one_pos, Or.inr hstop.2⟩
    · rw [if_neg hstop]
      obtain ⟨k, hk, hloop, -, hlast⟩ := sinkhornLoop_eq math stopThr remaining (i + 1) (done + 1)
      refine ⟨k + 1, Nat.succ_le_succ hk, ?_, fun _ => Nat.succ_pos k, ?_⟩
      · rw [hloop, Nat.add_assoc, Nat.add_comm 1]
      · rw [Nat.add_assoc, Nat.add_comm 1] at hlast
        exact hlast.imp (congrArg (· + 1)) id

end Round

/-! ### The plan -/

section Plan

variable {S T : ℕ}

def rowSum (M : HeadMatrix K S T) (i : Fin S) : K := ∑ j, M i j

omit [IsStrictOrderedRing K] in
/-- The returned plan is that of some round. -/
theorem sinkhornKnopp_eq_ok {C P : HeadMatrix K S T} {epsilon stopThr : K} {nIter : ℕ}
    (hP : sinkhornKnopp math C epsilon nIter stopThr = .ok P) :
    let kLog : HeadMatrix K S T := fun i j => -C i j / epsilon
    ∃ k ≤ nIter, (0 < nIter → 0 < k) ∧
      (k = nIter ∨ residual math kLog (rounds kLog math k) < stopThr) ∧
      P = fun i j => math.exp (logPlan kLog (rounds kLog math k) i j) := by
  intro kLog
  unfold sinkhornKnopp at hP
  split at hP
  · cases hP
  obtain ⟨k, hk, hloop, hpos, hlast⟩ := sinkhornLoop_eq kLog math stopThr nIter 0 0
  rw [Nat.zero_add] at hloop hlast
  refine ⟨k, hk, hpos, hlast, ?_⟩
  rw [← hloop]
  exact (Except.ok.inj hP).symm

/-- The columns of the plan are exact after every round. -/
theorem colSum_rounds (h : ExpLog math) (hS : 0 < S) (hT : 0 < T) (kLog : HeadMatrix K S T)
    {k : ℕ} (hk : 0 < k) (j : Fin T) :
    colSum (fun i j => math.exp (logPlan kLog (rounds kLog math k) i j)) j = 1 / T := by
  obtain ⟨m, rfl⟩ := Nat.exists_eq_succ_of_ne_zero hk.ne'
  have hsum := h.exp_logSumExp hS fun i => logPlan kLog (rounds kLog math (m + 1)) i j
  rw [rounds_succ, logSumExp_col kLog h hS, ← rounds_succ] at hsum
  have hT' : (0 : K) < T := Nat.cast_pos.mpr hT
  have hone := h.exp_add (-math.log T) (math.log T)
  rw [neg_add_cancel, h.exp_zero, h.exp_log hT'] at hone
  exact hsum.symm.trans (eq_div_of_mul_eq hT'.ne' hone.symm)

/-- The plan is positive, its columns are exact, its rows are off by no more
than after any earlier round, and by less than the threshold if rounds were
saved. -/
theorem sinkhornKnopp_plan (h : ExpLog math) (hS : 0 < S) (hT : 0 < T) {C P : HeadMatrix K S T}
    {epsilon stopThr : K} {nIter : ℕ} (hiter : 0 < nIter)
    (hP : sinkhornKnopp math C epsilon nIter stopThr = .ok P) :
    (∀ i j, 0 < P i j) ∧ (∀ j, colSum P j = 1 / T) ∧
      let kLog : HeadMatrix K S T := fun i j => -C i j / epsilon
      ∃ k, 0 < k ∧ k ≤ nIter ∧
        (P = fun i j => math.exp (logPlan kLog (rounds kLog math k) i j)) ∧
        (∀ i m, 0 < m → m ≤ k → |math.log (rowSum P i) - -math.log S| ≤
          residual math kLog (rounds kLog math m)) ∧
        (k = nIter ∨ ∀ i, |math.log (rowSum P i) - -math.log S| < stopThr) := by
  obtain ⟨k, hk, hpos, hlast, rfl⟩ := sinkhornKnopp_eq_ok hP
  set kLog : HeadMatrix K S T := fun i j => -C i j / epsilon with hkLog
  have hk0 := hpos hiter
  have hrow : ∀ i, |math.log (rowSum (fun i j => math.exp (logPlan kLog (rounds kLog math k) i j))
      i) - -math.log S| ≤ residual math kLog (rounds kLog math k) := fun i =>
    le_trans (abs_le_maxAbs (fun i =>
      (logSumExp math fun j => logPlan kLog (rounds kLog math k) i j) - -math.log S) i)
      (le_max_left _ _)
  refine ⟨fun i j => h.exp_pos _, colSum_rounds h hS hT kLog hk0, k, hk0, hk, rfl,
    fun i m hm hmk => ?_, ?_⟩
  · exact (hrow i).trans (residual_rounds_le kLog h hS hT hm hmk)
  · exact hlast.imp id fun hstop i => (hrow i).trans_lt hstop

/-- In soft mode the fallback is never taken: the plan itself is normalised,
and by a factor known beforehand. -/
theorem soft_plan (h : ExpLog math) {source target : AttentionHeads K} {epsilon alpha : K}
    (hheads : target.heads < 2 ^ 126) {returnDiagnostics : Bool}
    {R : HeadMatrix K source.heads target.heads} {diagnostics : Option (RoutingDiagnostics K)}
    (hR : wassersteinDiscreteRouting math source target epsilon alpha "soft" returnDiagnostics =
      .ok (R, diagnostics)) :
    (diagnostics = if returnDiagnostics then some ⟨false, epsilon, "soft"⟩ else none) ∧
      ∃ C P, costMatrix source target = .ok C ∧ sinkhornKnopp math C epsilon = .ok P ∧
        fallbackUsed P = false ∧ ∀ i j, R i j = target.heads * P i j ∧ colSum R j = 1 := by
  unfold wassersteinDiscreteRouting at hR
  rw [if_neg (by decide)] at hR
  obtain ⟨C, hC, hR⟩ := Effect.bind_eq_ok.mp hR
  obtain ⟨P, hP, hR⟩ := Effect.bind_eq_ok.mp hR
  rw [if_pos rfl] at hR
  obtain ⟨hRouting, hdiag⟩ := Prod.mk.inj (Except.ok.inj hR)
  have hnumel : 0 < numel source ∧ 0 < numel target := by
    unfold costMatrix at hC
    split at hC
    · cases hC
    · rename_i hne
      omega
  have hS := heads_pos hnumel.1
  have hT := heads_pos hnumel.2
  have hcol : ∀ j, colSum P j = 1 / target.heads := by
    obtain ⟨k, -, hpos, -, rfl⟩ := sinkhornKnopp_eq_ok hP
    exact colSum_rounds h hS hT _ (hpos (by decide))
  have hT' : (0 : K) < target.heads := Nat.cast_pos.mpr hT
  have hlarge : (tiny : K) < 1 / target.heads := by
    have hone : (tiny : K) * ((2 ^ 126 : ℕ) : K) = 1 := by
      rw [tiny, Nat.cast_pow, ← mul_pow]
      norm_num
    rw [lt_div_iff₀ hT', ← hone]
    exact mul_lt_mul_of_pos_left (Nat.cast_lt.mpr hheads) (by unfold tiny; positivity)
  have hfallback : fallbackUsed P = false := by
    refine decide_eq_false fun ⟨j, hj⟩ => ?_
    rw [hcol] at hj
    exact absurd hlarge (not_lt.mpr hj)
  have hentry : ∀ i j, R i j = target.heads * P i j := by
    intro i j
    rw [← hRouting, softRouting, hfallback, if_neg Bool.false_ne_true]
    show P i j / max (colSum P j) tiny = _
    rw [hcol, max_eq_left hlarge.le, div_div_eq_mul_div, div_one, mul_comm]
  refine ⟨?_, C, P, hC, hP, hfallback, fun i j => ⟨hentry i j, ?_⟩⟩
  · rw [← hdiag, hfallback]
  · show ∑ i, R i j = 1
    simp only [hentry]
    rw [← Finset.mul_sum]
    show target.heads * colSum P j = 1
    rw [hcol, mul_one_div_cancel hT'.ne']

noncomputable def realMath : RoutingMath ℝ := ⟨Real.exp, Real.log⟩

theorem expLog_real : ExpLog realMath where
  exp_pos := Real.exp_pos
  exp_add := Real.exp_add
  exp_le := Real.exp_le_exp.mpr
  log_exp := Real.log_exp
  exp_log := Real.exp_log

theorem two_heads_plan : ∃ P, sinkhornKnopp realMath (fun i j => if i = j then 0 else 1 :
    HeadMatrix ℝ 2 2) 1 100 1e-9 = .ok P ∧ ∀ j, colSum P j = 1 / (2 : ℕ) := by
  obtain ⟨P, hP⟩ : ∃ P, sinkhornKnopp realMath (fun i j => if i = j then 0 else 1 :
      HeadMatrix ℝ 2 2) 1 100 1e-9 = .ok P := ⟨_, if_neg (not_le.mpr one_pos)⟩
  exact ⟨P, hP, (sinkhornKnopp_plan expLog_real Nat.two_pos Nat.two_pos (by decide) hP).2.1⟩

/-- Two heads, in two samples. -/
def twoHeads : AttentionHeads ℝ := ⟨2, 2, 1, fun i h _ => i + h⟩

theorem twoHeads_soft : ∃ R, wassersteinDiscreteRouting realMath twoHeads twoHeads 1 1 "soft" true =
    .ok (R, some ⟨false, 1, "soft"⟩) ∧ ∀ j, colSum R j = 1 := by
  obtain ⟨C, hC⟩ : ∃ C, costMatrix twoHeads twoHeads = .ok C :=
    costMatrix_returns (by decide) (by decide) rfl
  obtain ⟨P, hP⟩ : ∃ P, sinkhornKnopp realMath C 1 = .ok P := ⟨_, if_neg (not_le.mpr one_pos)⟩
  obtain ⟨R, diagnostics, hR⟩ : ∃ R diagnostics, wassersteinDiscreteRouting realMath twoHeads
      twoHeads 1 1 "soft" true = .ok (R, diagnostics) := by
    rw [wassersteinDiscreteRouting, if_neg (by decide), hC]
    show ∃ R diagnostics, (sinkhornKnopp realMath C 1 >>= _) = _
    rw [hP]
    exact ⟨_, _, rfl⟩
  obtain ⟨rfl, C', P', -, -, -, hplan⟩ := soft_plan expLog_real (by decide) hR
  exact ⟨R, hR, fun j => (hplan ⟨0, Nat.two_pos⟩ j).2⟩

end Plan

end

end WassersteinRouting
