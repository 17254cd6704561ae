/-
Ridge regression over an ordered field.

The cost of a matrix `V` is the squared distance of `X * V` from `Y` and `α`
times the squared norm of `V`.

* `ridge_det_ne_zero` — the normal equations have one solution;
* `cost_eq` — how far the cost of any matrix is from that of the solution;
* `eq_of_cost_le` — no other matrix costs as little;
* `sqNorm_residual_eq_iff` — when the solution explains nothing.
-/
import NeuralScalpel.Frobenius
import Mathlib.LinearAlgebra.Matrix.ToLinearEquiv
import Mathlib.Tactic.Abel
import Mathlib.Tactic.LinearCombination

namespace Ridge

open Frobenius Matrix

variable {m d k : Type} [Fintype m] [Fintype d] [Fintype k] {K : Type}

section Ring

variable [CommRing K]

/-- What a matrix of coefficients costs. -/
def cost (X : Matrix m d K) (Y : Matrix m k K) (α : K) (V : Matrix d k K) : K :=
  sqNorm (X * V - Y) + α * sqNorm V

/-- The matrix solves the normal equations. -/
def Solves [DecidableEq d] (X : Matrix m d K) (Y : Matrix m k K) (α : K) (W : Matrix d k K) :
    Prop :=
  (Xᵀ * X + α • (1 : Matrix d d K)) * W = Xᵀ * Y

variable [DecidableEq d] {X : Matrix m d K} {Y : Matrix m k K} {α : K} {W : Matrix d k K}

/-- At the solution the residual and the penalty balance in every direction. -/
theorem innerProd_balance (h : Solves X Y α W) (D : Matrix d k K) :
    innerProd (X * W - Y) (X * D) + α * innerProd W D = 0 := by
  have hnormal : Xᵀ * (X * W - Y) + α • W = 0 := by
    rw [Matrix.mul_sub, ← Matrix.mul_assoc, sub_add_eq_add_sub, sub_eq_zero, ← h, Matrix.add_mul,
      Matrix.smul_mul, Matrix.one_mul]
  rw [innerProd_comm, innerProd_mul_left, innerProd_comm W, ← innerProd_smul_right,
    innerProd_comm D, innerProd_comm D, ← innerProd_add_left, hnormal, innerProd_comm,
    innerProd_zero_right]

/-- The cost of any matrix, from the solution. -/
theorem cost_eq (h : Solves X Y α W) (V : Matrix d k K) :
    cost X Y α V = cost X Y α W + (sqNorm (X * (V - W)) + α * sqNorm (V - W)) := by
  have hfit : X * V - Y = X * W - Y + X * (V - W) := by
    rw [Matrix.mul_sub]
    abel
  have hsum : V = W + (V - W) := (add_sub_cancel W V).symm
  have hbalance := innerProd_balance h (V - W)
  unfold cost
  rw [hfit, sqNorm_add, congrArg sqNorm hsum, sqNorm_add]
  linear_combination hbalance + hbalance

end Ring

section Order

variable [Field K] [LinearOrder K] [IsStrictOrderedRing K] [DecidableEq d]
variable {X : Matrix m d K} {Y : Matrix m k K} {α : K} {W : Matrix d k K}

/-- No matrix costs less than the solution. -/
theorem cost_le (h : Solves X Y α W) (hα : 0 < α) (V : Matrix d k K) :
    cost X Y α W ≤ cost X Y α V := by
  rw [cost_eq h V]
  exact le_add_of_nonneg_right
    (add_nonneg (sqNorm_nonneg _) (mul_nonneg hα.le (sqNorm_nonneg _)))

/-- No other matrix costs as little. -/
theorem eq_of_cost_le (h : Solves X Y α W) (hα : 0 < α) {V : Matrix d k K}
    (hV : cost X Y α V ≤ cost X Y α W) : V = W := by
  rw [cost_eq h V] at hV
  have hfit := sqNorm_nonneg (X * (V - W))
  have hpenalty := mul_nonneg hα.le (sqNorm_nonneg (V - W))
  have hzero : α * sqNorm (V - W) = 0 := le_antisymm (by linarith) hpenalty
  exact sub_eq_zero.mp (sqNorm_eq_zero_iff.mp ((mul_eq_zero.mp hzero).resolve_left hα.ne'))

/-- With a penalty the normal equations can be solved, and in one way only. -/
theorem ridge_det_ne_zero (X : Matrix m d K) (hα : 0 < α) :
    (Xᵀ * X + α • (1 : Matrix d d K)).det ≠ 0 := by
  intro hdet
  obtain ⟨v, hv, hzero⟩ := exists_mulVec_eq_zero_iff.mpr hdet
  -- a vector in the kernel would be a second solution for no outputs
  have hcol : Solves X (0 : Matrix m Unit K) α (fun i _ => v i) := by
    unfold Solves
    rw [Matrix.mul_zero]
    ext i
    exact congrFun hzero i
  have hnone : Solves X (0 : Matrix m Unit K) α 0 := by
    rw [Solves, Matrix.mul_zero, Matrix.mul_zero]
  have heq := eq_of_cost_le hnone hα (cost_le hcol hα 0)
  exact hv (funext fun i => congrFun (congrFun heq i) ())

/-- What the solution explains, with its penalty, is what it takes away. -/
theorem sqNorm_eq (h : Solves X Y α W) :
    sqNorm Y = sqNorm (X * W - Y) + (sqNorm (X * W) + (α * sqNorm W + α * sqNorm W)) := by
  have hzero : sqNorm (0 : Matrix d k K) = 0 := innerProd_zero_right 0
  have hcost := cost_eq h 0
  unfold cost at hcost
  rw [Matrix.mul_zero, zero_sub, zero_sub, hzero, Matrix.mul_neg, sqNorm_neg, sqNorm_neg,
    sqNorm_neg] at hcost
  linear_combination hcost

/-- The solution leaves no more than there was. -/
theorem sqNorm_residual_le (h : Solves X Y α W) (hα : 0 < α) :
    sqNorm (X * W - Y) ≤ sqNorm Y := by
  have hpenalty := mul_nonneg hα.le (sqNorm_nonneg W)
  rw [sqNorm_eq h]
  exact le_add_of_nonneg_right (add_nonneg (sqNorm_nonneg _) (add_nonneg hpenalty hpenalty))

/-- It leaves everything only if the inputs say nothing about the outputs. -/
theorem sqNorm_residual_eq_iff (h : Solves X Y α W) (hα : 0 < α) :
    sqNorm (X * W - Y) = sqNorm Y ↔ Xᵀ * Y = 0 := by
  have hpenalty := mul_nonneg hα.le (sqNorm_nonneg W)
  have hfit := sqNorm_nonneg (X * W)
  have hsplit := sqNorm_eq h
  constructor
  · intro heq
    have hzero : α * sqNorm W = 0 := le_antisymm (by linarith) hpenalty
    have hW : W = 0 := sqNorm_eq_zero_iff.mp ((mul_eq_zero.mp hzero).resolve_left hα.ne')
    rw [← h, hW, Matrix.mul_zero]
  · intro hXY
    have hW : W = 0 := by
      refine eq_of_cost_le (V := W) (W := 0) ?_ hα (cost_le h hα 0)
      rw [Solves, Matrix.mul_zero, hXY]
    rw [hW, Matrix.mul_zero, zero_sub, sqNorm_neg]

end Order

end Ridge
