/-
Approximation by matrices of low rank.

Cutting a singular value decomposition off after `r` directions leaves out the
squares of the other singular values, and no product through `r` dimensions
leaves out less.

* `Svd.truncated` — the first `r` directions;
* `sqNorm_sub_truncated` — what they leave out;
* `truncated_le_of_orthonormal` — no product with `r` orthonormal columns leaves
  out less;
* `truncated_best` — over the reals, no product through `r` dimensions does;
* `leading_eq` — the largest singular value is the most a matrix lengthens.
-/
import NeuralScalpel.Frobenius
import Mathlib.Analysis.InnerProductSpace.PiL2

namespace Frobenius

open Matrix

/-! ### Orthonormal columns -/

section Columns

variable {m n k : Type} [Fintype m] [Fintype n] [Fintype k] [DecidableEq k] {K : Type} [CommRing K]
variable {Q : Matrix m k K}

/-- A left factor with orthonormal columns leaves the norm alone. -/
theorem sqNorm_mul_left (hQ : Qᵀ * Q = 1) (X : Matrix k n K) : sqNorm (Q * X) = sqNorm X := by
  have hrows : Qᵀ * Qᵀᵀ = 1 := by rw [transpose_transpose, hQ]
  rw [← sqNorm_transpose, transpose_mul, sqNorm_mul hrows, sqNorm_transpose]

/-- The distance to a product is that to the projection, and the rest. -/
theorem sqNorm_sub_mul (hQ : Qᵀ * Q = 1) (M : Matrix m n K) (X : Matrix k n K) :
    sqNorm (M - Q * X) = sqNorm M - sqNorm (Qᵀ * M) + sqNorm (Qᵀ * M - X) := by
  have hinner : innerProd M (Q * X) = innerProd (Qᵀ * M) X := by
    rw [innerProd_comm, innerProd_mul_left, innerProd_comm]
  rw [sqNorm_sub, sqNorm_sub, hinner, sqNorm_mul_left hQ]
  ring

theorem sqNorm_diagonal (s : k → K) : sqNorm (diagonal s) = ∑ i, s i * s i := by
  unfold sqNorm innerProd
  refine Finset.sum_congr rfl fun i _ => ?_
  rw [Finset.sum_eq_single i]
  · rw [diagonal_apply_eq]
  · intro j _ hj
    rw [diagonal_apply_ne _ hj.symm, mul_zero]
  · exact fun h => absurd (Finset.mem_univ i) h

/-- The norm of a product with a diagonal matrix. -/
theorem sqNorm_diagonal_mul (s : k → K) (Y : Matrix k n K) :
    sqNorm (diagonal s * Y) = ∑ i, s i * s i * ∑ j, Y i j * Y i j := by
  unfold sqNorm innerProd
  refine Finset.sum_congr rfl fun i _ => ?_
  rw [Finset.mul_sum]
  refine Finset.sum_congr rfl fun j _ => ?_
  rw [diagonal_mul]
  ring

theorem sqNorm_column (x : m → K) : sqNorm (of fun i (_ : Unit) => x i) = ∑ i, x i * x i :=
  Finset.sum_congr rfl fun i _ => Finset.sum_singleton (fun _ => x i * x i) ()

/-- Orthonormal columns have as much norm as there are. -/
theorem sqNorm_of_orthonormal (hQ : Qᵀ * Q = 1) : sqNorm Q = Fintype.card k := by
  rw [sqNorm, innerProd_eq_trace, hQ, trace_one]

end Columns

/-- What vanishes on independent columns vanishes on an orthonormal basis of
them. -/
theorem mul_eq_zero_of_factor {K : Type} [Field K] {p m k n : ℕ} {Q : Matrix (Fin m) (Fin k) K}
    {R : Matrix (Fin k) (Fin n) K} {A : Matrix (Fin p) (Fin m) K} (hle : k ≤ n)
    (hindependent : Function.Injective (Q * R).mulVec) (hA : A * (Q * R) = 0) : A * Q = 0 := by
  have hinjective : Function.Injective R.mulVecLin := fun x y hxy => hindependent (by
    rw [← mulVec_mulVec, ← mulVec_mulVec]
    exact congrArg Q.mulVec hxy)
  have hdim := LinearMap.finrank_le_finrank_of_injective hinjective
  rw [Module.finrank_fin_fun, Module.finrank_fin_fun] at hdim
  have hfin : Module.finrank K (Fin n → K) = Module.finrank K (Fin k → K) := by
    rw [Module.finrank_fin_fun, Module.finrank_fin_fun]
    exact le_antisymm hdim hle
  have hsurjective := (LinearMap.injective_iff_surjective_of_finrank_eq_finrank hfin).mp hinjective
  refine ext_of_mulVec_single fun l => ?_
  obtain ⟨x, hx⟩ := hsurjective (Pi.single l 1)
  calc (A * Q).mulVec (Pi.single l 1)
      = (A * Q).mulVec (R.mulVec x) := by rw [← hx]; rfl
    _ = (A * (Q * R)).mulVec x := by rw [mulVec_mulVec, Matrix.mul_assoc]
    _ = (0 : Matrix (Fin p) (Fin k) K).mulVec (Pi.single l 1) := by
        rw [hA, zero_mulVec, zero_mulVec]

/-! ### Weighted sums of singular values -/

section Order

variable {K : Type} [Field K] [LinearOrder K] [IsStrictOrderedRing K]

/-- Weights of at most one that sum to at most `r` are best spent on the
largest `r` values. -/
theorem sum_mul_weights_le {d r : ℕ} {s w : Fin d → K} (hs : Antitone s) (hnonneg : ∀ i, 0 ≤ s i)
    (hw : ∀ i, 0 ≤ w i) (hw1 : ∀ i, w i ≤ 1) (hsum : ∑ i, w i ≤ r) :
    ∑ i, s i * w i ≤ ∑ i : Fin d, if (i : ℕ) < r then s i else 0 := by
  by_cases hr : r < d
  · -- compare every value with the first one that is left out
    set t := s ⟨r, hr⟩ with ht
    have hterm : ∀ i : Fin d, s i * w i ≤
        (if (i : ℕ) < r then s i else 0) + t * (w i - if (i : ℕ) < r then 1 else 0) := by
      intro i
      by_cases hi : (i : ℕ) < r
      · rw [if_pos hi, if_pos hi]
        have hle : t ≤ s i := hs (Fin.mk_le_mk.mpr hi.le)
        nlinarith [mul_nonneg (sub_nonneg.mpr hle) (sub_nonneg.mpr (hw1 i))]
      · rw [if_neg hi, if_neg hi]
        have hle : s i ≤ t := hs (Fin.mk_le_mk.mpr (Nat.not_lt.mp hi))
        nlinarith [mul_nonneg (sub_nonneg.mpr hle) (hw i)]
    have hcount : ∑ i : Fin d, (if (i : ℕ) < r then (1 : K) else 0) = r := by
      rw [Finset.sum_boole, Fin.card_filter_val_lt, min_eq_right hr.le]
    calc ∑ i, s i * w i
        ≤ ∑ i : Fin d, ((if (i : ℕ) < r then s i else 0) +
            t * (w i - if (i : ℕ) < r then 1 else 0)) := Finset.sum_le_sum fun i _ => hterm i
      _ = (∑ i : Fin d, if (i : ℕ) < r then s i else 0) + t * (∑ i, w i - r) := by
          rw [Finset.sum_add_distrib, ← Finset.mul_sum, Finset.sum_sub_distrib, hcount]
      _ ≤ ∑ i : Fin d, if (i : ℕ) < r then s i else 0 := by
          have hle : t * (∑ i, w i - r) ≤ 0 :=
            mul_nonpos_of_nonneg_of_nonpos (hnonneg _) (sub_nonpos.mpr hsum)
          linarith
  · refine Finset.sum_le_sum fun i _ => ?_
    rw [if_pos (lt_of_lt_of_le i.isLt (Nat.not_lt.mp hr))]
    exact mul_le_of_le_one_right (hnonneg i) (hw1 i)

/-- A projection is no longer than the matrix. -/
theorem sqNorm_projected_le {m n k : Type} [Fintype m] [Fintype n] [Fintype k] [DecidableEq k]
    {Q : Matrix m k K} (hQ : Qᵀ * Q = 1) (M : Matrix m n K) : sqNorm (Qᵀ * M) ≤ sqNorm M := by
  have hgap := sqNorm_nonneg (M - Q * (Qᵀ * M))
  rw [sqNorm_sub_mul hQ, sub_self, sqNorm_eq_zero_iff.mpr rfl, add_zero] at hgap
  exact sub_nonneg.mp hgap

end Order

/-! ### The first directions -/

section Truncated

variable {K : Type} [Field K] [LinearOrder K] {m n : ℕ} {f : Svd K m n}
  {M : Matrix (Fin m) (Fin n) K}

/-- The first `r` singular directions. -/
def Svd.truncated (f : Svd K m n) (r : ℕ) : Matrix (Fin m) (Fin n) K :=
  f.u * diagonal (fun k : Fin (min m n) => if (k : ℕ) < r then f.s k else 0) * f.vh

/-- The norm of a combination of the singular directions. -/
theorem Svd.Decomposes.sqNorm_directions (h : f.Decomposes M) (c : Fin (min m n) → K) :
    sqNorm (f.u * diagonal c * f.vh) = ∑ k, c k * c k := by
  rw [sqNorm_mul h.orthonormal_vh, sqNorm_mul_left h.orthonormal_u, sqNorm_diagonal]

/-- What is left out are the squares of the other singular values. -/
theorem sqNorm_sub_truncated (h : f.Decomposes M) (r : ℕ) :
    sqNorm (M - f.truncated r) =
      ∑ k : Fin (min m n), if (k : ℕ) < r then 0 else f.s k * f.s k := by
  have hrest : M - f.truncated r =
      f.u * diagonal (fun k : Fin (min m n) => if (k : ℕ) < r then 0 else f.s k) * f.vh := by
    rw [Svd.truncated]
    nth_rewrite 1 [h.eq_mul]
    rw [← Matrix.sub_mul, ← Matrix.mul_sub, diagonal_sub]
    congr 3
    funext k
    by_cases hk : (k : ℕ) < r
    · rw [if_pos hk, if_pos hk, sub_self]
    · rw [if_neg hk, if_neg hk, sub_zero]
  rw [hrest, h.sqNorm_directions]
  refine Finset.sum_congr rfl fun k _ => ?_
  split_ifs
  · exact mul_zero 0
  · rfl

variable [IsStrictOrderedRing K]

/-- What a projection on orthonormal columns keeps of the norm. -/
theorem sqNorm_projected_le_sum (h : f.Decomposes M) {d r : ℕ} {Q : Matrix (Fin m) (Fin d) K}
    (hQ : Qᵀ * Q = 1) (hd : d ≤ r) :
    sqNorm (Qᵀ * M) ≤ ∑ k : Fin (min m n), if (k : ℕ) < r then f.s k * f.s k else 0 := by
  set W := Qᵀ * f.u with hW
  -- the weight of a direction is the norm of its projection
  set w : Fin (min m n) → K := fun k => ∑ i, W i k * W i k with hw
  have hkept : sqNorm (Qᵀ * M) = ∑ k, f.s k * f.s k * w k := by
    have hmul : Qᵀ * M = W * diagonal f.s * f.vh := by
      rw [hW, Matrix.mul_assoc, Matrix.mul_assoc, ← Matrix.mul_assoc f.u, ← h.eq_mul]
    rw [hmul, sqNorm_mul h.orthonormal_vh, sqNorm, innerProd, Finset.sum_comm]
    refine Finset.sum_congr rfl fun k _ => ?_
    rw [hw, Finset.mul_sum]
    refine Finset.sum_congr rfl fun i _ => ?_
    rw [mul_diagonal]
    ring
  have hle : ∀ k, w k ≤ 1 := by
    intro k
    have hcolumn := sqNorm_projected_le hQ (of fun i (_ : Unit) => f.u i k)
    have hprojected : (Qᵀ * of fun i (_ : Unit) => f.u i k) = of fun i _ => W i k := rfl
    have hone := congrFun (congrFun h.orthonormal_u k) k
    rw [one_apply_eq] at hone
    rw [hprojected, sqNorm_column, sqNorm_column] at hcolumn
    exact hcolumn.trans_eq hone
  have htotal : ∑ k, w k ≤ r := by
    calc ∑ k, w k = sqNorm W := Finset.sum_comm
      _ = sqNorm (f.uᵀ * Q) := by
          rw [← sqNorm_transpose, hW, transpose_mul, transpose_transpose]
      _ ≤ sqNorm Q := sqNorm_projected_le h.orthonormal_u Q
      _ = (d : K) := by rw [sqNorm_of_orthonormal hQ, Fintype.card_fin]
      _ ≤ r := Nat.cast_le.mpr hd
  rw [hkept]
  refine sum_mul_weights_le ?_ (fun k => mul_self_nonneg _)
    (fun k => Finset.sum_nonneg fun i _ => mul_self_nonneg _) hle htotal
  exact fun i j hij => mul_self_le_mul_self (h.nonneg j) (h.antitone hij)

/-- No product with `r` orthonormal columns leaves out less than the first `r`
directions. -/
theorem truncated_le_of_orthonormal (h : f.Decomposes M) {d r : ℕ} {Q : Matrix (Fin m) (Fin d) K}
    (hQ : Qᵀ * Q = 1) (hd : d ≤ r) (X : Matrix (Fin d) (Fin n) K) :
    sqNorm (M - f.truncated r) ≤ sqNorm (M - Q * X) := by
  have hsplit : ∑ k : Fin (min m n), (if (k : ℕ) < r then 0 else f.s k * f.s k) =
      sqNorm M - ∑ k : Fin (min m n), if (k : ℕ) < r then f.s k * f.s k else 0 := by
    rw [h.sqNorm_eq, ← Finset.sum_sub_distrib]
    refine Finset.sum_congr rfl fun k _ => ?_
    split_ifs
    · rw [sub_self]
    · rw [sub_zero]
  rw [sqNorm_sub_truncated h, hsplit, sqNorm_sub_mul hQ]
  have hprojected := sqNorm_projected_le_sum h hQ hd
  have hrest := sqNorm_nonneg (Qᵀ * M - X)
  linarith

end Truncated

/-! ### The largest singular value -/

section Leading

variable {K : Type} [Field K] [LinearOrder K] [IsStrictOrderedRing K] {m m' n : ℕ}
variable {f : Svd K m n} {M : Matrix (Fin m) (Fin n) K}
variable {f' : Svd K m' n} {M' : Matrix (Fin m') (Fin n) K}

/-- No column is lengthened by more than the first singular value. -/
theorem Svd.Decomposes.sqNorm_mul_le (h : f.Decomposes M) {k : Type} [Fintype k] (h0 : 0 < min m n)
    (X : Matrix (Fin n) k K) :
    sqNorm (M * X) ≤ f.s ⟨0, h0⟩ * f.s ⟨0, h0⟩ * sqNorm X := by
  have hvh : f.vhᵀᵀ * f.vhᵀ = 1 := by rw [transpose_transpose, h.orthonormal_vh]
  have hmul : M * X = f.u * (diagonal f.s * (f.vh * X)) := by
    nth_rewrite 1 [h.eq_mul]
    rw [Matrix.mul_assoc, Matrix.mul_assoc]
  have hle := sqNorm_projected_le (Q := f.vhᵀ) hvh X
  rw [transpose_transpose] at hle
  calc sqNorm (M * X)
      = ∑ i, f.s i * f.s i * ∑ j, (f.vh * X) i j * (f.vh * X) i j := by
        rw [hmul, sqNorm_mul_left h.orthonormal_u, sqNorm_diagonal_mul]
    _ ≤ ∑ i, f.s ⟨0, h0⟩ * f.s ⟨0, h0⟩ * ∑ j, (f.vh * X) i j * (f.vh * X) i j := by
        refine Finset.sum_le_sum fun i _ => mul_le_mul_of_nonneg_right ?_
          (Finset.sum_nonneg fun j _ => mul_self_nonneg _)
        exact mul_self_le_mul_self (h.nonneg i) (h.antitone (Fin.mk_le_mk.mpr (Nat.zero_le _)))
    _ = f.s ⟨0, h0⟩ * f.s ⟨0, h0⟩ * sqNorm (f.vh * X) := (Finset.mul_sum _ _ _).symm
    _ ≤ f.s ⟨0, h0⟩ * f.s ⟨0, h0⟩ * sqNorm X :=
        mul_le_mul_of_nonneg_left hle (mul_self_nonneg _)

omit [IsStrictOrderedRing K] in
/-- The first right direction is lengthened by as much. -/
theorem Svd.Decomposes.sqNorm_leading (h : f.Decomposes M) (h0 : 0 < min m n) :
    sqNorm (of fun j (_ : Unit) => f.vh ⟨0, h0⟩ j) = 1 ∧
      sqNorm (M * of fun j (_ : Unit) => f.vh ⟨0, h0⟩ j) = f.s ⟨0, h0⟩ * f.s ⟨0, h0⟩ := by
  set X : Matrix (Fin n) Unit K := of fun j _ => f.vh ⟨0, h0⟩ j with hX
  have hrow : ∀ i, (f.vh * X) i () = if i = ⟨0, h0⟩ then 1 else 0 := by
    intro i
    have hentry := congrFun (congrFun h.orthonormal_vh i) ⟨0, h0⟩
    rw [one_apply] at hentry
    exact hentry
  refine ⟨?_, ?_⟩
  · have hone := hrow ⟨0, h0⟩
    rw [if_pos rfl] at hone
    rw [hX, sqNorm_column]
    exact hone
  · have hmul : M * X = f.u * (diagonal f.s * (f.vh * X)) := by
      nth_rewrite 1 [h.eq_mul]
      rw [Matrix.mul_assoc, Matrix.mul_assoc]
    rw [hmul, sqNorm_mul_left h.orthonormal_u, sqNorm_diagonal_mul,
      Finset.sum_eq_single ⟨0, h0⟩]
    · rw [Fintype.sum_unique]
      show _ * ((f.vh * X) _ () * (f.vh * X) _ ()) = _
      rw [hrow, if_pos rfl, mul_one, mul_one]
    · intro i _ hi
      rw [Fintype.sum_unique]
      show _ * ((f.vh * X) _ () * (f.vh * X) _ ()) = _
      rw [hrow, if_neg hi, mul_zero, mul_zero]
    · exact fun hnot => absurd (Finset.mem_univ _) hnot

/-- Matrices that lengthen every column alike have one largest singular value. -/
theorem leading_eq (h : f.Decomposes M) (h' : f'.Decomposes M')
    (hsame : ∀ X : Matrix (Fin n) Unit K, sqNorm (M * X) = sqNorm (M' * X)) (h0 : 0 < min m n)
    (h0' : 0 < min m' n) : f.s ⟨0, h0⟩ = f'.s ⟨0, h0'⟩ := by
  obtain ⟨hone, hleading⟩ := h.sqNorm_leading h0
  obtain ⟨hone', hleading'⟩ := h'.sqNorm_leading h0'
  refine (mul_self_inj (h.nonneg _) (h'.nonneg _)).mp (le_antisymm ?_ ?_)
  · have hle := h'.sqNorm_mul_le h0' (of fun j (_ : Unit) => f.vh ⟨0, h0⟩ j)
    rwa [hone, mul_one, ← hsame, hleading] at hle
  · have hle := h.sqNorm_mul_le h0 (of fun j (_ : Unit) => f'.vh ⟨0, h0'⟩ j)
    rwa [hone', mul_one, hsame, hleading'] at hle

/-- The largest singular value vanishes with the matrix only. -/
theorem Svd.Decomposes.leading_pos (h : f.Decomposes M) (hM : M ≠ 0) (h0 : 0 < min m n) :
    0 < f.s ⟨0, h0⟩ := by
  refine lt_of_le_of_ne (h.nonneg _) fun hzero => hM ?_
  have hall : ∀ i, f.s i = 0 := fun i =>
    le_antisymm ((h.antitone (Fin.mk_le_mk.mpr (Nat.zero_le _))).trans_eq hzero.symm) (h.nonneg i)
  refine sqNorm_eq_zero_iff.mp ?_
  rw [h.sqNorm_eq]
  exact Finset.sum_eq_zero fun i _ => by rw [hall, mul_zero]

end Leading

/-! ### Over the reals -/

/-- The columns of a real matrix are combinations of orthonormal ones. -/
theorem exists_orthonormal_factor {m r : ℕ} (P : Matrix (Fin m) (Fin r) ℝ) :
    ∃ d ≤ r, ∃ (Q : Matrix (Fin m) (Fin d) ℝ) (R : Matrix (Fin d) (Fin r) ℝ),
      Qᵀ * Q = 1 ∧ P = Q * R := by
  set column : Fin r → EuclideanSpace ℝ (Fin m) := fun l => WithLp.toLp 2 fun i => P i l
  set S := Submodule.span ℝ (Set.range column)
  let b := stdOrthonormalBasis ℝ S
  refine ⟨Module.finrank ℝ S, ?_, of fun i k => (b k : EuclideanSpace ℝ (Fin m)).ofLp i,
    of fun k l => inner ℝ (b k : EuclideanSpace ℝ (Fin m)) (column l), ?_, ?_⟩
  · exact (finrank_range_le_card column).trans_eq (Fintype.card_fin r)
  · ext k l
    have hinner := orthonormal_iff_ite.mp b.orthonormal k l
    rw [Submodule.coe_inner, PiLp.inner_apply] at hinner
    rw [Matrix.mul_apply, Matrix.one_apply, ← hinner]
    refine Finset.sum_congr rfl fun i _ => ?_
    exact mul_comm ((b k : EuclideanSpace ℝ (Fin m)).ofLp i) _
  · ext i l
    have hmem : column l ∈ S := Submodule.subset_span (Set.mem_range_self l)
    have hsum := congrArg (fun x : S => (x : EuclideanSpace ℝ (Fin m)).ofLp i)
      (b.sum_repr' ⟨column l, hmem⟩)
    simp only [Submodule.coe_sum, Submodule.coe_smul, Submodule.coe_inner, WithLp.ofLp_sum,
      WithLp.ofLp_smul, Finset.sum_apply, Pi.smul_apply, smul_eq_mul] at hsum
    rw [Matrix.mul_apply]
    refine hsum.symm.trans ?_
    refine Finset.sum_congr rfl fun k _ => ?_
    exact mul_comm (inner ℝ (b k : EuclideanSpace ℝ (Fin m)) (column l)) _

/-- No product through `r` dimensions leaves out less than the first `r`
singular directions. -/
theorem truncated_best {m n : ℕ} {f : Svd ℝ m n} {M : Matrix (Fin m) (Fin n) ℝ}
    (h : f.Decomposes M) {r : ℕ} (P : Matrix (Fin m) (Fin r) ℝ) (C : Matrix (Fin r) (Fin n) ℝ) :
    sqNorm (M - f.truncated r) ≤ sqNorm (M - P * C) := by
  obtain ⟨d, hd, Q, R, hQ, hP⟩ := exists_orthonormal_factor P
  rw [hP, Matrix.mul_assoc]
  exact truncated_le_of_orthonormal h hQ hd (R * C)

end Frobenius
