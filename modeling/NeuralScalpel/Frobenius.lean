/-
The Frobenius geometry of matrices over an ordered field.

`innerProd A B` is the sum of the products of the entries and `sqNorm A` the
squared norm it gives.  An orthogonal factor moves neither, so the distance of a
rotated and scaled matrix from another one depends on one number only.

* `innerProd_mul_left`, `sqNorm_mul` — factors move across, orthogonal ones
  vanish;
* `innerProd_le_sum` — no orthogonal matrix is closer to a square matrix than the
  product of its singular directions;
* `bestFit_iff` — when a rotation and a scale are the best.
-/
import Mathlib.Algebra.Order.BigOperators.Ring.Finset
import Mathlib.Algebra.Order.Field.Basic
import Mathlib.LinearAlgebra.Matrix.NonsingularInverse
import Mathlib.LinearAlgebra.Matrix.Trace
import Mathlib.Tactic.FieldSimp
import Mathlib.Tactic.Linarith

namespace Frobenius

open Matrix

variable {m n k : Type} [Fintype m] [Fintype n] [Fintype k] {K : Type}

/-! ### The inner product -/

section Ring

variable [CommRing K]

/-- The sum of the products of the entries. -/
def innerProd (A B : Matrix m n K) : K := ∑ i, ∑ j, A i j * B i j

/-- The sum of the squares of the entries. -/
def sqNorm (A : Matrix m n K) : K := innerProd A A

theorem innerProd_eq_trace (A B : Matrix m n K) : innerProd A B = trace (Aᵀ * B) := by
  rw [innerProd, Finset.sum_comm]
  rfl

theorem innerProd_comm (A B : Matrix m n K) : innerProd A B = innerProd B A := by
  unfold innerProd
  simp only [mul_comm]

theorem innerProd_add_left (A B C : Matrix m n K) :
    innerProd (A + B) C = innerProd A C + innerProd B C := by
  simp [innerProd_eq_trace, Matrix.add_mul]

theorem innerProd_sub_left (A B C : Matrix m n K) :
    innerProd (A - B) C = innerProd A C - innerProd B C := by
  simp [innerProd_eq_trace, Matrix.sub_mul]

theorem innerProd_sub_right (A B C : Matrix m n K) :
    innerProd A (B - C) = innerProd A B - innerProd A C := by
  rw [innerProd_comm, innerProd_sub_left, innerProd_comm B, innerProd_comm C]

theorem innerProd_smul_left (c : K) (A B : Matrix m n K) :
    innerProd (c • A) B = c * innerProd A B := by
  simp [innerProd_eq_trace]

theorem innerProd_smul_right (c : K) (A B : Matrix m n K) :
    innerProd A (c • B) = c * innerProd A B := by
  rw [innerProd_comm, innerProd_smul_left, innerProd_comm]

theorem innerProd_neg_left (A B : Matrix m n K) : innerProd (-A) B = -innerProd A B := by
  simp [innerProd_eq_trace]

@[simp] theorem innerProd_zero_right (A : Matrix m n K) : innerProd A (0 : Matrix m n K) = 0 := by
  simp [innerProd]

/-- A left factor moves to the other side. -/
theorem innerProd_mul_left (A : Matrix m k K) (R : Matrix k n K) (B : Matrix m n K) :
    innerProd (A * R) B = innerProd R (Aᵀ * B) := by
  rw [innerProd_eq_trace, innerProd_eq_trace, transpose_mul, Matrix.mul_assoc]

/-- So does a right factor. -/
theorem innerProd_mul_right (A : Matrix m k K) (R : Matrix k n K) (B : Matrix m n K) :
    innerProd (A * R) B = innerProd A (B * Rᵀ) := by
  rw [innerProd_eq_trace, innerProd_eq_trace, transpose_mul, Matrix.mul_assoc, trace_mul_comm,
    Matrix.mul_assoc]

theorem sqNorm_add (A B : Matrix m n K) :
    sqNorm (A + B) = sqNorm A + (innerProd A B + innerProd A B) + sqNorm B := by
  rw [sqNorm, innerProd_add_left, innerProd_comm A, innerProd_comm B, innerProd_add_left,
    innerProd_add_left, innerProd_comm B A, sqNorm, sqNorm]
  ring

theorem sqNorm_sub (A B : Matrix m n K) :
    sqNorm (A - B) = sqNorm A - (innerProd A B + innerProd A B) + sqNorm B := by
  rw [sqNorm, innerProd_sub_left, innerProd_sub_right, innerProd_sub_right, innerProd_comm B A,
    sqNorm, sqNorm]
  ring

theorem sqNorm_neg (A : Matrix m n K) : sqNorm (-A) = sqNorm A := by
  unfold sqNorm innerProd
  simp only [Matrix.neg_apply, neg_mul_neg]

theorem sqNorm_smul (c : K) (A : Matrix m n K) : sqNorm (c • A) = c * c * sqNorm A := by
  rw [sqNorm, innerProd_smul_left, innerProd_smul_right, sqNorm, mul_assoc]

/-- How far the sides of the inequality of Cauchy and Schwarz are apart. -/
theorem sqNorm_mul_sqNorm_sub (A B : Matrix m n K) :
    sqNorm (sqNorm B • A - innerProd A B • B) =
      sqNorm B * (sqNorm A * sqNorm B - innerProd A B * innerProd A B) := by
  rw [sqNorm_sub, sqNorm_smul, sqNorm_smul, innerProd_smul_left, innerProd_smul_right]
  ring

/-- An orthogonal factor leaves the inner product alone. -/
theorem innerProd_mul_mul [DecidableEq k] {R : Matrix k n K} (hR : R * Rᵀ = 1)
    (A B : Matrix m k K) :
    innerProd (A * R) (B * R) = innerProd A B := by
  rw [innerProd_mul_right, Matrix.mul_assoc, hR, Matrix.mul_one]

theorem sqNorm_mul [DecidableEq k] {R : Matrix k n K} (hR : R * Rᵀ = 1) (A : Matrix m k K) :
    sqNorm (A * R) = sqNorm A := innerProd_mul_mul hR A A

theorem sqNorm_transpose (A : Matrix m n K) : sqNorm Aᵀ = sqNorm A := by
  unfold sqNorm innerProd
  exact Finset.sum_comm

/-- The distance of a rotated and scaled matrix from another one. -/
theorem sqNorm_fit [DecidableEq k] {R : Matrix k n K} (hR : R * Rᵀ = 1) (s : K) (A : Matrix m k K)
    (B : Matrix m n K) :
    sqNorm (s • (A * R) - B) =
      s * s * sqNorm A - (s * innerProd R (Aᵀ * B) + s * innerProd R (Aᵀ * B)) + sqNorm B := by
  rw [sqNorm_sub, sqNorm_smul, sqNorm_mul hR, innerProd_smul_left, innerProd_mul_left]

end Ring

/-! ### Order -/

section Order

variable [Field K] [LinearOrder K] [IsStrictOrderedRing K]

theorem sqNorm_nonneg (A : Matrix m n K) : 0 ≤ sqNorm A :=
  Finset.sum_nonneg fun i _ => Finset.sum_nonneg fun j _ => mul_self_nonneg (A i j)

theorem sqNorm_eq_zero_iff {A : Matrix m n K} : sqNorm A = 0 ↔ A = 0 := by
  refine ⟨fun h => ?_, fun h => by rw [h, sqNorm, innerProd_zero_right]⟩
  have hrows := (Finset.sum_eq_zero_iff_of_nonneg fun i _ =>
    Finset.sum_nonneg fun j _ => mul_self_nonneg (A i j)).mp h
  ext i j
  have hrow := (Finset.sum_eq_zero_iff_of_nonneg fun j _ => mul_self_nonneg (A i j)).mp
    (hrows i (Finset.mem_univ i))
  exact mul_self_eq_zero.mp (hrow j (Finset.mem_univ j))

/-- The inequality of Cauchy and Schwarz. -/
theorem innerProd_mul_self_le (A B : Matrix m n K) :
    innerProd A B * innerProd A B ≤ sqNorm A * sqNorm B := by
  by_cases hB : sqNorm B = 0
  · rw [sqNorm_eq_zero_iff.mp hB, innerProd_zero_right, mul_zero]
    exact mul_nonneg (sqNorm_nonneg A) (sqNorm_nonneg _)
  · have hpos : 0 < sqNorm B := lt_of_le_of_ne (sqNorm_nonneg B) (Ne.symm hB)
    have hgap := sqNorm_nonneg (sqNorm B • A - innerProd A B • B)
    rw [sqNorm_mul_sqNorm_sub] at hgap
    exact sub_nonneg.mp (nonneg_of_mul_nonneg_right hgap hpos)

/-- The sides are equal only for matrices of one direction. -/
theorem smul_eq_of_innerProd {A B : Matrix m n K}
    (h : innerProd A B * innerProd A B = sqNorm A * sqNorm B) :
    sqNorm B • A = innerProd A B • B := by
  have hgap := sqNorm_mul_sqNorm_sub A B
  rw [← h, sub_self, mul_zero] at hgap
  exact sub_eq_zero.mp (sqNorm_eq_zero_iff.mp hgap)

omit [Fintype k] in
/-- No entry of an orthogonal matrix is greater than one. -/
theorem entry_le_one [DecidableEq k] {Z : Matrix k n K} (hZ : Z * Zᵀ = 1) (i : k) (j : n) :
    Z i j ≤ 1 := by
  have hrow : ∑ j', Z i j' * Z i j' = 1 := by
    have h := congrFun (congrFun hZ i) i
    rwa [Matrix.mul_apply, Matrix.one_apply_eq] at h
  have hle : Z i j * Z i j ≤ 1 := by
    rw [← hrow]
    exact Finset.single_le_sum (f := fun j' => Z i j' * Z i j')
      (fun j' _ => mul_self_nonneg (Z i j')) (Finset.mem_univ j)
  nlinarith [mul_self_nonneg (Z i j - 1)]

/-- A nonnegative diagonal is closest to the identity. -/
theorem innerProd_diagonal_le [DecidableEq k] {Z : Matrix k k K} (hZ : Z * Zᵀ = 1) {d : k → K}
    (hd : ∀ i, 0 ≤ d i) : innerProd Z (diagonal d) ≤ ∑ i, d i := by
  refine Finset.sum_le_sum fun i _ => ?_
  rw [Finset.sum_eq_single_of_mem i (Finset.mem_univ i) fun j _ hj => by
    rw [diagonal_apply_ne' d hj, mul_zero], diagonal_apply_eq]
  exact mul_le_of_le_one_left (hd i) (entry_le_one hZ i i)

end Order

/-! ### Square roots -/

section Sqrt

variable [Field K] [LinearOrder K] [IsStrictOrderedRing K] {sqrt : K → K}

/-- The square root of what has one. -/
def IsSqrt (sqrt : K → K) : Prop := ∀ x, 0 ≤ x → 0 ≤ sqrt x ∧ sqrt x * sqrt x = x

/-- A ratio of roots compares with one as the numbers do. -/
theorem sqrt_div_le_one_iff (hsqrt : IsSqrt sqrt) {a b : K} (ha : 0 ≤ a) (hb : 0 < b) :
    0 ≤ sqrt a / sqrt b ∧ (sqrt a / sqrt b ≤ 1 ↔ a ≤ b) ∧ (sqrt a / sqrt b = 1 ↔ a = b) := by
  obtain ⟨hra, ha'⟩ := hsqrt a ha
  obtain ⟨hrb, hb'⟩ := hsqrt b hb.le
  have hpos : 0 < sqrt b := lt_of_le_of_ne hrb fun h => by
    rw [← h, mul_zero] at hb'
    exact hb.ne hb'
  refine ⟨div_nonneg hra hrb, ?_, ?_⟩
  · rw [div_le_one hpos, mul_self_le_mul_self_iff hra hrb, ha', hb']
  · rw [div_eq_one_iff_eq hpos.ne', ← mul_self_inj hra hrb, ha', hb']

/-- The root of a product of squares. -/
theorem le_sqrt_mul_sqrt (hsqrt : IsSqrt sqrt) {a b p : K} (ha : 0 ≤ a) (hb : 0 ≤ b)
    (hp : 0 ≤ p) :
    0 ≤ sqrt a * sqrt b ∧ (p ≤ sqrt a * sqrt b ↔ p * p ≤ a * b) ∧
      (p = sqrt a * sqrt b ↔ p * p = a * b) := by
  obtain ⟨hra, ha'⟩ := hsqrt a ha
  obtain ⟨hrb, hb'⟩ := hsqrt b hb
  have hnonneg := mul_nonneg hra hrb
  have hsq : sqrt a * sqrt b * (sqrt a * sqrt b) = a * b := by
    rw [mul_mul_mul_comm, ha', hb']
  refine ⟨hnonneg, ?_, ?_⟩
  · rw [mul_self_le_mul_self_iff hp hnonneg, hsq]
  · rw [← mul_self_inj hp hnonneg, hsq]

end Sqrt

/-! ### Singular directions -/

/-- The three factors of a decomposition into singular directions, as many as
the smaller side has. -/
structure Svd (K : Type) (m n : ℕ) where
  u : Matrix (Fin m) (Fin (min m n)) K
  s : Fin (min m n) → K
  vh : Matrix (Fin (min m n)) (Fin n) K

/-- What a decomposition promises of its factors. -/
structure Svd.Decomposes [Field K] [LinearOrder K] {m n : ℕ} (f : Svd K m n)
    (M : Matrix (Fin m) (Fin n) K) : Prop where
  orthonormal_u : f.uᵀ * f.u = 1
  orthonormal_vh : f.vh * f.vhᵀ = 1
  nonneg : ∀ i, 0 ≤ f.s i
  antitone : Antitone f.s
  eq_mul : M = f.u * diagonal f.s * f.vh

section Svd

variable [Field K] [LinearOrder K] {m n d : ℕ}

/-- The singular values carry the norm. -/
theorem Svd.Decomposes.sqNorm_eq {f : Svd K m n} {M : Matrix (Fin m) (Fin n) K}
    (h : f.Decomposes M) : sqNorm M = ∑ i, f.s i * f.s i := by
  rw [h.eq_mul, sqNorm_mul h.orthonormal_vh, ← sqNorm_transpose, transpose_mul,
    sqNorm_mul (by rw [transpose_transpose, h.orthonormal_u]), diagonal_transpose]
  unfold sqNorm innerProd
  refine Finset.sum_congr rfl fun i _ => ?_
  have hoff : ∀ j ∈ Finset.univ, j ≠ i → diagonal f.s i j * diagonal f.s i j = 0 :=
    fun j _ hj => by rw [diagonal_apply_ne' f.s hj, mul_zero]
  rw [Finset.sum_eq_single_of_mem i (Finset.mem_univ i) hoff, diagonal_apply_eq]

section Square

variable {f : Svd K d d} {M : Matrix (Fin d) (Fin d) K}

/-- For a square matrix the singular directions are a basis on both sides. -/
theorem Svd.Decomposes.u_mul (h : f.Decomposes M) : f.u * f.uᵀ = 1 :=
  (mul_eq_one_comm_of_card_eq _ _ K (by simp)).mp h.orthonormal_u

theorem Svd.Decomposes.vh_mul (h : f.Decomposes M) : f.vhᵀ * f.vh = 1 :=
  (mul_eq_one_comm_of_card_eq _ _ K (by simp)).mp h.orthonormal_vh

theorem Svd.Decomposes.rotation (h : f.Decomposes M) : f.u * f.vh * (f.u * f.vh)ᵀ = 1 := by
  rw [transpose_mul, Matrix.mul_assoc, ← Matrix.mul_assoc f.vh, h.orthonormal_vh, Matrix.one_mul,
    h.u_mul]

/-- Every orthogonal matrix against a matrix given by singular directions. -/
theorem Svd.Decomposes.innerProd_eq (h : f.Decomposes M) (Q : Matrix (Fin d) (Fin d) K) :
    innerProd Q M = innerProd (f.uᵀ * Q * f.vhᵀ) (diagonal f.s) := by
  rw [h.eq_mul, innerProd_comm, innerProd_mul_right, innerProd_mul_left, innerProd_comm,
    Matrix.mul_assoc]

/-- The product of the singular directions against the matrix. -/
theorem innerProd_rotation (h : f.Decomposes M) : innerProd (f.u * f.vh) M = ∑ i, f.s i := by
  have hmid : f.uᵀ * (f.u * f.vh) * f.vhᵀ = 1 := by
    rw [← Matrix.mul_assoc, h.orthonormal_u, Matrix.one_mul, h.orthonormal_vh]
  rw [h.innerProd_eq, hmid, innerProd_comm, innerProd_eq_trace, diagonal_transpose, Matrix.mul_one,
    trace_diagonal]

end Square

variable [IsStrictOrderedRing K]

theorem Svd.Decomposes.sum_nonneg {f : Svd K m n} {M : Matrix (Fin m) (Fin n) K}
    (h : f.Decomposes M) : 0 ≤ ∑ i, f.s i := Finset.sum_nonneg fun i _ => h.nonneg i

theorem Svd.Decomposes.sum_eq_zero_iff {f : Svd K m n} {M : Matrix (Fin m) (Fin n) K}
    (h : f.Decomposes M) : ∑ i, f.s i = 0 ↔ M = 0 := by
  have hsum : ∑ i, f.s i = 0 ↔ ∀ i ∈ Finset.univ, f.s i = 0 :=
    Finset.sum_eq_zero_iff_of_nonneg fun i _ => h.nonneg i
  have hsq : ∑ i, f.s i * f.s i = 0 ↔ ∀ i ∈ Finset.univ, f.s i * f.s i = 0 :=
    Finset.sum_eq_zero_iff_of_nonneg fun i _ => mul_self_nonneg (f.s i)
  rw [← sqNorm_eq_zero_iff, h.sqNorm_eq, hsum, hsq]
  simp only [mul_self_eq_zero]

variable {f : Svd K d d} {M : Matrix (Fin d) (Fin d) K}

/-- No orthogonal matrix is closer to `M` than the product of its singular
directions. -/
theorem innerProd_le_sum (h : f.Decomposes M) {Q : Matrix (Fin d) (Fin d) K} (hQ : Q * Qᵀ = 1) :
    innerProd Q M ≤ ∑ i, f.s i := by
  rw [h.innerProd_eq]
  refine innerProd_diagonal_le ?_ h.nonneg
  calc f.uᵀ * Q * f.vhᵀ * (f.uᵀ * Q * f.vhᵀ)ᵀ
      = f.uᵀ * Q * (f.vhᵀ * f.vh) * Qᵀ * f.u := by
        simp only [transpose_mul, transpose_transpose, Matrix.mul_assoc]
    _ = f.uᵀ * (Q * Qᵀ) * f.u := by
        rw [h.vh_mul, Matrix.mul_one]
        simp only [Matrix.mul_assoc]
    _ = 1 := by rw [hQ, Matrix.mul_one, h.orthonormal_u]

/-- Nor is its negative. -/
theorem abs_inner_le (h : f.Decomposes M) {Q : Matrix (Fin d) (Fin d) K} (hQ : Q * Qᵀ = 1) :
    |innerProd Q M| ≤ ∑ i, f.s i := by
  refine abs_le.mpr ⟨?_, innerProd_le_sum h hQ⟩
  have hneg : innerProd (-Q) M ≤ ∑ i, f.s i := innerProd_le_sum h (by simpa using hQ)
  rw [innerProd_neg_left] at hneg
  linarith

end Svd

/-! ### The best rotation and scale -/

/-- No orthogonal matrix and no scale bring `A` closer to `B`. -/
def BestFit [CommRing K] [LE K] [DecidableEq n] (A B : Matrix m n K) (R : Matrix n n K) (s : K) :
    Prop :=
  ∀ (Q : Matrix n n K) (t : K), Q * Qᵀ = 1 → sqNorm (s • (A * R) - B) ≤ sqNorm (t • (A * Q) - B)

section Fit

variable [Field K] [LinearOrder K] {d : ℕ} {A B : Matrix m (Fin d) K} {f : Svd K d d}

/-- How far the rotated and scaled matrix stays away. -/
theorem sqNorm_rotation (h : f.Decomposes (Aᵀ * B)) (s : K) :
    sqNorm (s • (A * (f.u * f.vh)) - B) =
      s * s * sqNorm A - (s * ∑ i, f.s i + s * ∑ i, f.s i) + sqNorm B := by
  rw [sqNorm_fit h.rotation, innerProd_rotation h]

variable [IsStrictOrderedRing K]

/-- No fit comes closer than this. -/
theorem le_sq_fit (h : f.Decomposes (Aᵀ * B)) {Q : Matrix (Fin d) (Fin d) K} (hQ : Q * Qᵀ = 1)
    (t : K) :
    |t| * |t| * sqNorm A - (|t| * ∑ i, f.s i + |t| * ∑ i, f.s i) + sqNorm B ≤
      sqNorm (t • (A * Q) - B) := by
  rw [sqNorm_fit hQ, abs_mul_abs_self]
  have hbound : t * innerProd Q (Aᵀ * B) ≤ |t| * ∑ i, f.s i := by
    refine le_trans (le_abs_self _) ?_
    rw [abs_mul]
    exact mul_le_mul_of_nonneg_left (abs_inner_le h hQ) (abs_nonneg t)
  linarith

/-- The best scale: where there is something to align, it has to be the sum of
the singular values by the squared norm. -/
theorem bestFit_iff (h : f.Decomposes (Aᵀ * B)) (s : K) :
    BestFit A B (f.u * f.vh) s ↔ s * sqNorm A = ∑ i, f.s i := by
  have hsum := h.sum_nonneg
  by_cases hA : sqNorm A = 0
  · have hM : ∑ i, f.s i = 0 := by
      rw [h.sum_eq_zero_iff, sqNorm_eq_zero_iff.mp hA, transpose_zero, Matrix.zero_mul]
    refine ⟨fun _ => by rw [hA, hM, mul_zero], fun _ Q t hQ => ?_⟩
    have hle := le_sq_fit h hQ t
    rw [sqNorm_rotation h, hA, hM]
    rw [hA, hM] at hle
    linarith
  · have hpos : 0 < sqNorm A := lt_of_le_of_ne (sqNorm_nonneg A) (Ne.symm hA)
    constructor
    · intro hbest
      -- the fit with the best scale is no better, so the scales agree
      have hle := hbest (f.u * f.vh) ((∑ i, f.s i) / sqNorm A) h.rotation
      rw [sqNorm_rotation h, sqNorm_rotation h] at hle
      have hq : (∑ i, f.s i) / sqNorm A * sqNorm A = ∑ i, f.s i := div_mul_cancel₀ _ hA
      have hzero :
          (s - (∑ i, f.s i) / sqNorm A) * (s - (∑ i, f.s i) / sqNorm A) * sqNorm A ≤ 0 := by
        set q := (∑ i, f.s i) / sqNorm A with hqdef
        rw [← hq] at hle
        nlinarith [hle]
      have hsq : (s - (∑ i, f.s i) / sqNorm A) * (s - (∑ i, f.s i) / sqNorm A) = 0 := by
        refine le_antisymm ?_ (mul_self_nonneg _)
        by_contra hgt
        exact absurd hzero (not_le.mpr (mul_pos (not_le.mp hgt) hpos))
      rw [sub_eq_zero.mp (mul_self_eq_zero.mp hsq), hq]
    · intro hs Q t hQ
      refine le_trans ?_ (le_sq_fit h hQ t)
      rw [sqNorm_rotation h, ← hs]
      nlinarith [mul_nonneg (mul_self_nonneg (s - |t|)) hpos.le]

/-- A target that is a rotated and scaled source is reached. -/
theorem fit_eq {R : Matrix (Fin d) (Fin d) K} {s : K} (hbest : BestFit A B R s)
    {Q : Matrix (Fin d) (Fin d) K} (hQ : Q * Qᵀ = 1) {c : K} (hB : B = c • (A * Q)) :
    s • (A * R) = B := by
  have hle := hbest Q c hQ
  rw [← hB, sub_self, sqNorm_eq_zero_iff.mpr rfl] at hle
  exact sub_eq_zero.mp (sqNorm_eq_zero_iff.mp (le_antisymm hle (sqNorm_nonneg _)))

end Fit

end Frobenius
