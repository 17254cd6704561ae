/-
Singular values block by block.

`adaptive_rsvd_bootstrap` multiplies a matrix with random blocks, makes each
product orthogonal to the basis found so far, and appends an orthonormal basis
of it, until a block adds no singular value of weight.

* `rsvd_product` — the factors returned multiply to the sum of the projections
  of the matrix on the blocks appended; if the blocks are orthogonal to each
  other this is one projection, and misses what the singular values say;
* `newBlock_orthogonal` — a block is orthogonal to the basis if the columns it
  is made from are independent;
* `rsvd_overshoots` — with as many columns in a block as the matrix has rows
  they never are: no block is refused, and the product is the matrix times the
  number of blocks.
-/
import NeuralScalpel.LoraOptimal
import Mathlib.Data.Matrix.ColumnRowPartitioned

open Frobenius
open scoped Matrix

namespace AdaptiveRsvd

variable {K : Type} [Field K]

/-! ### The loop -/

/-- `a - b`, for matrices of one shape. -/
def sub (A B : ShapedMatrix K) : ShapedMatrix K :=
  .ofFn A.rows A.cols fun i j => A.entry i j - B.entry i j

/-- `torch.cat([a, b], dim=1)`, for matrices of as many rows. -/
def catCols (A B : ShapedMatrix K) : ShapedMatrix K :=
  .ofFn A.rows (A.cols + B.cols) fun i j =>
    if j < A.cols then A.entry i j else B.entry i (j - A.cols)

/-- What the loop asks of the tensor library; of a QR decomposition it keeps the
first factor. -/
structure RsvdMath (K : Type) [Field K] where
  randn : ℕ → ℕ → ℕ → ShapedMatrix K
  shape_randn : ∀ k rows cols, (randn k rows cols).rows = rows ∧ (randn k rows cols).cols = cols
  qr : ShapedMatrix K → ShapedMatrix K
  svd : ∀ W : ShapedMatrix K, SvdFactors W

/-- `U_total`, `S_total`, `V_total`. -/
structure Factors (K : Type) [Field K] where
  u : ShapedMatrix K
  s : ℕ → K
  vh : ShapedMatrix K

/-- What the rounds so far have accumulated. -/
structure Accumulated (K : Type) [Field K] where
  qTotal : ShapedMatrix K
  sigma1 : K
  factors : Factors K

/-- `Y - Q (Qᵀ Y)`. -/
def orthogonalize (Q Y : ShapedMatrix K) : ShapedMatrix K := sub Y (Q.mul (Q.transpose.mul Y))

/-- `(Mᵀ Q)ᵀ`. -/
def projected (M Q : ShapedMatrix K) : ShapedMatrix K := (M.transpose.mul Q).transpose

/-- The columns of round `k`, before they are made orthonormal. -/
def columns (math : RsvdMath K) (M : ShapedMatrix K) (blockSize k : ℕ)
    (qTotal : Option (ShapedMatrix K)) : ShapedMatrix K :=
  let Y := M.mul (math.randn k M.cols blockSize)
  match qTotal with
  | none => Y
  | some Q => orthogonalize Q (orthogonalize Q Y)

/-- `S_b[0]`. -/
def largest {W : ShapedMatrix K} (svd : SvdFactors W) : Except PyError K :=
  if min W.rows W.cols = 0 then
    .error (.external "IndexError: index 0 is out of bounds for dimension 0 with size 0")
  else .ok (svd.s 0)

/-- The decomposition within the basis. -/
def totalFactors (math : RsvdMath K) (M Q : ShapedMatrix K) : Factors K :=
  let svd := math.svd (projected M Q)
  ⟨Q.mul svd.u, svd.s, svd.vh⟩

section Loop

variable [LinearOrder K]

/-- `n` more rounds, of which the next is round `k`. -/
def rounds (math : RsvdMath K) (M : ShapedMatrix K) (epsilon : K) (blockSize : ℕ) :
    ℕ → ℕ → Option (Accumulated K) → Except PyError (Option (Accumulated K))
  | 0, _, acc => .ok acc
  | n + 1, k, acc => do
    let qNew := math.qr (columns math M blockSize k (acc.map Accumulated.qTotal))
    let sigmaNewMax ← largest (math.svd (projected M qNew))
    match acc with
    | none =>
      rounds math M epsilon blockSize n (k + 1)
        (some ⟨qNew, sigmaNewMax, totalFactors math M qNew⟩)
    | some acc =>
      if acc.sigma1 = 0 then throw (.external "ZeroDivisionError: float division by zero")
      else if sigmaNewMax / acc.sigma1 < epsilon then pure (some acc)
      else
        let qTotal := catCols acc.qTotal qNew
        rounds math M epsilon blockSize n (k + 1)
          (some ⟨qTotal, acc.sigma1, totalFactors math M qTotal⟩)

def adaptiveRsvdBootstrap (math : RsvdMath K) (M : ShapedMatrix K) (epsilon : K)
    (blockSize maxBlocks : ℕ) : Except PyError (Factors K) := do
  match ← rounds math M epsilon blockSize maxBlocks 0 none with
  | some acc => pure acc.factors
  | none => throw (.external ("UnboundLocalError: cannot access local variable 'U_total' where " ++
      "it is not associated with a value"))

end Loop

/-! ### The bases -/

section Bases

variable (math : RsvdMath K) (M : ShapedMatrix K) (blockSize : ℕ)

/-- The basis after round `k`, if no round stops. -/
def basis : ℕ → ShapedMatrix K
  | 0 => math.qr (columns math M blockSize 0 none)
  | k + 1 => catCols (basis k) (math.qr (columns math M blockSize (k + 1) (some (basis k))))

/-- The columns of round `k`. -/
def columnsOf : ℕ → ShapedMatrix K
  | 0 => columns math M blockSize 0 none
  | k + 1 => columns math M blockSize (k + 1) (some (basis math M blockSize k))

/-- The block of round `k`. -/
def block (k : ℕ) : ShapedMatrix K := math.qr (columnsOf math M blockSize k)

/-- The largest singular value of round `k`. -/
def weight (k : ℕ) : K := (math.svd (projected M (block math M blockSize k))).s 0

/-- What has been accumulated after round `k`. -/
def accumulated (k : ℕ) : Accumulated K :=
  ⟨basis math M blockSize k, weight math M blockSize 0,
    totalFactors math M (basis math M blockSize k)⟩

variable {math M blockSize} [LinearOrder K] {epsilon : K}

omit [LinearOrder K] in
theorem largest_eq_ok {W : ShapedMatrix K} {svd : SvdFactors W} {sigma : K} :
    largest svd = .ok sigma ↔ min W.rows W.cols ≠ 0 ∧ sigma = svd.s 0 := by
  unfold largest
  split_ifs with hempty
  · exact iff_of_false (fun h => by cases h) fun h => h.1 hempty
  · exact ⟨fun h => ⟨hempty, (Except.ok.inj h).symm⟩, fun h => congrArg _ h.2.symm⟩

/-- The first round. -/
theorem rounds_first (n : ℕ) : rounds math M epsilon blockSize (n + 1) 0 none =
    largest (math.svd (projected M (block math M blockSize 0))) >>= fun _ =>
      rounds math M epsilon blockSize n 1 (some (accumulated math M blockSize 0)) := by
  show (largest (math.svd (projected M (block math M blockSize 0))) >>= _) = _ >>= _
  cases h : largest (math.svd (projected M (block math M blockSize 0))) with
  | error e => rfl
  | ok sigma =>
    obtain ⟨-, rfl⟩ := largest_eq_ok.mp h
    rfl

/-- A later round stops the loop or appends its block. -/
theorem rounds_next (n k : ℕ) :
    rounds math M epsilon blockSize (n + 1) (k + 1) (some (accumulated math M blockSize k)) =
      largest (math.svd (projected M (block math M blockSize (k + 1)))) >>= fun _ =>
      if weight math M blockSize 0 = 0 then
        throw (.external "ZeroDivisionError: float division by zero")
      else if weight math M blockSize (k + 1) / weight math M blockSize 0 < epsilon then
        pure (some (accumulated math M blockSize k))
      else
        rounds math M epsilon blockSize n (k + 2)
          (some (accumulated math M blockSize (k + 1))) := by
  show (largest (math.svd (projected M (block math M blockSize (k + 1)))) >>= _) = _ >>= _
  cases h : largest (math.svd (projected M (block math M blockSize (k + 1)))) with
  | error e => rfl
  | ok sigma =>
    obtain ⟨-, rfl⟩ := largest_eq_ok.mp h
    rfl

/-- The loop appends the blocks of the rounds before the first of too little
weight. -/
theorem rounds_eq_ok {n k : ℕ} {acc : Option (Accumulated K)}
    (h : rounds math M epsilon blockSize n (k + 1) (some (accumulated math M blockSize k)) =
      .ok acc) :
    ∃ r ≤ n, acc = some (accumulated math M blockSize (k + r)) ∧
      (∀ j < r, epsilon ≤ weight math M blockSize (k + 1 + j) / weight math M blockSize 0) ∧
      (r < n → weight math M blockSize (k + 1 + r) / weight math M blockSize 0 < epsilon) := by
  induction n generalizing k with
  | zero => exact ⟨0, le_rfl, (Except.ok.inj h).symm, fun _ hj => absurd hj (Nat.not_lt_zero _),
      fun hlt => absurd hlt (Nat.not_lt_zero _)⟩
  | succ n ih =>
    rw [rounds_next] at h
    obtain ⟨-, -, h⟩ := Effect.bind_eq_ok.mp h
    split_ifs at h with hzero hstop
    · cases h
      exact ⟨0, Nat.zero_le _, rfl, fun _ hj => absurd hj (Nat.not_lt_zero _), fun _ => hstop⟩
    · obtain ⟨r, hr, hacc, hkept, hend⟩ := ih h
      refine ⟨r + 1, Nat.succ_le_succ hr, by rw [hacc, Nat.add_right_comm k 1 r]; rfl,
        fun j hj => ?_, fun hlt => ?_⟩
      · cases j with
        | zero => exact not_lt.mp hstop
        | succ j =>
          have hj' := hkept j (Nat.lt_of_succ_lt_succ hj)
          rwa [show k + 1 + 1 + j = k + 1 + (j + 1) by omega] at hj'
      · have hend' := hend (Nat.lt_of_succ_lt_succ hlt)
        rwa [show k + 1 + 1 + r = k + 1 + (r + 1) by omega] at hend'

end Bases

/-! ### Projections -/

section Projections

variable {math : RsvdMath K} {M Q A B : ShapedMatrix K}

/-- `Q (Qᵀ M)`. -/
def project (Q M : ShapedMatrix K) : ShapedMatrix K := Q.mul (Q.transpose.mul M)

/-- `U @ diag(S) @ V`. -/
def Factors.product (f : Factors K) : ShapedMatrix K :=
  .ofFn f.u.rows f.vh.cols fun i j =>
    ∑ k ∈ Finset.range f.u.cols, f.u.entry i k * f.s k * f.vh.entry k j

theorem projected_eq (hrows : Q.rows = M.rows) : projected M Q = Q.transpose.mul M :=
  ShapedMatrix.transpose_mul hrows.symm

theorem block_projected (hrows : Q.rows = M.rows) :
    (projected M Q).block Q.cols M.cols = (Q.block Q.rows Q.cols)ᵀ * M.block Q.rows M.cols := by
  rw [projected_eq hrows]
  exact ShapedMatrix.block_mul le_rfl Q.cols M.cols

theorem entry_eq_of_documented [LinearOrder K] {W : ShapedMatrix K} {svd : SvdFactors W}
    (h : svd.Documented) (i j : ℕ) : W.entry i j =
      ∑ k ∈ Finset.range (min W.rows W.cols), svd.u.entry i k * svd.s k * svd.vh.entry k j := by
  by_cases hin : i < W.rows ∧ j < W.cols
  · have hentry := congrFun (congrFun h.eq_mul ⟨i, hin.1⟩) ⟨j, hin.2⟩
    rw [Matrix.mul_apply] at hentry
    simp only [Matrix.mul_diagonal] at hentry
    exact hentry.trans (Fin.sum_univ_eq_sum_range
      (fun k => svd.u.entry i k * svd.s k * svd.vh.entry k j) _)
  · rw [W.support i j hin]
    refine (Finset.sum_eq_zero fun k _ => ?_).symm
    rcases not_and_or.mp hin with hi | hj
    · rw [ShapedMatrix.entry_eq_zero (Or.inl (svd.shape_u.1.trans_le (Nat.not_lt.mp hi))), zero_mul,
        zero_mul]
    · rw [ShapedMatrix.entry_eq_zero (Or.inr (svd.shape_vh.2.trans_le (Nat.not_lt.mp hj))),
        mul_zero]

/-- The factors multiply to the projection on the basis. -/
theorem product_totalFactors [LinearOrder K] (hrows : Q.rows = M.rows)
    (hsvd : (math.svd (projected M Q)).Documented) :
    (totalFactors math M Q).product = project Q M := by
  refine ShapedMatrix.ext rfl (math.svd (projected M Q)).shape_vh.2 fun i j => ?_
  set svd := math.svd (projected M Q) with hsvdDef
  have hwithin : ∀ l, (Q.transpose.mul M).entry l j =
      ∑ k ∈ Finset.range svd.u.cols, svd.u.entry l k * svd.s k * svd.vh.entry k j := by
    intro l
    rw [← projected_eq hrows, entry_eq_of_documented hsvd, ← svd.shape_u.2]
  have hsum : ∑ k ∈ Finset.range svd.u.cols,
      (Q.mul svd.u).entry i k * svd.s k * svd.vh.entry k j = (project Q M).entry i j := by
    show _ = ∑ l ∈ Finset.range Q.cols, Q.entry i l * (Q.transpose.mul M).entry l j
    simp only [hwithin, ShapedMatrix.entry_mul, Finset.sum_mul, Finset.mul_sum]
    rw [Finset.sum_comm]
    exact Finset.sum_congr rfl fun l _ => Finset.sum_congr rfl fun k _ => by ring
  by_cases hin : i < Q.rows ∧ j < svd.vh.cols
  · exact (if_pos hin).trans hsum
  · refine (if_neg hin).trans ?_
    rcases not_and_or.mp hin with hi | hj
    · exact (ShapedMatrix.entry_eq_zero (M := project Q M) (Or.inl (Nat.not_lt.mp hi))).symm
    · refine (ShapedMatrix.entry_eq_zero (M := project Q M) (Or.inr ?_)).symm
      rw [svd.shape_vh.2] at hj
      exact Nat.not_lt.mp hj

theorem entry_catCols_left (A B : ShapedMatrix K) {i j : ℕ} (hj : j < A.cols) :
    (catCols A B).entry i j = A.entry i j := by
  show (if i < A.rows ∧ j < A.cols + B.cols then _ else _) = _
  split_ifs with hin
  · rfl
  · exact (ShapedMatrix.entry_eq_zero (Or.inl (Nat.not_lt.mp fun hi => hin ⟨hi, by omega⟩))).symm

theorem entry_catCols_right (hrows : B.rows = A.rows) (i j : ℕ) :
    (catCols A B).entry i (A.cols + j) = B.entry i j := by
  show (if i < A.rows ∧ A.cols + j < A.cols + B.cols then
    (if A.cols + j < A.cols then _ else B.entry i (A.cols + j - A.cols)) else _) = _
  rw [if_neg (by omega : ¬A.cols + j < A.cols), Nat.add_sub_cancel_left]
  split_ifs with hin
  · rfl
  · refine (B.support i j fun hB => hin ⟨hrows ▸ hB.1, by omega⟩).symm

/-- On two blocks side by side, the projections add. -/
theorem entry_project_catCols (hrows : B.rows = A.rows) (M : ShapedMatrix K) (i j : ℕ) :
    (project (catCols A B) M).entry i j = (project A M).entry i j + (project B M).entry i j := by
  have hcolumn : ∀ C : ShapedMatrix K, ∀ k, (C.transpose.mul M).entry k j =
      ∑ l ∈ Finset.range C.rows, C.entry l k * M.entry l j := fun _ _ => rfl
  show ∑ k ∈ Finset.range (A.cols + B.cols), _ = ∑ k ∈ Finset.range A.cols, _ +
    ∑ k ∈ Finset.range B.cols, _
  rw [Finset.sum_range_add]
  congr 1
  · refine Finset.sum_congr rfl fun k hk => ?_
    have hk' := Finset.mem_range.mp hk
    simp only [hcolumn, entry_catCols_left A B hk']
    rfl
  · refine Finset.sum_congr rfl fun k _ => ?_
    simp only [hcolumn, entry_catCols_right hrows]
    rw [hrows]
    rfl

/-- The factors of the basis multiply to the sum of the projections on its
blocks. -/
theorem entry_project_basis {blockSize : ℕ} {r : ℕ}
    (hrows : ∀ k ≤ r, (block math M blockSize k).rows = M.rows) (i j : ℕ) :
    (basis math M blockSize r).rows = M.rows ∧
      (project (basis math M blockSize r) M).entry i j =
        ∑ k ∈ Finset.range (r + 1), (project (block math M blockSize k) M).entry i j := by
  induction r with
  | zero => exact ⟨hrows 0 le_rfl,
      (Finset.sum_range_one fun k => (project (block math M blockSize k) M).entry i j).symm⟩
  | succ r ih =>
    obtain ⟨hbasis, hsum⟩ := ih fun k hk => hrows k (Nat.le_succ_of_le hk)
    refine ⟨hbasis, ?_⟩
    have hblock : (block math M blockSize (r + 1)).rows = (basis math M blockSize r).rows :=
      (hrows (r + 1) le_rfl).trans hbasis.symm
    rw [Finset.sum_range_succ, ← hsum]
    exact entry_project_catCols hblock M i j

end Projections

/-! ### Orthonormal blocks -/

section Orthonormal

variable {Q A B Y : ShapedMatrix K}

/-- `Q` as a matrix. -/
abbrev whole (Q : ShapedMatrix K) : Matrix (Fin Q.rows) (Fin Q.cols) K := Q.block Q.rows Q.cols

/-- What the library documents of the first factor of a reduced decomposition. -/
structure Reduced (Y Q : ShapedMatrix K) : Prop where
  rows : Q.rows = Y.rows
  cols : Q.cols = min Y.rows Y.cols
  orthonormal : (whole Q)ᵀ * whole Q = 1
  factor : ∃ R : Matrix (Fin Q.cols) (Fin Y.cols) K, Y.block Q.rows Y.cols = whole Q * R

/-- No combination of the columns vanishes. -/
def Independent (Y : ShapedMatrix K) : Prop := Function.Injective (whole Y).mulVec

theorem block_project (Q Y : ShapedMatrix K) : (project Q Y).block Q.rows Y.cols =
    whole Q * ((whole Q)ᵀ * Y.block Q.rows Y.cols) := by
  rw [project, ShapedMatrix.block_mul le_rfl, ShapedMatrix.block_mul le_rfl]
  rfl

theorem block_orthogonalize (hrows : Q.rows = Y.rows) :
    (orthogonalize Q Y).block Q.rows Y.cols =
      Y.block Q.rows Y.cols - whole Q * ((whole Q)ᵀ * Y.block Q.rows Y.cols) := by
  rw [← block_project]
  ext i j
  exact if_pos ⟨hrows ▸ i.isLt, j.isLt⟩

/-- What is made orthogonal to orthonormal columns is. -/
theorem transpose_mul_orthogonalize (hQ : (whole Q)ᵀ * whole Q = 1) (hrows : Q.rows = Y.rows) :
    (whole Q)ᵀ * (orthogonalize Q Y).block Q.rows Y.cols = 0 := by
  rw [block_orthogonalize hrows, Matrix.mul_sub, ← Matrix.mul_assoc, hQ, Matrix.one_mul, sub_self]

/-- A block is orthogonal to the basis if the columns it is made from are
independent. -/
theorem newBlock_orthogonal (hQ : (whole Q)ᵀ * whole Q = 1) (hrows : Q.rows = Y.rows)
    (hB : Reduced (orthogonalize Q Y) B) (hindependent : Independent (orthogonalize Q Y)) :
    (whole Q)ᵀ * B.block Q.rows B.cols = 0 := by
  obtain ⟨R, hR⟩ := hB.factor
  have hBrows : B.rows = Q.rows := hB.rows.trans hrows.symm
  have hapart := transpose_mul_orthogonalize hQ hrows
  have hle : B.cols ≤ (orthogonalize Q Y).cols := hB.cols.trans_le (min_le_right _ _)
  have hinjective : Function.Injective ((orthogonalize Q Y).block Y.rows Y.cols).mulVec :=
    hindependent
  rw [← hrows] at hinjective
  have hfactor : (orthogonalize Q Y).block Q.rows Y.cols = B.block Q.rows B.cols * R := by
    rw [← hBrows]
    exact hR
  rw [hfactor] at hinjective hapart
  exact mul_eq_zero_of_factor hle hinjective hapart

/-- Orthonormal columns beside orthonormal columns they are orthogonal to. -/
theorem orthonormal_catCols (hA : (whole A)ᵀ * whole A = 1) (hB : (whole B)ᵀ * whole B = 1)
    (hrows : B.rows = A.rows) (hapart : (whole A)ᵀ * B.block A.rows B.cols = 0) :
    (whole (catCols A B))ᵀ * whole (catCols A B) = 1 := by
  have hcat : (catCols A B).block A.rows (A.cols + B.cols) =
      (Matrix.fromCols (whole A) (B.block A.rows B.cols)).submatrix id finSumFinEquiv.symm := by
    ext i j
    refine Fin.addCases (fun j => ?_) (fun j => ?_) j
    · rw [Matrix.submatrix_apply, finSumFinEquiv_symm_apply_castAdd]
      exact entry_catCols_left A B j.isLt
    · rw [Matrix.submatrix_apply, finSumFinEquiv_symm_apply_natAdd]
      exact entry_catCols_right hrows i j
  have hB' : (B.block A.rows B.cols)ᵀ * B.block A.rows B.cols = 1 := by
    rw [← hrows]
    exact hB
  have hapart' : (B.block A.rows B.cols)ᵀ * whole A = 0 := by
    have htranspose := congrArg Matrix.transpose hapart
    rwa [Matrix.transpose_mul, Matrix.transpose_transpose, Matrix.transpose_zero] at htranspose
  show ((catCols A B).block A.rows (A.cols + B.cols))ᵀ *
    (catCols A B).block A.rows (A.cols + B.cols) = 1
  rw [hcat, Matrix.transpose_submatrix,
    ← Matrix.submatrix_mul _ _ _ id _ Function.bijective_id, Matrix.transpose_fromCols,
    Matrix.fromRows_mul_fromCols, hA, hB', hapart, hapart', Matrix.fromBlocks_one,
    Matrix.submatrix_one_equiv]

end Orthonormal

/-! ### What is returned -/

section Returned

variable [LinearOrder K] {math : RsvdMath K} {M Q : ShapedMatrix K} {blockSize : ℕ}

/-- The left factor is orthonormal with the basis. -/
theorem orthonormal_totalFactors (hQ : (whole Q)ᵀ * whole Q = 1)
    (hsvd : (math.svd (projected M Q)).Documented) :
    (whole (totalFactors math M Q).u)ᵀ * whole (totalFactors math M Q).u = 1 := by
  set svd := math.svd (projected M Q)
  have hmul : (totalFactors math M Q).u.block Q.rows svd.u.cols =
      whole Q * svd.u.block Q.cols svd.u.cols := ShapedMatrix.block_mul le_rfl _ _
  have hu : (svd.u.block Q.cols svd.u.cols)ᵀ * svd.u.block Q.cols svd.u.cols = 1 := by
    rw [svd.shape_u.2]
    exact hsvd.orthonormal_u
  show ((totalFactors math M Q).u.block Q.rows svd.u.cols)ᵀ *
    (totalFactors math M Q).u.block Q.rows svd.u.cols = 1
  rw [hmul, Matrix.transpose_mul, Matrix.mul_assoc, ← Matrix.mul_assoc _ (whole Q), hQ,
    Matrix.one_mul, hu]

/-- The distance to the projection on orthonormal columns. -/
theorem distance_project (hQ : (whole Q)ᵀ * whole Q = 1) (hrows : Q.rows = M.rows)
    (hsvd : (math.svd (projected M Q)).Documented) :
    M.distance (project Q M) = sqNorm (whole M) - ∑ k : Fin (min Q.cols M.cols),
      (totalFactors math M Q).s k * (totalFactors math M Q).s k := by
  have hkept : sqNorm ((whole Q)ᵀ * M.block Q.rows M.cols) =
      ∑ k : Fin (min Q.cols M.cols),
        (totalFactors math M Q).s k * (totalFactors math M Q).s k := by
    rw [← block_projected hrows]
    exact hsvd.sqNorm_eq
  have hzero : sqNorm (0 : Matrix (Fin Q.cols) (Fin M.cols) K) = 0 := innerProd_zero_right _
  show sqNorm (M.block M.rows M.cols - (project Q M).block M.rows M.cols) =
    sqNorm (M.block M.rows M.cols) - _
  rw [← hrows, block_project, sqNorm_sub_mul hQ, sub_self, hzero, add_zero, hkept]

end Returned

/-! ### Runs -/

section Runs

variable [LinearOrder K] {math : RsvdMath K} {M : ShapedMatrix K} {epsilon : K} {blockSize : ℕ}

omit [LinearOrder K] in
theorem rows_columnsOf (k : ℕ) : (columnsOf math M blockSize k).rows = M.rows := by
  cases k <;> rfl

omit [LinearOrder K] in
theorem cols_columnsOf (k : ℕ) : (columnsOf math M blockSize k).cols = blockSize := by
  cases k <;> exact (math.shape_randn _ _ _).2

omit [LinearOrder K] in
/-- The basis stays orthonormal while the columns of each later round are
independent. -/
theorem orthonormal_basis {r : ℕ}
    (hqr : ∀ k ≤ r, Reduced (columnsOf math M blockSize k) (block math M blockSize k))
    (hindependent : ∀ k ≤ r, 0 < k → Independent (columnsOf math M blockSize k)) :
    (whole (basis math M blockSize r))ᵀ * whole (basis math M blockSize r) = 1 := by
  induction r with
  | zero => exact (hqr 0 le_rfl).orthonormal
  | succ r ih =>
    have hbasis := ih (fun k hk => hqr k (Nat.le_succ_of_le hk))
      fun k hk => hindependent k (Nat.le_succ_of_le hk)
    have hrows : (basis math M blockSize r).rows = M.rows :=
      (entry_project_basis (fun k hk => (hqr k (Nat.le_succ_of_le hk)).rows.trans
        (rows_columnsOf k)) 0 0).1
    have hnew := hqr (r + 1) le_rfl
    have hnewRows : (block math M blockSize (r + 1)).rows = (basis math M blockSize r).rows :=
      (hnew.rows.trans (rows_columnsOf (r + 1))).trans hrows.symm
    exact orthonormal_catCols hbasis hnew.orthonormal hnewRows
      (newBlock_orthogonal (Y := orthogonalize (basis math M blockSize r)
        (M.mul (math.randn (r + 1) M.cols blockSize))) hbasis hrows hnew
        (hindependent (r + 1) le_rfl (Nat.succ_pos r)))

/-- What a call that returns has appended. -/
theorem exists_of_eq_ok {maxBlocks : ℕ} {f : Factors K}
    (h : adaptiveRsvdBootstrap math M epsilon blockSize maxBlocks = .ok f) :
    ∃ r < maxBlocks, f = totalFactors math M (basis math M blockSize r) ∧
      (∀ k < r, epsilon ≤ weight math M blockSize (k + 1) / weight math M blockSize 0) ∧
      (r + 1 < maxBlocks →
        weight math M blockSize (r + 1) / weight math M blockSize 0 < epsilon) := by
  unfold adaptiveRsvdBootstrap at h
  obtain ⟨acc, hrounds, h⟩ := Effect.bind_eq_ok.mp h
  cases maxBlocks with
  | zero =>
    cases hrounds
    cases h
  | succ n =>
    rw [rounds_first] at hrounds
    obtain ⟨-, -, hrounds⟩ := Effect.bind_eq_ok.mp hrounds
    obtain ⟨r, hr, rfl, hkept, hend⟩ := rounds_eq_ok (k := 0) hrounds
    rw [Nat.zero_add] at h hend
    refine ⟨r, Nat.lt_succ_of_le hr, (Except.ok.inj h).symm, fun k hk => ?_, fun hlt => ?_⟩
    · have hk' := hkept k hk
      rwa [Nat.zero_add, Nat.add_comm 1 k] at hk'
    · have hend' := hend (Nat.lt_of_succ_lt_succ hlt)
      rwa [Nat.add_comm 1 r] at hend'

/-- A loop whose first block has weight returns. -/
theorem rounds_returns (hnonempty : ∀ k, min (projected M (block math M blockSize k)).rows
    (projected M (block math M blockSize k)).cols ≠ 0) (hweight : weight math M blockSize 0 ≠ 0)
    (n k : ℕ) : ∃ acc, rounds math M epsilon blockSize n (k + 1)
      (some (accumulated math M blockSize k)) = .ok (some acc) := by
  induction n generalizing k with
  | zero => exact ⟨_, rfl⟩
  | succ n ih =>
    obtain ⟨acc, hacc⟩ := ih (k + 1)
    rw [rounds_next, largest_eq_ok.mpr ⟨hnonempty (k + 1), rfl⟩]
    show ∃ acc, ite _ _ _ = _
    rw [if_neg hweight]
    split_ifs
    · exact ⟨_, rfl⟩
    · exact ⟨acc, hacc⟩

theorem bootstrap_returns (hnonempty : ∀ k, min (projected M (block math M blockSize k)).rows
    (projected M (block math M blockSize k)).cols ≠ 0) (hweight : weight math M blockSize 0 ≠ 0)
    (n : ℕ) : ∃ f, adaptiveRsvdBootstrap math M epsilon blockSize (n + 1) = .ok f := by
  obtain ⟨acc, hacc⟩ : ∃ acc, rounds math M epsilon blockSize n 1
      (some (accumulated math M blockSize 0)) = .ok (some acc) :=
    rounds_returns hnonempty hweight n 0
  refine ⟨acc.factors, ?_⟩
  unfold adaptiveRsvdBootstrap
  rw [rounds_first, largest_eq_ok.mpr ⟨hnonempty 0, rfl⟩]
  show (rounds math M epsilon blockSize n 1 _ >>= _) = _
  rw [hacc]
  rfl

end Runs

/-! ### A matrix of one entry -/

/-- The length of the first column. -/
noncomputable def columnNorm (W : ShapedMatrix ℝ) : ℝ :=
  √(∑ i ∈ Finset.range W.rows, W.entry i 0 * W.entry i 0)

/-- A tensor library that decomposes columns as the real one does. -/
noncomputable def columnMath : RsvdMath ℝ where
  randn _ rows cols := realUnits rows cols
  shape_randn _ _ _ := ⟨rfl, rfl⟩
  qr Y := realUnits Y.rows (min Y.rows Y.cols)
  svd W := ⟨.ofFn W.rows (min W.rows W.cols) fun i _ => W.entry i 0 / columnNorm W,
    fun _ => columnNorm W, realUnits (min W.rows W.cols) W.cols, ⟨rfl, rfl⟩, ⟨rfl, rfl⟩⟩

/-- A matrix with an entry has rows and columns. -/
theorem pos_of_entry_ne_zero {W : ShapedMatrix ℝ} (h : W.entry 0 0 ≠ 0) :
    0 < W.rows ∧ 0 < W.cols := by
  by_contra hempty
  exact h (W.support 0 0 hempty)

theorem columnNorm_pos {W : ShapedMatrix ℝ} (h : W.entry 0 0 ≠ 0) : 0 < columnNorm W := by
  obtain ⟨hrows, -⟩ := pos_of_entry_ne_zero h
  have hle : W.entry 0 0 * W.entry 0 0 ≤ ∑ i ∈ Finset.range W.rows, W.entry i 0 * W.entry i 0 :=
    Finset.single_le_sum (f := fun i => W.entry i 0 * W.entry i 0)
      (fun i _ => mul_self_nonneg _) (Finset.mem_range.mpr hrows)
  exact Real.sqrt_pos.mpr ((mul_self_pos.mpr h).trans_le hle)

theorem documented_column {W : ShapedMatrix ℝ} (hcols : W.cols = 1) (h : W.entry 0 0 ≠ 0) :
    (columnMath.svd W).Documented := by
  have hnorm := columnNorm_pos h
  obtain ⟨hrows, -⟩ := pos_of_entry_ne_zero h
  have hmin : min W.rows W.cols = 1 := by
    rw [hcols]
    exact min_eq_right hrows
  have hzero : ∀ k : Fin (min W.rows W.cols), (k : ℕ) = 0 := fun k => by
    have hk := k.isLt
    omega
  have hu : ∀ (i : Fin W.rows) (k : Fin (min W.rows W.cols)),
      (columnMath.svd W).blocks.u i k = W.entry i 0 / columnNorm W :=
    fun i k => if_pos ⟨i.isLt, k.isLt⟩
  have hvh : ∀ (k : Fin (min W.rows W.cols)) (j : Fin W.cols),
      (columnMath.svd W).blocks.vh k j = 1 := fun k j => by
    have hj := j.isLt
    exact (if_pos ⟨k.isLt, j.isLt⟩).trans (if_pos (by rw [hzero k]; omega))
  refine ⟨?_, ?_, fun k => hnorm.le, fun k l _ => le_rfl, ?_⟩
  · ext k l
    have hsum : ∑ i ∈ Finset.range W.rows, W.entry i 0 * W.entry i 0 =
        columnNorm W * columnNorm W :=
      (Real.mul_self_sqrt (Finset.sum_nonneg fun i _ => mul_self_nonneg _)).symm
    rw [Matrix.mul_apply, Matrix.one_apply, if_pos (Fin.ext ((hzero k).trans (hzero l).symm))]
    simp only [Matrix.transpose_apply, hu, div_mul_div_comm]
    rw [← Finset.sum_div, Fin.sum_univ_eq_sum_range (fun i => W.entry i 0 * W.entry i 0), hsum,
      div_self (mul_self_pos.mpr hnorm.ne').ne']
  · ext k l
    rw [Matrix.mul_apply, Matrix.one_apply, if_pos (Fin.ext ((hzero k).trans (hzero l).symm))]
    simp only [Matrix.transpose_apply, hvh, mul_one, Finset.sum_const, Finset.card_univ,
      Fintype.card_fin, hcols, one_smul]
  · ext i j
    rw [Matrix.mul_apply]
    simp only [Matrix.mul_diagonal, hu, hvh, mul_one]
    show W.entry i j = ∑ _k : Fin (min W.rows W.cols), W.entry i 0 / columnNorm W * columnNorm W
    have hj := j.isLt
    rw [Finset.sum_const, Finset.card_univ, Fintype.card_fin, hmin, one_smul,
      div_mul_cancel₀ _ hnorm.ne', show (j : ℕ) = 0 by omega]

theorem reduced_entry {Y : ShapedMatrix ℝ} (hrows : Y.rows = 1) (hcols : Y.cols = 1) :
    Reduced Y (columnMath.qr Y) := by
  obtain ⟨rows, cols, entry, support⟩ := Y
  subst hrows
  subst hcols
  have hone : (realUnits 1 1).block 1 1 = 1 := by
    ext i j
    rw [Subsingleton.elim j i, Matrix.one_apply_eq]
    exact (if_pos ⟨i.isLt, i.isLt⟩).trans (if_pos rfl)
  set Y : ShapedMatrix ℝ := ⟨1, 1, entry, support⟩
  refine ⟨rfl, rfl, ?_, Y.block 1 1, ?_⟩
  · show ((realUnits 1 1).block 1 1)ᵀ * (realUnits 1 1).block 1 1 = 1
    rw [hone, Matrix.transpose_one, Matrix.one_mul]
  · show Y.block 1 1 = (realUnits 1 1).block 1 1 * Y.block 1 1
    rw [hone, Matrix.one_mul]

def three : ShapedMatrix ℝ := .ofFn 1 1 fun _ _ => 3

theorem entry_three : three.entry 0 0 = 3 := by
  show (if 0 < 1 ∧ 0 < 1 then (3 : ℝ) else 0) = 3
  exact if_pos ⟨Nat.one_pos, Nat.one_pos⟩

theorem reduced_three (k : ℕ) :
    Reduced (columnsOf columnMath three 1 k) (block columnMath three 1 k) :=
  reduced_entry (rows_columnsOf k) (cols_columnsOf k)

theorem entry_block_three (k : ℕ) : (block columnMath three 1 k).entry 0 0 = 1 := by
  have hrows : (columnsOf columnMath three 1 k).rows = 1 := rows_columnsOf k
  have hcols : (columnsOf columnMath three 1 k).cols = 1 := cols_columnsOf k
  have hheight := Nat.lt_of_lt_of_eq Nat.one_pos hrows.symm
  have hwidth := Nat.lt_of_lt_of_eq Nat.one_pos hcols.symm
  exact (if_pos ⟨hheight, lt_min hheight hwidth⟩).trans (if_pos rfl)

theorem entry_basis_three (k : ℕ) : (basis columnMath three 1 k).entry 0 0 = 1 := by
  induction k with
  | zero => exact entry_block_three 0
  | succ k ih =>
    have hne : (basis columnMath three 1 k).entry 0 0 ≠ 0 := ih.trans_ne one_ne_zero
    exact (entry_catCols_left _ _ (pos_of_entry_ne_zero hne).2).trans ih

theorem entry_projected_three {Q : ShapedMatrix ℝ} (h : Q.entry 0 0 = 1) :
    (projected three Q).entry 0 0 = 3 := by
  show ∑ l ∈ Finset.range 1, three.entry l 0 * Q.entry l 0 = 3
  rw [Finset.sum_range_one, h, mul_one, entry_three]

theorem documented_three {Q : ShapedMatrix ℝ} (h : Q.entry 0 0 = 1) :
    (columnMath.svd (projected three Q)).Documented := by
  refine documented_column rfl ?_
  rw [entry_projected_three h]
  exact three_ne_zero

theorem weight_three (k : ℕ) : weight columnMath three 1 k = 3 := by
  have hcols : (block columnMath three 1 k).cols = 1 := by
    rw [(reduced_three k).cols, rows_columnsOf, cols_columnsOf]
    rfl
  show √(∑ i ∈ Finset.range (block columnMath three 1 k).cols,
    (projected three (block columnMath three 1 k)).entry i 0 *
      (projected three (block columnMath three 1 k)).entry i 0) = 3
  rw [hcols, Finset.sum_range_one, entry_projected_three (entry_block_three k)]
  exact Real.sqrt_mul_self zero_le_three

theorem three_returns (n : ℕ) :
    ∃ f, adaptiveRsvdBootstrap columnMath three (1 / 1000) 1 (n + 1) = .ok f := by
  refine bootstrap_returns (fun k => ?_) ((weight_three 0).trans_ne three_ne_zero) n
  have hentry := (entry_projected_three (entry_block_three k)).trans_ne three_ne_zero
  obtain ⟨hrows, hcols⟩ := pos_of_entry_ne_zero hentry
  exact (lt_min hrows hcols).ne'

/-! ### The factors -/

section Results

variable [LinearOrder K] {math : RsvdMath K} {M : ShapedMatrix K} {epsilon : K} {blockSize : ℕ}

/-- **What the factors are.**  The factors returned multiply to the sum of the
projections on the blocks appended: each of enough weight, and the next of too
little unless the rounds ran out.  If the columns of the later rounds were
independent, the left factor is orthonormal, and the product misses what the
singular values leave of the norm. -/
theorem rsvd_product {maxBlocks : ℕ} {f : Factors K}
    (h : adaptiveRsvdBootstrap math M epsilon blockSize maxBlocks = .ok f)
    (hqr : ∀ k < maxBlocks, Reduced (columnsOf math M blockSize k) (block math M blockSize k))
    (hsvd : ∀ k < maxBlocks, (math.svd (projected M (basis math M blockSize k))).Documented) :
    ∃ r < maxBlocks,
      (∀ k < r, epsilon ≤ weight math M blockSize (k + 1) / weight math M blockSize 0) ∧
      (r + 1 < maxBlocks →
        weight math M blockSize (r + 1) / weight math M blockSize 0 < epsilon) ∧
      (∀ i j, f.product.entry i j =
        ∑ k ∈ Finset.range (r + 1), (project (block math M blockSize k) M).entry i j) ∧
      ((∀ k ≤ r, 0 < k → Independent (columnsOf math M blockSize k)) →
        (whole f.u)ᵀ * whole f.u = 1 ∧
        M.distance f.product = sqNorm (whole M) -
          ∑ k : Fin (min (basis math M blockSize r).cols M.cols), f.s k * f.s k) := by
  obtain ⟨r, hr, rfl, hkept, hend⟩ := exists_of_eq_ok h
  have hqr' : ∀ k ≤ r, Reduced (columnsOf math M blockSize k) (block math M blockSize k) :=
    fun k hk => hqr k (hk.trans_lt hr)
  have hsum := entry_project_basis fun k hk => (hqr' k hk).rows.trans (rows_columnsOf k)
  have hrows : (basis math M blockSize r).rows = M.rows := (hsum 0 0).1
  refine ⟨r, hr, hkept, hend, fun i j => ?_, fun hindependent => ?_⟩
  · rw [product_totalFactors hrows (hsvd r hr)]
    exact (hsum i j).2
  · have hbasis := orthonormal_basis hqr' hindependent
    refine ⟨orthonormal_totalFactors hbasis (hsvd r hr), ?_⟩
    rw [product_totalFactors hrows (hsvd r hr)]
    exact distance_project hbasis hrows (hsvd r hr)

end Results

theorem three_product : ∃ f, adaptiveRsvdBootstrap columnMath three (1 / 1000) 1 2 = .ok f ∧
    f.product.entry 0 0 = (project (block columnMath three 1 0) three).entry 0 0 +
      (project (block columnMath three 1 1) three).entry 0 0 := by
  obtain ⟨f, hf⟩ := three_returns 1
  obtain ⟨r, hr, -, hend, hproduct, -⟩ := rsvd_product hf
    (fun k _ => reduced_three k) (fun k _ => documented_three (entry_basis_three k))
  obtain rfl : r = 1 := by
    by_contra hne
    have hlt := hend (by omega)
    rw [weight_three, weight_three] at hlt
    norm_num at hlt
  refine ⟨f, hf, ?_⟩
  rw [hproduct, Finset.sum_range_succ, Finset.sum_range_one]

/-! ### Blocks as wide as the matrix is high -/

section Overshoot

variable {math : RsvdMath K} {M Q : ShapedMatrix K} {epsilon : K} {blockSize : ℕ}

/-- As many orthonormal columns as rows are a basis of the space. -/
theorem whole_mul_transpose (hQ : (whole Q)ᵀ * whole Q = 1) (hsquare : Q.cols = Q.rows) :
    whole Q * (whole Q)ᵀ = 1 :=
  (Matrix.mul_eq_one_comm_of_card_eq _ _ K (by rw [Fintype.card_fin, Fintype.card_fin, hsquare])).mp
    hQ

/-- The projection on one is the matrix. -/
theorem project_square (hQ : (whole Q)ᵀ * whole Q = 1) (hsquare : Q.cols = Q.rows)
    (hrows : Q.rows = M.rows) : project Q M = M := by
  have hblock : (project Q M).block Q.rows M.cols = M.block Q.rows M.cols := by
    rw [block_project, ← Matrix.mul_assoc, whole_mul_transpose hQ hsquare, Matrix.one_mul]
  calc project Q M = .ofBlock ((project Q M).block Q.rows M.cols) :=
        (ShapedMatrix.ofBlock_block rfl rfl).symm
    _ = .ofBlock (M.block Q.rows M.cols) := by rw [hblock]
    _ = M := ShapedMatrix.ofBlock_block hrows.symm rfl

/-- And lengthens a column as the matrix does. -/
theorem sqNorm_projected_mul (hQ : (whole Q)ᵀ * whole Q = 1) (hsquare : Q.cols = Q.rows)
    (hrows : Q.rows = M.rows) (X : Matrix (Fin M.cols) Unit K) :
    sqNorm ((projected M Q).block Q.cols M.cols * X) = sqNorm (whole M * X) := by
  have hcolumns : (whole Q)ᵀᵀ * (whole Q)ᵀ = 1 := by
    rw [Matrix.transpose_transpose, whole_mul_transpose hQ hsquare]
  rw [block_projected hrows, Matrix.mul_assoc, sqNorm_mul_left hcolumns]
  show sqNorm (M.block Q.rows M.cols * X) = sqNorm (M.block M.rows M.cols * X)
  rw [hrows]

theorem whole_eq_zero (hQ : (whole Q)ᵀ * whole Q = 1) (hsquare : Q.cols = Q.rows)
    (hrows : Q.rows = M.rows) (hzero : whole (projected M Q) = 0) : whole M = 0 := by
  have hprojected : (whole Q)ᵀ * M.block Q.rows M.cols = 0 :=
    (block_projected hrows).symm.trans hzero
  have hM : M.block Q.rows M.cols = 0 := by
    rw [← Matrix.one_mul (M.block Q.rows M.cols), ← whole_mul_transpose hQ hsquare,
      Matrix.mul_assoc, hprojected, Matrix.mul_zero]
  rw [hrows] at hM
  exact hM

variable [LinearOrder K] [IsStrictOrderedRing K]

/-- **Blocks as wide as the matrix is high overshoot.**  No round is refused, so
that all of them run, and each adds the matrix once more. -/
theorem rsvd_overshoots (hM : whole M ≠ 0) (hwide : M.rows ≤ blockSize) (hepsilon : epsilon ≤ 1)
    (hqr : ∀ k, Reduced (columnsOf math M blockSize k) (block math M blockSize k))
    (hblock : ∀ k, (math.svd (projected M (block math M blockSize k))).Documented)
    (hbasis : ∀ k, (math.svd (projected M (basis math M blockSize k))).Documented) (n : ℕ) :
    ∃ f, adaptiveRsvdBootstrap math M epsilon blockSize (n + 1) = .ok f ∧
      ∀ i j, f.product.entry i j = (n + 1) * M.entry i j := by
  set Q := block math M blockSize with hQdef
  have hrows : ∀ k, (Q k).rows = M.rows := fun k => (hqr k).rows.trans (rows_columnsOf k)
  have hsquare : ∀ k, (Q k).cols = (Q k).rows := fun k => by
    rw [(hqr k).cols, rows_columnsOf, cols_columnsOf, min_eq_left hwide, hrows k]
  have horthonormal : ∀ k, (whole (Q k))ᵀ * whole (Q k) = 1 := fun k => (hqr k).orthonormal
  -- a matrix that is not zero has rows and columns
  obtain ⟨i, j, -⟩ : ∃ i j, whole M i j ≠ 0 := by
    by_contra hall
    push Not at hall
    exact hM (Matrix.ext hall)
  have hpos : ∀ k, 0 < min (projected M (Q k)).rows (projected M (Q k)).cols := fun k => by
    refine lt_min ?_ (Nat.zero_lt_of_lt j.isLt)
    show 0 < (Q k).cols
    rw [hsquare k, hrows k]
    exact Nat.zero_lt_of_lt i.isLt
  have hweights : ∀ k, weight math M blockSize k = weight math M blockSize 0 := fun k =>
    leading_eq (hblock k) (hblock 0) (fun X =>
      (sqNorm_projected_mul (horthonormal k) (hsquare k) (hrows k) X).trans
        (sqNorm_projected_mul (horthonormal 0) (hsquare 0) (hrows 0) X).symm) (hpos k) (hpos 0)
  have hweight : weight math M blockSize 0 ≠ 0 := ((hblock 0).leading_pos
    (fun hzero => hM (whole_eq_zero (horthonormal 0) (hsquare 0) (hrows 0) hzero)) (hpos 0)).ne'
  obtain ⟨f, hreturns⟩ : ∃ f, adaptiveRsvdBootstrap math M epsilon blockSize (n + 1) = .ok f :=
    bootstrap_returns (fun k => (hpos k).ne') hweight n
  obtain ⟨r, hr, hfactors, -, hend⟩ := exists_of_eq_ok hreturns
  obtain rfl : r = n := by
    by_contra hne
    have hlt := hend (by omega)
    rw [hweights, div_self hweight] at hlt
    exact absurd hlt (not_lt.mpr hepsilon)
  refine ⟨_, hreturns, fun i j => ?_⟩
  obtain ⟨hbasisRows, hsum⟩ := entry_project_basis (fun k _ => hrows k) i j
  rw [hfactors, product_totalFactors hbasisRows (hbasis r), hsum]
  rw [Finset.sum_congr rfl fun k _ => by
    rw [project_square (horthonormal k) (hsquare k) (hrows k)]]
  rw [Finset.sum_const, Finset.card_range, nsmul_eq_mul, Nat.cast_succ]

end Overshoot

theorem three_overshoots : ∃ f, adaptiveRsvdBootstrap columnMath three (1 / 1000) 1 100 = .ok f ∧
    f.product.entry 0 0 = 300 := by
  have hM : whole three ≠ 0 := fun hzero => by
    have hentry := congrFun (congrFun hzero ⟨0, Nat.one_pos⟩) ⟨0, Nat.one_pos⟩
    exact three_ne_zero (entry_three.symm.trans hentry)
  have hepsilon : (1 / 1000 : ℝ) ≤ 1 := by norm_num
  have hwide : three.rows ≤ 1 := le_rfl
  obtain ⟨f, hf, hproduct⟩ := rsvd_overshoots hM hwide hepsilon reduced_three
    (fun k => documented_three (entry_block_three k))
    (fun k => documented_three (entry_basis_three k)) 99
  refine ⟨f, hf, (hproduct 0 0).trans ?_⟩
  rw [entry_three]
  norm_num

end AdaptiveRsvd
