/-
Aligning source activations to a target by rotations and scales.

The columns of both matrices are split into heads.  For each head the singular
directions of the cross-covariance give an orthogonal matrix and a scale; the
source head is rotated and scaled by them, and a bias with it.  The variants
dampen the scale, treat every expert as one head, or weigh the source by the
curvature of the target's activation function first.

* `headWise_bestFit_iff` — for every head, exactly when no orthogonal matrix
  and no scale come closer;
* `headWise_recovers` — a target that is the source, rotated and scaled head
  by head, is reached, and a bias is carried along;
* `quantizationAware_loss` — what the dampening costs;
* `expertWise_bestFit_iff` — the experts, one by one;
* `derivativeAlignments_best` — the variants that weigh the source.

The decomposition and the transcendental functions are parameters.
-/
import NeuralScalpel.Effect
import NeuralScalpel.FailurePolicy
import NeuralScalpel.Frobenius
import NeuralScalpel.ShapedMatrix
import Mathlib.Logic.Equiv.Fin.Basic

namespace Procrustes

open Frobenius Matrix

variable {K : Type}

/-! ### Heads -/

section Heads

variable [Zero K]

/-- The entries row after row. -/
def flat (X : ShapedMatrix K) (p : ℕ) : K := X.entry (p / X.cols) (p % X.cols)

/-- `X.view(N, num_heads, head_dim)`, head by head. -/
def viewHeads (X : ShapedMatrix K) (N numHeads headDim : ℕ) :
    Except PyError (Fin numHeads → Matrix (Fin N) (Fin headDim) K) :=
  if X.rows * X.cols = N * numHeads * headDim then
    .ok fun i n k => flat X ((n * numHeads + i) * headDim + k)
  else .error (.runtimeError
    s!"shape '[{N}, {numHeads}, {headDim}]' is invalid for input of size {X.rows * X.cols}")

/-- The heads side by side again, as `reshape(N, d)` does. -/
def joinHeads {N numHeads headDim : ℕ} (d : ℕ)
    (heads : Fin numHeads → Matrix (Fin N) (Fin headDim) K) : ShapedMatrix K where
  rows := N
  cols := d
  entry n j :=
    if h : (n < N ∧ j < d) ∧ j < numHeads * headDim then
      heads (finProdFinEquiv.symm ⟨j, h.2⟩).1 ⟨n, h.1.1⟩ (finProdFinEquiv.symm ⟨j, h.2⟩).2
    else 0
  support _ _ h := dif_neg fun hin => h hin.1

/-- Head `i` of a matrix whose columns split into heads. -/
def headOf (N headDim : ℕ) (X : ShapedMatrix K) (i : ℕ) : Matrix (Fin N) (Fin headDim) K :=
  fun n k => X.entry n (i * headDim + k)

theorem head_index_lt {numHeads headDim : ℕ} (i : Fin numHeads) (k : Fin headDim) :
    i * headDim + k < numHeads * headDim :=
  calc i * headDim + k < i * headDim + headDim := Nat.add_lt_add_left k.isLt _
    _ = (i + 1) * headDim := (Nat.succ_mul _ _).symm
    _ ≤ numHeads * headDim := Nat.mul_le_mul_right _ i.isLt

/-- The heads of a view are the heads of the matrix. -/
theorem viewHeads_eq_ok {X : ShapedMatrix K} {N numHeads headDim : ℕ}
    {heads : Fin numHeads → Matrix (Fin N) (Fin headDim) K} (hrows : X.rows = N)
    (hcols : X.cols = numHeads * headDim) (h : viewHeads X N numHeads headDim = .ok heads)
    (i : Fin numHeads) : heads i = headOf N headDim X i := by
  unfold viewHeads at h
  rw [if_pos (by rw [hrows, hcols, Nat.mul_assoc])] at h
  obtain rfl := Except.ok.inj h
  ext n k
  have hlt := head_index_lt i k
  have hflat : (n * numHeads + i) * headDim + k = i * headDim + k + X.cols * n := by
    rw [hcols, Nat.add_mul, Nat.mul_assoc, Nat.mul_comm (n : ℕ)]
    omega
  show flat X _ = X.entry n (i * headDim + k)
  rw [hflat, flat, Nat.add_mul_div_left _ _ (by omega), Nat.add_mul_mod_self_left,
    Nat.div_eq_of_lt (by omega), Nat.mod_eq_of_lt (by omega), Nat.zero_add]

theorem headOf_joinHeads {N numHeads headDim d : ℕ} (hd : d = numHeads * headDim)
    (heads : Fin numHeads → Matrix (Fin N) (Fin headDim) K) (i : Fin numHeads) :
    headOf N headDim (joinHeads d heads) i = heads i := by
  ext n k
  have hlt := head_index_lt i k
  have hpair : finProdFinEquiv.symm ⟨i * headDim + k, hlt⟩ = (i, k) := by
    rw [Equiv.symm_apply_eq]
    refine Fin.ext ?_
    show i * headDim + k = k + headDim * i
    rw [Nat.mul_comm headDim, Nat.add_comm]
  show (if h : _ then _ else _) = _
  rw [dif_pos ⟨⟨n.isLt, hd ▸ hlt⟩, hlt⟩, hpair]

/-- A matrix is its heads. -/
theorem ext_headOf {X Y : ShapedMatrix K} {numHeads headDim : ℕ} (hrows : X.rows = Y.rows)
    (hX : X.cols = numHeads * headDim) (hY : Y.cols = numHeads * headDim)
    (h : ∀ i : Fin numHeads, headOf X.rows headDim X i = headOf X.rows headDim Y i) : X = Y := by
  refine ShapedMatrix.ext hrows (hX.trans hY.symm) fun n j => ?_
  by_cases hin : n < X.rows ∧ j < X.cols
  · have hj : j < numHeads * headDim := hX ▸ hin.2
    set p := finProdFinEquiv.symm ⟨j, hj⟩ with hp
    have hval : (p.1 : ℕ) * headDim + p.2 = j := by
      have hback := congrArg Fin.val (Equiv.apply_symm_apply finProdFinEquiv ⟨j, hj⟩)
      rw [← hp] at hback
      rw [Nat.mul_comm, Nat.add_comm]
      exact hback
    have hentry := congrFun (congrFun (h p.1) ⟨n, hin.1⟩) p.2
    simpa only [headOf, hval] using hentry
  · rw [X.support n j hin, Y.support n j (by rw [← hrows, hY, ← hX]; exact hin)]

/-- A row as its heads. -/
theorem sum_cols_eq_heads {R : Type} [AddCommMonoid R] {numHeads headDim : ℕ} (f : ℕ → R) :
    ∑ j ∈ Finset.range (numHeads * headDim), f j =
      ∑ i : Fin numHeads, ∑ k : Fin headDim, f (i * headDim + k) := by
  rw [Finset.sum_range, ← Equiv.sum_comp finProdFinEquiv, Fintype.sum_prod_type]
  refine Finset.sum_congr rfl fun i _ => Finset.sum_congr rfl fun k _ => ?_
  rw [finProdFinEquiv_apply_val, Nat.mul_comm, Nat.add_comm]

end Heads

/-! ### One head -/

/-- A decomposition into singular directions, for every matrix. -/
abbrev SvdFn (K : Type) := ∀ ⦃m n : ℕ⦄, Matrix (Fin m) (Fin n) K → Svd K m n

section Head

variable [Field K] (svd : SvdFn K) {N d : ℕ}

/-- `R = U @ V^T` for the cross-covariance. -/
def rotation (A B : Matrix (Fin N) (Fin d) K) : Matrix (Fin d) (Fin d) K :=
  let f := svd (Aᵀ * B)
  f.u * f.vh

/-- `Tr(S) / Tr(A^T A)`, the denominator kept away from zero. -/
def scale [LinearOrder K] (A B : Matrix (Fin N) (Fin d) K) : K :=
  let f := svd (Aᵀ * B)
  (∑ i, f.s i) / max (∑ n, ∑ k, A n k * A n k) 1e-12

end Head

/-- The scale is not held back: there is nothing to align, or the source head
is large enough. -/
def Resolved [Field K] [LinearOrder K] {N d : ℕ} (A B : Matrix (Fin N) (Fin d) K) : Prop :=
  Aᵀ * B = 0 ∨ 1e-12 ≤ sqNorm A

section Head

variable [Field K] [LinearOrder K] [IsStrictOrderedRing K] {svd : SvdFn K} {N d : ℕ}
variable {A B : Matrix (Fin N) (Fin d) K}

theorem scale_mul_sq_iff (h : (svd (Aᵀ * B)).Decomposes (Aᵀ * B)) :
    scale svd A B * sqNorm A = ∑ i, (svd (Aᵀ * B)).s i ↔ Resolved A B := by
  have htiny : (0 : K) < 1e-12 := by norm_num
  have hscale : scale svd A B = (∑ i, (svd (Aᵀ * B)).s i) / max (sqNorm A) 1e-12 := rfl
  rw [Resolved, ← h.sum_eq_zero_iff, hscale]
  rcases le_or_gt 1e-12 (sqNorm A) with hbig | hsmall
  · rw [max_eq_left hbig, div_mul_cancel₀ _ (lt_of_lt_of_le htiny hbig).ne']
    exact iff_of_true rfl (Or.inr hbig)
  · rw [max_eq_right hsmall.le, div_mul_eq_mul_div, div_eq_iff htiny.ne', mul_eq_mul_left_iff]
    refine ⟨fun h => Or.inl (h.resolve_left hsmall.ne), fun h => Or.inr ?_⟩
    exact h.resolve_right (not_le.mpr hsmall)

/-- Exactly then no other rotation and scale come closer. -/
theorem bestFit_iff_resolved (h : (svd (Aᵀ * B)).Decomposes (Aᵀ * B)) :
    BestFit A B (rotation svd A B) (scale svd A B) ↔ Resolved A B :=
  (bestFit_iff h _).trans (scale_mul_sq_iff h)

end Head

/-! ### All heads -/

/-- What the alignments return; those that take no bias return none. -/
structure HeadAlignment (K : Type) [Zero K] (numHeads : ℕ) where
  headDim : ℕ
  transformed : ShapedMatrix K
  bias : Option (List K)
  rotations : Fin numHeads → Matrix (Fin headDim) (Fin headDim) K
  scales : Fin numHeads → K

section Alignment

variable [Field K]

/-- `s * (b @ R)`, head by head. -/
def transformBias {numHeads headDim : ℕ}
    (rotations : Fin numHeads → Matrix (Fin headDim) (Fin headDim) K) (scales : Fin numHeads → K)
    (bias : List K) : List K :=
  List.ofFn fun j : Fin (numHeads * headDim) =>
    let i := (finProdFinEquiv.symm j).1
    (∑ k : Fin headDim, bias.getD (i * headDim + k) 0 *
      rotations i k (finProdFinEquiv.symm j).2) * scales i

/-- The part of the function that deals with the bias. -/
def alignBias {numHeads headDim : ℕ} (d : ℕ)
    (rotations : Fin numHeads → Matrix (Fin headDim) (Fin headDim) K) (scales : Fin numHeads → K) :
    Option (List K) → Except PyError (Option (List K))
  | none => .ok none
  | some bias =>
    if bias.length ≠ d then
      .error (.valueError s!"Bias dimension {bias.length} does not match d {d}")
    else .ok (some (transformBias rotations scales bias))

/-- The checks on the shapes. -/
def checkShapes (A B : ShapedMatrix K) (numHeads : ℕ) : Except PyError Unit :=
  if ¬(A.rows = B.rows ∧ A.cols = B.cols) then
    .error (.valueError (s!"Shape mismatch: A torch.Size([{A.rows}, {A.cols}]) and " ++
      s!"B torch.Size([{B.rows}, {B.cols}]) must have the same shape."))
  else if numHeads = 0 then .error (.external "ZeroDivisionError: integer modulo by zero")
  else if A.cols % numHeads ≠ 0 then
    .error (.valueError s!"Dimension d ({A.cols}) must be divisible by num_heads ({numHeads}).")
  else .ok ()

variable [LinearOrder K] (svd : SvdFn K)

/-- `head_wise_orthogonal_procrustes`. -/
def headWiseOrthogonalProcrustes (A B : ShapedMatrix K) (numHeads : ℕ)
    (biasA : Option (List K)) : Except PyError (HeadAlignment K numHeads) := do
  checkShapes A B numHeads
  let headDim := A.cols / numHeads
  let aHeads ← viewHeads A A.rows numHeads headDim
  let bHeads ← viewHeads B A.rows numHeads headDim
  let rotations := fun i => rotation svd (aHeads i) (bHeads i)
  let scales := fun i => scale svd (aHeads i) (bHeads i)
  let transformed := joinHeads A.cols fun i => scales i • (aHeads i * rotations i)
  let bias ← alignBias A.cols rotations scales biasA
  pure ⟨headDim, transformed, bias, rotations, scales⟩

/-- `quantization_aware_procrustes`: the scale dampened by the grid. -/
def quantizationAwareProcrustes (A B : ShapedMatrix K) (numHeads quantizationBits : ℕ) :
    Except PyError (HeadAlignment K numHeads) := do
  let aligned ← headWiseOrthogonalProcrustes svd A B numHeads none
  let dampeningFactor : K := 1 - 1 / ((2 ^ quantizationBits : ℕ) : K)
  pure { aligned with
    transformed := aligned.transformed.scale dampeningFactor
    bias := none
    scales := fun i => aligned.scales i * dampeningFactor }

/-- The loop over the experts. -/
def alignExperts : List (ShapedMatrix K × ShapedMatrix K) →
    Except PyError (List (HeadAlignment K 1))
  | [] => .ok []
  | (A, B) :: experts => do
    let aligned ← headWiseOrthogonalProcrustes svd A B 1 none
    let rest ← alignExperts experts
    pure (aligned :: rest)

/-- `expert_wise_procrustes`. -/
def expertWiseProcrustes (aExperts bExperts : List (ShapedMatrix K)) :
    Except PyError (List (HeadAlignment K 1)) :=
  if aExperts.length ≠ bExperts.length then
    .error (.valueError "Number of source and target experts must match.")
  else alignExperts svd (aExperts.zip bExperts)

/-! ### Weighing the source -/

/-- The functions on floats that are not arithmetic. -/
structure ActivationMath (K : Type) where
  sigmoid : K → K
  erf : K → K
  exp : K → K
  sqrt : K → K
  pi : K

section Weighted

variable (math : ActivationMath K)

def swigluJacobian (x : K) : K :=
  let sig := math.sigmoid x
  sig * (1 + x * (1 - sig))

def gegluJacobian (x : K) : K :=
  0.5 * (1 + math.erf (x / math.sqrt 2.0)) +
    x / math.sqrt (2.0 * math.pi) * math.exp (-0.5 * x ^ 2)

def swigluHessian (x : K) : K :=
  let sig := math.sigmoid x
  sig * (1 - sig) * (2.0 + x * (1 - 2.0 * sig))

def gegluHessian (x : K) : K :=
  (2.0 - x ^ 2) / math.sqrt (2.0 * math.pi) * math.exp (-0.5 * x ^ 2)

/-- The states the weights are taken at when none are given: the target with
its columns normalised. -/
def syntheticState {N d : ℕ} (B : Matrix (Fin N) (Fin d) K) : Matrix (Fin N) (Fin d) K :=
  fun n k => B n k / (math.sqrt (∑ n', B n' k * B n' k) + 1e-6)

/-- The states of all heads. -/
def stateHeads {N numHeads headDim : ℕ} (bHeads : Fin numHeads → Matrix (Fin N) (Fin headDim) K) :
    Option (ShapedMatrix K) → Except PyError (Fin numHeads → Matrix (Fin N) (Fin headDim) K)
  | none => .ok fun i => syntheticState math (bHeads i)
  | some states => viewHeads states N numHeads headDim

/-- The source head, every entry weighed at its state. -/
def weigh {N d : ℕ} (weight : K → K) (state A : Matrix (Fin N) (Fin d) K) :
    Matrix (Fin N) (Fin d) K := fun n k => weight (state n k) * A n k

/-- The rotations come from the weighed source, and turn the source itself. -/
def weightedAlignment (svd : SvdFn K) (weight : K → K) (A B : ShapedMatrix K) (numHeads : ℕ)
    (activationStates : Option (ShapedMatrix K)) : Except PyError (HeadAlignment K numHeads) :=
  if numHeads = 0 then .error (.external "ZeroDivisionError: integer division or modulo by zero")
  else do
    let headDim := A.cols / numHeads
    let aHeads ← viewHeads A A.rows numHeads headDim
    let bHeads ← viewHeads B A.rows numHeads headDim
    let states ← stateHeads math bHeads activationStates
    let rotations := fun i => rotation svd (weigh weight (states i) (aHeads i)) (bHeads i)
    pure ⟨headDim, joinHeads A.cols fun i => aHeads i * rotations i, none, rotations, fun _ => 1⟩

/-- `jacobian_tangent_space_alignment`. -/
def jacobianTangentSpaceAlignment (svd : SvdFn K) (A B : ShapedMatrix K) (numHeads : ℕ)
    (activationType : String) (activationStates : Option (ShapedMatrix K)) :
    Except PyError (HeadAlignment K numHeads) :=
  let jFunc := if activationType = "swiglu" then swigluJacobian math else gegluJacobian math
  weightedAlignment math svd jFunc A B numHeads activationStates

/-- `hessian_aware_manifold_alignment`. -/
def hessianAwareManifoldAlignment (svd : SvdFn K) (A B : ShapedMatrix K) (numHeads : ℕ)
    (activationType : String) (alpha : K) (activationStates : Option (ShapedMatrix K)) :
    Except PyError (HeadAlignment K numHeads) :=
  let jFunc := if activationType = "swiglu" then swigluJacobian math else gegluJacobian math
  let hFunc := if activationType = "swiglu" then swigluHessian math else gegluHessian math
  weightedAlignment math svd (fun x => jFunc x + 0.5 * alpha * hFunc x * x) A B numHeads
    activationStates

end Weighted

end Alignment

/-! ### What a run returns -/

section Spec

variable [Field K]

theorem checkShapes_eq_ok {A B : ShapedMatrix K} {numHeads : ℕ} {u : Unit}
    (h : checkShapes A B numHeads = .ok u) :
    A.rows = B.rows ∧ A.cols = B.cols ∧ A.cols = numHeads * (A.cols / numHeads) := by
  unfold checkShapes at h
  split at h
  · cases h
  · rename_i hshape
    split at h
    · cases h
    · split at h
      · cases h
      · rename_i hmod
        obtain ⟨hrows, hcols⟩ := not_not.mp hshape
        exact ⟨hrows, hcols, (Nat.mul_div_cancel' (Nat.dvd_of_mod_eq_zero (not_not.mp hmod))).symm⟩

theorem alignBias_eq_ok {numHeads headDim d : ℕ}
    {rotations : Fin numHeads → Matrix (Fin headDim) (Fin headDim) K} {scales : Fin numHeads → K}
    {biasA bias : Option (List K)} (h : alignBias d rotations scales biasA = .ok bias) :
    bias = biasA.map (transformBias rotations scales) := by
  cases biasA with
  | none => exact (Except.ok.inj h).symm
  | some b =>
    simp only [alignBias] at h
    split at h
    · cases h
    · exact (Except.ok.inj h).symm

/-- Rotations and scales count by their products only. -/
theorem transformBias_congr {numHeads headDim : ℕ}
    {R Q : Fin numHeads → Matrix (Fin headDim) (Fin headDim) K} {s c : Fin numHeads → K}
    (h : ∀ i, s i • R i = c i • Q i) : transformBias R s = transformBias Q c := by
  funext bias
  unfold transformBias
  congr 1
  funext j
  set i := (finProdFinEquiv.symm j).1
  have hentry : ∀ k l, R i k l * s i = Q i k l * c i := fun k l => by
    have hkl := congrFun (congrFun (h i) k) l
    simpa only [Matrix.smul_apply, smul_eq_mul, mul_comm] using hkl
  simp only [Finset.sum_mul, mul_assoc, hentry]

/-- A map on independent columns is determined by the image. -/
theorem eq_of_mul_eq {N d : ℕ} {M : Matrix (Fin N) (Fin d) K} {X Y : Matrix (Fin d) (Fin d) K}
    (hM : ∀ x, M *ᵥ x = 0 → x = 0) (h : M * X = M * Y) : X = Y := by
  refine sub_eq_zero.mp (Matrix.ext fun k l => ?_)
  have hcol : M *ᵥ (X - Y).col l = 0 := by
    have hzero : M * (X - Y) = 0 := by rw [Matrix.mul_sub, h, sub_self]
    funext n
    exact congrFun (congrFun hzero n) l
  exact congrFun (hM _ hcol) k

variable [LinearOrder K]

/-- What the function returns, head by head. -/
structure Aligns (svd : SvdFn K) (A B : ShapedMatrix K) {numHeads : ℕ} (biasA : Option (List K))
    (r : HeadAlignment K numHeads) : Prop where
  rows : A.rows = B.rows
  cols_source : A.cols = numHeads * r.headDim
  cols_target : B.cols = numHeads * r.headDim
  rotations : ∀ i, r.rotations i =
    rotation svd (headOf A.rows r.headDim A i) (headOf A.rows r.headDim B i)
  scales : ∀ i, r.scales i =
    scale svd (headOf A.rows r.headDim A i) (headOf A.rows r.headDim B i)
  rows_transformed : r.transformed.rows = A.rows
  cols_transformed : r.transformed.cols = A.cols
  transformed : ∀ i : Fin numHeads, headOf A.rows r.headDim r.transformed i =
    r.scales i • (headOf A.rows r.headDim A i * r.rotations i)
  bias : r.bias = biasA.map (transformBias r.rotations r.scales)

theorem headWise_eq_ok {svd : SvdFn K} {A B : ShapedMatrix K} {numHeads : ℕ}
    {biasA : Option (List K)} {r : HeadAlignment K numHeads}
    (h : headWiseOrthogonalProcrustes svd A B numHeads biasA = .ok r) :
    Aligns svd A B biasA r := by
  obtain ⟨_, hcheck, h⟩ := Effect.bind_eq_ok.mp h
  obtain ⟨aHeads, hA, h⟩ := Effect.bind_eq_ok.mp h
  obtain ⟨bHeads, hB, h⟩ := Effect.bind_eq_ok.mp h
  obtain ⟨bias, hbias, h⟩ := Effect.bind_eq_ok.mp h
  obtain rfl := Except.ok.inj h
  obtain ⟨hrows, hcols, hsplit⟩ := checkShapes_eq_ok hcheck
  obtain rfl : aHeads = fun i : Fin numHeads => headOf A.rows (A.cols / numHeads) A i :=
    funext (viewHeads_eq_ok rfl hsplit hA)
  obtain rfl : bHeads = fun i : Fin numHeads => headOf A.rows (A.cols / numHeads) B i :=
    funext (viewHeads_eq_ok hrows.symm (hcols ▸ hsplit) hB)
  refine ⟨hrows, hsplit, hcols ▸ hsplit, fun i => rfl, fun i => rfl, rfl, rfl, fun i => ?_,
    alignBias_eq_ok hbias⟩
  exact headOf_joinHeads hsplit (fun i : Fin numHeads =>
    scale svd (headOf A.rows (A.cols / numHeads) A i) (headOf A.rows (A.cols / numHeads) B i) •
      (headOf A.rows (A.cols / numHeads) A i *
        rotation svd (headOf A.rows (A.cols / numHeads) A i)
          (headOf A.rows (A.cols / numHeads) B i))) i

/-- Each expert is aligned on its own, as one head. -/
theorem alignExperts_eq_ok {svd : SvdFn K} : ∀ {experts : List (ShapedMatrix K × ShapedMatrix K)}
    {rs : List (HeadAlignment K 1)}, alignExperts svd experts = .ok rs →
    rs.length = experts.length ∧ ∀ (j : ℕ) (A B : ShapedMatrix K) (r : HeadAlignment K 1),
      experts[j]? = some (A, B) → rs[j]? = some r →
      headWiseOrthogonalProcrustes svd A B 1 none = .ok r
  | [], rs, h => by
    obtain rfl := Except.ok.inj h
    exact ⟨rfl, fun j A B r hj => by simp at hj⟩
  | (A, B) :: experts, rs, h => by
    obtain ⟨r, hr, h⟩ := Effect.bind_eq_ok.mp h
    obtain ⟨rest, hrest, h⟩ := Effect.bind_eq_ok.mp h
    obtain rfl := Except.ok.inj h
    obtain ⟨hlen, hall⟩ := alignExperts_eq_ok hrest
    refine ⟨congrArg (· + 1) hlen, fun j A' B' r' hexpert hr' => ?_⟩
    cases j with
    | zero =>
      obtain ⟨rfl, rfl⟩ := Prod.mk.inj (Option.some.inj hexpert)
      obtain rfl := Option.some.inj hr'
      exact hr
    | succ j => exact hall j A' B' r' hexpert hr'

end Spec

/-! ### The best alignment -/

section Best

variable [Field K] [LinearOrder K] [IsStrictOrderedRing K] {svd : SvdFn K} {A B : ShapedMatrix K}
variable {numHeads : ℕ} {biasA : Option (List K)} {r : HeadAlignment K numHeads}

/-- The decomposition decomposes the cross-covariance of every head. -/
def DecomposesHeads (svd : SvdFn K) (A B : ShapedMatrix K) (numHeads headDim : ℕ) : Prop :=
  ∀ i : Fin numHeads,
    let M := (headOf A.rows headDim A i)ᵀ * headOf A.rows headDim B i
    (svd M).Decomposes M

/-- For every head the returned matrix is orthogonal and, exactly when the
scale is not held back, no orthogonal matrix and no scale come closer. -/
theorem headWise_bestFit_iff (h : headWiseOrthogonalProcrustes svd A B numHeads biasA = .ok r)
    (hsvd : DecomposesHeads svd A B numHeads r.headDim) (i : Fin numHeads) :
    r.rotations i * (r.rotations i)ᵀ = 1 ∧
      headOf A.rows r.headDim r.transformed i =
        r.scales i • (headOf A.rows r.headDim A i * r.rotations i) ∧
      (BestFit (headOf A.rows r.headDim A i) (headOf A.rows r.headDim B i) (r.rotations i)
          (r.scales i) ↔
        Resolved (headOf A.rows r.headDim A i) (headOf A.rows r.headDim B i)) := by
  have spec := headWise_eq_ok h
  refine ⟨?_, spec.transformed i, ?_⟩
  · rw [spec.rotations]
    exact (hsvd i).rotation
  · rw [spec.rotations, spec.scales]
    exact bestFit_iff_resolved (hsvd i)

/-- A decomposition of matrices with one entry. -/
def sampleSvd : SvdFn ℚ := fun _ _ M =>
  ⟨fun i k => if M i ⟨k, lt_of_lt_of_le k.isLt (min_le_right _ _)⟩ < 0 then -1 else 1,
    fun k => |M ⟨k, lt_of_lt_of_le k.isLt (min_le_left _ _)⟩
      ⟨k, lt_of_lt_of_le k.isLt (min_le_right _ _)⟩|,
    fun _ _ => 1⟩

theorem sampleSvd_decomposes (M : Matrix (Fin 1) (Fin 1) ℚ) : (sampleSvd M).Decomposes M where
  orthonormal_u := by
    ext i j
    have hi : i = j := Subsingleton.elim (α := Fin 1) i j
    subst hi
    rw [Matrix.mul_apply, Matrix.one_apply_eq, Fin.sum_univ_one]
    show (if _ then (-1 : ℚ) else 1) * (if _ then (-1 : ℚ) else 1) = 1
    split <;> norm_num
  orthonormal_vh := by
    ext i j
    have hi : i = j := Subsingleton.elim (α := Fin 1) i j
    subst hi
    rw [Matrix.mul_apply, Matrix.one_apply_eq, Fin.sum_univ_one]
    exact one_mul 1
  nonneg i := abs_nonneg _
  antitone i j _ := (congrArg (sampleSvd M).s (Subsingleton.elim (α := Fin 1) i j)).ge
  eq_mul := by
    ext i j
    have hi : i = 0 := Subsingleton.elim i 0
    have hj : j = 0 := Subsingleton.elim j 0
    subst hi hj
    have hdiagonal : ((sampleSvd M).u * diagonal (sampleSvd M).s) 0 ⟨0, Nat.one_pos⟩ =
        (if M 0 0 < 0 then -1 else 1) * |M 0 0| := Matrix.mul_diagonal _ _ _ _
    have hmul : ((sampleSvd M).u * diagonal (sampleSvd M).s * (sampleSvd M).vh) 0 0 =
        (if M 0 0 < 0 then -1 else 1) * |M 0 0| := by
      refine (Fin.sum_univ_one fun k => ((sampleSvd M).u * diagonal (sampleSvd M).s) 0 k *
        (sampleSvd M).vh k 0).trans ?_
      exact (mul_one _).trans hdiagonal
    rw [hmul]
    split
    · rename_i hneg
      rw [abs_of_neg hneg, neg_mul_neg, one_mul]
    · rename_i hpos
      rw [abs_of_nonneg (not_lt.mp hpos), one_mul]

/-- A source with two heads of one column. -/
def sampleSource : ShapedMatrix ℚ := .ofFn 1 2 fun _ j => if j = 0 then 1 else 2

def sampleTarget : ShapedMatrix ℚ := .ofFn 1 2 fun _ j => if j = 0 then 3 else -8

theorem decomposesHeads_sample : DecomposesHeads sampleSvd sampleSource sampleTarget 2 1 :=
  fun _ => sampleSvd_decomposes _

theorem headOf_one (X : ShapedMatrix ℚ) (i : Fin 2) :
    headOf 1 1 X i = fun _ _ => X.entry 0 i := by
  ext n k
  have hn : (n : ℕ) = 0 := by omega
  have hk : (i : ℕ) * 1 + (k : ℕ) = i := by omega
  show X.entry n (i * 1 + k) = _
  rw [hn, hk]

theorem resolved_sample (i : Fin 2) :
    Resolved (headOf 1 1 sampleSource i) (headOf 1 1 sampleTarget i) := by
  refine Or.inr ?_
  rw [headOf_one]
  unfold sqNorm innerProd
  rw [Fin.sum_univ_one, Fin.sum_univ_one]
  fin_cases i <;> norm_num [sampleSource, ShapedMatrix.ofFn]

theorem sample_bestFit : ∃ r, headWiseOrthogonalProcrustes sampleSvd sampleSource sampleTarget 2
    none = .ok r ∧ ∀ i : Fin 2, BestFit (headOf 1 r.headDim sampleSource i)
      (headOf 1 r.headDim sampleTarget i) (r.rotations i) (r.scales i) := by
  obtain ⟨⟨headDim, transformed, bias, R, s⟩, hr, hdim⟩ : ∃ r, headWiseOrthogonalProcrustes
      sampleSvd sampleSource sampleTarget 2 none = .ok r ∧ r.headDim = 1 := ⟨_, rfl, rfl⟩
  obtain rfl : headDim = 1 := hdim
  refine ⟨_, hr, fun i => ?_⟩
  exact (headWise_bestFit_iff hr decomposesHeads_sample i).2.2.mpr (resolved_sample i)

/-- A target that is the source, rotated and scaled head by head, is reached;
where the columns of the source are independent, by that very map, and a bias
is carried along by it. -/
theorem headWise_recovers (h : headWiseOrthogonalProcrustes svd A B numHeads biasA = .ok r)
    (hsvd : DecomposesHeads svd A B numHeads r.headDim)
    (hresolved : ∀ i : Fin numHeads,
      Resolved (headOf A.rows r.headDim A i) (headOf A.rows r.headDim B i))
    {Q : Fin numHeads → Matrix (Fin r.headDim) (Fin r.headDim) K} {c : Fin numHeads → K}
    (hQ : ∀ i, Q i * (Q i)ᵀ = 1)
    (hB : ∀ i : Fin numHeads,
      headOf A.rows r.headDim B i = c i • (headOf A.rows r.headDim A i * Q i)) :
    r.transformed = B ∧
      ((∀ (i : Fin numHeads) x, headOf A.rows r.headDim A i *ᵥ x = 0 → x = 0) →
        (∀ i, r.scales i • r.rotations i = c i • Q i) ∧
          r.bias = biasA.map (transformBias Q c)) := by
  have spec := headWise_eq_ok h
  have hfit : ∀ i : Fin numHeads, r.scales i • (headOf A.rows r.headDim A i * r.rotations i) =
      headOf A.rows r.headDim B i := by
    intro i
    have hbest := (bestFit_iff_resolved (hsvd i)).mpr (hresolved i)
    rw [← spec.rotations, ← spec.scales] at hbest
    exact fit_eq hbest (hQ i) (hB i)
  refine ⟨?_, fun hindep => ?_⟩
  · refine ext_headOf (spec.rows_transformed.trans spec.rows)
      (spec.cols_transformed.trans spec.cols_source) spec.cols_target fun i => ?_
    rw [spec.rows_transformed, spec.transformed, hfit]
  · have hmap : ∀ i, r.scales i • r.rotations i = c i • Q i := by
      intro i
      refine eq_of_mul_eq (hindep i) ?_
      rw [Matrix.mul_smul, Matrix.mul_smul, hfit, hB]
    exact ⟨hmap, by rw [spec.bias, transformBias_congr hmap]⟩

theorem sample_bias :
    transformBias (fun _ : Fin 2 => (1 : Matrix (Fin 1) (Fin 1) ℚ)) ![3, -4] [5, 7] =
      [15, -28] := by decide +kernel

theorem sample_recovers : ∃ r, headWiseOrthogonalProcrustes sampleSvd sampleSource sampleTarget 2
    (some [5, 7]) = .ok r ∧ r.transformed = sampleTarget ∧ r.bias = some [15, -28] := by
  obtain ⟨⟨headDim, transformed, bias, R, s⟩, hr, hdim⟩ : ∃ r, headWiseOrthogonalProcrustes
      sampleSvd sampleSource sampleTarget 2 (some [5, 7]) = .ok r ∧ r.headDim = 1 := ⟨_, rfl, rfl⟩
  obtain rfl : headDim = 1 := hdim
  have hfit := headWise_recovers (c := ![3, -4]) (Q := fun _ => 1) hr decomposesHeads_sample
    resolved_sample (fun _ => by simp) fun i => by
      rw [Matrix.mul_one]
      refine (headOf_one sampleTarget i).trans ?_
      rw [show headOf sampleSource.rows 1 sampleSource i = _ from headOf_one sampleSource i]
      fin_cases i
      · show (fun _ _ => (3 : ℚ)) = fun _ _ => 3 * 1
        norm_num
      · show (fun _ _ => (-8 : ℚ)) = fun _ _ => -4 * 2
        norm_num
  refine ⟨_, hr, hfit.1, (hfit.2 fun i x hx => ?_).2.trans ?_⟩
  · have hzero : sampleSource.entry 0 i * x 0 = 0 := by
      have hrow := congrFun hx (⟨0, Nat.one_pos⟩ : Fin 1)
      rw [show headOf sampleSource.rows 1 sampleSource i = _ from headOf_one sampleSource i] at hrow
      exact (Fin.sum_univ_one fun k => sampleSource.entry 0 i * x k).symm.trans hrow
    have hentry : sampleSource.entry 0 i ≠ 0 := by
      fin_cases i <;> norm_num [sampleSource, ShapedMatrix.ofFn]
    funext k
    rw [Subsingleton.elim k 0]
    exact (mul_eq_zero.mp hzero).resolve_left hentry
  · exact congrArg some sample_bias

/-! ### Variants -/

/-- Dampening the scale costs the squared norm of what it takes away. -/
theorem quantizationAware_loss (h : headWiseOrthogonalProcrustes svd A B numHeads none = .ok r)
    (hsvd : DecomposesHeads svd A B numHeads r.headDim) (bits : ℕ) :
    ∃ q, quantizationAwareProcrustes svd A B numHeads bits = .ok q ∧
      ∀ i : Fin numHeads,
        Resolved (headOf A.rows r.headDim A i) (headOf A.rows r.headDim B i) →
        sqNorm (headOf A.rows r.headDim q.transformed i - headOf A.rows r.headDim B i) =
          sqNorm (headOf A.rows r.headDim r.transformed i - headOf A.rows r.headDim B i) +
            sqNorm ((r.scales i / (2 ^ bits : ℕ)) • headOf A.rows r.headDim A i) := by
  have spec := headWise_eq_ok h
  refine ⟨_, by rw [quantizationAwareProcrustes, h]; rfl, fun i hi => ?_⟩
  set a := headOf A.rows r.headDim A i with ha
  set b := headOf A.rows r.headDim B i with hb
  set δ : K := 1 / ((2 ^ bits : ℕ) : K) with hδ
  have hdamped : headOf A.rows r.headDim (r.transformed.scale (1 - δ)) i =
      ((1 - δ) * r.scales i) • (a * r.rotations i) := by
    rw [mul_smul, ← spec.transformed]
    rfl
  have hsum : r.scales i * sqNorm a = ∑ k, (svd (aᵀ * b)).s k := by
    rw [spec.scales]
    exact (scale_mul_sq_iff (hsvd i)).mpr hi
  have hfit : ∀ s : K, sqNorm (s • (a * r.rotations i) - b) =
      s * s * sqNorm a - (s * (r.scales i * sqNorm a) + s * (r.scales i * sqNorm a)) +
        sqNorm b := by
    intro s
    rw [spec.rotations, hsum]
    exact sqNorm_rotation (hsvd i) s
  show sqNorm (headOf A.rows r.headDim (r.transformed.scale (1 - δ)) i - b) = _
  rw [hdamped, hfit, spec.transformed, hfit, sqNorm_smul, div_eq_mul_one_div, ← hδ]
  ring

theorem sample_loss : ∃ r q, headWiseOrthogonalProcrustes sampleSvd sampleSource sampleTarget 2
      none = .ok r ∧
    quantizationAwareProcrustes sampleSvd sampleSource sampleTarget 2 4 = .ok q ∧
    ∀ i : Fin 2,
      sqNorm (headOf 1 r.headDim q.transformed i - headOf 1 r.headDim sampleTarget i) =
        sqNorm (headOf 1 r.headDim r.transformed i - headOf 1 r.headDim sampleTarget i) +
          sqNorm ((r.scales i / (2 ^ 4 : ℕ)) • headOf 1 r.headDim sampleSource i) := by
  obtain ⟨⟨headDim, transformed, bias, R, s⟩, hr, hdim⟩ : ∃ r, headWiseOrthogonalProcrustes
      sampleSvd sampleSource sampleTarget 2 none = .ok r ∧ r.headDim = 1 := ⟨_, rfl, rfl⟩
  obtain rfl : headDim = 1 := hdim
  obtain ⟨q, hq, hloss⟩ := quantizationAware_loss hr decomposesHeads_sample 4
  exact ⟨_, q, hr, hq, fun i => hloss i (resolved_sample i)⟩

/-- The experts of a layer are aligned independently, each as well as can be. -/
theorem expertWise_bestFit_iff {aExperts bExperts : List (ShapedMatrix K)}
    {rs : List (HeadAlignment K 1)} (h : expertWiseProcrustes svd aExperts bExperts = .ok rs)
    (hsvd : ∀ (j : ℕ) (A B : ShapedMatrix K), aExperts[j]? = some A → bExperts[j]? = some B →
      DecomposesHeads svd A B 1 A.cols) :
    rs.length = aExperts.length ∧ aExperts.length = bExperts.length ∧
      ∀ (j : ℕ) (A B : ShapedMatrix K) (r : HeadAlignment K 1), aExperts[j]? = some A →
        bExperts[j]? = some B → rs[j]? = some r →
        r.headDim = A.cols ∧ r.rotations 0 * (r.rotations 0)ᵀ = 1 ∧
          (BestFit (headOf A.rows r.headDim A 0) (headOf A.rows r.headDim B 0) (r.rotations 0)
              (r.scales 0) ↔
            Resolved (headOf A.rows r.headDim A 0) (headOf A.rows r.headDim B 0)) := by
  unfold expertWiseProcrustes at h
  split at h
  · cases h
  · rename_i hlen
    have hlen := not_not.mp hlen
    obtain ⟨hrs, hall⟩ := alignExperts_eq_ok h
    rw [List.length_zip, ← hlen, min_self] at hrs
    refine ⟨hrs, hlen, fun j A B r hA hB hr => ?_⟩
    have hok := hall j A B r (by rw [List.getElem?_zip_eq_some]; exact ⟨hA, hB⟩) hr
    have spec := headWise_eq_ok hok
    have hdim : r.headDim = A.cols := by rw [spec.cols_source, Nat.one_mul]
    have hdec := hsvd j A B hA hB 0
    rw [← hdim] at hdec
    refine ⟨hdim, ?_, ?_⟩
    · rw [spec.rotations]
      exact hdec.rotation
    · rw [spec.rotations, spec.scales]
      exact bestFit_iff_resolved hdec

/-- An expert with two samples of one feature. -/
def sampleExpert (x : ℚ) : ShapedMatrix ℚ := .ofFn 2 1 fun i _ => x + i

theorem resolved_sampleExpert {x : ℚ} (hx : 1 ≤ x) (B : ShapedMatrix ℚ) {d : ℕ} (hd : d = 1) :
    Resolved (headOf 2 d (sampleExpert x) 0) (headOf 2 d B 0) := by
  subst hd
  refine Or.inr ?_
  have hnorm : sqNorm (headOf 2 1 (sampleExpert x) 0) = x * x + (x + 1) * (x + 1) := by
    unfold sqNorm innerProd
    rw [Fin.sum_univ_two, Fin.sum_univ_one, Fin.sum_univ_one]
    norm_num [headOf, sampleExpert, ShapedMatrix.ofFn]
  rw [hnorm]
  nlinarith

theorem sample_experts : ∃ rs, expertWiseProcrustes sampleSvd [sampleExpert 1, sampleExpert 2]
      [sampleExpert 3, sampleExpert (-8)] = .ok rs ∧
    rs.length = 2 ∧ ∀ (j : ℕ) (A B : ShapedMatrix ℚ) (r : HeadAlignment ℚ 1),
      [sampleExpert 1, sampleExpert 2][j]? = some A →
      [sampleExpert 3, sampleExpert (-8)][j]? = some B → rs[j]? = some r →
      BestFit (headOf A.rows r.headDim A 0) (headOf A.rows r.headDim B 0) (r.rotations 0)
        (r.scales 0) := by
  obtain ⟨rs, hrs⟩ : ∃ rs, expertWiseProcrustes sampleSvd [sampleExpert 1, sampleExpert 2]
      [sampleExpert 3, sampleExpert (-8)] = .ok rs := ⟨_, rfl⟩
  have hexpert : ∀ {j : ℕ} {A : ShapedMatrix ℚ}, [sampleExpert 1, sampleExpert 2][j]? = some A →
      ∃ x, 1 ≤ x ∧ A = sampleExpert x := by
    intro j A hA
    match j with
    | 0 => exact ⟨1, le_rfl, (Option.some.inj hA).symm⟩
    | 1 => exact ⟨2, by norm_num, (Option.some.inj hA).symm⟩
    | j + 2 => simp at hA
  obtain ⟨hlength, -, hfit⟩ := expertWise_bestFit_iff hrs fun j A B hA hB => by
    obtain ⟨x, -, rfl⟩ := hexpert hA
    exact fun _ => sampleSvd_decomposes _
  refine ⟨rs, hrs, hlength, fun j A B r hA hB hr => ?_⟩
  obtain ⟨hdim, -, hbest⟩ := hfit j A B r hA hB hr
  obtain ⟨x, hx, rfl⟩ := hexpert hA
  exact hbest.mpr (resolved_sampleExpert hx B hdim)

/-! ### Weighing the source -/

/-- The inner product of two samples. -/
def sampleInner (X : ShapedMatrix K) (n n' : ℕ) : K :=
  ∑ j ∈ Finset.range X.cols, X.entry n j * X.entry n' j

omit [LinearOrder K] [IsStrictOrderedRing K] in
theorem sampleInner_eq_heads {X : ShapedMatrix K} {N headDim : ℕ}
    (hcols : X.cols = numHeads * headDim) (n n' : Fin N) :
    sampleInner X n n' = ∑ i : Fin numHeads,
      (headOf N headDim X i * (headOf N headDim X i)ᵀ) n n' := by
  rw [sampleInner, hcols, sum_cols_eq_heads]
  rfl

omit [LinearOrder K] [IsStrictOrderedRing K] in
/-- Orthogonal matrices turn the heads without changing the inner products of
the samples. -/
theorem sampleInner_joinHeads {X : ShapedMatrix K} {headDim : ℕ}
    (hcols : X.cols = numHeads * headDim)
    {R : Fin numHeads → Matrix (Fin headDim) (Fin headDim) K} (hR : ∀ i, R i * (R i)ᵀ = 1)
    (n n' : Fin X.rows) :
    sampleInner (joinHeads X.cols fun i : Fin numHeads => headOf X.rows headDim X i * R i) n n' =
      sampleInner X n n' := by
  rw [sampleInner_eq_heads (show (joinHeads X.cols _).cols = numHeads * headDim from hcols),
    sampleInner_eq_heads hcols]
  refine Finset.sum_congr rfl fun i _ => ?_
  rw [headOf_joinHeads hcols, transpose_mul, Matrix.mul_assoc, ← Matrix.mul_assoc (R i), hR,
    Matrix.one_mul]

omit [LinearOrder K] [IsStrictOrderedRing K] in
theorem sampleInner_eq_zero {X : ShapedMatrix K} {n n' : ℕ} (h : ¬(n < X.rows ∧ n' < X.rows)) :
    sampleInner X n n' = 0 := by
  refine Finset.sum_eq_zero fun j _ => ?_
  rcases not_and_or.mp h with hn | hn
  · rw [ShapedMatrix.entry_eq_zero (Or.inl (Nat.not_lt.mp hn)), zero_mul]
  · rw [ShapedMatrix.entry_eq_zero (Or.inl (Nat.not_lt.mp hn)), mul_zero]

omit [LinearOrder K] [IsStrictOrderedRing K] in
/-- A matrix with a row that can be viewed as heads splits into them. -/
theorem cols_eq_of_viewHeads {X : ShapedMatrix K} {headDim : ℕ}
    {heads : Fin numHeads → Matrix (Fin X.rows) (Fin headDim) K} (hrows : 0 < X.rows)
    (h : viewHeads X X.rows numHeads headDim = .ok heads) : X.cols = numHeads * headDim := by
  unfold viewHeads at h
  split at h
  · rename_i hsize
    rw [Nat.mul_assoc] at hsize
    exact Nat.eq_of_mul_eq_mul_left hrows hsize
  · cases h

/-- For every head the matrix is orthogonal, no orthogonal matrix brings the
weighed source closer to the target, and the samples keep their inner products. -/
def AlignsWeighed (math : ActivationMath K) (svd : SvdFn K) (weight : K → K) (A B : ShapedMatrix K)
    (activationStates : Option (ShapedMatrix K)) (r : HeadAlignment K numHeads) : Prop :=
  ∃ aHeads bHeads states, viewHeads A A.rows numHeads r.headDim = .ok aHeads ∧
    viewHeads B A.rows numHeads r.headDim = .ok bHeads ∧
    stateHeads math bHeads activationStates = .ok states ∧
    ((∀ i, let M := (weigh weight (states i) (aHeads i))ᵀ * bHeads i
        (svd M).Decomposes M) →
      (∀ i, r.rotations i * (r.rotations i)ᵀ = 1 ∧
        ∀ Q : Matrix (Fin r.headDim) (Fin r.headDim) K, Q * Qᵀ = 1 →
          sqNorm (weigh weight (states i) (aHeads i) * r.rotations i - bHeads i) ≤
            sqNorm (weigh weight (states i) (aHeads i) * Q - bHeads i)) ∧
      ∀ n n', sampleInner r.transformed n n' = sampleInner A n n')

theorem alignsWeighed_of_ok {math : ActivationMath K} {weight : K → K}
    {activationStates : Option (ShapedMatrix K)}
    (h : weightedAlignment math svd weight A B numHeads activationStates = .ok r) :
    AlignsWeighed math svd weight A B activationStates r := by
  unfold weightedAlignment at h
  split at h
  · cases h
  rename_i hheads
  obtain ⟨aHeads, hA, h⟩ := Effect.bind_eq_ok.mp h
  obtain ⟨bHeads, hB, h⟩ := Effect.bind_eq_ok.mp h
  obtain ⟨states, hstates, h⟩ := Effect.bind_eq_ok.mp h
  obtain rfl := Except.ok.inj h
  refine ⟨aHeads, bHeads, states, hA, hB, hstates, fun hsvd => ⟨fun i => ?_, fun n n' => ?_⟩⟩
  · refine ⟨(hsvd i).rotation, fun Q hQ => ?_⟩
    have hrot := sqNorm_rotation (hsvd i) 1
    have hother := le_sq_fit (hsvd i) hQ 1
    rw [abs_one] at hother
    rw [one_smul] at hrot hother
    exact hrot.trans_le hother
  · by_cases hin : n < A.rows ∧ n' < A.rows
    · have hcols := cols_eq_of_viewHeads (Nat.zero_lt_of_lt hin.1) hA
      obtain rfl : aHeads = fun i : Fin numHeads => headOf A.rows (A.cols / numHeads) A i :=
        funext (viewHeads_eq_ok rfl hcols hA)
      exact sampleInner_joinHeads hcols (fun i => (hsvd i).rotation) ⟨n, hin.1⟩ ⟨n', hin.2⟩
    · rw [sampleInner_eq_zero hin]
      exact sampleInner_eq_zero hin

/-- The slope of the activation. -/
def slope (math : ActivationMath K) (activationType : String) : K → K :=
  if activationType = "swiglu" then swigluJacobian math else gegluJacobian math

/-- The curvature of the activation. -/
def curvature (math : ActivationMath K) (activationType : String) : K → K :=
  if activationType = "swiglu" then swigluHessian math else gegluHessian math

/-- Both alignments weigh the source, one by the slope of the activation, the
other by the slope and a part of the curvature. -/
theorem derivativeAlignments_best (math : ActivationMath K) (activationType : String) (alpha : K)
    (activationStates : Option (ShapedMatrix K)) (r : HeadAlignment K numHeads) :
    (jacobianTangentSpaceAlignment math svd A B numHeads activationType activationStates = .ok r →
      AlignsWeighed math svd (slope math activationType) A B activationStates r) ∧
    (hessianAwareManifoldAlignment math svd A B numHeads activationType alpha activationStates =
        .ok r →
      AlignsWeighed math svd (fun x => slope math activationType x +
        0.5 * alpha * curvature math activationType x * x) A B activationStates r) :=
  ⟨alignsWeighed_of_ok, alignsWeighed_of_ok⟩

/-- The transcendental functions where they are rational: at zero. -/
def sampleMath : ActivationMath ℚ := ⟨fun _ => 1 / 2, fun _ => 0, fun _ => 1, fun x => x, 3⟩

theorem sample_weighted : ∃ r r', jacobianTangentSpaceAlignment sampleMath sampleSvd sampleSource
      sampleTarget 2 "swiglu" (some (.ofFn 1 2 fun _ _ => 0)) = .ok r ∧
    hessianAwareManifoldAlignment sampleMath sampleSvd sampleSource sampleTarget 2 "swiglu" 1
      (some (.ofFn 1 2 fun _ _ => 0)) = .ok r' ∧
    ∀ n n', sampleInner r.transformed n n' = sampleInner sampleSource n n' ∧
      sampleInner r'.transformed n n' = sampleInner sampleSource n n' := by
  obtain ⟨⟨headDim, transformed, bias, R, s⟩, hr, hdim⟩ : ∃ r, jacobianTangentSpaceAlignment
      sampleMath sampleSvd sampleSource sampleTarget 2 "swiglu" (some (.ofFn 1 2 fun _ _ => 0)) =
        .ok r ∧ r.headDim = 1 := ⟨_, rfl, rfl⟩
  obtain rfl : headDim = 1 := hdim
  obtain ⟨⟨headDim, transformed', bias', R', s'⟩, hr', hdim⟩ : ∃ r, hessianAwareManifoldAlignment
      sampleMath sampleSvd sampleSource sampleTarget 2 "swiglu" 1 (some (.ofFn 1 2 fun _ _ => 0)) =
        .ok r ∧ r.headDim = 1 := ⟨_, rfl, rfl⟩
  obtain rfl : headDim = 1 := hdim
  obtain ⟨aHeads, bHeads, states, -, -, -, hbest⟩ := (derivativeAlignments_best _ _ 1 _ _).1 hr
  obtain ⟨aHeads', bHeads', states', -, -, -, hbest'⟩ := (derivativeAlignments_best _ _ 1 _ _).2 hr'
  exact ⟨_, _, hr, hr', fun n n' => ⟨(hbest fun _ => sampleSvd_decomposes _).2 n n',
    (hbest' fun _ => sampleSvd_decomposes _).2 n n'⟩⟩

end Best

end Procrustes
