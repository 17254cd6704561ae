/-
Comparing activations by centred kernel alignment.

The columns of both activation matrices are centred, the inner products of the
samples are centred again, and the score is the cosine of what remains.

* `gramLinearCka_bounds` — the score is symmetric and lies between zero and
  one, and is one exactly for samples of one geometry;
* `alignAuto_recovers` — a target layer that is a turned, scaled and shifted
  copy of a source layer is mapped from a layer of its geometry;
* `gramLinearCka_congr` — the inner products of the samples decide the score.

The square root is a parameter.
-/
import NeuralScalpel.AdapterSolving
import NeuralScalpel.Procrustes

open Matrix Frobenius

namespace LinearCka

variable {K : Type} [Field K] {N d : ℕ}

/-! ### The score -/

/-- `X - X.mean(dim=0, keepdim=True)`. -/
def centerColumns (X : Matrix (Fin N) (Fin d) K) : Matrix (Fin N) (Fin d) K :=
  fun i j => X i j - (∑ i', X i' j) / N

/-- `torch.eye(n) - torch.ones([n, n]) / n`. -/
def centering (K : Type) [Field K] (N : ℕ) : Matrix (Fin N) (Fin N) K :=
  fun i j => (if i = j then 1 else 0) - 1 / N

def centerGram (G : Matrix (Fin N) (Fin N) K) : Matrix (Fin N) (Fin N) K :=
  centering K N * G * centering K N

/-- `gram_linear_cka`, for matrices of as many samples. -/
def gramLinearCka [LinearOrder K] (sqrt : K → K) (X Y : ShapedMatrix K) (eps : K) : K :=
  let x := centerColumns (X.block X.rows X.cols)
  let y := centerColumns (Y.block X.rows Y.cols)
  let kc := centerGram (x * xᵀ)
  let lc := centerGram (y * yᵀ)
  let denom := sqrt (sqNorm kc) * sqrt (sqNorm lc)
  if denom < eps then 0 else innerProd kc lc / denom

/-! ### Centring -/

theorem centering_transpose : (centering K N)ᵀ = centering K N := by
  ext i j
  simp only [transpose_apply, centering, eq_comm]

/-- Centring the columns is a product. -/
theorem centering_mul (X : Matrix (Fin N) (Fin d) K) : centering K N * X = centerColumns X := by
  ext i j
  simp [centering, centerColumns, Matrix.mul_apply, sub_mul, Finset.sum_sub_distrib,
    ← Finset.mul_sum, div_eq_inv_mul]

theorem sum_centerColumns [CharZero K] (X : Matrix (Fin N) (Fin d) K) (j : Fin d) :
    ∑ i, centerColumns X i j = 0 := by
  unfold centerColumns
  rcases Nat.eq_zero_or_pos N with rfl | hN
  · simp
  · have hne : (N : K) ≠ 0 := Nat.cast_ne_zero.mpr hN.ne'
    rw [Finset.sum_sub_distrib, Finset.sum_const, Finset.card_univ, Fintype.card_fin, nsmul_eq_mul,
      mul_div_cancel₀ _ hne, sub_self]

/-- Centred columns stay. -/
theorem centering_mul_centerColumns [CharZero K] (X : Matrix (Fin N) (Fin d) K) :
    centering K N * centerColumns X = centerColumns X := by
  rw [centering_mul]
  ext i j
  show centerColumns X i j - (∑ i', centerColumns X i' j) / N = _
  rw [sum_centerColumns, zero_div, sub_zero]

/-- The inner products of the samples, from the centre of the samples. -/
def centeredGram (N : ℕ) (X : ShapedMatrix K) : Matrix (Fin N) (Fin N) K :=
  centerColumns (X.block N X.cols) * (centerColumns (X.block N X.cols))ᵀ

/-- Centring them again changes nothing. -/
theorem centerGram_centeredGram [CharZero K] (X : ShapedMatrix K) :
    centerGram (centeredGram N X) = centeredGram N X := by
  unfold centerGram centeredGram
  have hright : (centerColumns (X.block N X.cols))ᵀ * centering K N =
      (centerColumns (X.block N X.cols))ᵀ := by
    rw [← centering_transpose, ← transpose_mul, centering_mul_centerColumns]
  rw [← Matrix.mul_assoc, centering_mul_centerColumns, Matrix.mul_assoc, hright]

/-- They come from the plain inner products. -/
theorem centeredGram_eq (X : ShapedMatrix K) :
    centeredGram N X = centerGram fun n n' => Procrustes.sampleInner X n n' := by
  have hgram : (fun n n' : Fin N => Procrustes.sampleInner X n n') =
      X.block N X.cols * (X.block N X.cols)ᵀ := by
    ext n n'
    exact Finset.sum_range _
  rw [hgram, centeredGram, ← centering_mul, transpose_mul, centering_transpose, centerGram]
  simp only [Matrix.mul_assoc]

/-! ### The score of two geometries -/

/-- The cosine of two matrices; zero if one of them is too small. -/
def score [LinearOrder K] (sqrt : K → K) (eps : K) (G L : Matrix (Fin N) (Fin N) K) : K :=
  if sqrt (sqNorm G) * sqrt (sqNorm L) < eps then 0
  else innerProd G L / (sqrt (sqNorm G) * sqrt (sqNorm L))

section Score

variable [LinearOrder K] [IsStrictOrderedRing K] {sqrt : K → K} {eps : K} {X Y : ShapedMatrix K}

theorem gramLinearCka_eq (hrows : X.rows = N) :
    gramLinearCka sqrt X Y eps = score sqrt eps (centeredGram N X) (centeredGram N Y) := by
  subst hrows
  show score sqrt eps (centerGram (centeredGram X.rows X)) (centerGram (centeredGram X.rows Y)) = _
  rw [centerGram_centeredGram, centerGram_centeredGram]

omit [IsStrictOrderedRing K] in
theorem score_comm (sqrt : K → K) (eps : K) (G L : Matrix (Fin N) (Fin N) K) :
    score sqrt eps G L = score sqrt eps L G := by
  unfold score
  rw [innerProd_comm, mul_comm (sqrt (sqNorm G))]

/-- Inner products of samples agree at least a little. -/
theorem innerProd_centeredGram_nonneg (X Y : ShapedMatrix K) :
    0 ≤ innerProd (centeredGram N X) (centeredGram N Y) := by
  unfold centeredGram
  set x := centerColumns (X.block N X.cols)
  set y := centerColumns (Y.block N Y.cols)
  have hsq : innerProd (x * xᵀ) (y * yᵀ) = sqNorm (xᵀ * y) := by
    rw [innerProd_mul_left, ← Matrix.mul_assoc, innerProd_comm, innerProd_mul_right,
      transpose_transpose]
    rfl
  rw [hsq]
  exact sqNorm_nonneg _

theorem score_bounds (hsqrt : IsSqrt sqrt) (heps : 0 < eps) {G L : Matrix (Fin N) (Fin N) K}
    (hGL : 0 ≤ innerProd G L) :
    0 ≤ score sqrt eps G L ∧ score sqrt eps G L ≤ 1 ∧
      (score sqrt eps G L = 1 ↔ eps ≤ sqrt (sqNorm G) * sqrt (sqNorm L) ∧
        innerProd G L * innerProd G L = sqNorm G * sqNorm L) := by
  obtain ⟨-, hle, heq⟩ := le_sqrt_mul_sqrt hsqrt (sqNorm_nonneg G) (sqNorm_nonneg L) hGL
  unfold score
  by_cases hsmall : sqrt (sqNorm G) * sqrt (sqNorm L) < eps
  · rw [if_pos hsmall]
    exact ⟨le_refl 0, zero_le_one, fun h => absurd h zero_ne_one,
      fun h => absurd h.1 (not_le.mpr hsmall)⟩
  · rw [if_neg hsmall]
    have hbig := not_lt.mp hsmall
    have hpos := lt_of_lt_of_le heps hbig
    refine ⟨div_nonneg hGL hpos.le, ?_, ?_⟩
    · rw [div_le_one hpos, hle]
      exact innerProd_mul_self_le G L
    · rw [div_eq_one_iff_eq hpos.ne', heq]
      exact (and_iff_right hbig).symm

/-- The largest score is that of matrices of one direction. -/
theorem score_eq_one_iff (hsqrt : IsSqrt sqrt) (heps : 0 < eps) {G L : Matrix (Fin N) (Fin N) K}
    (hGL : 0 ≤ innerProd G L) :
    score sqrt eps G L = 1 ↔
      eps ≤ sqrt (sqNorm G) * sqrt (sqNorm L) ∧ ∃ c : K, 0 < c ∧ L = c • G := by
  rw [(score_bounds hsqrt heps hGL).2.2]
  refine and_congr_right fun hbig => ⟨fun heq => ?_, ?_⟩
  · have hroots := lt_of_lt_of_le heps hbig
    have hroot : ∀ M : Matrix (Fin N) (Fin N) K, sqrt (sqNorm M) ≠ 0 → 0 < sqNorm M := by
      intro M hM
      refine lt_of_le_of_ne (sqNorm_nonneg M) fun hzero => hM ?_
      have hself := (hsqrt (sqNorm M) (sqNorm_nonneg M)).2
      rw [← hzero] at hself ⊢
      exact mul_self_eq_zero.mp hself
    have hG := hroot G (left_ne_zero_of_mul hroots.ne')
    have hL := hroot L (right_ne_zero_of_mul hroots.ne')
    have hpos : 0 < innerProd G L := by
      refine lt_of_le_of_ne hGL fun hzero => ?_
      rw [← hzero, mul_zero] at heq
      exact (mul_pos hG hL).ne heq
    refine ⟨sqNorm L / innerProd G L, div_pos hL hpos, ?_⟩
    rw [div_eq_inv_mul, mul_smul, smul_eq_of_innerProd heq, smul_smul, inv_mul_cancel₀ hpos.ne',
      one_smul]
  · rintro ⟨c, -, rfl⟩
    rw [innerProd_smul_right, sqNorm_smul]
    show c * sqNorm G * (c * sqNorm G) = sqNorm G * (c * c * sqNorm G)
    ring

/-- For activations of as many samples the score is symmetric, lies between
zero and one, and is one exactly if the samples have one geometry, up to
scale, and it is not too small. -/
theorem gramLinearCka_bounds (hsqrt : IsSqrt sqrt) (heps : 0 < eps) (hrows : Y.rows = X.rows) :
    0 ≤ gramLinearCka sqrt X Y eps ∧ gramLinearCka sqrt X Y eps ≤ 1 ∧
      gramLinearCka sqrt Y X eps = gramLinearCka sqrt X Y eps ∧
      (gramLinearCka sqrt X Y eps = 1 ↔
        eps ≤ sqrt (sqNorm (centeredGram X.rows X)) * sqrt (sqNorm (centeredGram X.rows Y)) ∧
          ∃ c : K, 0 < c ∧ centeredGram X.rows Y = c • centeredGram X.rows X) := by
  rw [gramLinearCka_eq rfl, gramLinearCka_eq hrows]
  have hnonneg := innerProd_centeredGram_nonneg (N := X.rows) X Y
  obtain ⟨h0, h1, -⟩ := score_bounds hsqrt heps hnonneg
  exact ⟨h0, h1, score_comm sqrt eps _ _, score_eq_one_iff hsqrt heps hnonneg⟩

/-- Two samples on a line. -/
def line (f : ℕ → ℝ) : ShapedMatrix ℝ := .ofFn 2 1 fun i _ => f i

def lineSource : ShapedMatrix ℝ := line fun i => i

/-- The same, twice as far apart and one further on. -/
def lineTarget : ShapedMatrix ℝ := line fun i => i + i + 1

theorem entry_line (f : ℕ → ℝ) (i : Fin 2) {j : ℕ} (hj : j < 1) : (line f).entry i j = f i :=
  if_pos ⟨i.isLt, hj⟩

theorem line_cka : 0 ≤ gramLinearCka Real.sqrt lineSource lineTarget 1e-12 ∧
    gramLinearCka Real.sqrt lineSource lineTarget 1e-12 ≤ 1 := by
  have heps : (0 : ℝ) < 1e-12 := by norm_num
  obtain ⟨h0, h1, -⟩ := gramLinearCka_bounds (X := lineSource) (Y := lineTarget)
    AdapterSolving.isSqrt_real heps rfl
  exact ⟨h0, h1⟩

/-! ### Copies -/

/-- The samples of `y` are those of `x`, turned, scaled and shifted. -/
def TransformedCopy (N : ℕ) (x y : ShapedMatrix K) : Prop :=
  ∃ (c : K) (Q : Matrix (Fin x.cols) (Fin y.cols) K) (t : Fin y.cols → K), c ≠ 0 ∧ Q * Qᵀ = 1 ∧
    ∀ n j, y.block N y.cols n j = c * (x.block N x.cols * Q) n j + t j

/-- A copy has the geometry of what it is a copy of. -/
theorem centeredGram_copy {x y : ShapedMatrix K} (h : TransformedCopy N x y) :
    ∃ c : K, 0 < c ∧ centeredGram N y = c • centeredGram N x := by
  obtain ⟨c, Q, t, hc, hQ, hy⟩ := h
  have hcenter : centerColumns (y.block N y.cols) =
      c • (centerColumns (x.block N x.cols) * Q) := by
    have hshift : ∀ n j, centerColumns (y.block N y.cols) n j =
        centerColumns (c • (x.block N x.cols * Q)) n j := by
      intro n j
      have hN : (N : K) ≠ 0 := Nat.cast_ne_zero.mpr (Nat.ne_of_gt (Nat.zero_lt_of_lt n.isLt))
      simp only [centerColumns, hy, Matrix.smul_apply, smul_eq_mul, Finset.sum_add_distrib,
        Finset.sum_const, Finset.card_univ, Fintype.card_fin, nsmul_eq_mul]
      rw [add_div, mul_div_cancel_left₀ _ hN]
      ring
    rw [← centering_mul (x.block N x.cols), Matrix.mul_assoc, ← Matrix.mul_smul, centering_mul]
    exact Matrix.ext hshift
  refine ⟨c * c, mul_self_pos.mpr hc, ?_⟩
  unfold centeredGram
  rw [hcenter, transpose_smul, transpose_mul, Matrix.smul_mul, Matrix.mul_smul, smul_smul,
    Matrix.mul_assoc, ← Matrix.mul_assoc Q, hQ, Matrix.one_mul]

/-- A target layer that is a copy of some source layer is mapped from a source
layer of its geometry. -/
theorem alignAuto_recovers {dataset : Alignment.PairedActivationDataset
      (AdapterSolving.matrixLib K)} {method : String}
    {solveRidge : ShapedMatrix K → ShapedMatrix K → Except PyError (ShapedMatrix K)}
    {mapping : Alignment.AlignmentMap (ShapedMatrix K)} (hsqrt : IsSqrt sqrt) (heps : 0 < eps)
    (h : Alignment.alignAuto dataset method (fun x y => gramLinearCka sqrt x y eps) solveRidge =
      .ok mapping)
    (hrows : ∀ layer x, dataset.sourceActivations.get? layer = some x → x.rows = N)
    {tLayer sLayer other : String} (hs : mapping.mapping.get? tLayer = some sLayer)
    {x y : ShapedMatrix K} (hx : dataset.sourceActivations.get? other = some x)
    (hy : dataset.targetActivations.get? tLayer = some y)
    (hcopy : TransformedCopy N x y)
    (hlarge : eps ≤ sqrt (sqNorm (centeredGram N x)) * sqrt (sqNorm (centeredGram N y))) :
    ∃ x', dataset.sourceActivations.get? sLayer = some x' ∧
      ∃ c : K, 0 < c ∧ centeredGram N y = c • centeredGram N x' := by
  obtain ⟨x', y', hx', hy', hmax⟩ := Alignment.mapping_max h hs
  obtain rfl := Option.some.inj (hy.symm.trans hy')
  refine ⟨x', hx', ?_⟩
  have hscore := hmax other x hx
  rw [gramLinearCka_eq (hrows _ _ hx), gramLinearCka_eq (hrows _ _ hx')] at hscore
  have hcopied : score sqrt eps (centeredGram N x) (centeredGram N y) = 1 :=
    (score_eq_one_iff hsqrt heps (innerProd_centeredGram_nonneg x y)).mpr
      ⟨hlarge, centeredGram_copy hcopy⟩
  have hnonneg := innerProd_centeredGram_nonneg (N := N) x' y
  rw [hcopied] at hscore
  have hone := le_antisymm (score_bounds hsqrt heps hnonneg).2.1 hscore
  exact ((score_eq_one_iff hsqrt heps hnonneg).mp hone).2

theorem lineTarget_copy : TransformedCopy 2 lineSource lineTarget := by
  refine ⟨2, Matrix.of fun _ _ => 1, fun _ => 1, two_ne_zero, ?_, fun n j => ?_⟩
  · ext i j
    obtain rfl : i = j := Subsingleton.elim (α := Fin 1) i j
    rw [Matrix.one_apply_eq]
    exact (Fin.sum_univ_one fun _ => (1 : ℝ) * 1).trans (one_mul 1)
  · let Q : Matrix (Fin lineSource.cols) (Fin lineTarget.cols) ℝ := Matrix.of fun _ _ => 1
    have hmul : (lineSource.block 2 lineSource.cols * Q) n j = lineSource.entry n 0 :=
      (Fin.sum_univ_one fun k => lineSource.entry n k * 1).trans (mul_one _)
    rw [hmul]
    show (line _).entry n j = 2 * (line _).entry n 0 + 1
    rw [entry_line _ n j.isLt, entry_line _ n Nat.one_pos, two_mul]

theorem sqNorm_line (f : ℕ → ℝ) :
    sqNorm (centeredGram 2 (line f)) = (f 1 - f 0) ^ 4 / 4 := by
  have hentry : ∀ i j : Fin 2, centeredGram 2 (line f) i j =
      (f i - (f 0 + f 1) / 2) * (f j - (f 0 + f 1) / 2) := by
    intro i j
    have hcenter : ∀ i : Fin 2, centerColumns ((line f).block 2 1) i 0 =
        f i - (f 0 + f 1) / 2 := by
      intro i
      have hentry : ∀ i : Fin 2, (line f).block 2 1 i 0 = f i :=
        fun i => entry_line f i Nat.one_pos
      unfold centerColumns
      simp only [Fin.sum_univ_two, hentry, Fin.val_zero, Fin.val_one, Nat.cast_ofNat]
    rw [← hcenter i, ← hcenter j]
    exact Fin.sum_univ_one fun k =>
      centerColumns ((line f).block 2 1) i k * centerColumns ((line f).block 2 1) j k
  unfold sqNorm innerProd
  simp only [Fin.sum_univ_two, hentry, Fin.val_zero, Fin.val_one]
  ring

theorem line_large : (1e-12 : ℝ) ≤ Real.sqrt (sqNorm (centeredGram 2 lineSource)) *
    Real.sqrt (sqNorm (centeredGram 2 lineTarget)) := by
  obtain ⟨-, hle, -⟩ := le_sqrt_mul_sqrt (p := 1e-12) AdapterSolving.isSqrt_real
    (sqNorm_nonneg (centeredGram 2 lineSource)) (sqNorm_nonneg (centeredGram 2 lineTarget))
    (by norm_num)
  rw [hle, lineSource, lineTarget, sqNorm_line, sqNorm_line]
  norm_num

/-- Each set as the only layer of its model. -/
noncomputable def lineDataset : Alignment.PairedActivationDataset (AdapterSolving.matrixLib ℝ) :=
  ⟨.ofWrites [("model.layers.0", lineSource)], .ofWrites [("model.layers.1", lineTarget)],
    Alignment.rows_eq_of_rowsMatch rfl⟩

theorem line_recovered : ∃ mapping x',
    Alignment.alignAuto lineDataset "linear_cka"
        (fun x y => gramLinearCka Real.sqrt x y 1e-12)
        (AdapterSolving.solveRidge (AdapterSolving.inverseSolve ℝ) · · 1) = .ok mapping ∧
      mapping.mapping.get? "model.layers.1" = some "model.layers.0" ∧
      ∃ c : ℝ, 0 < c ∧ centeredGram 2 lineTarget = c • centeredGram 2 x' := by
  obtain ⟨mapping, h, hs⟩ : ∃ mapping, Alignment.alignAuto lineDataset "linear_cka"
        (fun x y => gramLinearCka Real.sqrt x y 1e-12)
        (AdapterSolving.solveRidge (AdapterSolving.inverseSolve ℝ) · · 1) = .ok mapping ∧
      mapping.mapping.get? "model.layers.1" = some "model.layers.0" := ⟨_, rfl, rfl⟩
  have hrows : ∀ layer x, Dict.get? (.ofWrites [("model.layers.0", lineSource)]) layer = some x →
      x.rows = 2 := by
    intro layer x hx
    obtain ⟨-, rfl⟩ := Prod.mk.inj (List.mem_singleton.mp (Dict.mem_of_get?_ofWrites hx))
    rfl
  obtain ⟨x', -, hx'⟩ := alignAuto_recovers (N := 2) (y := lineTarget) AdapterSolving.isSqrt_real
    (by norm_num) h hrows hs (Dict.get?_set_self _ _ _) (Dict.get?_set_self _ _ _)
    lineTarget_copy line_large
  exact ⟨mapping, x', h, hs, hx'⟩

/-! ### What leaves the score alone -/

/-- The inner products of the samples decide the score. -/
theorem gramLinearCka_congr {X' : ShapedMatrix K} (hrows : X'.rows = X.rows)
    (hinner : ∀ n n', Procrustes.sampleInner X' n n' = Procrustes.sampleInner X n n') :
    gramLinearCka sqrt X' Y eps = gramLinearCka sqrt X Y eps := by
  rw [gramLinearCka_eq hrows, gramLinearCka_eq rfl, centeredGram_eq X', centeredGram_eq X]
  simp only [hinner]

/-- Rows of length one, at right angles. -/
def OrthonormalRows (V : ShapedMatrix K) : Prop :=
  ∀ k l, k < V.rows → l < V.rows →
    ∑ j ∈ Finset.range V.cols, V.entry k j * V.entry l j = if k = l then 1 else 0

omit [LinearOrder K] [IsStrictOrderedRing K] in
theorem OrthonormalRows.takeRows {V : ShapedMatrix K} (h : OrthonormalRows V) (m : ℕ) :
    OrthonormalRows (V.takeRows m) := by
  intro k l hk hl
  rw [ShapedMatrix.rows_takeRows, lt_min_iff] at hk hl
  simp only [ShapedMatrix.entry_takeRows, if_pos hk.1, if_pos hl.1]
  exact h k l hk.2 hl.2

omit [LinearOrder K] [IsStrictOrderedRing K] in
/-- Coordinates along such rows keep the inner products of the samples. -/
theorem sampleInner_mul {A V : ShapedMatrix K} (hV : OrthonormalRows V) (hcols : A.cols ≤ V.rows)
    (n n' : ℕ) : Procrustes.sampleInner (A.mul V) n n' = Procrustes.sampleInner A n n' := by
  have hproduct : ∀ j ∈ Finset.range V.cols,
      (A.mul V).entry n j * (A.mul V).entry n' j =
        ∑ k ∈ Finset.range A.cols, ∑ l ∈ Finset.range A.cols,
          A.entry n k * A.entry n' l * (V.entry k j * V.entry l j) := by
    intro j _
    rw [ShapedMatrix.entry_mul, ShapedMatrix.entry_mul, Finset.sum_mul_sum]
    refine Finset.sum_congr rfl fun k _ => Finset.sum_congr rfl fun l _ => ?_
    ring
  show ∑ j ∈ Finset.range V.cols, (A.mul V).entry n j * (A.mul V).entry n' j = _
  rw [Finset.sum_congr rfl hproduct, Finset.sum_comm]
  refine Finset.sum_congr rfl fun k hk => ?_
  have hk' : k < V.rows := lt_of_lt_of_le (Finset.mem_range.mp hk) hcols
  have hinner : ∀ l ∈ Finset.range A.cols,
      ∑ j ∈ Finset.range V.cols, A.entry n k * A.entry n' l * (V.entry k j * V.entry l j) =
        if k = l then A.entry n k * A.entry n' l else 0 := by
    intro l hl
    rw [← Finset.mul_sum, hV k l hk' (lt_of_lt_of_le (Finset.mem_range.mp hl) hcols)]
    split <;> simp
  rw [Finset.sum_comm, Finset.sum_congr rfl hinner, Finset.sum_ite_eq, if_pos hk]

/-- Injecting into the principal directions keeps, of the first as many
features as there are directions, all inner products of the samples, and so
every score. -/
theorem pcaGuided_cka {S : Type} (torch : Torch K S) (source target : ShapedMatrix K)
    (horth : OrthonormalRows (torch.svd target).vh) :
    let kept := source.takeCols (torch.svd target).vh.rows
    let injected := pcaGuidedSubspaceInjection torch source target
    (∀ n n', Procrustes.sampleInner injected n n' = Procrustes.sampleInner kept n n') ∧
      ∀ Y, gramLinearCka sqrt injected Y eps = gramLinearCka sqrt kept Y eps := by
  intro kept injected
  suffices hinner : ∀ n n', Procrustes.sampleInner injected n n' =
      Procrustes.sampleInner kept n n' by
    refine ⟨hinner, fun Y => gramLinearCka_congr ?_ hinner⟩
    show (pcaGuidedSubspaceInjection torch source target).rows = source.rows
    unfold pcaGuidedSubspaceInjection
    dsimp only
    split <;> rfl
  intro n n'
  show Procrustes.sampleInner (pcaGuidedSubspaceInjection torch source target) n n' = _
  unfold pcaGuidedSubspaceInjection
  by_cases hfit : source.cols ≤ (torch.svd target).vh.rows
  · have hkept : kept = source := ShapedMatrix.ext rfl (min_eq_right hfit) fun i j => by
      show (if j < (torch.svd target).vh.rows then source.entry i j else 0) = _
      by_cases hj : j < (torch.svd target).vh.rows
      · rw [if_pos hj]
      · rw [if_neg hj, ShapedMatrix.entry_eq_zero (Or.inr (hfit.trans (Nat.not_lt.mp hj)))]
    simp only [if_pos hfit]
    rw [hkept]
    exact sampleInner_mul (horth.takeRows source.cols) (le_min le_rfl hfit) n n'
  · simp only [if_neg hfit]
    exact sampleInner_mul horth (min_le_left _ _) n n'

/-- Of three features, two are kept. -/
theorem sample_injected : gramLinearCka Rat.sqrt
    (pcaGuidedSubspaceInjection sampleTorch (.ofFn 2 3 fun i j => i + 2 * j) (unitFactor 2 4))
      (unitFactor 2 2) 1e-12 =
    gramLinearCka Rat.sqrt ((.ofFn 2 3 fun i j => i + 2 * j : ShapedMatrix ℚ).takeCols 2)
      (unitFactor 2 2) 1e-12 := by
  have horth : ∀ k < 2, ∀ l < 2,
      ∑ j ∈ Finset.range 4, (unitFactor 2 4).entry k j * (unitFactor 2 4).entry l j =
        if k = l then 1 else 0 := by decide +kernel
  exact (pcaGuided_cka sampleTorch (.ofFn 2 3 fun i j => i + 2 * j) (unitFactor 2 4)
    fun k l hk hl => horth k hk l hl).2 _

end Score

end LinearCka
