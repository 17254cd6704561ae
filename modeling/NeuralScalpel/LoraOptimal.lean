/-
The best pair of a rank.

Solved weights and resized updates are both written as a pair of factors, cut
off after the rank of the adapter.  With the documented decomposition of the
tensor library no pair of that rank comes closer.

* `truncated_closest` — the first directions of a matrix are the closest product
  of their rank;
* `exportLora_best` — so each exported pair is the best for its weight, and what
  it misses are the other singular values;
* `bufferHalf_best` — and each pair projected piecewise is the best for the
  resized and scaled product of the source's.
-/
import NeuralScalpel.AdapterSolving
import NeuralScalpel.LoraExport
import NeuralScalpel.LowRank
import NeuralScalpel.PiecewiseShapes

open Frobenius
open scoped Matrix

/-! ### Decompositions -/

section Blocks

variable {K : Type} [Field K] {W : ShapedMatrix K}

/-- The factors as matrices. -/
def SvdFactors.blocks (svd : SvdFactors W) : Svd K W.rows W.cols where
  u := svd.u.block W.rows (min W.rows W.cols)
  s k := svd.s k
  vh := svd.vh.block (min W.rows W.cols) W.cols

/-- What the library documents of a decomposition. -/
def SvdFactors.Documented [LinearOrder K] (svd : SvdFactors W) : Prop :=
  svd.blocks.Decomposes (W.block W.rows W.cols)

/-- The squared distance of a matrix of the same shape. -/
def ShapedMatrix.distance (A B : ShapedMatrix K) : K :=
  sqNorm (A.block A.rows A.cols - B.block A.rows A.cols)

theorem SvdFactors.block_truncated (svd : SvdFactors W) (r : ℕ) :
    (svd.truncated r).block W.rows W.cols = svd.blocks.truncated r := by
  ext i j
  set d := min W.rows W.cols
  set g : ℕ → K := fun k => svd.u.entry i k * svd.s k * svd.vh.entry k j with hg
  have hbeyond : ∀ k ∈ Finset.range r, g k = if k < d then g k else 0 := by
    intro k _
    split_ifs with hk
    · rfl
    · rw [hg]
      dsimp only
      rw [ShapedMatrix.entry_eq_zero (Or.inr (by rw [svd.shape_u.2]; exact Nat.not_lt.mp hk)),
        zero_mul, zero_mul]
  have hcut : (Finset.range r).filter (· < d) = (Finset.range d).filter (· < r) := by
    ext k
    simp only [Finset.mem_filter, Finset.mem_range, and_comm]
  calc (svd.truncated r).block W.rows W.cols i j
      = ∑ k ∈ Finset.range r, g k := if_pos ⟨i.isLt, j.isLt⟩
    _ = ∑ k ∈ Finset.range d, if k < r then g k else 0 := by
        rw [Finset.sum_congr rfl hbeyond, ← Finset.sum_filter, ← Finset.sum_filter, hcut]
    _ = ∑ k : Fin d, if (k : ℕ) < r then g k else 0 :=
        (Fin.sum_univ_eq_sum_range (fun k => if k < r then g k else 0) d).symm
    _ = svd.blocks.truncated r i j := by
        rw [Svd.truncated, Matrix.mul_apply]
        refine Finset.sum_congr rfl fun k _ => ?_
        rw [Matrix.mul_diagonal]
        show _ = svd.u.entry i k * (if (k : ℕ) < r then svd.s k else 0) * svd.vh.entry k j
        split_ifs
        · rfl
        · rw [mul_zero, zero_mul]

/-- A product through at most `r` dimensions, as one of matrices. -/
theorem ShapedMatrix.block_mul {P C : ShapedMatrix K} {r : ℕ} (hr : P.cols ≤ r) (m n : ℕ) :
    (P.mul C).block m n = P.block m r * C.block r n := by
  ext i j
  rw [Matrix.mul_apply]
  refine Eq.trans ?_ (Fin.sum_univ_eq_sum_range (fun k => P.entry i k * C.entry k j) r).symm
  refine Finset.sum_subset (Finset.range_mono hr) fun k _ hk => ?_
  rw [ShapedMatrix.entry_eq_zero (Or.inr (Nat.not_lt.mp fun h => hk (Finset.mem_range.mpr h))),
    zero_mul]

/-- The transposed product is the product of the transposed factors. -/
theorem ShapedMatrix.transpose_mul {M N : ShapedMatrix K} (hcols : M.cols = N.rows) :
    (M.mul N).transpose = N.transpose.mul M.transpose := by
  refine ext rfl rfl fun i j => ?_
  show ∑ k ∈ Finset.range M.cols, M.entry j k * N.entry k i =
    ∑ k ∈ Finset.range N.rows, N.entry k i * M.entry j k
  rw [hcols]
  exact Finset.sum_congr rfl fun k _ => mul_comm _ _

/-- Scaling both sides scales the distance. -/
theorem ShapedMatrix.distance_scale (c : K) (A B : ShapedMatrix K) :
    (A.scale c).distance (B.scale c) = c * c * A.distance B := by
  have hblock : ∀ M : ShapedMatrix K, (M.scale c).block A.rows A.cols =
      c • M.block A.rows A.cols := fun _ => rfl
  show sqNorm ((A.scale c).block A.rows A.cols - (B.scale c).block A.rows A.cols) = _
  rw [hblock, hblock, ← smul_sub, sqNorm_smul]
  rfl

/-- The first directions miss the squares of the other singular values. -/
theorem SvdFactors.Documented.distance_truncated [LinearOrder K] {svd : SvdFactors W}
    (h : svd.Documented) (r : ℕ) : W.distance (svd.truncated r) =
      ∑ k : Fin (min W.rows W.cols), if (k : ℕ) < r then 0 else svd.s k * svd.s k := by
  rw [ShapedMatrix.distance, svd.block_truncated]
  exact sqNorm_sub_truncated h r

end Blocks

/-- No product through at most `r` dimensions is closer than the first `r`
directions. -/
theorem truncated_closest {W : ShapedMatrix ℝ} {svd : SvdFactors W} (h : svd.Documented)
    {P C : ShapedMatrix ℝ} {r : ℕ} (hr : P.cols ≤ r) :
    W.distance (svd.truncated r) ≤ W.distance (P.mul C) := by
  rw [ShapedMatrix.distance, ShapedMatrix.distance, svd.block_truncated,
    ShapedMatrix.block_mul hr]
  exact truncated_best h _ _

/-! ### The export -/

theorem style_of_buildPeftLoraKey {moduleName peftKeyPrefix keyStyle key : String}
    {which : LoraHalf} {adapterName : Option String}
    (h : buildPeftLoraKey moduleName which peftKeyPrefix adapterName keyStyle = .ok key) :
    keyStyle ∈ ["peft_default", "peft_named", "raw"] := by
  unfold buildPeftLoraKey at h
  split_ifs at h with hdefault hnamed hraw
  · simp [hdefault]
  · simp [hnamed]
  · simp [hraw]

section Export

variable {math : ExportMath ℝ} {solution : ActivationAdapterSolution ℝ} {rank : ℕ}
  {loraAlpha : Option ℤ} {names : ExportNames} {result : PeftExportResult ℝ}

/-- What an export that succeeds was given. -/
theorem of_exportLora_eq_ok (h : exportLora math solution rank loraAlpha names = .ok result) :
    solution.moduleWeights.isEmpty = false ∧ solution.reconstructionErrors.isEmpty = false ∧
      names.keyStyle ∈ ["peft_default", "peft_named", "raw"] := by
  unfold exportLora at h
  cases hmodules : solution.moduleWeights.isEmpty with
  | true =>
    rw [hmodules] at h
    cases h
  | false =>
    rw [hmodules] at h
    obtain ⟨written, hloop, h⟩ := Effect.bind_eq_ok.mp h
    obtain ⟨mean, hmean, -⟩ := Effect.bind_eq_ok.mp h
    refine ⟨rfl, ?_, ?_⟩
    · unfold meanError at hmean
      split_ifs at hmean with herrors
      exact Bool.eq_false_iff.mpr herrors
    · cases hentries : solution.moduleWeights.entries with
      | nil =>
        rw [Dict.isEmpty, hentries] at hmodules
        cases hmodules
      | cons e entries =>
        rw [hentries] at hloop
        obtain ⟨key, hkey, -⟩ := Effect.bind_eq_ok.mp hloop
        exact style_of_buildPeftLoraKey hkey

/-- **The export is the best of its rank.**  Every module of the solution has
its pair in a result; the pair's product misses the squares of the other
singular values of the weight, and no other pair of the rank misses less. -/
theorem exportLora_best (hsqrt : IsSqrt math.sqrt)
    (h : exportLora math solution rank loraAlpha names = .ok result) {name : String}
    {W : ShapedMatrix ℝ} (hget : solution.moduleWeights.get? name = some W)
    (hsvd : (math.svd W).Documented) :
    ∃ a b, WrittenPair result names name a b ∧
      W.distance (b.mul a).transpose = ∑ k : Fin (min W.rows W.cols),
        (if (k : ℕ) < rank then 0 else (math.svd W).s k * (math.svd W).s k) ∧
      ∀ a' b' : ShapedMatrix ℝ, b'.cols = a'.rows → a'.rows ≤ rank →
        W.distance (b.mul a).transpose ≤ W.distance (b'.mul a').transpose := by
  obtain ⟨hmodules, herrors, hstyle⟩ := of_exportLora_eq_ok h
  obtain ⟨result', hok, -, -, hwritten⟩ := exportLora_spec math solution hmodules herrors hstyle
    rank loraAlpha
  obtain rfl : result = result' := Except.ok.inj (h.symm.trans hok)
  have hroots : ∀ k < min W.rows W.cols,
      math.sqrt ((math.svd W).s k) * math.sqrt ((math.svd W).s k) = (math.svd W).s k :=
    fun k hk => (hsqrt _ (hsvd.nonneg ⟨k, hk⟩)).2
  refine ⟨_, _, hwritten name W hget, ?_, fun a' b' hcols hrank => ?_⟩
  · rw [mul_lowRankDecompose math rank hroots]
    exact hsvd.distance_truncated rank
  · rw [mul_lowRankDecompose math rank hroots]
    rw [ShapedMatrix.transpose_mul hcols]
    exact truncated_closest hsvd hrank

end Export

/-! ### Two directions -/

def realUnits (rows cols : ℕ) : ShapedMatrix ℝ :=
  .ofFn rows cols fun i j => if i = j then 1 else 0

/-- A tensor library that decomposes matrices with a falling diagonal and zeros
elsewhere as the real one does. -/
noncomputable def diagonalTorch : Torch ℝ ℝ where
  svd W := ⟨realUnits W.rows (min W.rows W.cols), fun i => W.entry i i,
    realUnits (min W.rows W.cols) W.cols, ⟨rfl, rfl⟩, ⟨rfl, rfl⟩⟩
  sqrt := Real.sqrt
  sqrtScale := Real.sqrt
  randn _ rows cols := realUnits rows cols
  shape_randn _ _ _ := ⟨rfl, rfl⟩

/-- A weight with the singular values two and one. -/
def twoDirections : ShapedMatrix ℝ := .ofFn 2 2 fun i j => if i = j then 1 + 1 - i else 0

theorem block_realUnits : (realUnits 2 2).block 2 2 = 1 := by
  ext i j
  rw [Matrix.one_apply]
  show (if (i : ℕ) < 2 ∧ (j : ℕ) < 2 then (if (i : ℕ) = j then (1 : ℝ) else 0) else 0) = _
  rw [if_pos ⟨i.isLt, j.isLt⟩]
  simp only [Fin.ext_iff]

theorem documented_twoDirections : (diagonalTorch.svd twoDirections).Documented := by
  have hs : ∀ k : Fin 2, twoDirections.entry k k = 2 - (k : ℕ) := fun k => by
    show (if (k : ℕ) < 2 ∧ (k : ℕ) < 2 then _ else _) = _
    rw [if_pos ⟨k.isLt, k.isLt⟩, if_pos rfl, one_add_one_eq_two]
  refine ⟨?_, ?_, fun k => ?_, fun k l hkl => ?_, ?_⟩
  · show ((realUnits 2 2).block 2 2)ᵀ * (realUnits 2 2).block 2 2 = 1
    rw [block_realUnits, Matrix.transpose_one, Matrix.one_mul]
  · show (realUnits 2 2).block 2 2 * ((realUnits 2 2).block 2 2)ᵀ = 1
    rw [block_realUnits, Matrix.transpose_one, Matrix.one_mul]
  · show 0 ≤ twoDirections.entry k k
    rw [hs k, sub_nonneg]
    exact_mod_cast k.isLt.le
  · show twoDirections.entry l l ≤ twoDirections.entry k k
    rw [hs k, hs l]
    exact sub_le_sub_left (Nat.cast_le.mpr hkl) 2
  · show twoDirections.block 2 2 = (realUnits 2 2).block 2 2 *
      Matrix.diagonal (fun k : Fin 2 => twoDirections.entry k k) * (realUnits 2 2).block 2 2
    rw [block_realUnits, Matrix.one_mul, Matrix.mul_one]
    ext i j
    rw [Matrix.diagonal_apply, hs i]
    show (if (i : ℕ) < 2 ∧ (j : ℕ) < 2 then
      (if (i : ℕ) = j then (1 : ℝ) + 1 - (i : ℕ) else 0) else 0) = _
    rw [if_pos ⟨i.isLt, j.isLt⟩, one_add_one_eq_two]
    simp only [Fin.ext_iff]

/-- A solution of one module with that weight. -/
def twoDirectionsSolution : ActivationAdapterSolution ℝ where
  moduleWeights := .ofWrites [("model.layers.0.mlp.down_proj", twoDirections)]
  targetModelId := "target"
  reconstructionErrors := .ofWrites [("model.layers.0.mlp.down_proj", 0)]

/-- At rank one the smaller value is missed. -/
theorem twoDirections_best : ∃ result a b,
    exportLora ⟨diagonalTorch.svd, Real.sqrt⟩ twoDirectionsSolution 1 none .default = .ok result ∧
    WrittenPair result .default "model.layers.0.mlp.down_proj" a b ∧
    ∀ a' b' : ShapedMatrix ℝ, b'.cols = a'.rows → a'.rows ≤ 1 →
      twoDirections.distance (b.mul a).transpose ≤
        twoDirections.distance (b'.mul a').transpose := by
  have hget : twoDirectionsSolution.moduleWeights.get? "model.layers.0.mlp.down_proj" =
      some twoDirections := Dict.get?_set_self _ _ _
  obtain ⟨result, hok, -⟩ := exportLora_spec ⟨diagonalTorch.svd, Real.sqrt⟩ twoDirectionsSolution
    rfl rfl (by decide : ExportNames.default.keyStyle ∈ _) 1 none
  obtain ⟨a, b, hpair, -, hbest⟩ := exportLora_best AdapterSolving.isSqrt_real hok hget
    documented_twoDirections
  exact ⟨result, a, b, hok, hpair, hbest⟩

/-! ### The piecewise projection -/

section Piecewise

variable {torch : Torch ℝ ℝ}

/-- The factors of a delta are those of the export, transposed. -/
theorem factorizeToLora_eq (torch : Torch ℝ ℝ) (delta : ShapedMatrix ℝ) (rank : ℕ) :
    factorizeToLora torch delta rank =
      ((lowRankDecomposeForPeft ⟨torch.svd, torch.sqrt⟩ delta rank).2.transpose,
        (lowRankDecomposeForPeft ⟨torch.svd, torch.sqrt⟩ delta rank).1.transpose) := by
  refine Prod.ext (ShapedMatrix.ext rfl rfl fun i j => ?_) (ShapedMatrix.ext rfl rfl fun i j => ?_)
  · show (if i < ((torch.svd delta).vh.takeRows rank).rows ∧
          j < ((torch.svd delta).vh.takeRows rank).cols then _ else (0 : ℝ)) =
        if j < ((torch.svd delta).vh.takeRows rank).cols ∧
          i < ((torch.svd delta).vh.takeRows rank).rows then _ else 0
    simp only [and_comm, mul_comm]
  · show (if i < ((torch.svd delta).u.takeCols rank).rows ∧
          j < ((torch.svd delta).u.takeCols rank).cols then _ else (0 : ℝ)) =
        if j < ((torch.svd delta).u.takeCols rank).cols ∧
          i < ((torch.svd delta).u.takeCols rank).rows then _ else 0
    simp only [and_comm, mul_comm]

/-- They multiply to its first singular directions. -/
theorem mul_factorizeToLora (hsqrt : IsSqrt torch.sqrt) {delta : ShapedMatrix ℝ}
    (hsvd : (torch.svd delta).Documented) (rank : ℕ) :
    (factorizeToLora torch delta rank).2.mul (factorizeToLora torch delta rank).1 =
      (torch.svd delta).truncated rank := by
  set math : ExportMath ℝ := ⟨torch.svd, torch.sqrt⟩
  have hcols : (lowRankDecomposeForPeft math delta rank).2.cols =
      (lowRankDecomposeForPeft math delta rank).1.rows := by
    show min rank (torch.svd delta).vh.rows = min rank (torch.svd delta).u.cols
    rw [(torch.svd delta).shape_vh.1, (torch.svd delta).shape_u.2]
  have hroots : ∀ k < min delta.rows delta.cols, math.sqrt ((math.svd delta).s k) *
      math.sqrt ((math.svd delta).s k) = (math.svd delta).s k :=
    fun k hk => (hsqrt _ (hsvd.nonneg ⟨k, hk⟩)).2
  rw [factorizeToLora_eq, ← ShapedMatrix.transpose_mul hcols, mul_lowRankDecompose math rank hroots]
  rfl

/-- The product of a pair in the shape of the target. -/
def resizedPair (adapter : Adapter ℝ) (base : String) (pair : LoraHalf → ShapedMatrix ℝ) :
    ShapedMatrix ℝ :=
  let target := piecewiseTarget adapter.target (loraKey base .a)
  resizeDelta ((pair .b).mul (pair .a)) target.1 target.2

variable {adapter : Adapter ℝ} {base : String} {pair : LoraHalf → ShapedMatrix ℝ}

/-- A projected pair is the best of the target rank. -/
theorem pairTensor_best (hsqrt : IsSqrt torch.sqrt) (hsqrtScale : IsSqrt torch.sqrtScale)
    (hscale : 0 ≤ adaptiveScale adapter (loraKey base .a))
    (hsvd : (torch.svd (resizedPair adapter base pair)).Documented)
    {a' b' : ShapedMatrix ℝ} (hrank : b'.cols ≤ adapter.targetRank) :
    let delta := (resizedPair adapter base pair).scale (adaptiveScale adapter (loraKey base .a))
    delta.distance ((pairTensor torch adapter base pair .b).mul
        (pairTensor torch adapter base pair .a)) ≤ delta.distance (b'.mul a') := by
  set c := adaptiveScale adapter (loraKey base .a) with hc
  intro delta
  have hproduct : (pairTensor torch adapter base pair .b).mul
      (pairTensor torch adapter base pair .a) =
        ((torch.svd (resizedPair adapter base pair)).truncated adapter.targetRank).scale c := by
    show ((factorizeToLora torch (resizedPair adapter base pair) adapter.targetRank).2.scale
      (torch.sqrtScale c)).mul ((factorizeToLora torch (resizedPair adapter base pair)
        adapter.targetRank).1.scale (torch.sqrtScale c)) = _
    rw [ShapedMatrix.scale_mul_scale, (hsqrtScale c hscale).2, mul_factorizeToLora hsqrt hsvd]
  rw [hproduct, ShapedMatrix.distance_scale]
  obtain hzero | hpos := hscale.eq_or_lt
  · rw [← hzero, zero_mul, zero_mul]
    exact sqNorm_nonneg _
  · -- any other pair is the scaled product of one scaled back
    have hback : b'.mul a' = ((b'.scale c⁻¹).mul a').scale c := by
      refine ShapedMatrix.ext rfl rfl fun i j => ?_
      show _ = c • ∑ k ∈ Finset.range b'.cols, (c⁻¹ • b'.entry i k) * a'.entry k j
      rw [Finset.smul_sum, ShapedMatrix.entry_mul]
      refine Finset.sum_congr rfl fun k _ => ?_
      rw [smul_mul_assoc, smul_inv_smul₀ hpos.ne']
    rw [hback, ShapedMatrix.distance_scale]
    have hrank' : (b'.scale c⁻¹).cols ≤ adapter.targetRank := hrank
    exact mul_le_mul_of_nonneg_left (truncated_closest hsvd hrank') (mul_self_nonneg c)

/-- **The piecewise projection is the best of its rank.**  When the second
tensor of a pair arrives, the pair written comes as close to the product of
both, resized and scaled for the target, as any pair of the target rank. -/
theorem bufferHalf_best (hsqrt : IsSqrt torch.sqrt) (hsqrtScale : IsSqrt torch.sqrtScale)
    {key : String} {tensor other : ShapedMatrix ℝ} {st st' : AdapterState ℝ ℝ}
    {written : Projected ℝ} (hkey : LoraKeyed key)
    (hheld : heldAt st (baseKey key) (keyHalf key).other = some other)
    (h : bufferHalf torch adapter key tensor st = .ok written st')
    (hscale : 0 ≤ adaptiveScale adapter (loraKey (baseKey key) .a))
    (hsvd : (torch.svd (resizedPair adapter (baseKey key)
      (joinPair (keyHalf key) tensor other))).Documented) :
    ∃ a b, written = .dict [(loraKey (baseKey key) .a, a), (loraKey (baseKey key) .b, b)] ∧
      ∀ a' b' : ShapedMatrix ℝ, b'.cols ≤ adapter.targetRank →
        let delta := (resizedPair adapter (baseKey key)
          (joinPair (keyHalf key) tensor other)).scale
            (adaptiveScale adapter (loraKey (baseKey key) .a))
        delta.distance (b.mul a) ≤ delta.distance (b'.mul a') := by
  obtain ⟨st'', -, -, hrun⟩ := @bufferHalf_meets ℝ ℝ _ _ _ _ torch adapter _ _
    hkey _ hheld tensor
  rw [hrun] at h
  split_ifs at h with hcomposable
  obtain ⟨rfl, -⟩ := EStateM.Result.ok.inj h
  exact ⟨_, _, rfl, fun a' b' hrank => pairTensor_best hsqrt hsqrtScale hscale hsvd hrank⟩

end Piecewise

/-- From two features to two, at rank one. -/
noncomputable def squareAdapter : Adapter ℝ where
  kind := .llama3ToQwen2
  source := ⟨2, 1, 2, 1, Nat.one_pos⟩
  target := ⟨2, 1, 2, 1, Nat.one_pos⟩
  targetRank := 1
  deltaHealth := none
  projectionMode := "piecewise"
  scalingConfig := AdaptiveScalingConfig.default ℝ
  piecewiseModules := none
  piecewiseLayers := none
  piecewiseMaxLayers := none

theorem resizedPair_square : resizedPair squareAdapter "layers.0.mlp.up_proj"
    (joinPair .b twoDirections (realUnits 2 2)) = twoDirections := by
  have htarget : piecewiseTarget squareAdapter.target (loraKey "layers.0.mlp.up_proj" .a) =
      (2, 2) := piecewiseTarget_of_names namesModule_up squareAdapter.target .a
  have hproduct : twoDirections.mul (realUnits 2 2) = twoDirections := by
    have hblock : (twoDirections.mul (realUnits 2 2)).block 2 2 = twoDirections.block 2 2 := by
      rw [ShapedMatrix.block_mul le_rfl]
      show twoDirections.block 2 2 * (realUnits 2 2).block 2 2 = _
      rw [block_realUnits, Matrix.mul_one]
    calc twoDirections.mul (realUnits 2 2)
        = .ofBlock ((twoDirections.mul (realUnits 2 2)).block 2 2) :=
          (ShapedMatrix.ofBlock_block rfl rfl).symm
      _ = .ofBlock (twoDirections.block 2 2) := by rw [hblock]
      _ = twoDirections := ShapedMatrix.ofBlock_block rfl rfl
  have hsame : (twoDirections.padCols 0).padRows 0 = twoDirections := by
    rw [ShapedMatrix.padRows_eq_resize]
    refine (ShapedMatrix.resize_self _).trans ?_
    rw [ShapedMatrix.padCols_eq_resize]
    exact ShapedMatrix.resize_self _
  unfold resizedPair
  rw [htarget]
  show resizeDelta (twoDirections.mul (realUnits 2 2)) 2 2 = twoDirections
  rw [hproduct]
  exact (if_neg (by decide)).trans hsame

/-- The first tensor of a pair waits in the buffer. -/
noncomputable def halfBuffered : AdapterState ℝ ℝ :=
  { (AdapterState.init : AdapterState ℝ ℝ) with
    pairBuffer := .ofWrites [("layers.0.mlp.up_proj", fun half =>
      if half = .a then some (realUnits 2 2) else none)] }

theorem squareAdapter_best : ∃ (a b : ShapedMatrix ℝ) (st' : AdapterState ℝ ℝ),
    bufferHalf diagonalTorch squareAdapter (loraKey "layers.0.mlp.up_proj" .b) twoDirections
      halfBuffered = .ok (.dict [(loraKey "layers.0.mlp.up_proj" .a, a),
        (loraKey "layers.0.mlp.up_proj" .b, b)]) st' ∧
    ∀ a' b' : ShapedMatrix ℝ, b'.cols ≤ 1 → (twoDirections.scale (1 : ℝ)).distance (b.mul a) ≤
      (twoDirections.scale (1 : ℝ)).distance (b'.mul a') := by
  set key := loraKey "layers.0.mlp.up_proj" .b
  have hbase : baseKey key = "layers.0.mlp.up_proj" := by decide
  have hhalf : keyHalf key = .b := by decide
  have hkey : LoraKeyed key := by decide
  have hheld : heldAt halfBuffered (baseKey key) (keyHalf key).other = some (realUnits 2 2) := by
    rw [hbase, hhalf]
    rfl
  have hscale : adaptiveScale squareAdapter (loraKey "layers.0.mlp.up_proj" .a) = 1 := by
    unfold adaptiveScale
    split <;> rfl
  obtain ⟨st', -, -, hrun⟩ :=
    @bufferHalf_meets ℝ ℝ _ _ _ _ diagonalTorch squareAdapter _ _ hkey _ hheld twoDirections
  have hcomposable : Composable (joinPair (keyHalf key) twoDirections (realUnits 2 2)) := by
    rw [hhalf]
    rfl
  rw [if_pos hcomposable] at hrun
  obtain ⟨a, b, hwritten, hbest⟩ := bufferHalf_best AdapterSolving.isSqrt_real
    AdapterSolving.isSqrt_real hkey hheld hrun
    (by rw [hbase, hscale]; exact zero_le_one)
    (by rw [hbase, hhalf, resizedPair_square]; exact documented_twoDirections)
  rw [hwritten, hbase] at hrun
  rw [hbase, hhalf, hscale, resizedPair_square] at hbest
  exact ⟨a, b, st', hrun, hbest⟩
