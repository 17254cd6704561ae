/-
Solving alignment maps and weight changes by ridge regression.

`solveRidge` solves the normal equations of two activation matrices.  The
alignment of two models solves one for every layer, transport multiplies a
delta by it, and the activation adapter solves one more for every module of
the target.

* `solveRidge_eq_ok_iff` — the solver returns the one best map;
* `learnAlignmentMap_best`, `alignAuto_best` — so does the alignment, for each
  layer it maps;
* `transported_iff` — what transport along such maps gives;
* `solveActivationAdapter_best` — the solved modules, and the errors reported
  for them.

Solving a linear system and square roots are parameters; entries are exact, so
the checks for non-finite entries always pass.
-/
import NeuralScalpel.Alignment
import NeuralScalpel.LoraExport
import NeuralScalpel.Ridge
import Mathlib.Analysis.Real.Sqrt

open Matrix

/-! ### Matrices of a shape as matrices -/

namespace ShapedMatrix

variable {K : Type} [Zero K]

/-- The entries of a shape. -/
def block (M : ShapedMatrix K) (rows cols : ℕ) : Matrix (Fin rows) (Fin cols) K :=
  fun i j => M.entry i j

def ofBlock {rows cols : ℕ} (M : Matrix (Fin rows) (Fin cols) K) : ShapedMatrix K where
  rows := rows
  cols := cols
  entry i j := if h : i < rows ∧ j < cols then M ⟨i, h.1⟩ ⟨j, h.2⟩ else 0
  support _ _ h := dif_neg h

theorem block_ofBlock {rows cols : ℕ} (M : Matrix (Fin rows) (Fin cols) K) :
    (ofBlock M).block rows cols = M := by
  ext i j
  exact dif_pos ⟨i.isLt, j.isLt⟩

theorem ofBlock_block {M : ShapedMatrix K} {rows cols : ℕ} (hrows : M.rows = rows)
    (hcols : M.cols = cols) : ofBlock (M.block rows cols) = M := by
  refine ext hrows.symm hcols.symm fun i j => ?_
  by_cases h : i < rows ∧ j < cols
  · exact dif_pos h
  · exact (dif_neg h).trans (M.support i j (by rwa [hrows, hcols])).symm

end ShapedMatrix

namespace AdapterSolving

open Frobenius Alignment

variable {K : Type} [Field K]

/-! ### The solver -/

/-- `torch.linalg.solve`. -/
abbrev SolveFn (K : Type) := ∀ ⦃d k : ℕ⦄, Matrix (Fin d) (Fin d) K → Matrix (Fin d) (Fin k) K →
  Except PyError (Matrix (Fin d) (Fin k) K)

/-- A system with one solution is solved. -/
def SolvesSystems (solve : SolveFn K) : Prop :=
  ∀ ⦃d k : ℕ⦄ (A : Matrix (Fin d) (Fin d) K) (B : Matrix (Fin d) (Fin k) K), A.det ≠ 0 →
    ∃ W, solve A B = .ok W ∧ A * W = B

/-- `solve_ridge`. -/
def solveRidge (solve : SolveFn K) (X Y : ShapedMatrix K) (alpha : K) :
    Except PyError (ShapedMatrix K) :=
  if Y.rows = X.rows then do
    let x := X.block X.rows X.cols
    let y := Y.block X.rows Y.cols
    let w ← solve (xᵀ * x + alpha • (1 : Matrix (Fin X.cols) (Fin X.cols) K)) (xᵀ * y)
    pure (.ofBlock w)
  else .error (.runtimeError
    s!"mat1 and mat2 shapes cannot be multiplied ({X.cols}x{X.rows} and {Y.rows}x{Y.cols})")

/-- The one map of the inputs to the outputs that costs least. -/
structure BestMap [LinearOrder K] (alpha : K) (X Y W : ShapedMatrix K) : Prop where
  rows : Y.rows = X.rows
  shape : W.rows = X.cols ∧ W.cols = Y.cols
  best : ∀ V : Matrix (Fin X.cols) (Fin Y.cols) K, V ≠ W.block X.cols Y.cols →
    Ridge.cost (X.block X.rows X.cols) (Y.block X.rows Y.cols) alpha (W.block X.cols Y.cols) <
      Ridge.cost (X.block X.rows X.cols) (Y.block X.rows Y.cols) alpha V

section Solver

variable [LinearOrder K] [IsStrictOrderedRing K] {solve : SolveFn K} {X Y W : ShapedMatrix K}
variable {alpha : K}

theorem solveRidge_solves (hsolve : SolvesSystems solve) (halpha : 0 < alpha)
    (hrows : Y.rows = X.rows) :
    ∃ w, solveRidge solve X Y alpha = .ok (.ofBlock w) ∧
      Ridge.Solves (X.block X.rows X.cols) (Y.block X.rows Y.cols) alpha w := by
  obtain ⟨w, hok, hw⟩ := hsolve _ ((X.block X.rows X.cols)ᵀ * Y.block X.rows Y.cols)
    (Ridge.ridge_det_ne_zero (X.block X.rows X.cols) halpha)
  refine ⟨w, ?_, hw⟩
  unfold solveRidge
  rw [if_pos hrows]
  exact Effect.bind_eq_ok.mpr ⟨w, hok, rfl⟩

theorem bestMap_of_solves {w : Matrix (Fin X.cols) (Fin Y.cols) K} (halpha : 0 < alpha)
    (hrows : Y.rows = X.rows)
    (hw : Ridge.Solves (X.block X.rows X.cols) (Y.block X.rows Y.cols) alpha w) :
    BestMap alpha X Y (.ofBlock w) := by
  refine ⟨hrows, ⟨rfl, rfl⟩, fun V hV => ?_⟩
  rw [ShapedMatrix.block_ofBlock] at hV ⊢
  exact lt_of_not_ge fun hle => hV (Ridge.eq_of_cost_le hw halpha hle)

omit [IsStrictOrderedRing K] in
theorem BestMap.unique {W' : ShapedMatrix K} (h : BestMap alpha X Y W)
    (h' : BestMap alpha X Y W') : W = W' := by
  have hblock : W.block X.cols Y.cols = W'.block X.cols Y.cols := by
    by_contra hne
    exact lt_asymm (h.best _ (Ne.symm hne)) (h'.best _ hne)
  rw [← ShapedMatrix.ofBlock_block h.shape.1 h.shape.2, hblock,
    ShapedMatrix.ofBlock_block h'.shape.1 h'.shape.2]

/-- With a penalty the solver returns the one best map, for any inputs and
outputs of as many samples. -/
theorem solveRidge_eq_ok_iff (hsolve : SolvesSystems solve) (halpha : 0 < alpha) :
    solveRidge solve X Y alpha = .ok W ↔ BestMap alpha X Y W := by
  constructor
  · intro h
    have hrows : Y.rows = X.rows := by
      by_contra hne
      unfold solveRidge at h
      rw [if_neg hne] at h
      cases h
    obtain ⟨w, hok, hw⟩ := solveRidge_solves hsolve halpha hrows
    rw [hok] at h
    rw [← Except.ok.inj h]
    exact bestMap_of_solves halpha hrows hw
  · intro h
    obtain ⟨w, hok, hw⟩ := solveRidge_solves hsolve halpha h.rows
    rw [hok, (bestMap_of_solves halpha h.rows hw).unique h]

end Solver

/-! ### Alignment maps -/

/-- What alignment needs of matrices. -/
def matrixLib (K : Type) [Field K] : TensorLib (ShapedMatrix K) where
  rows := ShapedMatrix.rows
  isFinite _ := true
  matmul d p :=
    if d.cols = p.rows then .ok (d.mul p)
    else .error (.runtimeError
      s!"mat1 and mat2 shapes cannot be multiplied ({d.rows}x{d.cols} and {p.rows}x{p.cols})")

variable {T S : Type}

/-- The body of the loop of `learn_alignment_map`. -/
def learnLayer {lib : TensorLib T} (dataset : PairedActivationDataset lib) (method : String)
    (solveRidge : T → T → Except PyError T) (sLayer : String) (x : T) :
    Except PyError (Option T) :=
  match dataset.targetActivations.get? sLayer with
  | none => .ok none
  | some y =>
    if lib.isFinite x = false then
      .error (.valueError s!"Non-finite activations in source layer {sLayer}")
    else if lib.isFinite y = false then
      .error (.valueError s!"Non-finite activations in target layer {sLayer}")
    else if method = "ridge" then some <$> solveRidge x y
    else .ok none

/-- `learn_alignment_map`. -/
def learnAlignmentMap {lib : TensorLib T} (dataset : PairedActivationDataset lib)
    (method : String) (solveRidge : T → T → Except PyError T) :
    Except PyError (AlignmentMap T) := do
  let layerMaps ← Dict.fill (learnLayer dataset method solveRidge)
    dataset.sourceActivations.entries .empty
  if layerMaps.isEmpty then
    throw (.runtimeError "No matching layers found to learn alignment map.")
  else pure ⟨layerMaps, .empty, .sourceLayer⟩

/-- `align`, from the activations its two collectors have stacked. -/
def align [LinearOrder S] (lib : TensorLib T) (calibrationPrompts sourceLayers targetLayers :
    List String) (method : String) (autoCorrespondence : Bool) (correspondenceMethod : String)
    (cka : T → T → S) (solveRidge : T → T → Except PyError T) (sourceActs targetActs :
    Dict String T) : Except PyError (AlignmentMap T) :=
  if calibrationPrompts.isEmpty then
    .error (.valueError "calibration_prompts must not be empty.")
  else if sourceLayers.isEmpty || targetLayers.isEmpty then
    .error (.valueError "source_layers and target_layers must not be empty.")
  else if !autoCorrespondence && sourceLayers.length != targetLayers.length then
    .error (.valueError ("Source and target layer lists must match in length unless " ++
      "auto_correspondence=True."))
  else do
    let dataset ← PairedActivationDataset.make lib sourceActs targetActs
    if autoCorrespondence then alignAuto dataset correspondenceMethod cka solveRidge
    else learnAlignmentMap dataset method solveRidge

section Align

variable [LinearOrder K] [IsStrictOrderedRing K] {solve : SolveFn K}
variable {dataset : PairedActivationDataset (matrixLib K)} {mapping : AlignmentMap (ShapedMatrix K)}

omit [LinearOrder K] [IsStrictOrderedRing K] in
/-- No other method maps a layer. -/
theorem method_of_learnAlignmentMap {method : String}
    {solver : ShapedMatrix K → ShapedMatrix K → Except PyError (ShapedMatrix K)}
    (h : learnAlignmentMap dataset method solver = .ok mapping) : method = "ridge" := by
  by_contra hmethod
  obtain ⟨layerMaps, hfill, h⟩ := Effect.bind_eq_ok.mp h
  have hempty : layerMaps = .empty := by
    refine Dict.eq_empty_of_get? fun layer => ?_
    by_contra hsome
    obtain ⟨p, hp⟩ := Option.ne_none_iff_exists'.mp hsome
    obtain ⟨x, -, hlayer⟩ := (Dict.get?_fill hfill).mp hp
    unfold learnLayer at hlayer
    split at hlayer
    · cases hlayer
    · split_ifs at hlayer
      cases hlayer
  rw [hempty] at h
  cases h

/-- Learning maps every layer both models have, each in the best way, and no
other layer. -/
theorem learnAlignmentMap_best {alpha : K} (hsolve : SolvesSystems solve) (halpha : 0 < alpha)
    (h : learnAlignmentMap dataset "ridge" (solveRidge solve · · alpha) = .ok mapping)
    {layer : String} {p : ShapedMatrix K} :
    mapping.layerMaps.get? layer = some p ↔ ∃ x y,
      dataset.sourceActivations.get? layer = some x ∧
      dataset.targetActivations.get? layer = some y ∧ BestMap alpha x y p := by
  obtain ⟨layerMaps, hfill, h⟩ := Effect.bind_eq_ok.mp h
  obtain rfl : mapping = ⟨layerMaps, .empty, .sourceLayer⟩ := by
    split at h
    · cases h
    · exact (Except.ok.inj h).symm
  show layerMaps.get? layer = some p ↔ _
  rw [Dict.get?_fill hfill]
  refine exists_congr fun x => ?_
  have hlayer : learnLayer dataset "ridge" (solveRidge solve · · alpha) layer x = .ok (some p) ↔
      ∃ y, dataset.targetActivations.get? layer = some y ∧ BestMap alpha x y p := by
    unfold learnLayer
    cases htarget : dataset.targetActivations.get? layer with
    | none => simp
    | some y =>
      have hmap : some <$> solveRidge solve x y alpha = .ok (some p) ↔
          solveRidge solve x y alpha = .ok p := by
        cases solveRidge solve x y alpha <;> simp
      show some <$> solveRidge solve x y alpha = .ok (some p) ↔ _
      rw [hmap, solveRidge_eq_ok_iff hsolve halpha]
      simp
  rw [hlayer]
  exact ⟨fun ⟨hx, y, hy, hbest⟩ => ⟨y, hx, hy, hbest⟩, fun ⟨y, hx, hy, hbest⟩ => ⟨hx, y, hy, hbest⟩⟩

/-- It returns unless the models have no layer in common. -/
theorem learnAlignmentMap_returns_iff {alpha : K} (hsolve : SolvesSystems solve)
    (halpha : 0 < alpha) :
    (∃ mapping, learnAlignmentMap dataset "ridge" (solveRidge solve · · alpha) = .ok mapping) ↔
      ∃ layer x y, dataset.sourceActivations.get? layer = some x ∧
        dataset.targetActivations.get? layer = some y := by
  constructor
  · rintro ⟨mapping, h⟩
    have hmaps := fun layer p => @learnAlignmentMap_best _ _ _ _ _ _ _ _ hsolve halpha h layer p
    obtain ⟨layerMaps, hfill, h⟩ := Effect.bind_eq_ok.mp h
    split at h
    · cases h
    · rename_i hne
      obtain rfl := Except.ok.inj h
      by_contra hnone
      refine hne (Dict.isEmpty_iff.mpr (Dict.eq_empty_of_get? fun layer => ?_))
      by_contra hsome
      obtain ⟨p, hp⟩ := Option.ne_none_iff_exists'.mp hsome
      obtain ⟨x, y, hx, hy, -⟩ := (hmaps layer p).mp hp
      exact hnone ⟨layer, x, y, hx, hy⟩
  · rintro ⟨layer, x, y, hx, hy⟩
    have hlayers : ∀ k a, (k, a) ∈ dataset.sourceActivations.entries →
        ∃ o, learnLayer dataset "ridge" (solveRidge solve · · alpha) k a = .ok o := by
      intro k a hmem
      unfold learnLayer
      cases htarget : dataset.targetActivations.get? k with
      | none => exact ⟨none, rfl⟩
      | some b =>
        obtain ⟨w, hok, -⟩ := solveRidge_solves hsolve halpha
          (dataset.rows_match k a b (Dict.mem_entries_iff.mp hmem) htarget).symm
        refine ⟨some (.ofBlock w), ?_⟩
        show some <$> solveRidge solve a b alpha = _
        rw [hok]
        rfl
    obtain ⟨layerMaps, hfill⟩ := Dict.fill_ok_iff.mpr hlayers
    have hkey : layerMaps.contains layer = true := by
      obtain ⟨w, hok, -⟩ := solveRidge_solves hsolve halpha
        (dataset.rows_match layer x y hx hy).symm
      refine Dict.contains_iff.mpr ⟨.ofBlock w, (Dict.get?_fill hfill).mpr ⟨x, hx, ?_⟩⟩
      unfold learnLayer
      rw [hy]
      show some <$> solveRidge solve x y alpha = _
      rw [hok]
      rfl
    refine ⟨⟨layerMaps, .empty, .sourceLayer⟩, Effect.bind_eq_ok.mpr ⟨layerMaps, hfill, ?_⟩⟩
    rw [if_neg (Bool.eq_false_iff.mp (Dict.isEmpty_eq_false hkey))]
    rfl

/-- The source layer a layer of the target is mapped from. -/
def MappedFrom (autoCorrespondence : Bool) (mapping : AlignmentMap T) (layer sLayer : String) :
    Prop :=
  if autoCorrespondence then mapping.mapping.get? layer = some sLayer else sLayer = layer

/-- Alignment maps each layer in the best way, with or without an estimated
correspondence. -/
theorem align_best [LinearOrder S] {prompts sourceLayers targetLayers : List String}
    {method correspondenceMethod : String} {auto : Bool} {cka : ShapedMatrix K → ShapedMatrix K → S}
    {sourceActs targetActs : Dict String (ShapedMatrix K)} (hsolve : SolvesSystems solve)
    (h : align (matrixLib K) prompts sourceLayers targetLayers method auto correspondenceMethod
      cka (solveRidge solve · · 1) sourceActs targetActs = .ok mapping)
    {layer : String} {p : ShapedMatrix K} :
    mapping.layerMaps.get? layer = some p ↔ ∃ sLayer x y, MappedFrom auto mapping layer sLayer ∧
      sourceActs.get? sLayer = some x ∧ targetActs.get? layer = some y ∧ BestMap 1 x y p := by
  unfold align at h
  split at h
  · cases h
  split at h
  · cases h
  split at h
  · cases h
  obtain ⟨dataset, hdataset, hrun⟩ := Effect.bind_eq_ok.mp h
  obtain ⟨hsource, htarget⟩ : dataset.sourceActivations = sourceActs ∧
      dataset.targetActivations = targetActs := by
    unfold PairedActivationDataset.make at hdataset
    split at hdataset
    · obtain rfl := Except.ok.inj hdataset
      exact ⟨rfl, rfl⟩
    · cases hdataset
  subst hsource htarget
  cases auto with
  | true =>
    have hmaps : mapping.layerMaps.get? layer = some p ↔ _ := align_maps hrun
    simp only [solveRidge_eq_ok_iff hsolve zero_lt_one] at hmaps
    exact hmaps
  | false =>
    rw [method_of_learnAlignmentMap hrun] at hrun
    refine (learnAlignmentMap_best hsolve zero_lt_one hrun).trans ?_
    exact ⟨fun ⟨x, y, hx, hy, hbest⟩ => ⟨layer, x, y, rfl, hx, hy, hbest⟩,
      fun ⟨_, x, y, hs, hx, hy, hbest⟩ => ⟨x, y, (show _ = layer from hs) ▸ hx, hy, hbest⟩⟩

omit [LinearOrder K] [IsStrictOrderedRing K] in
theorem matmul_eq_ok {d p v : ShapedMatrix K} :
    (matrixLib K).matmul d p = .ok v ↔ d.cols = p.rows ∧ v = d.mul p := by
  show (if d.cols = p.rows then _ else _) = _ ↔ _
  by_cases hdim : d.cols = p.rows
  · rw [if_pos hdim]
    exact ⟨fun hv => ⟨hdim, (Except.ok.inj hv).symm⟩, fun hv => congrArg _ hv.2.symm⟩
  · rw [if_neg hdim]
    exact ⟨fun hv => (nomatch hv), fun hv => absurd hv.1 hdim⟩

omit [LinearOrder K] [IsStrictOrderedRing K] in
/-- Transport multiplies a delta by the map of its name. -/
theorem transported_iff {delta transported : Dict String (ShapedMatrix K)}
    (h : transportDelta (matrixLib K) delta mapping = .ok transported) {layer : String}
    {v : ShapedMatrix K} :
    transported.get? layer = some v ↔ ∃ d p, delta.get? layer = some d ∧
      mapping.layerMaps.get? layer = some p ∧ v = d.mul p := by
  rw [get?_transported h]
  constructor
  · rintro ⟨d, hd, hlayer⟩
    obtain ⟨p, hp, hv, -⟩ := (transportLayer_eq_some rfl).mp hlayer
    exact ⟨d, p, hd, hp, (matmul_eq_ok.mp hv).2⟩
  · rintro ⟨d, p, hd, hp, rfl⟩
    -- the shapes fit, since the layer did not raise
    obtain ⟨o, ho⟩ := transportDelta_returns_iff.mp ⟨transported, h⟩ layer d hd
    cases o with
    | none => exact absurd ho (transportLayer_ne_none hp)
    | some v =>
      obtain ⟨p', hp', hv, -⟩ := (transportLayer_eq_some rfl).mp ho
      obtain rfl := Option.some.inj (hp.symm.trans hp')
      obtain ⟨-, rfl⟩ := matmul_eq_ok.mp hv
      exact ⟨d, hd, ho⟩

/-- From activations to transported deltas: a layer is transported by the best
map between the activations it is mapped from and to. -/
theorem alignTransport_best [LinearOrder S] {prompts sourceLayers targetLayers : List String}
    {method correspondenceMethod : String} {auto : Bool} {cka : ShapedMatrix K → ShapedMatrix K → S}
    {sourceActs targetActs delta transported : Dict String (ShapedMatrix K)}
    (hsolve : SolvesSystems solve)
    (h : align (matrixLib K) prompts sourceLayers targetLayers method auto correspondenceMethod
      cka (solveRidge solve · · 1) sourceActs targetActs = .ok mapping)
    (ht : transportDelta (matrixLib K) delta mapping = .ok transported)
    (layer : String) (v : ShapedMatrix K) :
    transported.get? layer = some v ↔ ∃ d p sLayer x y, delta.get? layer = some d ∧
      MappedFrom auto mapping layer sLayer ∧ sourceActs.get? sLayer = some x ∧
      targetActs.get? layer = some y ∧ BestMap 1 x y p ∧ v = d.mul p := by
  rw [transported_iff ht]
  constructor
  · rintro ⟨d, p, hd, hp, hv⟩
    obtain ⟨sLayer, x, y, hs, hx, hy, hbest⟩ := (align_best hsolve h).mp hp
    exact ⟨d, p, sLayer, x, y, hd, hs, hx, hy, hbest, hv⟩
  · rintro ⟨d, p, sLayer, x, y, hd, hs, hx, hy, hbest, hv⟩
    exact ⟨d, p, hd, (align_best hsolve h).mpr ⟨sLayer, x, y, hs, hx, hy, hbest⟩, hv⟩

/-- A solver of the systems that have one solution. -/
noncomputable def inverseSolve (K : Type) [Field K] : SolveFn K := fun _ _ A B => .ok (A⁻¹ * B)

omit [LinearOrder K] [IsStrictOrderedRing K] in
theorem inverseSolve_solves : SolvesSystems (inverseSolve K) := fun _ _ A B hdet =>
  ⟨_, rfl, Matrix.mul_nonsing_inv_cancel_left A B (isUnit_iff_ne_zero.mpr hdet)⟩

/-- Two samples of two features. -/
def twoSamples {K : Type} [Semiring K] (x : K) : ShapedMatrix K := .ofFn 2 2 fun i j => x + i * j

def oneLayer {K : Type} [Semiring K] (x : K) : Dict String (ShapedMatrix K) :=
  .ofWrites [("model.layers.0", twoSamples x)]

theorem oneLayer_transported : ∃ mapping transported v p,
    align (matrixLib ℚ) ["prompt"] ["model.layers.0"] ["model.layers.0"] "ridge" false "linear_cka"
        (fun _ _ => (0 : ℚ)) (solveRidge (inverseSolve ℚ) · · 1) (oneLayer 1) (oneLayer 2) =
      .ok mapping ∧
    transportDelta (matrixLib ℚ) (oneLayer 3) mapping = .ok transported ∧
    BestMap 1 (twoSamples (1 : ℚ)) (twoSamples 2) p ∧
    transported.get? "model.layers.0" = some v ∧ v = (twoSamples 3).mul p := by
  have hget : ∀ x : ℚ, (oneLayer x).get? "model.layers.0" = some (twoSamples x) :=
    fun x => Dict.get?_set_self _ _ _
  have hrows : rowsMatch (matrixLib ℚ) (oneLayer 1) (oneLayer 2) = true := rfl
  obtain ⟨mapping, halign⟩ : ∃ mapping, align (matrixLib ℚ) ["prompt"] ["model.layers.0"]
      ["model.layers.0"] "ridge" false "linear_cka" (fun _ _ => (0 : ℚ))
      (solveRidge (inverseSolve ℚ) · · 1) (oneLayer 1) (oneLayer 2) = .ok mapping := by
    set dataset : PairedActivationDataset (matrixLib ℚ) :=
      ⟨oneLayer 1, oneLayer 2, rows_eq_of_rowsMatch hrows⟩ with hdataset
    have hboth : ∃ layer x y, dataset.sourceActivations.get? layer = some x ∧
        dataset.targetActivations.get? layer = some y := ⟨_, _, _, hget 1, hget 2⟩
    exact (learnAlignmentMap_returns_iff inverseSolve_solves zero_lt_one).mpr hboth
  obtain ⟨w, -, hw⟩ := solveRidge_solves (X := twoSamples (1 : ℚ)) (Y := twoSamples 2)
    inverseSolve_solves zero_lt_one rfl
  have hbest : BestMap 1 (twoSamples (1 : ℚ)) (twoSamples 2) (.ofBlock w) :=
    bestMap_of_solves (X := twoSamples (1 : ℚ)) (Y := twoSamples 2) zero_lt_one rfl hw
  have hmap : mapping.layerMaps.get? "model.layers.0" = some (.ofBlock w) :=
    (align_best inverseSolve_solves halign).mpr
      ⟨_, _, _, rfl, hget 1, hget 2, hbest⟩
  have hlayers : ∀ layer d, (oneLayer (3 : ℚ)).get? layer = some d →
      ∃ o, transportLayer (matrixLib ℚ) mapping layer d = .ok o := by
    intro layer d hd
    obtain ⟨rfl, rfl⟩ := Prod.mk.inj (List.mem_singleton.mp (Dict.mem_of_get?_ofWrites hd))
    exact ⟨_, (transportLayer_eq_some rfl).mpr ⟨_, hmap, matmul_eq_ok.mpr ⟨rfl, rfl⟩, rfl⟩⟩
  obtain ⟨transported, htransport⟩ := transportDelta_returns_iff.mpr hlayers
  refine ⟨mapping, transported, _, _, halign, htransport, hbest, ?_, rfl⟩
  exact (alignTransport_best inverseSolve_solves halign htransport _ _).mpr
    ⟨_, _, _, _, _, hget 3, rfl, hget 1, hget 2, hbest, rfl⟩

end Align

/-! ### The activation adapter -/

/-- What is known of the modules solved so far. -/
structure SolvedModules (K : Type) [Zero K] where
  weights : Dict String (ShapedMatrix K)
  errors : Dict String K
  solvedModules : List String
  skippedModules : List String

/-- `module_to_delta_layer.get(module, module)`. -/
def deltaKey (moduleToDeltaLayer : Option (Dict String String)) (module : String) : String :=
  match moduleToDeltaLayer with
  | none => module
  | some layers => (layers.get? module).getD module

/-- `torch.norm(Y - Y_pred) / torch.norm(Y)`. -/
def relativeError (sqrt : K → K) (X Y W : ShapedMatrix K) : K :=
  let y := Y.block X.rows Y.cols
  sqrt (sqNorm (y - X.block X.rows X.cols * W.block X.cols Y.cols)) / sqrt (sqNorm y)

/-- One module: its weight and its error, or nothing if it is skipped. -/
def solveModule (solve : SolveFn K) (sqrt : K → K) (inputsStacked desiredDelta :
    Dict String (ShapedMatrix K)) (moduleToDeltaLayer : Option (Dict String String))
    (strict : Bool) (module : String) : Except PyError (Option (ShapedMatrix K × K)) :=
  match inputsStacked.get? module with
  | none =>
    if strict then .error (.valueError s!"Activation not collected for module: {module}")
    else .ok none
  | some X =>
    match desiredDelta.get? (deltaKey moduleToDeltaLayer module) with
    | none =>
      if strict then
        .error (.valueError ("No transported delta found for key: " ++
          s!"{deltaKey moduleToDeltaLayer module} (mapped from {module})"))
      else .ok none
    | some Y => do
      let W ← solveRidge solve X Y 1
      pure (some (W, relativeError sqrt X Y W))

/-- The loop over the modules. -/
def solveModules (step : String → Except PyError (Option (ShapedMatrix K × K))) :
    List String → SolvedModules K → Except PyError (SolvedModules K)
  | [], acc => .ok acc
  | module :: modules, acc => do
    match ← step module with
    | none =>
      solveModules step modules { acc with skippedModules := acc.skippedModules ++ [module] }
    | some (W, e) =>
      solveModules step modules {
        weights := acc.weights.set module W
        errors := acc.errors.set module e
        solvedModules := acc.solvedModules ++ [module]
        skippedModules := acc.skippedModules }

/-- `solve_activation_adapter`, from the inputs its collector has stacked; with
the solved and the skipped modules. -/
def solveActivationAdapter (solve : SolveFn K) (sqrt : K → K) (prompts targetModules : List String)
    (inputsStacked desiredDelta : Dict String (ShapedMatrix K)) (targetModelId : String)
    (moduleToDeltaLayer : Option (Dict String String)) (strict : Bool) :
    Except PyError (ActivationAdapterSolution K × List String × List String) :=
  if prompts.isEmpty then .error (.valueError "prompts must not be empty.")
  else if targetModules.isEmpty then .error (.valueError "target_modules must not be empty.")
  else do
    let solved ← solveModules
      (solveModule solve sqrt inputsStacked desiredDelta moduleToDeltaLayer strict) targetModules
      ⟨.empty, .empty, [], []⟩
    pure (⟨solved.weights, targetModelId, solved.errors⟩, solved.solvedModules,
      solved.skippedModules)

/-- What the loop has recorded of the modules it is done with. -/
structure Records (step : String → Except PyError (Option (ShapedMatrix K × K)))
    (done : List String) (acc : SolvedModules K) : Prop where
  weights : ∀ m W, acc.weights.get? m = some W ↔ m ∈ done ∧ ∃ e, step m = .ok (some (W, e))
  errors : ∀ m e, acc.errors.get? m = some e ↔ m ∈ done ∧ ∃ W, step m = .ok (some (W, e))
  solved : ∀ m, m ∈ acc.solvedModules ↔ m ∈ done ∧ ∃ r, step m = .ok (some r)
  skipped : ∀ m, m ∈ acc.skippedModules ↔ m ∈ done ∧ step m = .ok none
  returned : ∀ m ∈ done, ∃ o, step m = .ok o

section Records

variable {step : String → Except PyError (Option (ShapedMatrix K × K))} {done : List String}
variable {acc : SolvedModules K} {module : String}

theorem Records.skip (h : Records step done acc) (hstep : step module = .ok none) :
    Records step (done ++ [module])
      { acc with skippedModules := acc.skippedModules ++ [module] } where
  weights m W := by
    rw [h.weights, List.mem_append, List.mem_singleton]
    refine ⟨fun ⟨hm, hr⟩ => ⟨Or.inl hm, hr⟩, fun ⟨hm, e, he⟩ => ⟨hm.resolve_right ?_, e, he⟩⟩
    rintro rfl
    rw [hstep] at he
    cases he
  errors m e := by
    rw [h.errors, List.mem_append, List.mem_singleton]
    refine ⟨fun ⟨hm, hr⟩ => ⟨Or.inl hm, hr⟩, fun ⟨hm, W, hW⟩ => ⟨hm.resolve_right ?_, W, hW⟩⟩
    rintro rfl
    rw [hstep] at hW
    cases hW
  solved m := by
    rw [h.solved, List.mem_append, List.mem_singleton]
    refine ⟨fun ⟨hm, hr⟩ => ⟨Or.inl hm, hr⟩, fun ⟨hm, r, hr⟩ => ⟨hm.resolve_right ?_, r, hr⟩⟩
    rintro rfl
    rw [hstep] at hr
    cases hr
  skipped m := by
    rw [List.mem_append, List.mem_append, List.mem_singleton, h.skipped, or_and_right]
    refine or_congr_right ⟨?_, And.left⟩
    rintro rfl
    exact ⟨rfl, hstep⟩
  returned m hm := by
    rcases List.mem_append.mp hm with hm | hm
    · exact h.returned m hm
    · rw [List.mem_singleton.mp hm]
      exact ⟨none, hstep⟩

theorem Records.solve (h : Records step done acc) {W : ShapedMatrix K} {e : K}
    (hstep : step module = .ok (some (W, e))) :
    Records step (done ++ [module])
      ⟨acc.weights.set module W, acc.errors.set module e, acc.solvedModules ++ [module],
        acc.skippedModules⟩ where
  weights m V := by
    rw [Dict.get?_set, List.mem_append, List.mem_singleton]
    by_cases hm : m = module
    · subst hm
      rw [if_pos rfl, hstep]
      simp
    · rw [if_neg hm, h.weights]
      simp [hm]
  errors m e' := by
    rw [Dict.get?_set, List.mem_append, List.mem_singleton]
    by_cases hm : m = module
    · subst hm
      rw [if_pos rfl, hstep]
      simp
    · rw [if_neg hm, h.errors]
      simp [hm]
  solved m := by
    rw [List.mem_append, List.mem_append, List.mem_singleton, h.solved, or_and_right]
    refine or_congr_right ⟨?_, And.left⟩
    rintro rfl
    exact ⟨rfl, _, hstep⟩
  skipped m := by
    rw [h.skipped, List.mem_append, List.mem_singleton]
    refine ⟨fun ⟨hm, hr⟩ => ⟨Or.inl hm, hr⟩, fun ⟨hm, hr⟩ => ⟨hm.resolve_right ?_, hr⟩⟩
    rintro rfl
    rw [hstep] at hr
    cases hr
  returned m hm := by
    rcases List.mem_append.mp hm with hm | hm
    · exact h.returned m hm
    · rw [List.mem_singleton.mp hm]
      exact ⟨some (W, e), hstep⟩

/-- The loop records every module it goes through. -/
theorem Records.solveModules : ∀ {modules done : List String} {acc acc' : SolvedModules K},
    Records step done acc → solveModules step modules acc = .ok acc' →
    Records step (done ++ modules) acc'
  | [], done, acc, acc', h, hrun => by
    obtain rfl := Except.ok.inj hrun
    rwa [List.append_nil]
  | module :: modules, done, acc, acc', h, hrun => by
    obtain ⟨o, hstep, hrun⟩ := Effect.bind_eq_ok.mp hrun
    rw [List.append_cons]
    cases o with
    | none => exact (h.skip hstep).solveModules hrun
    | some r => exact (h.solve hstep).solveModules hrun

end Records

/-! ### What is solved, and how well -/

section Solved

variable [LinearOrder K] [IsStrictOrderedRing K] {solve : SolveFn K} {sqrt : K → K}

/-- The reported error lies between nothing and all, and is all only if the
inputs say nothing about the delta. -/
theorem relativeError_bounds (hsqrt : IsSqrt sqrt) {X Y W : ShapedMatrix K}
    (hbest : BestMap 1 X Y W) (hsolve : SolvesSystems solve)
    (hY : sqNorm (Y.block X.rows Y.cols) ≠ 0) :
    0 ≤ relativeError sqrt X Y W ∧ relativeError sqrt X Y W ≤ 1 ∧
      (relativeError sqrt X Y W = 1 ↔
        (X.block X.rows X.cols)ᵀ * Y.block X.rows Y.cols = 0) := by
  obtain ⟨w, hok, hw⟩ := solveRidge_solves hsolve zero_lt_one hbest.rows
  obtain rfl := (bestMap_of_solves zero_lt_one hbest.rows hw).unique hbest
  have hresidual : sqNorm (Y.block X.rows Y.cols - X.block X.rows X.cols * w) =
      sqNorm (X.block X.rows X.cols * w - Y.block X.rows Y.cols) := by
    rw [← sqNorm_neg, neg_sub]
  have hpos : 0 < sqNorm (Y.block X.rows Y.cols) := lt_of_le_of_ne (sqNorm_nonneg _) hY.symm
  obtain ⟨hnonneg, hle, heq⟩ := sqrt_div_le_one_iff hsqrt
    (sqNorm_nonneg (Y.block X.rows Y.cols - X.block X.rows X.cols * w)) hpos
  unfold relativeError
  rw [ShapedMatrix.block_ofBlock]
  refine ⟨hnonneg, hle.mpr ?_, heq.trans ?_⟩
  · rw [hresidual]
    exact Ridge.sqNorm_residual_le hw zero_lt_one
  · rw [hresidual]
    exact Ridge.sqNorm_residual_eq_iff hw zero_lt_one

variable {prompts targetModules solved skipped : List String}
variable {inputsStacked desiredDelta : Dict String (ShapedMatrix K)} {targetModelId : String}
variable {moduleToDeltaLayer : Option (Dict String String)} {strict : Bool}
variable {solution : ActivationAdapterSolution K}

theorem solveModule_eq_some (hsolve : SolvesSystems solve) {module : String} {W : ShapedMatrix K}
    {e : K} :
    solveModule solve sqrt inputsStacked desiredDelta moduleToDeltaLayer strict module =
        .ok (some (W, e)) ↔
      ∃ X Y, inputsStacked.get? module = some X ∧
        desiredDelta.get? (deltaKey moduleToDeltaLayer module) = some Y ∧ BestMap 1 X Y W ∧
        e = relativeError sqrt X Y W := by
  unfold solveModule
  cases hX : inputsStacked.get? module with
  | none => cases strict <;> simp
  | some X =>
    cases hY : desiredDelta.get? (deltaKey moduleToDeltaLayer module) with
    | none => cases strict <;> simp
    | some Y =>
      simp only [Effect.bind_eq_ok, solveRidge_eq_ok_iff hsolve zero_lt_one]
      constructor
      · rintro ⟨W', hbest, heq⟩
        obtain ⟨rfl, rfl⟩ := Prod.mk.inj (Option.some.inj (Except.ok.inj heq))
        exact ⟨X, Y, rfl, rfl, hbest, rfl⟩
      · rintro ⟨X', Y', hX', hY', hbest, rfl⟩
        obtain rfl := Option.some.inj hX'
        obtain rfl := Option.some.inj hY'
        exact ⟨W, hbest, rfl⟩

omit [LinearOrder K] [IsStrictOrderedRing K] in
/-- In strict mode no module is skipped. -/
theorem solveModule_strict {module : String} :
    solveModule solve sqrt inputsStacked desiredDelta moduleToDeltaLayer true module ≠
      .ok none := by
  unfold solveModule
  intro h
  split at h
  · cases h
  · split at h
    · cases h
    · obtain ⟨W, -, hW⟩ := Effect.bind_eq_ok.mp h
      cases hW

omit [LinearOrder K] [IsStrictOrderedRing K] in
/-- What a call that returns has recorded. -/
theorem exists_records
    (h : solveActivationAdapter solve sqrt prompts targetModules inputsStacked desiredDelta
      targetModelId moduleToDeltaLayer strict = .ok (solution, solved, skipped)) :
    ∃ acc, Records (solveModule solve sqrt inputsStacked desiredDelta moduleToDeltaLayer strict)
        targetModules acc ∧
      solution.moduleWeights = acc.weights ∧ solution.reconstructionErrors = acc.errors ∧
      solved = acc.solvedModules := by
  unfold solveActivationAdapter at h
  split at h
  · cases h
  split at h
  · cases h
  obtain ⟨acc, hrun, hresult⟩ := Effect.bind_eq_ok.mp h
  obtain ⟨rfl, hrest⟩ := Prod.mk.inj (Except.ok.inj hresult)
  obtain ⟨rfl, rfl⟩ := Prod.mk.inj hrest
  have hnone : Records (solveModule solve sqrt inputsStacked desiredDelta moduleToDeltaLayer strict)
      [] (⟨.empty, .empty, [], []⟩ : SolvedModules K) :=
    ⟨fun m W => by simp, fun m e => by simp, fun m => by simp, fun m => by simp, nofun⟩
  exact ⟨acc, hnone.solveModules hrun, rfl, rfl, rfl⟩

/-- A module has the one best weight change for its inputs, if it has inputs and
a delta. -/
theorem moduleWeights_iff (hsolve : SolvesSystems solve)
    (h : solveActivationAdapter solve sqrt prompts targetModules inputsStacked desiredDelta
      targetModelId moduleToDeltaLayer strict = .ok (solution, solved, skipped))
    (module : String) (W : ShapedMatrix K) :
    solution.moduleWeights.get? module = some W ↔ module ∈ targetModules ∧
      ∃ X Y, inputsStacked.get? module = some X ∧
        desiredDelta.get? (deltaKey moduleToDeltaLayer module) = some Y ∧ BestMap 1 X Y W := by
  obtain ⟨acc, hrecords, hweights, -, -⟩ := exists_records h
  rw [hweights]
  refine (hrecords.weights module W).trans (and_congr_right fun _ => ?_)
  simp only [solveModule_eq_some hsolve]
  exact ⟨fun ⟨e, X, Y, hX, hY, hbest, _⟩ => ⟨X, Y, hX, hY, hbest⟩,
    fun ⟨X, Y, hX, hY, hbest⟩ => ⟨_, X, Y, hX, hY, hbest, rfl⟩⟩

/-- Each solved module has the one best weight change for its inputs, with an
error between nothing and all; a module is solved iff it has inputs and a
delta, and in strict mode all are. -/
theorem solveActivationAdapter_best (hsolve : SolvesSystems solve) (hsqrt : IsSqrt sqrt)
    (h : solveActivationAdapter solve sqrt prompts targetModules inputsStacked desiredDelta
      targetModelId moduleToDeltaLayer strict = .ok (solution, solved, skipped))
    (module : String) :
    (∀ W, solution.moduleWeights.get? module = some W ↔ module ∈ targetModules ∧
      ∃ X Y, inputsStacked.get? module = some X ∧
        desiredDelta.get? (deltaKey moduleToDeltaLayer module) = some Y ∧ BestMap 1 X Y W) ∧
    (∀ X Y e, inputsStacked.get? module = some X →
      desiredDelta.get? (deltaKey moduleToDeltaLayer module) = some Y →
      solution.reconstructionErrors.get? module = some e →
      sqNorm (Y.block X.rows Y.cols) ≠ 0 →
      0 ≤ e ∧ e ≤ 1 ∧
        (e = 1 ↔ (X.block X.rows X.cols)ᵀ * Y.block X.rows Y.cols = 0)) ∧
    (module ∈ solved ↔ ∃ W, solution.moduleWeights.get? module = some W) ∧
    (strict = true → (module ∈ solved ↔ module ∈ targetModules)) := by
  obtain ⟨acc, hrecords, hweights, herrors, rfl⟩ := exists_records h
  refine ⟨moduleWeights_iff hsolve h module, fun X Y e hX hY he hne => ?_, ?_, fun hstrict => ?_⟩
  · rw [herrors] at he
    obtain ⟨-, W, hW⟩ := (hrecords.errors module e).mp he
    obtain ⟨X', Y', hX', hY', hbest, rfl⟩ := (solveModule_eq_some hsolve).mp hW
    obtain rfl := Option.some.inj (hX.symm.trans hX')
    obtain rfl := Option.some.inj (hY.symm.trans hY')
    exact relativeError_bounds hsqrt hbest hsolve hne
  · rw [hrecords.solved, hweights]
    constructor
    · rintro ⟨hm, ⟨W, e⟩, hr⟩
      exact ⟨W, (hrecords.weights module W).mpr ⟨hm, e, hr⟩⟩
    · rintro ⟨W, hW⟩
      obtain ⟨hm, e, he⟩ := (hrecords.weights module W).mp hW
      exact ⟨hm, _, he⟩
  · subst hstrict
    refine ⟨fun hm => ((hrecords.solved module).mp hm).1, fun hm => ?_⟩
    obtain ⟨o, ho⟩ := hrecords.returned module hm
    cases o with
    | none => exact absurd ho solveModule_strict
    | some r => exact (hrecords.solved module).mpr ⟨hm, r, ho⟩

theorem isSqrt_real : IsSqrt Real.sqrt := fun x hx =>
  ⟨Real.sqrt_nonneg x, Real.mul_self_sqrt hx⟩

theorem oneLayer_solved : ∃ solution solved skipped W e,
    solveActivationAdapter (inverseSolve ℝ) Real.sqrt ["prompt"] ["model.layers.0"] (oneLayer 1)
        (oneLayer 2) "target" none true = .ok (solution, solved, skipped) ∧
      solution.moduleWeights.get? "model.layers.0" = some W ∧
      BestMap 1 (twoSamples (1 : ℝ)) (twoSamples 2) W ∧
      solution.reconstructionErrors.get? "model.layers.0" = some e ∧ 0 ≤ e ∧ e ≤ 1 := by
  have hget : ∀ x : ℝ, (oneLayer x).get? "model.layers.0" = some (twoSamples x) :=
    fun x => Dict.get?_set_self _ _ _
  obtain ⟨w, -, hw⟩ := solveRidge_solves (X := twoSamples (1 : ℝ)) (Y := twoSamples 2)
    inverseSolve_solves zero_lt_one rfl
  have hbest : BestMap 1 (twoSamples (1 : ℝ)) (twoSamples 2) (.ofBlock w) :=
    bestMap_of_solves (X := twoSamples (1 : ℝ)) (Y := twoSamples 2) zero_lt_one rfl hw
  have hstep : solveModule (inverseSolve ℝ) Real.sqrt (oneLayer 1) (oneLayer 2) none true
      "model.layers.0" = .ok (some (.ofBlock w, relativeError Real.sqrt (twoSamples 1)
        (twoSamples 2) (.ofBlock w))) :=
    (solveModule_eq_some inverseSolve_solves).mpr ⟨_, _, hget 1, hget 2, hbest, rfl⟩
  have hrun : ∃ solution solved skipped, solveActivationAdapter (inverseSolve ℝ) Real.sqrt
      ["prompt"] ["model.layers.0"] (oneLayer 1) (oneLayer 2) "target" none true =
        .ok (solution, solved, skipped) ∧
      solution.reconstructionErrors.get? "model.layers.0" =
        some (relativeError Real.sqrt (twoSamples (1 : ℝ)) (twoSamples 2) (.ofBlock w)) := by
    refine ⟨_, _, _, Effect.bind_eq_ok.mpr ⟨_, Effect.bind_eq_ok.mpr ⟨_, hstep, rfl⟩, rfl⟩, ?_⟩
    exact Dict.get?_set_self _ _ _
  obtain ⟨solution, solved, skipped, hrun, herror⟩ := hrun
  obtain ⟨hweights, herrors, -, -⟩ := solveActivationAdapter_best inverseSolve_solves isSqrt_real
    hrun "model.layers.0"
  have hdelta : sqNorm ((twoSamples (2 : ℝ)).block 2 2) ≠ 0 := by
    intro hzero
    have hentry : (2 : ℝ) + (0 : ℕ) * (0 : ℕ) = 0 :=
      congrFun (congrFun (sqNorm_eq_zero_iff.mp hzero) 0) 0
    norm_num at hentry
  obtain ⟨hnonneg, hle, -⟩ := herrors _ _ _ (hget 1) (hget 2) herror hdelta
  exact ⟨solution, solved, skipped, _, _, hrun, (hweights _).mpr
    ⟨List.mem_singleton.mpr rfl, _, _, hget 1, hget 2, hbest⟩, hbest, herror, hnonneg, hle⟩

end Solved

end AdapterSolving
