/-
Adapters that carry a LoRA from one architecture to another.

Between language models an adapter crops or pads each tensor on its own, or,
in piecewise mode, waits for both tensors of a pair, multiplies them and
factorises the resized product.  Other adapters pass tensors through or inject
them into a principal subspace.

* `legacyProject` — cropping and padding of one tensor;
* `bufferHalf` — pairs meet in a buffer;
* `projectTensor` — which of the two a key takes;
* `getAdapter` — the adapter of a pair of architectures.

Tensors are matrices over `R`; scaling factors are exact numbers of `S`.  The
singular value decomposition, square roots and random matrices enter through
`Torch`.
-/
import NeuralScalpel.Dict
import NeuralScalpel.Effect
import NeuralScalpel.FailurePolicy
import NeuralScalpel.LoraKeys
import NeuralScalpel.ShapedMatrix
import Mathlib.Algebra.Field.Defs
import Mathlib.Order.Lattice

/-! ### Configuration -/

structure AdaptiveScalingConfig (S : Type) where
  moderatelyConcentratedScale : S
  lowNormalizedEntropyScale : S
  outlierLayerScale : S
  minScale : S
  maxScale : S
  enabled : Bool

/-- `AdaptiveScalingConfig()`. -/
def AdaptiveScalingConfig.default (S : Type) [Field S] : AdaptiveScalingConfig S where
  moderatelyConcentratedScale := 9 / 10
  lowNormalizedEntropyScale := 8 / 10
  outlierLayerScale := 7 / 10
  minScale := 2 / 10
  maxScale := 1
  enabled := true

/-- The part of a delta-health report that scaling reads. -/
structure DeltaHealth (S : Type) where
  verdict : String
  normalizedSpectralEntropy : S
  outliers : List String

/-- Sizes of a model, from a configuration or as a plain tuple. -/
inductive ModelInfo
  | dict (hiddenSize numAttentionHeads intermediateSize numKeyValueHeads : Option ℕ)
  | tuple (hidden heads : ℕ) (intermediate : Option ℕ)

/-- The sizes an adapter works with; there is at least one attention head. -/
structure Geometry where
  hidden : ℕ
  heads : ℕ
  inter : ℕ
  kvHeads : ℕ
  heads_pos : 0 < heads

namespace Geometry

def headDim (g : Geometry) : ℕ := g.hidden / g.heads

def kvHidden (g : Geometry) : ℕ := g.kvHeads * g.headDim

/-- The division by the number of heads refuses zero. -/
def make (hidden heads inter kvHeads : ℕ) : Except PyError Geometry :=
  if h : 0 < heads then .ok ⟨hidden, heads, inter, kvHeads, h⟩
  else .error (.external "ZeroDivisionError: integer division or modulo by zero")

/-- The sizes an information block gives, with the defaults of the program. -/
def ofInfo : ModelInfo → Except PyError Geometry
  | .dict hidden heads inter kvHeads =>
    make (hidden.getD 4096) (heads.getD 32) (inter.getD 14336) (kvHeads.getD (heads.getD 32))
  | .tuple hidden heads inter => make hidden heads (inter.getD 14336) heads

end Geometry

/-- The four kinds of adapters. -/
inductive AdapterKind
  | llama3ToQwen2
  | sdxlToFlux
  | sdxlToSdxl
  | base
  deriving DecidableEq, Repr

structure Adapter (S : Type) where
  kind : AdapterKind
  source : Geometry
  target : Geometry
  targetRank : ℕ
  deltaHealth : Option (DeltaHealth S)
  projectionMode : String
  scalingConfig : AdaptiveScalingConfig S
  piecewiseModules : Option (List String)
  piecewiseLayers : Option (List ℤ)
  piecewiseMaxLayers : Option ℤ

/-! ### What the tensor library provides -/

/-- A reduced singular value decomposition: the shapes are those documented. -/
structure SvdFactors {R : Type} [Zero R] (W : ShapedMatrix R) where
  u : ShapedMatrix R
  s : ℕ → R
  vh : ShapedMatrix R
  shape_u : u.rows = W.rows ∧ u.cols = min W.rows W.cols
  shape_vh : vh.rows = min W.rows W.cols ∧ vh.cols = W.cols

structure Torch (R S : Type) [Zero R] where
  svd : ∀ W : ShapedMatrix R, SvdFactors W
  sqrt : R → R
  sqrtScale : S → S
  /-- The random matrix of a shape drawn after the given number of draws. -/
  randn : ℕ → ℕ → ℕ → ShapedMatrix R
  shape_randn : ∀ draw rows cols,
    (randn draw rows cols).rows = rows ∧ (randn draw rows cols).cols = cols

/-! ### Scaling -/

section Scaling

variable {S : Type} [Field S] [LinearOrder S]

/-- An outlier of the report names the layer. -/
def isOutlier (health : DeltaHealth S) (layer : Option ℕ) : Bool :=
  match layer with
  | some idx => health.outliers.any fun outlier => inKey s!"Layer {idx}" outlier
  | none => false

/-- The value `get_adaptive_scale` returns. -/
def adaptiveScale (adapter : Adapter S) (key : String) : S :=
  if adapter.scalingConfig.enabled then
    match adapter.deltaHealth with
    | none => 1
    | some health =>
      let concentrated :=
        if health.verdict = "MODERATELY_CONCENTRATED" then
          adapter.scalingConfig.moderatelyConcentratedScale
        else 1
      let entropy :=
        if health.normalizedSpectralEntropy < 1 / 2 then
          adapter.scalingConfig.lowNormalizedEntropyScale
        else 1
      let outlier :=
        if isOutlier health (layerPattern key) then adapter.scalingConfig.outlierLayerScale else 1
      max adapter.scalingConfig.minScale
        (min adapter.scalingConfig.maxScale (concentrated * entropy * outlier))
  else 1

/-- Both tensors of a pair are scaled alike. -/
theorem adaptiveScale_loraKey (adapter : Adapter S) (base : String) (half half' : LoraHalf) :
    adaptiveScale adapter (loraKey base half) = adaptiveScale adapter (loraKey base half') := by
  unfold adaptiveScale
  rw [layerPattern_loraKey base half half']

end Scaling

/-! ### Cropping and padding -/

/-- The dimension of a matrix that is projected. -/
inductive Axis
  | rows
  | cols

section LegacyProject

variable {R S : Type} [Zero R]

/-- `_project_dim`. -/
def projectDim (tensor : ShapedMatrix R) (srcDim tgtDim : ℕ) : Axis → ShapedMatrix R
  | .cols =>
    if srcDim = tgtDim then tensor
    else if tgtDim < srcDim then tensor.takeCols tgtDim
    else tensor.padCols (tgtDim - srcDim)
  | .rows =>
    if srcDim = tgtDim then tensor
    else if tgtDim < srcDim then tensor.takeRows tgtDim
    else tensor.padRows (tgtDim - srcDim)

/-- The number of features of a tensor in a geometry, by the tests of the key. -/
def featureDim (g : Geometry) (key : String) : ℕ :=
  if inKey "lora_A" key then
    if inKey "down_proj" key then g.inter else g.hidden
  else if anyInKey ["k_proj", "v_proj"] key then g.kvHidden
  else if inKey "down_proj" key then g.hidden
  else if anyInKey ["gate_proj", "up_proj"] key then g.inter
  else g.hidden

/-- `_legacy_project`: features first, then rank. -/
def legacyProject (adapter : Adapter S) (key : String) (tensor : ShapedMatrix R) :
    ShapedMatrix R :=
  let srcDim := featureDim adapter.source key
  let tgtDim := featureDim adapter.target key
  if inKey "lora_A" key then
    let t := projectDim tensor srcDim tgtDim .cols
    if adapter.targetRank < tensor.rows then t.takeRows adapter.targetRank
    else t.padRows (adapter.targetRank - tensor.rows)
  else if inKey "lora_B" key then
    let t := projectDim tensor srcDim tgtDim .rows
    if adapter.targetRank < tensor.cols then t.takeCols adapter.targetRank
    else t.padCols (adapter.targetRank - tensor.cols)
  else tensor

end LegacyProject

/-! ### State -/

/-- The tensors of a pair that have arrived. -/
abbrev BufferedPair (R : Type) [Zero R] := LoraHalf → Option (ShapedMatrix R)

/-- `pair[half] = tensor`. -/
def BufferedPair.put {R : Type} [Zero R] (pair : BufferedPair R) (half : LoraHalf)
    (tensor : ShapedMatrix R) : BufferedPair R :=
  fun half' => if half' = half then some tensor else pair half'

structure AdapterState (R S : Type) [Zero R] where
  piecewiseCounter : ℕ
  pairBuffer : Dict String (BufferedPair R)
  warnedExperimental : Bool
  appliedScales : Dict String S
  /-- Random matrices drawn so far. -/
  draws : ℕ

/-- What projecting a tensor returns. -/
inductive Projected (R : Type) [Zero R]
  | nothing
  | tensor (t : ShapedMatrix R)
  | dict (entries : List (String × ShapedMatrix R))

section Project

variable {R S : Type} [CommRing R] [Field S] [LinearOrder S] [MulActionWithZero S R]

def AdapterState.init : AdapterState R S := ⟨0, .empty, false, .empty, 0⟩

abbrev AdapterM (R S : Type) [Zero R] := EStateM PyError (AdapterState R S)

/-- The scale of a key, recorded in the report when there is one. -/
def getAdaptiveScale (adapter : Adapter S) (key : String) : AdapterM R S S := do
  if adapter.scalingConfig.enabled && adapter.deltaHealth.isSome then
    modify fun st => { st with
      appliedScales := st.appliedScales.set key (adaptiveScale adapter key) }
  pure (adaptiveScale adapter key)

def linearProject (adapter : Adapter S) (key : String) (tensor : ShapedMatrix R) :
    AdapterM R S (Projected R) := do
  let scale ← getAdaptiveScale adapter key
  pure (.tensor ((legacyProject adapter key tensor).scale scale))

/-! ### Piecewise projection -/

/-- The shape the product of a pair is resized to: columns, then rows. -/
def piecewiseTarget (g : Geometry) (key : String) : ℕ × ℕ :=
  if anyInKey ["k_proj", "v_proj"] key then (g.hidden, g.kvHidden)
  else if inKey "down_proj" key then (g.inter, g.hidden)
  else if anyInKey ["gate_proj", "up_proj"] key then (g.hidden, g.inter)
  else (g.hidden, g.hidden)

/-- Cut to the target shape if either dimension is too large, else padded. -/
def resizeDelta (delta : ShapedMatrix R) (tgtIn tgtOut : ℕ) : ShapedMatrix R :=
  if tgtOut < delta.rows ∨ tgtIn < delta.cols then (delta.takeRows tgtOut).takeCols tgtIn
  else (delta.padCols (tgtIn - delta.cols)).padRows (tgtOut - delta.rows)

/-- `factorize_to_lora`: the first `rank` singular directions. -/
def factorizeToLora (torch : Torch R S) (delta : ShapedMatrix R) (rank : ℕ) :
    ShapedMatrix R × ShapedMatrix R :=
  let svd := torch.svd delta
  let u := svd.u.takeCols rank
  let vh := svd.vh.takeRows rank
  (.ofFn vh.rows vh.cols fun i j => torch.sqrt (svd.s i) * vh.entry i j,
    .ofFn u.rows u.cols fun i j => u.entry i j * torch.sqrt (svd.s j))

/-- The pair written for the product of a complete pair. -/
def projectPair (torch : Torch R S) (adapter : Adapter S) (key : String)
    (a b : ShapedMatrix R) : ShapedMatrix R × ShapedMatrix R :=
  let target := piecewiseTarget adapter.target key
  factorizeToLora torch (resizeDelta (b.mul a) target.1 target.2) adapter.targetRank

/-- `"A" if "lora_A" in key else "B"`. -/
def keyHalf (key : String) : LoraHalf := if inKey "lora_A" key then .a else .b

/-- Puts a tensor into the buffer; the second of a pair takes both out. -/
def bufferHalf (torch : Torch R S) (adapter : Adapter S) (key : String)
    (tensor : ShapedMatrix R) : AdapterM R S (Projected R) := do
  let st ← get
  let base := baseKey key
  let held : BufferedPair R := (st.pairBuffer.get? base).getD fun _ => none
  let pair := BufferedPair.put held (keyHalf key) tensor
  match pair .a, pair .b with
  | some a, some b => do
    set { st with
      piecewiseCounter := st.piecewiseCounter + 1
      pairBuffer := st.pairBuffer.erase base }
    if b.cols ≠ a.rows then
      throw (.runtimeError "mat1 and mat2 shapes cannot be multiplied")
    let projected := projectPair torch adapter key a b
    let scale ← getAdaptiveScale adapter key
    pure (.dict [(loraKey base .a, projected.1.scale (torch.sqrtScale scale)),
      (loraKey base .b, projected.2.scale (torch.sqrtScale scale))])
  | _, _ => do
    set { st with pairBuffer := st.pairBuffer.set base pair }
    pure .nothing

def isMlp (key : String) : Bool := anyInKey ["gate_proj", "up_proj", "down_proj"] key

/-- `bool(names) and not any(name in key for name in names)`. -/
def excludedByModules (modules : Option (List String)) (key : String) : Bool :=
  match modules with
  | none => false
  | some names => !names.isEmpty && !anyInKey names key

/-- `bool(layers) and layer is not None and layer not in layers`. -/
def excludedByLayers (layers : Option (List ℤ)) (layer : Option ℕ) : Bool :=
  match layers, layer with
  | some idxs, some idx => !idxs.isEmpty && !idxs.contains (idx : ℤ)
  | _, _ => false

/-- The piecewise branch is open to a key, the number of pairs apart. -/
def piecewiseEligible (adapter : Adapter S) (key : String) : Bool :=
  adapter.projectionMode == "piecewise" && isMlp key &&
    !excludedByModules adapter.piecewiseModules key &&
    !excludedByLayers adapter.piecewiseLayers (layerPattern key)

/-- Enough pairs have been projected piecewise. -/
def piecewiseExhausted (adapter : Adapter S) (counter : ℕ) : Bool :=
  match adapter.piecewiseMaxLayers with
  | none => false
  | some n => decide (n ≤ (counter : ℤ))

/-- A key takes the piecewise branch. -/
def takesPiecewise (adapter : Adapter S) (counter : ℕ) (key : String) : Bool :=
  piecewiseEligible adapter key && !piecewiseExhausted adapter counter

/-- The warning about the experimental modes, given once. -/
def AdapterState.warn (adapter : Adapter S) (st : AdapterState R S) : AdapterState R S :=
  if adapter.projectionMode == "kernel" || adapter.projectionMode == "jacobian" then
    { st with warnedExperimental := true }
  else st

/-- `Llama3ToQwen2Adapter.project_tensor`. -/
def projectStructural (torch : Torch R S) (adapter : Adapter S) (key : String)
    (tensor : ShapedMatrix R) : AdapterM R S (Projected R) := do
  modify (AdapterState.warn adapter)
  let st ← get
  if takesPiecewise adapter st.piecewiseCounter key then
    bufferHalf torch adapter key tensor
  else linearProject adapter key tensor

/-! ### The other adapters -/

/-- `pca_guided_subspace_injection`. -/
def pcaGuidedSubspaceInjection (torch : Torch R S) (source target : ShapedMatrix R) :
    ShapedMatrix R :=
  let vh := (torch.svd target).vh
  if source.cols ≤ vh.rows then source.mul (vh.takeRows source.cols)
  else (source.takeCols vh.rows).mul vh

/-- `SDXLToFluxAdapter.project_tensor`: each call draws a new matrix. -/
def injectRandom (torch : Torch R S) (tensor : ShapedMatrix R) : AdapterM R S (Projected R) := do
  let st ← get
  set { st with draws := st.draws + 1 }
  pure (.tensor (pcaGuidedSubspaceInjection torch tensor (torch.randn st.draws 1 3072)))

/-- `project_tensor`, for each kind of adapter. -/
def projectTensor (torch : Torch R S) (adapter : Adapter S) (key : String)
    (tensor : ShapedMatrix R) : AdapterM R S (Projected R) :=
  match adapter.kind with
  | .llama3ToQwen2 => projectStructural torch adapter key tensor
  | .sdxlToFlux => injectRandom torch tensor
  | .sdxlToSdxl => pure (.tensor tensor)
  | .base => pure (.tensor tensor)

end Project

/-! ### Selection -/

def llmArches : List String := ["llama", "qwen", "mistral", "gemma"]

/-- Which adapter a pair of architectures gets. -/
def adapterKind (sourceArch targetArch : String) : AdapterKind :=
  if sourceArch.toLower ∈ llmArches ∧ targetArch.toLower ∈ llmArches then .llama3ToQwen2
  else if sourceArch.toLower = "sdxl" ∧ targetArch.toLower = "flux" then .sdxlToFlux
  else if sourceArch.toLower = "sdxl" ∧ targetArch.toLower = "sdxl" then .sdxlToSdxl
  else .base

/-- `get_adapter`; only the structural adapter takes a rank. -/
def getAdapter {S : Type} [Field S] (sourceArch targetArch : String)
    (sourceInfo targetInfo : ModelInfo) (rank : ℕ) (deltaHealth : Option (DeltaHealth S))
    (projectionMode : String) (scalingConfig : Option (AdaptiveScalingConfig S))
    (piecewiseModules : Option (List String)) (piecewiseLayers : Option (List ℤ))
    (piecewiseMaxLayers : Option ℤ) : Except PyError (Adapter S) := do
  let source ← Geometry.ofInfo sourceInfo
  let target ← Geometry.ofInfo targetInfo
  pure {
    kind := adapterKind sourceArch targetArch
    source := source
    target := target
    targetRank := rank
    deltaHealth := deltaHealth
    projectionMode := projectionMode
    scalingConfig := scalingConfig.getD (.default S)
    piecewiseModules := piecewiseModules
    piecewiseLayers := piecewiseLayers
    piecewiseMaxLayers := piecewiseMaxLayers }

theorem getAdapter_eq_ok {S : Type} [Field S] {adapter : Adapter S}
    {sourceArch targetArch : String} {sourceInfo targetInfo : ModelInfo}
    {rank : ℕ} {health : Option (DeltaHealth S)} {mode : String}
    {scaling : Option (AdaptiveScalingConfig S)} {modules : Option (List String)}
    {layers : Option (List ℤ)} {maxLayers : Option ℤ}
    (h : getAdapter sourceArch targetArch sourceInfo targetInfo rank health mode scaling modules
      layers maxLayers = .ok adapter) :
    adapter.kind = adapterKind sourceArch targetArch ∧ adapter.targetRank = rank := by
  obtain ⟨source, -, h⟩ := Effect.bind_eq_ok.mp h
  obtain ⟨target, -, h⟩ := Effect.bind_eq_ok.mp h
  cases h
  exact ⟨rfl, rfl⟩
