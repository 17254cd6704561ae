/-
Linear projection crops and pads the update.

The two tensors of a LoRA pair are projected in separate calls, each by
features and then by rank.  For a pair that fits the source geometry the calls
agree: the product of the projected tensors is the product of the given ones,
cut to the indices both ranks have, and cropped or padded to the target shape.

* `legacyProject_a`, `legacyProject_b` — each call resizes its tensor;
* `featureDim_loraKey_a`, `featureDim_loraKey_b` — the tests of a key pick the
  dimensions of its module;
* `project_pair` — the law for the pair.
-/
import NeuralScalpel.Adapters
import Mathlib.Algebra.Field.Rat
import Mathlib.Data.Rat.Sqrt

/-! ### One tensor -/

section Resize

variable {R S : Type} [Zero R]

theorem projectDim_cols {tensor : ShapedMatrix R} {srcDim : ℕ} (h : tensor.cols = srcDim)
    (tgtDim : ℕ) : projectDim tensor srcDim tgtDim .cols = tensor.resize tensor.rows tgtDim := by
  subst h
  show (if tensor.cols = tgtDim then tensor else if tgtDim < tensor.cols then _ else _) = _
  by_cases heq : tensor.cols = tgtDim
  · rw [if_pos heq, ← heq, ShapedMatrix.resize_self]
  · rw [if_neg heq]
    by_cases hlt : tgtDim < tensor.cols
    · rw [if_pos hlt, ShapedMatrix.takeCols_eq_resize hlt.le]
    · rw [if_neg hlt, ShapedMatrix.padCols_eq_resize, Nat.add_sub_cancel' (Nat.not_lt.mp hlt)]

theorem projectDim_rows {tensor : ShapedMatrix R} {srcDim : ℕ} (h : tensor.rows = srcDim)
    (tgtDim : ℕ) : projectDim tensor srcDim tgtDim .rows = tensor.resize tgtDim tensor.cols := by
  subst h
  show (if tensor.rows = tgtDim then tensor else if tgtDim < tensor.rows then _ else _) = _
  by_cases heq : tensor.rows = tgtDim
  · rw [if_pos heq, ← heq, ShapedMatrix.resize_self]
  · rw [if_neg heq]
    by_cases hlt : tgtDim < tensor.rows
    · rw [if_pos hlt, ShapedMatrix.takeRows_eq_resize hlt.le]
    · rw [if_neg hlt, ShapedMatrix.padRows_eq_resize, Nat.add_sub_cancel' (Nat.not_lt.mp hlt)]

variable {adapter : Adapter S} {key : String}

/-- The first tensor of a fitting pair is resized to rank by features. -/
theorem legacyProject_a {a : ShapedMatrix R} (hkey : inKey "lora_A" key = true)
    (hfit : a.cols = featureDim adapter.source key) :
    legacyProject adapter key a =
      a.resize adapter.targetRank (featureDim adapter.target key) := by
  unfold legacyProject
  rw [if_pos hkey, projectDim_cols hfit]
  by_cases hlt : adapter.targetRank < a.rows
  · rw [if_pos hlt, ShapedMatrix.takeRows_eq_resize (by exact hlt.le)]
    exact ShapedMatrix.resize_resize_cols a _ _
  · rw [if_neg hlt, ShapedMatrix.padRows_eq_resize, ShapedMatrix.rows_resize,
      Nat.add_sub_cancel' (Nat.not_lt.mp hlt)]
    exact ShapedMatrix.resize_resize_cols a _ _

/-- The second tensor of a fitting pair is resized to features by rank. -/
theorem legacyProject_b {b : ShapedMatrix R} (hnot : inKey "lora_A" key = false)
    (hkey : inKey "lora_B" key = true) (hfit : b.rows = featureDim adapter.source key) :
    legacyProject adapter key b =
      b.resize (featureDim adapter.target key) adapter.targetRank := by
  unfold legacyProject
  rw [if_neg (Bool.eq_false_iff.mp hnot), if_pos hkey, projectDim_rows hfit]
  by_cases hlt : adapter.targetRank < b.cols
  · rw [if_pos hlt, ShapedMatrix.takeCols_eq_resize (by exact hlt.le)]
    exact ShapedMatrix.resize_resize_rows b _ _
  · rw [if_neg hlt, ShapedMatrix.padCols_eq_resize, ShapedMatrix.cols_resize,
      Nat.add_sub_cancel' (Nat.not_lt.mp hlt)]
    exact ShapedMatrix.resize_resize_rows b _ _

end Resize

/-! ### Modules -/

/-- The modules of a transformer layer that a LoRA adapts. -/
inductive StandardModule
  | q
  | k
  | v
  | o
  | gate
  | up
  | down
  deriving DecidableEq, Repr

namespace StandardModule

def name : StandardModule → String
  | q => "q_proj"
  | k => "k_proj"
  | v => "v_proj"
  | o => "o_proj"
  | gate => "gate_proj"
  | up => "up_proj"
  | down => "down_proj"

/-- The features a module reads. -/
def inFeatures (g : Geometry) : StandardModule → ℕ
  | down => g.inter
  | _ => g.hidden

/-- The features a module writes. -/
def outFeatures (g : Geometry) : StandardModule → ℕ
  | k | v => g.kvHidden
  | gate | up => g.inter
  | q | o | down => g.hidden

end StandardModule

/-- The base of the keys of a module: it names that module and no other, and
does not itself mention `lora_`. -/
structure NamesModule (base : String) (m : StandardModule) : Prop where
  plain : PlainBase base
  names_iff : ∀ m' : StandardModule, inKey m'.name base = true ↔ m' = m

theorem NamesModule.inKey_name {base : String} {m : StandardModule} (h : NamesModule base m)
    (m' : StandardModule) (half : LoraHalf) :
    inKey m'.name (loraKey base half) = decide (m' = m) := by
  have hname : inKey m'.name (loraKey base half) = inKey m'.name base := by
    refine inKey_loraKey ?_ ?_
    · cases m' <;> decide
    · cases m' <;> cases half <;> decide
  rw [hname, Bool.eq_iff_iff, h.names_iff, decide_eq_true_iff]

/-- A key is tested for the names of some modules. -/
theorem NamesModule.anyInKey_names {base : String} {m : StandardModule} (h : NamesModule base m)
    (ms : List StandardModule) (half : LoraHalf) :
    anyInKey (ms.map StandardModule.name) (loraKey base half) = decide (m ∈ ms) := by
  unfold anyInKey
  rw [List.any_map, Bool.eq_iff_iff, List.any_eq_true, decide_eq_true_iff]
  constructor
  · rintro ⟨m', hm', hin⟩
    rw [Function.comp_apply, h.inKey_name, decide_eq_true_iff] at hin
    exact hin ▸ hm'
  · intro hm
    refine ⟨m, hm, ?_⟩
    rw [Function.comp_apply, h.inKey_name, decide_eq_true_iff]

theorem featureDim_loraKey_a {base : String} {m : StandardModule} (h : NamesModule base m)
    (g : Geometry) : featureDim g (loraKey base .a) = m.inFeatures g := by
  have hA : inKey "lora_A" (loraKey base .a) = true := inKey_loraA h.plain .a
  have hdown := h.inKey_name .down .a
  simp only [StandardModule.name] at hdown
  unfold featureDim
  rw [if_pos hA, hdown]
  cases m <;> rfl

theorem featureDim_loraKey_b {base : String} {m : StandardModule} (h : NamesModule base m)
    (g : Geometry) : featureDim g (loraKey base .b) = m.outFeatures g := by
  have hkv : anyInKey ["k_proj", "v_proj"] (loraKey base .b) = _ := h.anyInKey_names [.k, .v] .b
  have hmlp : anyInKey ["gate_proj", "up_proj"] (loraKey base .b) = _ :=
    h.anyInKey_names [.gate, .up] .b
  have hdown : inKey "down_proj" (loraKey base .b) = _ := h.inKey_name .down .b
  have hA : ¬inKey "lora_A" (loraKey base .b) = true := by
    rw [inKey_loraA h.plain .b]
    decide
  unfold featureDim
  rw [if_neg hA, hkv, hdown, hmlp]
  cases m <;> rfl

section Standard

variable {R S : Type} [Zero R] {adapter : Adapter S} {base : String} {m : StandardModule}

theorem legacyProject_loraA (hbase : NamesModule base m) {a : ShapedMatrix R}
    (ha : a.cols = m.inFeatures adapter.source) :
    legacyProject adapter (loraKey base .a) a =
      a.resize adapter.targetRank (m.inFeatures adapter.target) := by
  have hkey : inKey "lora_A" (loraKey base .a) = true := inKey_loraA hbase.plain .a
  rw [legacyProject_a hkey, featureDim_loraKey_a hbase]
  rw [featureDim_loraKey_a hbase]
  exact ha

theorem legacyProject_loraB (hbase : NamesModule base m) {b : ShapedMatrix R}
    (hb : b.rows = m.outFeatures adapter.source) :
    legacyProject adapter (loraKey base .b) b =
      b.resize (m.outFeatures adapter.target) adapter.targetRank := by
  have hnot : inKey "lora_A" (loraKey base .b) = false := inKey_loraA hbase.plain .b
  have hkey : inKey "lora_B" (loraKey base .b) = true := inKey_loraB hbase.plain .b
  rw [legacyProject_b hnot hkey, featureDim_loraKey_b hbase]
  rw [featureDim_loraKey_b hbase]
  exact hb

end Standard

/-! ### The pair -/

section Branches

variable {R S : Type} [CommRing R]

/-- Two states that count and pair alike. -/
def SameBuffer (st st' : AdapterState R S) : Prop :=
  st'.piecewiseCounter = st.piecewiseCounter ∧ st'.pairBuffer = st.pairBuffer

theorem sameBuffer_warn (adapter : Adapter S) (st : AdapterState R S) :
    SameBuffer st (st.warn adapter) := by
  unfold AdapterState.warn
  split
  · exact ⟨rfl, rfl⟩
  · exact ⟨rfl, rfl⟩

theorem takesPiecewise_of_mode {adapter : Adapter S}
    (hmode : adapter.projectionMode ≠ "piecewise") (counter : ℕ) (key : String) :
    takesPiecewise adapter counter key = false := by
  unfold takesPiecewise piecewiseEligible
  rw [beq_false_of_ne hmode]
  rfl

end Branches

section Pair

variable {R S : Type} [CommRing R] [Field S] [LinearOrder S]

theorem getAdaptiveScale_eq (adapter : Adapter S) (key : String) (st : AdapterState R S) :
    ∃ st', getAdaptiveScale adapter key st = .ok (adaptiveScale adapter key) st' ∧
      SameBuffer st st' := by
  unfold getAdaptiveScale
  by_cases h : (adapter.scalingConfig.enabled && adapter.deltaHealth.isSome) = true
  · rw [if_pos h]
    exact ⟨_, rfl, rfl, rfl⟩
  · rw [if_neg h]
    exact ⟨_, rfl, rfl, rfl⟩

variable [MulActionWithZero S R]

/-- What the linear branch returns: the projected tensor, scaled. -/
def linearTensor (adapter : Adapter S) (key : String) (tensor : ShapedMatrix R) :
    ShapedMatrix R :=
  (legacyProject adapter key tensor).scale (adaptiveScale adapter key)

theorem linearProject_eq (adapter : Adapter S) (key : String) (tensor : ShapedMatrix R)
    (st : AdapterState R S) :
    ∃ st', linearProject adapter key tensor st =
      .ok (.tensor (linearTensor adapter key tensor)) st' ∧ SameBuffer st st' := by
  obtain ⟨st', hscale, hsame⟩ := getAdaptiveScale_eq adapter key st
  refine ⟨st', ?_, hsame⟩
  unfold linearProject
  simp only [bind, EStateM.bind, hscale]
  rfl

variable (torch : Torch R S) {adapter : Adapter S} {key : String}

theorem projectStructural_eq (tensor : ShapedMatrix R) (st : AdapterState R S) :
    projectStructural torch adapter key tensor st =
      if takesPiecewise adapter (st.warn adapter).piecewiseCounter key then
        bufferHalf torch adapter key tensor (st.warn adapter)
      else linearProject adapter key tensor (st.warn adapter) := by
  show (if takesPiecewise adapter (st.warn adapter).piecewiseCounter key = true then
    bufferHalf torch adapter key tensor else linearProject adapter key tensor :
      AdapterM R S (Projected R)) (st.warn adapter) = _
  split <;> rfl

/-- A key that does not take the piecewise branch is projected on its own, and
leaves the counter and the buffer alone. -/
theorem projectStructural_linear {st : AdapterState R S}
    (h : takesPiecewise adapter st.piecewiseCounter key = false) (tensor : ShapedMatrix R) :
    ∃ st', projectStructural torch adapter key tensor st =
      .ok (.tensor (linearTensor adapter key tensor)) st' ∧ SameBuffer st st' := by
  obtain ⟨hcounter, hbuffer⟩ := sameBuffer_warn adapter st
  obtain ⟨st', hrun, hcounter', hbuffer'⟩ := linearProject_eq adapter key tensor (st.warn adapter)
  refine ⟨st', ?_, hcounter'.trans hcounter, hbuffer'.trans hbuffer⟩
  rw [projectStructural_eq, hcounter, if_neg (Bool.eq_false_iff.mp h)]
  exact hrun

/-- In linear mode every tensor is projected on its own, whatever the state. -/
theorem projectTensor_linear (hkind : adapter.kind = .llama3ToQwen2)
    (hmode : adapter.projectionMode = "linear") (tensor : ShapedMatrix R)
    (st : AdapterState R S) :
    Effect.returned (projectTensor torch adapter key tensor) st =
      some (.tensor (linearTensor adapter key tensor)) := by
  have hlinear : takesPiecewise adapter st.piecewiseCounter key = false := by
    refine takesPiecewise_of_mode ?_ _ _
    rw [hmode]
    decide
  obtain ⟨st', hrun, -⟩ := projectStructural_linear torch hlinear tensor
  unfold Effect.returned projectTensor
  rw [hkind]
  simp only [hrun]

/-- Linear projection at scale one crops and pads the update: the product of
the projected pair is the product over the shared rank indices, inside the
shared shape, and zero elsewhere in the target shape. -/
theorem project_pair (hkind : adapter.kind = .llama3ToQwen2)
    (hmode : adapter.projectionMode = "linear") {base : String} {m : StandardModule}
    (hbase : NamesModule base m) (hscale : adaptiveScale adapter (loraKey base .a) = 1)
    {rank : ℕ} {a b : ShapedMatrix R} (ha : a.rows = rank ∧ a.cols = m.inFeatures adapter.source)
    (hb : b.rows = m.outFeatures adapter.source ∧ b.cols = rank) (st st' : AdapterState R S) :
    ∃ a' b' : ShapedMatrix R,
      Effect.returned (projectTensor torch adapter (loraKey base .a) a) st = some (.tensor a') ∧
      Effect.returned (projectTensor torch adapter (loraKey base .b) b) st' = some (.tensor b') ∧
      (a'.rows = adapter.targetRank ∧ a'.cols = m.inFeatures adapter.target) ∧
      (b'.rows = m.outFeatures adapter.target ∧ b'.cols = adapter.targetRank) ∧
      ∀ i j, (b'.mul a').entry i j =
        if i < min (m.outFeatures adapter.source) (m.outFeatures adapter.target) ∧
            j < min (m.inFeatures adapter.source) (m.inFeatures adapter.target) then
          ∑ k ∈ Finset.range (min rank adapter.targetRank), b.entry i k * a.entry k j
        else 0 := by
  have hscaleB : adaptiveScale adapter (loraKey base .b) = 1 := by
    rw [adaptiveScale_loraKey adapter base .b .a, hscale]
  refine ⟨a.resize adapter.targetRank (m.inFeatures adapter.target),
    b.resize (m.outFeatures adapter.target) adapter.targetRank, ?_, ?_, ⟨rfl, rfl⟩,
    ⟨rfl, rfl⟩, fun i j => ?_⟩
  · rw [projectTensor_linear torch hkind hmode, linearTensor, hscale, ShapedMatrix.scale_one,
      legacyProject_loraA hbase ha.2]
  · rw [projectTensor_linear torch hkind hmode, linearTensor, hscaleB, ShapedMatrix.scale_one,
      legacyProject_loraB hbase hb.1]
  · rw [ShapedMatrix.entry_mul_resize, hb.1, hb.2, ha.2]

end Pair

/-! ### A small instance -/

/-- Ones on the diagonal. -/
def unitFactor (rows cols : ℕ) : ShapedMatrix ℚ :=
  .ofFn rows cols fun i j => if i = j then 1 else 0

/-- A tensor library that decomposes matrices with a falling diagonal and zeros
elsewhere as the real one does. -/
def sampleTorch : Torch ℚ ℚ where
  svd W := ⟨unitFactor W.rows (min W.rows W.cols), fun i => W.entry i i,
    unitFactor (min W.rows W.cols) W.cols, ⟨rfl, rfl⟩, ⟨rfl, rfl⟩⟩
  sqrt := Rat.sqrt
  sqrtScale := Rat.sqrt
  randn _ rows cols := unitFactor rows cols
  shape_randn _ _ _ := ⟨rfl, rfl⟩

/-- From two features and three inner features to three and two, at rank one. -/
def sampleAdapter (mode : String) (health : Option (DeltaHealth ℚ)) : Adapter ℚ where
  kind := .llama3ToQwen2
  source := ⟨2, 1, 3, 1, by decide⟩
  target := ⟨3, 1, 2, 1, by decide⟩
  targetRank := 1
  deltaHealth := health
  projectionMode := mode
  scalingConfig := { AdaptiveScalingConfig.default ℚ with outlierLayerScale := 1 / 4 }
  piecewiseModules := none
  piecewiseLayers := none
  piecewiseMaxLayers := none

theorem namesModule_up : NamesModule "layers.0.mlp.up_proj" .up where
  plain := by decide
  names_iff m' := by cases m' <;> decide

/-- The update of an up projection, of rank two, projected to rank one. -/
theorem project_pair_up :
    ∃ a' b' : ShapedMatrix ℚ,
      Effect.returned (projectTensor sampleTorch (sampleAdapter "linear" none)
        (loraKey "layers.0.mlp.up_proj" .a) (.ofFn 2 2 fun i j => 1 + i + j)) .init =
          some (.tensor a') ∧
      Effect.returned (projectTensor sampleTorch (sampleAdapter "linear" none)
        (loraKey "layers.0.mlp.up_proj" .b) (.ofFn 3 2 fun i j => 5 + i + j)) .init =
          some (.tensor b') ∧
      (b'.mul a').entry 1 1 = 12 ∧ (b'.mul a').entry 1 2 = 0 := by
  have hkind : (sampleAdapter "linear" none).kind = .llama3ToQwen2 := rfl
  have hrank : (ShapedMatrix.ofFn 2 2 fun i j => (1 + i + j : ℚ)).rows = 2 := rfl
  obtain ⟨a', b', ha', hb', -, -, hentry⟩ := project_pair sampleTorch hkind rfl namesModule_up rfl
    (b := .ofFn 3 2 fun i j => 5 + i + j) ⟨hrank, rfl⟩ ⟨rfl, rfl⟩ .init .init
  refine ⟨a', b', ha', hb', ?_, ?_⟩
  · rw [hentry]
    decide +kernel
  · rw [hentry]
    decide +kernel
