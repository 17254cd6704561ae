/-
The shapes of a pair projected piecewise.

Linear projection gives both tensors of a module the target shape.  Piecewise
projection resizes the product, cutting both dimensions as soon as one is too
large and padding neither then, and its factors have no more directions than
the product has rows or columns.

* `shape_linearTensor` — what linear projection gives;
* `shape_resizeDelta_eq_iff`, `shape_factorizeToLora` — the piecewise steps;
* `shape_pairTensor_iff` — when the factors have the target shape;
* `returnsLinearShapes_iff` — when the two modes return the same shapes.
-/
import NeuralScalpel.AdapterConfig

/-! ### Shapes -/

/-- Rows by columns. -/
def ShapedMatrix.shape {R : Type} [Zero R] (M : ShapedMatrix R) : ℕ × ℕ := (M.rows, M.cols)

/-- The shape of a tensor of a module: rank by input features, or output
features by rank. -/
def loraShape (g : Geometry) (rank : ℕ) (m : StandardModule) : LoraHalf → ℕ × ℕ
  | .a => (rank, m.inFeatures g)
  | .b => (m.outFeatures g, rank)

section Steps

variable {R S : Type}

theorem ShapedMatrix.shape_eq_iff [Zero R] {M : ShapedMatrix R} {rows cols : ℕ} :
    M.shape = (rows, cols) ↔ M.rows = rows ∧ M.cols = cols := Prod.mk_inj

@[simp] theorem ShapedMatrix.shape_scale [Zero R] [Zero S] [SMulWithZero S R]
    (M : ShapedMatrix R) (c : S) : (M.scale c).shape = M.shape := rfl

/-- The target shape is read off the module, in either mode. -/
theorem piecewiseTarget_of_names {base : String} {m : StandardModule}
    (h : NamesModule base m) (g : Geometry) (half : LoraHalf) :
    piecewiseTarget g (loraKey base half) = (m.inFeatures g, m.outFeatures g) := by
  have hkv : anyInKey ["k_proj", "v_proj"] (loraKey base half) = _ :=
    h.anyInKey_names [.k, .v] half
  have hmlp : anyInKey ["gate_proj", "up_proj"] (loraKey base half) = _ :=
    h.anyInKey_names [.gate, .up] half
  have hdown : inKey "down_proj" (loraKey base half) = _ := h.inKey_name .down half
  unfold piecewiseTarget
  rw [hkv, hdown, hmlp]
  cases m <;> rfl

variable [CommRing R]

/-- A product is resized to the target shape unless one dimension grows and
the other shrinks. -/
theorem shape_resizeDelta_eq_iff (delta : ShapedMatrix R) (tgtIn tgtOut : ℕ) :
    (resizeDelta delta tgtIn tgtOut).shape = (tgtOut, tgtIn) ↔
      delta.shape ≤ (tgtOut, tgtIn) ∨ (tgtOut, tgtIn) ≤ delta.shape := by
  show ((resizeDelta delta tgtIn tgtOut).rows, (resizeDelta delta tgtIn tgtOut).cols) = _ ↔
    (delta.rows ≤ tgtOut ∧ delta.cols ≤ tgtIn) ∨ (tgtOut ≤ delta.rows ∧ tgtIn ≤ delta.cols)
  rw [shape_resizeDelta, resizedShape]
  -- cutting is decided for both dimensions at once
  by_cases hcut : tgtOut < delta.rows ∨ tgtIn < delta.cols
  · rw [if_pos hcut, Prod.mk_inj, min_eq_left_iff, min_eq_left_iff]
    omega
  · rw [if_neg hcut]
    exact iff_of_true rfl (.inl (by omega))

/-- The factors have as many directions as asked for, as long as the matrix has
that many. -/
theorem shape_factorizeToLora (torch : Torch R S) (delta : ShapedMatrix R) (rank : ℕ) :
    (factorizeToLora torch delta rank).1.shape =
        (min rank (min delta.rows delta.cols), delta.cols) ∧
      (factorizeToLora torch delta rank).2.shape =
        (delta.rows, min rank (min delta.rows delta.cols)) := by
  obtain ⟨ha, hb⟩ := rank_factorizeToLora torch delta rank
  constructor
  · exact ShapedMatrix.shape_eq_iff.mpr ⟨ha, (torch.svd delta).shape_vh.2⟩
  · exact ShapedMatrix.shape_eq_iff.mpr ⟨(torch.svd delta).shape_u.1, hb⟩

end Steps

/-! ### Both modes -/

/-- No dimension of the module grows while the other shrinks, and the target
rank is at most either target dimension. -/
def KeepsLinearShapes (source target : Geometry) (m : StandardModule) (rank : ℕ) : Prop :=
  ((m.outFeatures source ≤ m.outFeatures target ∧ m.inFeatures source ≤ m.inFeatures target) ∨
    (m.outFeatures target ≤ m.outFeatures source ∧ m.inFeatures target ≤ m.inFeatures source)) ∧
  rank ≤ m.outFeatures target ∧ rank ≤ m.inFeatures target

section Modes

variable {R S : Type} [CommRing R] [Field S] [LinearOrder S] [MulActionWithZero S R]
  {torch : Torch R S} {adapter : Adapter S} {base : String} {m : StandardModule}

/-- Linear projection gives every tensor of the module the target shape. -/
theorem shape_linearTensor (hbase : NamesModule base m) {half : LoraHalf} {rank : ℕ}
    {tensor : ShapedMatrix R} (hfit : tensor.shape = loraShape adapter.source rank m half) :
    (linearTensor adapter (loraKey base half) tensor).shape =
      loraShape adapter.target adapter.targetRank m half := by
  unfold linearTensor
  rw [ShapedMatrix.shape_scale]
  cases half with
  | a =>
    rw [legacyProject_loraA hbase (ShapedMatrix.shape_eq_iff.mp hfit).2]
    rfl
  | b =>
    rw [legacyProject_loraB hbase (ShapedMatrix.shape_eq_iff.mp hfit).1]
    rfl

/-- The shapes of the factors, from those of the resized product. -/
theorem shape_pairTensor (torch : Torch R S) (adapter : Adapter S) (hbase : NamesModule base m)
    (pair : LoraHalf → ShapedMatrix R) :
    ∃ delta : ShapedMatrix R,
      delta = resizeDelta ((pair .b).mul (pair .a)) (m.inFeatures adapter.target)
        (m.outFeatures adapter.target) ∧
      (pairTensor torch adapter base pair .a).shape =
        (min adapter.targetRank (min delta.rows delta.cols), delta.cols) ∧
      (pairTensor torch adapter base pair .b).shape =
        (delta.rows, min adapter.targetRank (min delta.rows delta.cols)) := by
  have hpair : projectPair torch adapter (loraKey base .a) (pair .a) (pair .b) =
      factorizeToLora torch (resizeDelta ((pair .b).mul (pair .a)) (m.inFeatures adapter.target)
        (m.outFeatures adapter.target)) adapter.targetRank := by
    unfold projectPair
    rw [piecewiseTarget_of_names hbase]
  refine ⟨_, rfl, ?_, ?_⟩
  · unfold pairTensor
    rw [ShapedMatrix.shape_scale, hpair, (shape_factorizeToLora torch _ _).1]
  · unfold pairTensor
    rw [ShapedMatrix.shape_scale, hpair, (shape_factorizeToLora torch _ _).2]

/-- The factors of a fitting pair have the target shape exactly when the
dimensions move in one direction and the target has room for the rank. -/
theorem shape_pairTensor_iff (hbase : NamesModule base m) {rank : ℕ}
    {pair : LoraHalf → ShapedMatrix R}
    (hfit : ∀ half, (pair half).shape = loraShape adapter.source rank m half) :
    (∀ half, (pairTensor torch adapter base pair half).shape =
        loraShape adapter.target adapter.targetRank m half) ↔
      KeepsLinearShapes adapter.source adapter.target m adapter.targetRank := by
  obtain ⟨delta, hdelta, ha, hb⟩ := shape_pairTensor torch adapter hbase pair
  have hproduct : ((pair .b).mul (pair .a)).shape =
      (m.outFeatures adapter.source, m.inFeatures adapter.source) :=
    ShapedMatrix.shape_eq_iff.mpr
      ⟨(ShapedMatrix.shape_eq_iff.mp (hfit .b)).1, (ShapedMatrix.shape_eq_iff.mp (hfit .a)).2⟩
  have hresized := shape_resizeDelta_eq_iff ((pair .b).mul (pair .a))
    (m.inFeatures adapter.target) (m.outFeatures adapter.target)
  rw [← hdelta, hproduct, ShapedMatrix.shape_eq_iff] at hresized
  unfold KeepsLinearShapes
  constructor
  · intro h
    obtain ⟨hrank, hcols⟩ := Prod.mk_inj.mp (ha.symm.trans (h .a))
    obtain ⟨hrows, -⟩ := Prod.mk_inj.mp (hb.symm.trans (h .b))
    rw [hrows, hcols, min_eq_left_iff, le_min_iff] at hrank
    exact ⟨hresized.mp ⟨hrows, hcols⟩, hrank⟩
  · rintro ⟨hdir, hrank⟩
    obtain ⟨hrows, hcols⟩ := hresized.mpr hdir
    have hmin : min adapter.targetRank (min delta.rows delta.cols) = adapter.targetRank := by
      rw [hrows, hcols]
      exact min_eq_left (le_min hrank.1 hrank.2)
    intro half
    cases half with
    | a => rw [ha, hmin, hcols, loraShape]
    | b => rw [hb, hmin, hrows, loraShape]

/-! ### The call that completes a pair -/

/-- A tensor arrives for a key that takes the piecewise branch, while its
partner waits in the buffer; both fit the source geometry at one rank. -/
structure CompletesPair (adapter : Adapter S) (st : AdapterState R S) (base : String)
    (m : StandardModule) (rank : ℕ) (half : LoraHalf) (tensor other : ShapedMatrix R) : Prop where
  kind : adapter.kind = .llama3ToQwen2
  names : NamesModule base m
  takes : takesPiecewise adapter st.piecewiseCounter (loraKey base half) = true
  held : heldAt st base half.other = some other
  fits : ∀ half', (joinPair half tensor other half').shape =
    loraShape adapter.source rank m half'

/-- The adapter in linear mode. -/
def Adapter.linear (adapter : Adapter S) : Adapter S := { adapter with projectionMode := "linear" }

/-- The call returns a pair whose tensors have the target shape, and so do
those linear projection returns for their keys. -/
def ReturnsLinearShapes (torch : Torch R S) (adapter : Adapter S) (st : AdapterState R S)
    (base : String) (m : StandardModule) (half : LoraHalf) (tensor other : ShapedMatrix R) :
    Prop :=
  ∃ pair : LoraHalf → ShapedMatrix R,
    Effect.returned (projectTensor torch adapter (loraKey base half) tensor) st =
      some (.dict [(loraKey base .a, pair .a), (loraKey base .b, pair .b)]) ∧
    ∀ half', (pair half').shape = loraShape adapter.target adapter.targetRank m half' ∧
      ∀ st₀ : AdapterState R S, ∃ t : ShapedMatrix R,
        Effect.returned (projectTensor torch adapter.linear (loraKey base half')
          (joinPair half tensor other half')) st₀ = some (.tensor t) ∧
        t.shape = (pair half').shape

variable {st : AdapterState R S} {rank : ℕ} {half : LoraHalf} {tensor other : ShapedMatrix R}

/-- What the call returns. -/
theorem CompletesPair.returned_eq (h : CompletesPair adapter st base m rank half tensor other) :
    Effect.returned (projectTensor torch adapter (loraKey base half) tensor) st =
      some (.dict (pairEntries torch adapter base (joinPair half tensor other))) := by
  have hbaseKey := baseKey_loraKey h.names.plain half
  have hhalf := keyHalf_loraKey h.names.plain half
  have hheld : heldAt (st.warn adapter) (baseKey (loraKey base half))
      (keyHalf (loraKey base half)).other = some other := by
    unfold heldAt
    rw [hbaseKey, hhalf, (sameBuffer_warn adapter st).2]
    exact h.held
  obtain ⟨st', -, -, hrun⟩ := @bufferHalf_meets R S _ _ _ _ torch adapter _ _
    (loraKeyed_loraKey h.names.plain half) _ hheld tensor
  have hcomp : Composable (joinPair half tensor other) := by
    have ha := ShapedMatrix.shape_eq_iff.mp (h.fits .a)
    have hb := ShapedMatrix.shape_eq_iff.mp (h.fits .b)
    exact hb.2.trans ha.1.symm
  rw [hbaseKey, hhalf, if_pos hcomp] at hrun
  unfold Effect.returned projectTensor
  rw [h.kind]
  simp only [projectStructural_piecewise h.takes, hrun]

/-- The two modes return the same shapes when the factors have the target
shape. -/
theorem CompletesPair.returnsLinearShapes_iff_shape
    (h : CompletesPair adapter st base m rank half tensor other) :
    ReturnsLinearShapes torch adapter st base m half tensor other ↔
      ∀ half', (pairTensor torch adapter base (joinPair half tensor other) half').shape =
        loraShape adapter.target adapter.targetRank m half' := by
  constructor
  · rintro ⟨pair, hreturned, hshape⟩ half'
    rw [h.returned_eq, Option.some_inj, Projected.dict.injEq] at hreturned
    have hpair : pairTensor torch adapter base (joinPair half tensor other) half' =
        pair half' := by
      obtain ⟨ha, hrest⟩ := List.cons.inj hreturned
      cases half' with
      | a => exact (Prod.mk_inj.mp ha).2
      | b => exact (Prod.mk_inj.mp (List.cons.inj hrest).1).2
    rw [hpair]
    exact (hshape half').1
  · intro hshape
    have hkind : adapter.linear.kind = .llama3ToQwen2 := h.kind
    refine ⟨_, h.returned_eq, fun half' => ⟨hshape half', fun st₀ =>
      ⟨_, projectTensor_linear torch hkind rfl _ st₀, ?_⟩⟩⟩
    rw [hshape half']
    exact shape_linearTensor h.names (h.fits half')

/-- Piecewise and linear projection return the same shapes exactly when the
dimensions of the module move in one direction and neither target dimension is
below the target rank. -/
theorem returnsLinearShapes_iff (h : CompletesPair adapter st base m rank half tensor other) :
    ReturnsLinearShapes torch adapter st base m half tensor other ↔
      KeepsLinearShapes adapter.source adapter.target m adapter.targetRank := by
  rw [h.returnsLinearShapes_iff_shape, shape_pairTensor_iff h.names h.fits]

end Modes

/-! ### An up projection -/

/-- A pair of rank two that fits two features and three inner features. -/
def upPair : LoraHalf → ShapedMatrix ℚ
  | .a => .ofFn 2 2 fun i j => 1 + i + j
  | .b => .ofFn 3 2 fun i j => 5 + i + j

/-- What an adapter holds after the first tensor of the pair. -/
def upWaiting : AdapterState ℚ ℚ :=
  { (AdapterState.init : AdapterState ℚ ℚ) with
    pairBuffer := Dict.empty.set "layers.0.mlp.up_proj"
      (BufferedPair.put (fun _ => none) .a (upPair .a)) }

/-- From two features and three inner features to the given sizes and rank. -/
def upAdapter (hidden inter rank : ℕ) : Adapter ℚ :=
  { sampleAdapter "piecewise" none with
    target := ⟨hidden, 1, inter, 1, Nat.one_pos⟩
    targetRank := rank }

/-- The sizes do not decide which branch a key takes. -/
theorem upAdapter_takes (hidden inter rank : ℕ) (half : LoraHalf) :
    takesPiecewise (upAdapter hidden inter rank) 0 (loraKey "layers.0.mlp.up_proj" half) =
      true := by
  show takesPiecewise (upAdapter 0 0 0) 0 (loraKey "layers.0.mlp.up_proj" half) = true
  cases half <;> decide +kernel

theorem upAdapter_waits (hidden inter rank : ℕ) :
    projectTensor sampleTorch (upAdapter hidden inter rank) (loraKey "layers.0.mlp.up_proj" .a)
      (upPair .a) .init = .ok .nothing upWaiting := by
  show projectStructural sampleTorch _ _ _ _ = _
  rw [projectStructural_piecewise (upAdapter_takes hidden inter rank .a)]
  rfl

theorem upAdapter_completes (hidden inter rank : ℕ) :
    CompletesPair (upAdapter hidden inter rank) upWaiting "layers.0.mlp.up_proj" .up 2 .b
      (upPair .b) (upPair .a) where
  kind := rfl
  names := namesModule_up
  takes := upAdapter_takes hidden inter rank .b
  held := rfl
  fits half := by cases half <;> rfl

/-- From two by three features to three by two the input grows and the output
shrinks, and the input of the pair written is not padded; at four by five the
pair written has no rank above four. -/
theorem not_returnsLinearShapes_up :
    Effect.returned (projectTensor sampleTorch (upAdapter 3 2 1)
      (loraKey "layers.0.mlp.up_proj" .a) (upPair .a)) .init = some .nothing ∧
    CompletesPair (upAdapter 3 2 1) upWaiting "layers.0.mlp.up_proj" .up 2 .b (upPair .b)
      (upPair .a) ∧
    ¬ReturnsLinearShapes sampleTorch (upAdapter 3 2 1) upWaiting "layers.0.mlp.up_proj" .up .b
      (upPair .b) (upPair .a) ∧
    ¬ReturnsLinearShapes sampleTorch (upAdapter 4 5 5) upWaiting "layers.0.mlp.up_proj" .up .b
      (upPair .b) (upPair .a) := by
  refine ⟨?_, upAdapter_completes 3 2 1, ?_, ?_⟩
  · unfold Effect.returned
    rw [upAdapter_waits]
  · rw [(upAdapter_completes 3 2 1).returnsLinearShapes_iff_shape]
    intro h
    cases h .a
  · rw [(upAdapter_completes 4 5 5).returnsLinearShapes_iff_shape]
    intro h
    cases h .a

/-- Four features and five inner features have room for a pair of rank four. -/
theorem returnsLinearShapes_up :
    ReturnsLinearShapes sampleTorch (upAdapter 4 5 4) upWaiting "layers.0.mlp.up_proj" .up .b
      (upPair .b) (upPair .a) :=
  (returnsLinearShapes_iff (upAdapter_completes 4 5 4)).mpr
    ⟨.inl ⟨by decide, by decide⟩, by decide, by decide⟩
