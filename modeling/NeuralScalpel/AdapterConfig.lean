/-
The rank in the configuration written beside the projected tensors.

The first dimension of every first tensor and the second dimension of every
second tensor of the adapter file should be the rank in `adapter_config.json`.

* `configRank` — the rank in the configuration;
* `writtenRank` — the rank a key is written with, from the shapes of the source
  tensors and its branch;
* `rank_written` — every tensor of the final map has that rank;
* `configMatches_iff` — exactly when the configuration matches the tensors.
-/
import NeuralScalpel.PortKeys

/-! ### The configuration -/

section Config

variable {R : Type} [Zero R]

/-- The rank of the first tensor of a pair that the saved file lists. -/
def detectedRank (saved : List (String × ShapedMatrix R)) : ℕ :=
  match saved.find? fun e => inKey "lora_A" e.1 with
  | some e => e.2.rows
  | none => 16

/-- `_safe("rank", detected_r)`. -/
def configRank (requested : Option ℕ) (saved : List (String × ShapedMatrix R)) : ℕ :=
  requested.getD (detectedRank saved)

/-- `_safe("rank", 16)`, the rank the adapter is made with. -/
def adapterRank (requested : Option ℕ) : ℕ := requested.getD 16

/-- A tensor of a pair, by its key. -/
def IsLora (key : String) : Prop := inKey "lora_A" key = true ∨ inKey "lora_B" key = true

instance (key : String) : Decidable (IsLora key) := inferInstanceAs (Decidable (_ ∨ _))

/-- The rank of a tensor of a pair: its first dimension, or, if it is the second
of the pair, its second one. -/
def loraRank (key : String) (t : ShapedMatrix R) : ℕ :=
  if inKey "lora_A" key then t.rows else t.cols

/-- Every tensor of a pair has the rank of the configuration. -/
def ConfigMatches (r : ℕ) (written : Dict String (ShapedMatrix R)) : Prop :=
  ∀ key t, written.get? key = some t → IsLora key → loraRank key t = r

/-- Rows and columns of a matrix of a shape after `resizeDelta`. -/
def resizedShape (rows cols tgtIn tgtOut : ℕ) : ℕ × ℕ :=
  if tgtOut < rows ∨ tgtIn < cols then (min tgtOut rows, min tgtIn cols) else (tgtOut, tgtIn)

/-- The rank a key is written with. -/
def writtenRank (kind : AdapterKind) (target : Geometry) (rank : ℕ)
    (tensor : String → ShapedMatrix R) (matched : Bool) (key : String) : ℕ :=
  match kind with
  | .llama3ToQwen2 =>
    if matched then
      let size := piecewiseTarget target key
      let shape := resizedShape (tensor (loraKey (baseKey key) .b)).rows
        (tensor (loraKey (baseKey key) .a)).cols size.1 size.2
      min rank (min shape.1 shape.2)
    else rank
  | .sdxlToFlux => if inKey "lora_A" key then (tensor key).rows else 3072
  | .sdxlToSdxl | .base => loraRank key (tensor key)

end Config

/-! ### The rank of what is returned -/

section Rank

variable {R S : Type} [CommRing R]

theorem rows_projectDim_cols (t : ShapedMatrix R) (srcDim tgtDim : ℕ) :
    (projectDim t srcDim tgtDim .cols).rows = t.rows := by
  unfold projectDim
  split_ifs <;> rfl

theorem cols_projectDim_rows (t : ShapedMatrix R) (srcDim tgtDim : ℕ) :
    (projectDim t srcDim tgtDim .rows).cols = t.cols := by
  unfold projectDim
  split_ifs <;> rfl

/-- Cropping and padding give the rank of the adapter. -/
theorem loraRank_legacyProject (adapter : Adapter S) {key : String} (hkey : IsLora key)
    (t : ShapedMatrix R) : loraRank key (legacyProject adapter key t) = adapter.targetRank := by
  unfold loraRank legacyProject
  by_cases ha : inKey "lora_A" key = true
  · simp only [if_pos ha]
    by_cases hrank : adapter.targetRank < t.rows
    · rw [if_pos hrank, ShapedMatrix.rows_takeRows, rows_projectDim_cols]
      omega
    · rw [if_neg hrank, ShapedMatrix.rows_padRows, rows_projectDim_cols]
      omega
  · simp only [if_neg ha, if_pos (hkey.resolve_left ha)]
    by_cases hrank : adapter.targetRank < t.cols
    · rw [if_pos hrank, ShapedMatrix.cols_takeCols, cols_projectDim_rows]
      omega
    · rw [if_neg hrank, ShapedMatrix.cols_padCols, cols_projectDim_rows]
      omega

theorem shape_resizeDelta (delta : ShapedMatrix R) (tgtIn tgtOut : ℕ) :
    ((resizeDelta delta tgtIn tgtOut).rows, (resizeDelta delta tgtIn tgtOut).cols) =
      resizedShape delta.rows delta.cols tgtIn tgtOut := by
  unfold resizeDelta resizedShape
  by_cases hcut : tgtOut < delta.rows ∨ tgtIn < delta.cols
  · rw [if_pos hcut, if_pos hcut]
    rfl
  · rw [if_neg hcut, if_neg hcut]
    obtain ⟨hrows, hcols⟩ := not_or.mp hcut
    refine Prod.ext ?_ ?_
    · show delta.rows + (tgtOut - delta.rows) = tgtOut
      omega
    · show delta.cols + (tgtIn - delta.cols) = tgtIn
      omega

theorem loraRank_eq (key : String) (t : ShapedMatrix R) :
    loraRank key t = match keyHalf key with
      | .a => t.rows
      | .b => t.cols := by
  unfold loraRank keyHalf
  split_ifs <;> rfl

section Torch

variable (torch : Torch R S)

/-- Both factors have the first singular directions, as many as there are. -/
theorem rank_factorizeToLora (delta : ShapedMatrix R) (rank : ℕ) :
    (factorizeToLora torch delta rank).1.rows = min rank (min delta.rows delta.cols) ∧
      (factorizeToLora torch delta rank).2.cols = min rank (min delta.rows delta.cols) := by
  constructor
  · show min rank (torch.svd delta).vh.rows = _
    rw [(torch.svd delta).shape_vh.1]
  · show min rank (torch.svd delta).u.cols = _
    rw [(torch.svd delta).shape_u.2]

theorem rank_projectPair (adapter : Adapter S) (key : String) (a b : ShapedMatrix R) :
    let size := piecewiseTarget adapter.target key
    let shape := resizedShape b.rows a.cols size.1 size.2
    (projectPair torch adapter key a b).1.rows =
        min adapter.targetRank (min shape.1 shape.2) ∧
      (projectPair torch adapter key a b).2.cols =
        min adapter.targetRank (min shape.1 shape.2) := by
  intro size shape
  have hshape : ((resizeDelta (b.mul a) size.1 size.2).rows,
      (resizeDelta (b.mul a) size.1 size.2).cols) = shape :=
    shape_resizeDelta (b.mul a) size.1 size.2
  rw [← hshape]
  exact rank_factorizeToLora torch _ _

theorem loraRank_injection (draw : ℕ) (key : String) (t : ShapedMatrix R) :
    loraRank key (pcaGuidedSubspaceInjection torch t (torch.randn draw 1 3072)) =
      if inKey "lora_A" key then t.rows else 3072 := by
  have hcols : (torch.svd (torch.randn draw 1 3072)).vh.cols = 3072 :=
    (torch.svd _).shape_vh.2.trans (torch.shape_randn draw 1 3072).2
  unfold loraRank pcaGuidedSubspaceInjection
  by_cases hwide : t.cols ≤ (torch.svd (torch.randn draw 1 3072)).vh.rows
  · simp only [if_pos hwide]
    split_ifs
    · rfl
    · exact hcols
  · simp only [if_neg hwide]
    split_ifs
    · rfl
    · exact hcols

end Torch

variable [Field S] [LinearOrder S] [MulActionWithZero S R]

theorem loraRank_alphaScaled (config : PortConfig S) (key newKey : String)
    (t : ShapedMatrix R) :
    loraRank newKey (alphaScaled config key newKey t) = loraRank newKey t := by
  unfold alphaScaled
  rcases replacedAlpha config key with _ | target
  · rfl
  · simp only
    split_ifs <;> rfl

variable {torch : Torch R S} {adapter : Adapter S} {tensor : String → ShapedMatrix R}

/-- The rank of a tensor projected on its own. -/
theorem loraRank_ownTensor (draw : ℕ) {key : String} (hkey : IsLora key) :
    loraRank key (ownTensor torch adapter tensor draw key) =
      writtenRank adapter.kind adapter.target adapter.targetRank tensor false key := by
  unfold ownTensor writtenRank plainTensor
  rcases adapter.kind with _ | _ | _ | _
  · exact loraRank_legacyProject adapter hkey (tensor key)
  · exact loraRank_injection torch draw key (tensor key)
  · rfl
  · rfl

variable (torch) in
/-- The rank of both tensors of a projected pair. -/
theorem loraRank_pairTensor {k : String} (hk : LoraKeyed k) :
    loraRank k (pairTensor torch adapter (baseKey k) (pairOf tensor (baseKey k)) (keyHalf k)) =
      writtenRank .llama3ToQwen2 adapter.target adapter.targetRank tensor true k := by
  have htarget : piecewiseTarget adapter.target (loraKey (baseKey k) .a) =
      piecewiseTarget adapter.target k := by
    calc piecewiseTarget adapter.target (loraKey (baseKey k) .a)
        = piecewiseTarget adapter.target (loraKey (baseKey k) (keyHalf k)) := by
          rw [piecewiseTarget_loraKey, piecewiseTarget_loraKey]
      _ = piecewiseTarget adapter.target k := by rw [hk.2]
  have hrank := rank_projectPair torch adapter (loraKey (baseKey k) .a)
    (tensor (loraKey (baseKey k) .a)) (tensor (loraKey (baseKey k) .b))
  rw [htarget] at hrank
  rw [loraRank_eq]
  rcases keyHalf k with _ | _
  · exact hrank.1
  · exact hrank.2

/-! ### The rank of what is written -/

variable {config : PortConfig S} {fault : Option StreamFault} {keys : List String}
  {st : AdapterState R S} {written : Dict String (ShapedMatrix R)}

/-- Every tensor of the final map has the rank that its source tensors and its
place in the last loop give. -/
theorem rank_written (hnodup : keys.Nodup)
    (hbases : DistinctBases adapter (includedKeys config keys))
    (hrun : portRun torch config adapter (layerWrites config) tensor fault keys .init =
      .ok written st)
    {key : String} {t : ShapedMatrix R} (hget : written.get? key = some t) (hkey : IsLora key) :
    loraRank key t = writtenRank adapter.kind adapter.target adapter.targetRank tensor
      (matchedAt adapter (countedPairs config adapter tensor fault keys)
        (includedKeys config keys) key) key := by
  obtain ⟨streamed, st₁, hstream, hcounted⟩ := streaming_returns torch fault hnodup hbases
  rw [← hcounted]
  obtain ⟨-, key', projected, writes, hprojected, hwrites, hin⟩ :=
    portRun_projectedAs hnodup hbases layerWrites_keys hstream hrun hget
  rw [layerWrites_eq_ok hwrites] at hin
  obtain ⟨⟨k, v⟩, he, heq⟩ := List.mem_map.mp hin
  obtain ⟨hk, rfl⟩ := Prod.ext_iff.mp heq
  simp only at hk
  subst hk
  rw [loraRank_alphaScaled]
  rcases hprojected with ⟨hmatched, rfl, draw, rfl⟩ | ⟨hmatched, hlora, -, -, rfl⟩
  · rw [hmatched]
    cases List.mem_singleton.mp he
    exact loraRank_ownTensor draw hkey
  · rw [hmatched]
    have hkind : adapter.kind = .llama3ToQwen2 := by
      unfold matchedAt at hmatched
      exact of_decide_eq_true (Bool.and_eq_true_iff.mp hmatched).1
    obtain ⟨half, hentry⟩ := mem_pairEntries he
    obtain ⟨hk, rfl⟩ := Prod.ext_iff.mp hentry
    have hhalf : half = keyHalf k := (loraKey_inj (hk.symm.trans hlora.2.symm)).2
    rw [hkind, ← loraRank_pairTensor torch hlora, hhalf]

/-- The configuration matches the tensors exactly when, for every key of a pair
that the loops write, the shapes of its source tensors and its branch give the
rank of the configuration. -/
theorem configMatches_iff {sourceArch targetArch : String} {sourceInfo targetInfo : ModelInfo}
    {requested : Option ℕ} {health : Option (DeltaHealth S)} {mode : String}
    {scaling : Option (AdaptiveScalingConfig S)} {modules : Option (List String)}
    {layers : Option (List ℤ)} {maxLayers : Option ℤ}
    (hadapter : getAdapter sourceArch targetArch sourceInfo targetInfo (adapterRank requested)
      health mode scaling modules layers maxLayers = .ok adapter)
    (hnodup : keys.Nodup) (hbases : DistinctBases adapter (includedKeys config keys))
    (hrun : portRun torch config adapter (layerWrites config) tensor fault keys .init =
      .ok written st)
    (saved : List (String × ShapedMatrix R)) :
    ConfigMatches (configRank requested saved) written ↔
      ∀ key ∈ portedKeys config adapter tensor fault keys, IsLora key →
        writtenRank (adapterKind sourceArch targetArch) adapter.target (adapterRank requested)
          tensor (matchedAt adapter (countedPairs config adapter tensor fault keys)
            (includedKeys config keys) key) key = configRank requested saved := by
  obtain ⟨hkind, hrank⟩ := getAdapter_eq_ok hadapter
  rw [← hkind, ← hrank]
  constructor
  · intro h key hkey hlora
    have hwritten := (mem_keys_portRun hnodup hbases hrun).mpr hkey
    obtain ⟨t, ht⟩ := Dict.contains_iff.mp (Dict.mem_keys_iff.mp hwritten)
    rw [← rank_written hnodup hbases hrun ht hlora]
    exact h key t ht hlora
  · intro h key t ht hlora
    have hwritten := Dict.mem_keys_iff.mpr (Dict.contains_iff.mpr ⟨t, ht⟩)
    rw [rank_written hnodup hbases hrun ht hlora]
    exact h key ((mem_keys_portRun hnodup hbases hrun).mp hwritten) hlora

end Rank

/-! ### A pair that is passed through -/

/-- A pair of rank two of an image model. -/
def imageKeys : List String := ["unet.attn.lora_A.weight", "unet.attn.lora_B.weight"]

def imageTensor (_ : String) : ShapedMatrix ℚ := unitFactor 2 2

def imageGeometry : Geometry := ⟨4, 2, 8, 2, by decide⟩

/-- The adapter between image models, asked for a rank. -/
def imageAdapter (rank : ℕ) : Adapter ℚ where
  kind := .sdxlToSdxl
  source := imageGeometry
  target := imageGeometry
  targetRank := rank
  deltaHealth := none
  projectionMode := "linear"
  scalingConfig := .default ℚ
  piecewiseModules := none
  piecewiseLayers := none
  piecewiseMaxLayers := none

theorem adapterKind_image : adapterKind "sdxl" "sdxl" = .sdxlToSdxl := by decide +kernel

theorem getAdapter_image (rank : ℕ) :
    getAdapter "sdxl" "sdxl" (.tuple 4 2 (some 8)) (.tuple 4 2 (some 8)) rank none "linear" none
      none none none = .ok (imageAdapter rank) := by
  unfold getAdapter
  rw [adapterKind_image]
  rfl

/-- At rank sixteen, the pair is written with rank two. -/
theorem image_rank_differs : ∃ written st,
    portRun sampleTorch plainConfig (imageAdapter (adapterRank (some 16)))
      (layerWrites plainConfig) imageTensor none imageKeys .init = .ok written st ∧
    ¬ConfigMatches (configRank (some 16) written.entries) written := by
  have hrank : (Effect.returned (portRun sampleTorch plainConfig
      (imageAdapter (adapterRank (some 16))) (layerWrites plainConfig) imageTensor none imageKeys)
      .init).map (fun written =>
        (written.get? "unet.attn.lora_A.weight").map fun t => t.rows) = some (some 2) := by
    decide +kernel
  obtain ⟨written, hwritten, hget⟩ := Option.map_eq_some_iff.mp hrank
  obtain ⟨t, ht, hrows⟩ := Option.map_eq_some_iff.mp hget
  obtain ⟨st, hrun⟩ := Effect.returned_eq_some.mp hwritten
  refine ⟨written, st, hrun, fun h => ?_⟩
  have hmatch := h _ t ht (by decide)
  unfold loraRank at hmatch
  rw [if_pos (by decide), hrows] at hmatch
  cases hmatch

/-- Asked for its own rank, the pair matches. -/
theorem image_rank_agrees : ∃ written st,
    portRun sampleTorch plainConfig (imageAdapter (adapterRank (some 2)))
      (layerWrites plainConfig) imageTensor none imageKeys .init = .ok written st ∧
    ConfigMatches (configRank (some 2) written.entries) written := by
  have hreturns : (Effect.returned (portRun sampleTorch plainConfig
      (imageAdapter (adapterRank (some 2))) (layerWrites plainConfig) imageTensor none imageKeys)
      .init).isSome = true := by
    decide +kernel
  obtain ⟨written, hwritten⟩ := Option.isSome_iff_exists.mp hreturns
  obtain ⟨st, hrun⟩ := Effect.returned_eq_some.mp hwritten
  refine ⟨written, st, hrun, (configMatches_iff (getAdapter_image _) (by decide) ?_ hrun
    written.entries).mpr ?_⟩
  · intro key _ key' _ heligible
    have hmode : ((imageAdapter (adapterRank (some 2))).projectionMode == "piecewise") = false := by
      decide
    unfold piecewiseEligible at heligible
    rw [hmode] at heligible
    cases heligible
  · intro key _ _
    rw [adapterKind_image]
    show loraRank key (imageTensor key) = 2
    unfold loraRank
    split_ifs <;> rfl
