/-
Layer correspondence, alignment maps and delta transport.

`align` with automatic correspondence estimates, for every target layer, the
source layer whose activations resemble it most, and solves one map for each
target layer.  `transportDelta` projects a delta of the source model through
an alignment map.

* `mapping_max` — the estimated source layer has the highest score;
* `align_maps` — the alignment map has one map for each target layer, solved
  against its estimated source layer;
* `transportsByCorrespondence_iff` — exactly when transport follows the
  correspondence.

The tensor operations, the similarity score and the solver enter as
parameters.
-/
import NeuralScalpel.DictFill
import NeuralScalpel.FailurePolicy
import Mathlib.Algebra.Order.Ring.Unbundled.Rat
import Mathlib.Data.List.Sort

/-- What alignment asks of a tensor library. -/
structure TensorLib (T : Type) where
  rows : T → ℕ
  isFinite : T → Bool
  matmul : T → T → Except PyError T

namespace Alignment

variable {T S : Type} [LinearOrder S]

/-- Activations of two models over the same prompts; layers of one name have
equally many rows. -/
structure PairedActivationDataset (lib : TensorLib T) where
  sourceActivations : Dict String T
  targetActivations : Dict String T
  rows_match : ∀ (key : String) (x y : T), sourceActivations.get? key = some x →
    targetActivations.get? key = some y → lib.rows x = lib.rows y

/-- Layers of one name have equally many rows. -/
def rowsMatch (lib : TensorLib T) (source target : Dict String T) : Bool :=
  source.entries.all fun entry =>
    (target.get? entry.1).all fun y => lib.rows entry.2 == lib.rows y

theorem rows_eq_of_rowsMatch {lib : TensorLib T} {source target : Dict String T}
    (h : rowsMatch lib source target = true) (key : String) (x y : T)
    (hx : source.get? key = some x) (hy : target.get? key = some y) : lib.rows x = lib.rows y := by
  have hentry := List.all_eq_true.mp h (key, x) (Dict.mem_entries_iff.mpr hx)
  simpa [hy] using hentry

/-- The dataset of the collected activations. -/
def PairedActivationDataset.make (lib : TensorLib T) (source target : Dict String T) :
    Except PyError (PairedActivationDataset lib) :=
  if h : rowsMatch lib source target = true then
    .ok ⟨source, target, rows_eq_of_rowsMatch h⟩
  else .error (.valueError "Sample count mismatch")

/-! ### Correspondence -/

structure LayerScore (S : Type) where
  sourceLayer : String
  score : S

structure LayerCorrespondence (S : Type) where
  targetToSource : Dict String String
  scores : Dict String (List (LayerScore S))

/-- The scores of a target layer against every source layer. -/
def layerScores (cka : T → T → S) (sourceActivations : Dict String T) (targetActs : T) :
    List (LayerScore S) :=
  sourceActivations.entries.map fun entry => ⟨entry.1, cka entry.2 targetActs⟩

/-- Sorted by descending score; layers of one score keep their order. -/
def ranked (scores : List (LayerScore S)) : List (LayerScore S) :=
  scores.insertionSort fun a b => b.score ≤ a.score

/-- The ranking of a target layer; scoring refuses an unknown method. -/
def rankLayers (method : String) (cka : T → T → S) (sourceActivations : Dict String T)
    (targetActs : T) : Except PyError (List (LayerScore S)) :=
  if method = "linear_cka" ∨ sourceActivations.isEmpty then
    .ok (ranked (layerScores cka sourceActivations targetActs))
  else .error (.valueError s!"Unknown correspondence method: {method}")

/-- `layer_scores[0]["source_layer"]`. -/
def firstLayer : List (LayerScore S) → Except PyError String
  | [] => .error (.external "IndexError: list index out of range")
  | best :: _ => .ok best.sourceLayer

/-- Estimates which source layer each target layer corresponds to.  One loop of
the program fills both dictionaries. -/
def estimateLayerCorrespondence {lib : TensorLib T} (dataset : PairedActivationDataset lib)
    (method : String) (cka : T → T → S) (topK : ℕ) : Except PyError (LayerCorrespondence S) := do
  let scores ← Dict.fill (fun _ targetActs => do
    let scores ← rankLayers method cka dataset.sourceActivations targetActs
    pure (some (scores.take topK))) dataset.targetActivations.entries .empty
  let targetToSource ← Dict.fill (fun _ targetActs => do
    let scores ← rankLayers method cka dataset.sourceActivations targetActs
    let best ← firstLayer scores
    pure (some best)) dataset.targetActivations.entries .empty
  pure ⟨targetToSource, scores⟩

/-! ### Alignment maps -/

/-- What the keys of an alignment map name. -/
inductive MapKeySemantics
  | sourceLayer
  | targetLayer
  deriving DecidableEq, Repr

structure AlignmentMap (T : Type) where
  layerMaps : Dict String T
  mapping : Dict String String
  mapKeySemantics : MapKeySemantics

/-- `activations[layer]`. -/
def activationsOf (activations : Dict String T) (layer : String) : Except PyError T :=
  match activations.get? layer with
  | some acts => .ok acts
  | none => .error (.keyError layer)

/-- The branch of `align` that estimates the correspondence. -/
def alignAuto {lib : TensorLib T} (dataset : PairedActivationDataset lib)
    (correspondenceMethod : String) (cka : T → T → S) (solveRidge : T → T → Except PyError T) :
    Except PyError (AlignmentMap T) := do
  let correspondence ← estimateLayerCorrespondence dataset correspondenceMethod cka 3
  let layerMaps ← Dict.fill (fun tLayer sLayer => do
    let x ← activationsOf dataset.sourceActivations sLayer
    let y ← activationsOf dataset.targetActivations tLayer
    let p ← solveRidge x y
    pure (some p)) correspondence.targetToSource.entries .empty
  pure ⟨layerMaps, correspondence.targetToSource, .targetLayer⟩

/-! ### Transport -/

/-- Projects a source delta with the map of a layer. -/
def AlignmentMap.project (lib : TensorLib T) (mapping : AlignmentMap T) (layerName : String)
    (sourceDelta : T) : Except PyError T :=
  match mapping.layerMaps.get? layerName with
  | some p => lib.matmul sourceDelta p
  | none => .error (.keyError s!"No alignment map found for layer: {layerName}")

/-- One layer of a delta: skipped if the map has no such layer. -/
def transportLayer (lib : TensorLib T) (mapping : AlignmentMap T) (layer : String) (dS : T) :
    Except PyError (Option T) :=
  if lib.isFinite dS then
    if mapping.layerMaps.contains layer then do
      let dT ← mapping.project lib layer dS
      if lib.isFinite dT then pure (some dT)
      else throw (.valueError s!"Non-finite projected delta produced for layer {layer}")
    else .ok none
  else .error (.valueError s!"Non-finite delta detected in layer {layer}")

/-- Projects behavioural deltas into the target manifold. -/
def transportDelta (lib : TensorLib T) (delta : Dict String T) (mapping : AlignmentMap T) :
    Except PyError (Dict String T) :=
  Dict.fill (transportLayer lib mapping) delta.entries .empty

/-! ### What alignment gives -/

/-- The first of the ranking is a source layer of highest score. -/
theorem rankedFirst_max {scores : List (LayerScore S)} {layer : String}
    (h : firstLayer (ranked scores) = .ok layer) :
    ∃ best ∈ scores, best.sourceLayer = layer ∧ ∀ other ∈ scores, other.score ≤ best.score := by
  have hperm : (ranked scores).Perm scores := List.perm_insertionSort _ scores
  have hsorted : (ranked scores).Pairwise fun a b => b.score ≤ a.score := by
    have _ : Std.Total fun a b : LayerScore S => b.score ≤ a.score :=
      ⟨fun a b => le_total b.score a.score⟩
    have _ : IsTrans (LayerScore S) fun a b => b.score ≤ a.score :=
      ⟨fun _ _ _ hab hbc => le_trans hbc hab⟩
    exact List.pairwise_insertionSort _ scores
  rcases hr : ranked scores with _ | ⟨best, rest⟩
  · rw [hr] at h
    cases h
  · rw [hr] at h hperm hsorted
    refine ⟨best, hperm.mem_iff.mp List.mem_cons_self, Except.ok.inj h, fun other hother => ?_⟩
    rcases List.mem_cons.mp (hperm.mem_iff.mpr hother) with rfl | hrest
    · exact le_refl _
    · exact List.rel_of_pairwise_cons hsorted hrest

variable {lib : TensorLib T} {dataset : PairedActivationDataset lib} {method : String}
  {cka : T → T → S} {solveRidge : T → T → Except PyError T} {mapping : AlignmentMap T}

theorem activationsOf_eq_ok {activations : Dict String T} {layer : String} {acts : T} :
    activationsOf activations layer = .ok acts ↔ activations.get? layer = some acts := by
  unfold activationsOf
  cases activations.get? layer <;> simp

/-- The map has one matrix for each target layer, solved against its estimated
source layer. -/
theorem align_maps (h : alignAuto dataset method cka solveRidge = .ok mapping)
    {tLayer : String} {p : T} :
    mapping.layerMaps.get? tLayer = some p ↔ ∃ sLayer x y,
      mapping.mapping.get? tLayer = some sLayer ∧
      dataset.sourceActivations.get? sLayer = some x ∧
      dataset.targetActivations.get? tLayer = some y ∧ solveRidge x y = .ok p := by
  unfold alignAuto at h
  obtain ⟨correspondence, _, h⟩ := Effect.bind_eq_ok.mp h
  obtain ⟨layerMaps, hfill, h⟩ := Effect.bind_eq_ok.mp h
  cases h
  show layerMaps.get? tLayer = some p ↔ _
  rw [Dict.get?_fill hfill]
  refine exists_congr fun sLayer => ?_
  simp only [Effect.bind_eq_ok, activationsOf_eq_ok]
  constructor
  · rintro ⟨hs, x, hx, y, hy, q, hq, heq⟩
    cases heq
    exact ⟨x, y, hs, hx, hy, hq⟩
  · rintro ⟨x, y, hs, hx, hy, hq⟩
    exact ⟨hs, x, hx, y, hy, p, hq, rfl⟩

/-- Every layer of the correspondence has a matrix. -/
theorem exists_map_of_mapping (h : alignAuto dataset method cka solveRidge = .ok mapping)
    {tLayer sLayer : String} (hs : mapping.mapping.get? tLayer = some sLayer) :
    ∃ p, mapping.layerMaps.get? tLayer = some p := by
  have hmaps := h
  unfold alignAuto at h
  obtain ⟨correspondence, _, h⟩ := Effect.bind_eq_ok.mp h
  obtain ⟨layerMaps, hfill, h⟩ := Effect.bind_eq_ok.mp h
  cases h
  obtain ⟨o, ho⟩ := Dict.fill_ok_iff.mp ⟨layerMaps, hfill⟩ tLayer sLayer
    (Dict.mem_entries_iff.mpr hs)
  simp only [Effect.bind_eq_ok, activationsOf_eq_ok] at ho
  obtain ⟨x, hx, y, hy, p, hp, _⟩ := ho
  exact ⟨p, (align_maps hmaps).mpr ⟨sLayer, x, y, hs, hx, hy, hp⟩⟩

/-- The estimated source layer of a target layer is one of highest score. -/
theorem mapping_max (h : alignAuto dataset method cka solveRidge = .ok mapping)
    {tLayer sLayer : String} (hs : mapping.mapping.get? tLayer = some sLayer) :
    ∃ x y, dataset.sourceActivations.get? sLayer = some x ∧
      dataset.targetActivations.get? tLayer = some y ∧
      ∀ (other : String) (x' : T), dataset.sourceActivations.get? other = some x' →
        cka x' y ≤ cka x y := by
  unfold alignAuto estimateLayerCorrespondence at h
  obtain ⟨correspondence, hcorr, h⟩ := Effect.bind_eq_ok.mp h
  obtain ⟨layerMaps, _, h⟩ := Effect.bind_eq_ok.mp h
  cases h
  obtain ⟨scores, _, hcorr⟩ := Effect.bind_eq_ok.mp hcorr
  obtain ⟨targetToSource, hfill, hcorr⟩ := Effect.bind_eq_ok.mp hcorr
  cases hcorr
  obtain ⟨y, hy, hbest⟩ := (Dict.get?_fill hfill).mp hs
  simp only [Effect.bind_eq_ok] at hbest
  obtain ⟨ranking, hranking, best, hfirst, heq⟩ := hbest
  cases heq
  unfold rankLayers at hranking
  by_cases hmethod : method = "linear_cka" ∨ dataset.sourceActivations.isEmpty = true
  · rw [if_pos hmethod] at hranking
    cases hranking
    obtain ⟨top, htop, htopLayer, hmax⟩ := rankedFirst_max hfirst
    obtain ⟨entry, hentry, rfl⟩ := List.mem_map.mp htop
    refine ⟨entry.2, y, ?_, hy, fun other x' hx' => ?_⟩
    · rw [← htopLayer]
      exact Dict.mem_entries_iff.mp hentry
    · exact hmax ⟨other, cka x' y⟩
        (List.mem_map.mpr ⟨(other, x'), Dict.mem_entries_iff.mpr hx', rfl⟩)
  · rw [if_neg hmethod] at hranking
    cases hranking

/-! ### What transport does -/

theorem project_of_map {layer : String} {p : T} (hp : mapping.layerMaps.get? layer = some p)
    (d : T) : mapping.project lib layer d = lib.matmul d p := by
  unfold AlignmentMap.project
  rw [hp]

/-- A finite layer is projected iff the map has its name. -/
theorem transportLayer_eq_some {layer : String} {d v : T} (hd : lib.isFinite d = true) :
    transportLayer lib mapping layer d = .ok (some v) ↔ ∃ p,
      mapping.layerMaps.get? layer = some p ∧ lib.matmul d p = .ok v ∧
      lib.isFinite v = true := by
  unfold transportLayer
  rw [if_pos hd]
  rcases hp : mapping.layerMaps.get? layer with _ | p
  · simp [Dict.contains, hp]
  · rw [if_pos (by rw [Dict.contains, hp]; rfl), project_of_map hp, Effect.bind_eq_ok]
    constructor
    · rintro ⟨dT, hdT, h⟩
      by_cases hfin : lib.isFinite dT = true
      · rw [if_pos hfin] at h
        cases h
        exact ⟨p, rfl, hdT, hfin⟩
      · rw [if_neg hfin] at h
        cases h
    · rintro ⟨p', hp', hv, hfin⟩
      cases hp'
      refine ⟨v, hv, ?_⟩
      rw [if_pos hfin]
      rfl

theorem transportLayer_eq_none {layer : String} {d : T} (hd : lib.isFinite d = true)
    (hp : mapping.layerMaps.get? layer = none) :
    transportLayer lib mapping layer d = .ok none := by
  unfold transportLayer
  rw [if_pos hd, if_neg (by rw [Dict.contains, hp]; exact Bool.false_ne_true)]

/-- A finite layer is passed over only if the map does not have its name. -/
theorem transportLayer_ne_none {layer : String} {d p : T}
    (hp : mapping.layerMaps.get? layer = some p) :
    transportLayer lib mapping layer d ≠ .ok none := by
  intro h
  unfold transportLayer at h
  by_cases hd : lib.isFinite d = true
  · rw [if_pos hd, if_pos (Dict.contains_iff.mpr ⟨p, hp⟩)] at h
    obtain ⟨dT, _, hdT⟩ := Effect.bind_eq_ok.mp h
    by_cases hfin : lib.isFinite dT = true
    · rw [if_pos hfin] at hdT
      cases hdT
    · rw [if_neg hfin] at hdT
      cases hdT
  · rw [if_neg hd] at h
    cases h

variable {delta transported : Dict String T}

theorem get?_transported (h : transportDelta lib delta mapping = .ok transported)
    {layer : String} {v : T} :
    transported.get? layer = some v ↔
      ∃ d, delta.get? layer = some d ∧ transportLayer lib mapping layer d = .ok (some v) :=
  Dict.get?_fill h

theorem transportDelta_returns_iff :
    (∃ transported, transportDelta lib delta mapping = .ok transported) ↔
      ∀ (layer : String) (d : T), delta.get? layer = some d →
        ∃ o, transportLayer lib mapping layer d = .ok o := by
  unfold transportDelta
  rw [Dict.fill_ok_iff]
  refine forall_congr' fun layer => forall_congr' fun d => ?_
  rw [Dict.mem_entries_iff]

/-! ### Transport along the correspondence -/

/-- The layers are the target layers whose estimated source layer the delta
has, each holding the delta of that source layer times its own matrix. -/
structure FollowsCorrespondence (lib : TensorLib T) (delta : Dict String T)
    (mapping : AlignmentMap T) (transported : Dict String T) : Prop where
  layers_iff : ∀ tLayer : String, transported.contains tLayer = true ↔
    ∃ sLayer, mapping.mapping.get? tLayer = some sLayer ∧ delta.contains sLayer = true
  product : ∀ (tLayer sLayer : String) (d p : T),
    mapping.mapping.get? tLayer = some sLayer → delta.get? sLayer = some d →
    mapping.layerMaps.get? tLayer = some p →
    ∃ v, lib.matmul d p = .ok v ∧ transported.get? tLayer = some v

/-- Transport returns a delta that follows the correspondence. -/
def TransportsByCorrespondence (lib : TensorLib T) (delta : Dict String T)
    (mapping : AlignmentMap T) : Prop :=
  ∃ transported, transportDelta lib delta mapping = .ok transported ∧
    FollowsCorrespondence lib delta mapping transported

/-- Reading the target layers as source layers makes no difference: a target
layer is named in the delta iff its source layer is, and both then have the
same finite product with the matrix. -/
structure NamesAgree (lib : TensorLib T) (delta : Dict String T) (mapping : AlignmentMap T) :
    Prop where
  same_layers : ∀ tLayer sLayer : String, mapping.mapping.get? tLayer = some sLayer →
    (delta.contains sLayer = true ↔ delta.contains tLayer = true)
  same_product : ∀ (tLayer sLayer : String) (d d' p : T),
    mapping.mapping.get? tLayer = some sLayer → delta.get? sLayer = some d →
    delta.get? tLayer = some d' → mapping.layerMaps.get? tLayer = some p →
    ∃ v, lib.matmul d p = .ok v ∧ lib.matmul d' p = .ok v ∧ lib.isFinite v = true

theorem namesAgree_of_follows
    (halign : alignAuto dataset method cka solveRidge = .ok mapping)
    (hfinite : ∀ (layer : String) (d : T), delta.get? layer = some d → lib.isFinite d = true)
    (htransport : transportDelta lib delta mapping = .ok transported)
    (hfollows : FollowsCorrespondence lib delta mapping transported) :
    NamesAgree lib delta mapping := by
  refine ⟨fun tLayer sLayer hs => ⟨fun hcontains => ?_, fun hcontains => ?_⟩,
    fun tLayer sLayer d d' p hs hd hd' hp => ?_⟩
  · obtain ⟨v, hv⟩ := Dict.contains_iff.mp
      ((hfollows.layers_iff tLayer).mpr ⟨sLayer, hs, hcontains⟩)
    obtain ⟨d, hd, _⟩ := (get?_transported htransport).mp hv
    exact Dict.contains_iff.mpr ⟨d, hd⟩
  · -- a delta layer named like a target layer is projected with its matrix
    obtain ⟨d, hd⟩ := Dict.contains_iff.mp hcontains
    obtain ⟨p, hp⟩ := exists_map_of_mapping halign hs
    obtain ⟨o, ho⟩ := transportDelta_returns_iff.mp ⟨transported, htransport⟩ tLayer d hd
    rcases o with _ | v
    · exact absurd ho (transportLayer_ne_none hp)
    · obtain ⟨s, hs', hcontains'⟩ := (hfollows.layers_iff tLayer).mp
        (Dict.contains_iff.mpr ⟨v, (get?_transported htransport).mpr ⟨d, hd, ho⟩⟩)
      rw [hs] at hs'
      cases hs'
      exact hcontains'
  · obtain ⟨v, hv, htv⟩ := hfollows.product tLayer sLayer d p hs hd hp
    obtain ⟨d'', hd'', hlayer⟩ := (get?_transported htransport).mp htv
    rw [hd'] at hd''
    cases hd''
    obtain ⟨p', hp', hv', hfin⟩ := (transportLayer_eq_some (hfinite tLayer d' hd')).mp hlayer
    rw [hp] at hp'
    cases hp'
    exact ⟨v, hv, hv', hfin⟩

/-- A delta layer that is a target layer is projected as its source layer would be. -/
theorem NamesAgree.transportLayer (hagree : NamesAgree lib delta mapping)
    (halign : alignAuto dataset method cka solveRidge = .ok mapping) {layer : String} {d' p : T}
    (hfinite : lib.isFinite d' = true) (hd' : delta.get? layer = some d')
    (hp : mapping.layerMaps.get? layer = some p) :
    ∃ sLayer d v, mapping.mapping.get? layer = some sLayer ∧ delta.get? sLayer = some d ∧
      lib.matmul d p = .ok v ∧ transportLayer lib mapping layer d' = .ok (some v) := by
  obtain ⟨sLayer, _, _, hs, _⟩ := (align_maps halign).mp hp
  obtain ⟨d, hd⟩ := Dict.contains_iff.mp
    ((hagree.same_layers layer sLayer hs).mpr (Dict.contains_iff.mpr ⟨d', hd'⟩))
  obtain ⟨v, hv, hv', hfin⟩ := hagree.same_product layer sLayer d d' p hs hd hd' hp
  exact ⟨sLayer, d, v, hs, hd, hv, (transportLayer_eq_some hfinite).mpr ⟨p, hp, hv', hfin⟩⟩

theorem NamesAgree.transports (hagree : NamesAgree lib delta mapping)
    (halign : alignAuto dataset method cka solveRidge = .ok mapping)
    (hfinite : ∀ (layer : String) (d : T), delta.get? layer = some d → lib.isFinite d = true) :
    TransportsByCorrespondence lib delta mapping := by
  obtain ⟨transported, htransport⟩ : ∃ transported,
      transportDelta lib delta mapping = .ok transported := by
    refine transportDelta_returns_iff.mpr fun layer d' hd' => ?_
    rcases hp : mapping.layerMaps.get? layer with _ | p
    · exact ⟨none, transportLayer_eq_none (hfinite layer d' hd') hp⟩
    · obtain ⟨_, _, v, _, _, _, ho⟩ := hagree.transportLayer halign (hfinite layer d' hd') hd' hp
      exact ⟨some v, ho⟩
  refine ⟨transported, htransport, fun tLayer => ⟨fun hcontains => ?_, ?_⟩,
    fun tLayer sLayer d p hs hd hp => ?_⟩
  · obtain ⟨v, hv⟩ := Dict.contains_iff.mp hcontains
    obtain ⟨d', hd', ho⟩ := (get?_transported htransport).mp hv
    obtain ⟨p, hp, _⟩ := (transportLayer_eq_some (hfinite tLayer d' hd')).mp ho
    obtain ⟨sLayer, d, _, hs, hd, _⟩ :=
      hagree.transportLayer halign (hfinite tLayer d' hd') hd' hp
    exact ⟨sLayer, hs, Dict.contains_iff.mpr ⟨d, hd⟩⟩
  · rintro ⟨sLayer, hs, hcontains⟩
    obtain ⟨d', hd'⟩ := Dict.contains_iff.mp ((hagree.same_layers tLayer sLayer hs).mp hcontains)
    obtain ⟨p, hp⟩ := exists_map_of_mapping halign hs
    obtain ⟨_, _, v, _, _, _, ho⟩ := hagree.transportLayer halign (hfinite tLayer d' hd') hd' hp
    exact Dict.contains_iff.mpr ⟨v, (get?_transported htransport).mpr ⟨d', hd', ho⟩⟩
  · obtain ⟨d', hd'⟩ := Dict.contains_iff.mp ((hagree.same_layers tLayer sLayer hs).mp
      (Dict.contains_iff.mpr ⟨d, hd⟩))
    obtain ⟨s, d₁, v, hs', hd₁, hv, ho⟩ :=
      hagree.transportLayer halign (hfinite tLayer d' hd') hd' hp
    rw [hs] at hs'
    cases hs'
    rw [hd] at hd₁
    cases hd₁
    exact ⟨v, hv, (get?_transported htransport).mpr ⟨d', hd', ho⟩⟩

/-- Transport follows the estimated correspondence exactly when it makes no
difference to read the names of target layers as names of source layers. -/
theorem transportsByCorrespondence_iff
    (halign : alignAuto dataset method cka solveRidge = .ok mapping) (delta : Dict String T)
    (hfinite : ∀ (layer : String) (d : T), delta.get? layer = some d → lib.isFinite d = true) :
    TransportsByCorrespondence lib delta mapping ↔ NamesAgree lib delta mapping := by
  constructor
  · rintro ⟨transported, htransport, hfollows⟩
    exact namesAgree_of_follows halign hfinite htransport hfollows
  · intro hagree
    exact hagree.transports halign hfinite

/-! ### Tensors with one element -/

/-- Tensors of one row and one column, as exact numbers. -/
def scalarLib : TensorLib ℚ where
  rows _ := 1
  isFinite _ := true
  matmul x y := .ok (x * y)

/-- Ridge regression on one sample and one feature, with unit penalty. -/
def scalarRidge (x y : ℚ) : Except PyError ℚ := .ok (x * y / (x * x + 1))

/-- One sample has no variance, so its similarity score is zero. -/
def scalarCka (_ _ : ℚ) : ℚ := 0

def scalarDataset (sLayer tLayer : String) : PairedActivationDataset scalarLib where
  sourceActivations := Dict.empty.set sLayer 1
  targetActivations := Dict.empty.set tLayer 2
  rows_match _ _ _ _ _ := rfl

def scalarMapping (sLayer tLayer : String) : AlignmentMap ℚ where
  layerMaps := Dict.empty.set tLayer (1 * 2 / (1 * 1 + 1))
  mapping := Dict.empty.set tLayer sLayer
  mapKeySemantics := .targetLayer

/-- With the source layer `enc` and the target layer `dec`, nothing is transported. -/
theorem transport_loses_layer :
    alignAuto (scalarDataset "enc" "dec") "linear_cka" scalarCka scalarRidge =
      .ok (scalarMapping "enc" "dec") ∧
    ¬TransportsByCorrespondence scalarLib (Dict.empty.set "enc" 5)
      (scalarMapping "enc" "dec") := by
  refine ⟨by rfl, ?_⟩
  rintro ⟨transported, htransport, hfollows⟩
  have hempty : transportDelta scalarLib (Dict.empty.set "enc" 5) (scalarMapping "enc" "dec") =
      .ok .empty := by
    rfl
  rw [hempty] at htransport
  cases htransport
  have hdec := (hfollows.layers_iff "dec").mpr ⟨"enc", rfl, rfl⟩
  exact absurd hdec (by decide)

/-- With one name for both layers, transport follows the correspondence. -/
theorem transport_same_name :
    TransportsByCorrespondence scalarLib (Dict.empty.set "h" 5) (scalarMapping "h" "h") := by
  have halign : alignAuto (scalarDataset "h" "h") "linear_cka" scalarCka scalarRidge =
      .ok (scalarMapping "h" "h") := by
    rfl
  have hname : ∀ {tLayer sLayer : String},
      (scalarMapping "h" "h").mapping.get? tLayer = some sLayer → tLayer = sLayer := by
    intro tLayer sLayer hs
    have hs' : (tLayer, sLayer) ∈ [("h", "h")] := Dict.mem_entries_iff.mpr hs
    cases List.mem_singleton.mp hs'
    rfl
  refine (transportsByCorrespondence_iff halign _ fun _ _ _ => rfl).mpr ⟨?_, ?_⟩
  · intro tLayer sLayer hs
    rw [hname hs]
  · intro tLayer sLayer d d' p hs hd hd' _
    rw [hname hs, hd] at hd'
    cases hd'
    exact ⟨_, rfl, rfl, rfl⟩

end Alignment
