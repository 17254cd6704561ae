/-
The health of a LoRA delta.

The analyser groups the tensors of a model by their stripped names, multiplies
the two tensors of each pair, and measures the products: the energy of each
layer and the entropy of the singular values.

* `collectPairs` — the tensors of each stripped name;
* `measurePairs` — energies and entropies of the complete pairs;
* `analyze` — the report;
* `outlierLayer_unique` — at most one layer holds more than half of the energy.

Numbers are exact.  The singular value decomposition, the logarithm and the
square root enter through `HealthMath`.
-/
import NeuralScalpel.Adapters
import NeuralScalpel.Rounding
import Mathlib.Algebra.BigOperators.Group.List.Basic
import Mathlib.Algebra.Order.BigOperators.Group.Finset
import Mathlib.Algebra.Order.BigOperators.Group.List
import Mathlib.Algebra.Order.Ring.Unbundled.Basic
import Mathlib.Tactic.Positivity

/-! ### The report -/

/-- What the analyser reports. -/
structure DeltaHealthResult (S : Type) extends DeltaHealth S where
  globalFrobeniusNorm : S
  concentrationScore : S

structure HealthMath (S : Type) [Zero S] where
  svd : ∀ W : ShapedMatrix S, SvdFactors W
  log : S → S
  sqrt : S → S

namespace DeltaHealthAnalyzer

section

variable {S : Type} [Field S]

/-- `_extract_layer`. -/
def extractLayer (name : String) : Option ℕ := searchLayer ["layers"] name.toList

/-- The name of a parameter without the endings of LoRA tensors. -/
def baseName (name : String) : String :=
  String.ofList (removeAll ".weight".toList (baseKey name).toList)

/-! ### Pairs -/

/-- The tensors under one stripped name, with one more: the marks of the name
say which of the two it is. -/
def collectTensor (pair : BufferedPair S) (name : String) (param : ShapedMatrix S) :
    BufferedPair S :=
  let pair := if inKey "lora_A" name then pair.put .a param else pair
  if inKey "lora_B" name then pair.put .b param else pair

def collectParameter (pairs : Dict String (BufferedPair S)) (entry : String × ShapedMatrix S) :
    Dict String (BufferedPair S) :=
  if inKey "lora_" entry.1 then
    pairs.set (baseName entry.1)
      (collectTensor ((pairs.get? (baseName entry.1)).getD fun _ => none) entry.1 entry.2)
  else pairs

/-- `lora_pairs`, from the named parameters of a model. -/
def collectPairs (params : List (String × ShapedMatrix S)) : Dict String (BufferedPair S) :=
  params.foldl collectParameter .empty

/-! ### Measurements -/

structure Measurements (S : Type) where
  layerEnergy : Dict ℕ S
  totalFrobNormSq : S
  entropies : List S
  deriving DecidableEq

def Measurements.init : Measurements S := ⟨.empty, 0, []⟩

/-- The `1e-10` of the source. -/
def tiny : S := 1 / 10000000000

/-- `torch.sum(W * W)`. -/
def energy (w : ShapedMatrix S) : S :=
  ∑ i ∈ Finset.range w.rows, ∑ j ∈ Finset.range w.cols, w.entry i j * w.entry i j

/-- The entropy of the singular values, divided by its greatest value. -/
def spectralEntropy (math : HealthMath S) (w : ShapedMatrix S) : S :=
  let s := (List.range (min w.rows w.cols)).map (math.svd w).s
  let sNorm := s.map fun x => x / (s.sum + tiny)
  let entropy := -(sNorm.map fun x => x * math.log (x + tiny)).sum
  entropy / math.log (s.length + tiny)

def addEnergy (layerEnergy : Dict ℕ S) (layer : Option ℕ) (e : S) : Dict ℕ S :=
  match layer with
  | some layer => layerEnergy.set layer ((layerEnergy.get? layer).getD 0 + e)
  | none => layerEnergy

def measurePair (math : HealthMath S) (layer : Option ℕ) (a b : ShapedMatrix S)
    (m : Measurements S) : Except PyError (Measurements S) :=
  if b.cols ≠ a.rows then .error (.runtimeError "mat1 and mat2 shapes cannot be multiplied")
  else .ok {
    layerEnergy := addEnergy m.layerEnergy layer (energy (b.mul a))
    totalFrobNormSq := m.totalFrobNormSq + energy (b.mul a)
    entropies := m.entropies ++ [spectralEntropy math (b.mul a)] }

/-- The loop over `lora_pairs`; incomplete pairs are passed over. -/
def measurePairs (math : HealthMath S) :
    List (String × BufferedPair S) → Measurements S → Except PyError (Measurements S)
  | [], m => .ok m
  | entry :: rest, m =>
    match entry.2 .a, entry.2 .b with
    | some a, some b => do
      let m ← measurePair math (extractLayer entry.1) a b m
      measurePairs math rest m
    | _, _ => measurePairs math rest m

/-- What the analyser measures in a model. -/
def measure (math : HealthMath S) (params : List (String × ShapedMatrix S)) :
    Except PyError (Measurements S) :=
  measurePairs math (collectPairs params).entries .init

/-- `np.mean(entropies) if entropies else 1.0`. -/
def Measurements.normalizedEntropy (m : Measurements S) : S :=
  if m.entropies.isEmpty then 1 else m.entropies.sum / m.entropies.length

def Measurements.totalEnergy (m : Measurements S) : S :=
  (m.layerEnergy.entries.map Prod.snd).sum + tiny

end

/-! ### Outliers -/

section

variable {S : Type} [Field S] [LinearOrder S]

/-- The layers whose share of the energy exceeds one half, with their shares. -/
def Measurements.outlierRatios (m : Measurements S) : List (ℕ × S) :=
  (m.layerEnergy.entries.map fun e => (e.1, e.2 / m.totalEnergy)).filter fun e =>
    decide (0.5 < e.2)

def Measurements.concentrationScore (m : Measurements S) : S :=
  m.outlierRatios.foldl (fun score e => max score e.2) 0

def Measurements.verdict (m : Measurements S) : String :=
  if 0.8 < m.concentrationScore then "CRITICALLY_CONCENTRATED"
  else if m.normalizedEntropy < 0.4 then "LOW_SPECTRAL_ENTROPY"
  else "HEALTHY_DELTA"

variable [FloorRing S]

/-- `f"{x:.1f}"`, for a number that is not negative. -/
def fixedOne (x : S) : String :=
  let tenths := (roundHalfEven (x * (10 : ℕ))).toNat
  toString (tenths / 10) ++ "." ++ toString (tenths % 10)

/-- `f"Layer {layer} ({ratio*100:.1f}%)"`. -/
def outlierText (layer : ℕ) (ratio : S) : String :=
  "Layer " ++ toString layer ++ " (" ++ fixedOne (ratio * 100) ++ "%)"

def Measurements.report (math : HealthMath S) (m : Measurements S) : DeltaHealthResult S where
  verdict := m.verdict
  globalFrobeniusNorm := math.sqrt m.totalFrobNormSq
  concentrationScore := m.concentrationScore
  outliers := m.outlierRatios.map fun e => outlierText e.1 e.2
  normalizedSpectralEntropy := m.normalizedEntropy

/-- `analyze`. -/
def analyze (math : HealthMath S) (params : List (String × ShapedMatrix S)) :
    Except PyError (DeltaHealthResult S) :=
  (measure math params).map (Measurements.report math)

/-- The layer has more than half of the energy. -/
def Measurements.IsOutlierLayer (m : Measurements S) (layer : ℕ) : Prop :=
  ∃ e, m.layerEnergy.get? layer = some e ∧ 0.5 < e / m.totalEnergy

end

/-! ### Energies -/

section

variable {S : Type} [Field S] [LinearOrder S] [IsStrictOrderedRing S]

theorem energy_nonneg (w : ShapedMatrix S) : 0 ≤ energy w :=
  Finset.sum_nonneg fun i _ => Finset.sum_nonneg fun j _ => mul_self_nonneg (w.entry i j)

theorem tiny_pos : 0 < (tiny : S) := by
  unfold tiny
  positivity

/-- No layer has a negative energy. -/
def Measurements.Nonneg (m : Measurements S) : Prop :=
  ∀ layer e, m.layerEnergy.get? layer = some e → 0 ≤ e

omit [IsStrictOrderedRing S] in
theorem nonneg_init : (Measurements.init : Measurements S).Nonneg := by
  intro layer e h
  cases h

theorem nonneg_measurePair {math : HealthMath S} {layer : Option ℕ} {a b : ShapedMatrix S}
    {m m' : Measurements S} (h : measurePair math layer a b m = .ok m') (hm : m.Nonneg) :
    m'.Nonneg := by
  unfold measurePair at h
  split_ifs at h
  cases h
  cases layer with
  | none => exact hm
  | some layer =>
    intro layer' e he
    simp only [addEnergy] at he
    rw [Dict.get?_set] at he
    by_cases hlayer : layer' = layer
    · rw [if_pos hlayer] at he
      cases he
      have hold : 0 ≤ (m.layerEnergy.get? layer).getD 0 := by
        cases hget : m.layerEnergy.get? layer with
        | none => exact le_rfl
        | some e => exact hm layer e hget
      exact add_nonneg hold (energy_nonneg _)
    · rw [if_neg hlayer] at he
      exact hm layer' e he

theorem nonneg_measurePairs {math : HealthMath S} {m' : Measurements S} :
    ∀ {pairs : List (String × BufferedPair S)} {m : Measurements S},
      measurePairs math pairs m = .ok m' → m.Nonneg → m'.Nonneg := by
  intro pairs
  induction pairs with
  | nil =>
    intro m h hm
    cases h
    exact hm
  | cons entry rest ih =>
    intro m h hm
    rw [measurePairs] at h
    split at h
    · obtain ⟨next, hnext, hrest⟩ := Effect.bind_eq_ok.mp h
      exact ih hrest (nonneg_measurePair hnext hm)
    · exact ih h hm

theorem nonneg_measure {math : HealthMath S} {params : List (String × ShapedMatrix S)}
    {m : Measurements S} (h : measure math params = .ok m) : m.Nonneg :=
  nonneg_measurePairs h nonneg_init

/-- Two entries of a dictionary of values that are not negative hold no more
than all of them. -/
theorem add_le_sum_of_ne {entries : List (ℕ × S)} (hnonneg : ∀ e ∈ entries, 0 ≤ e.2)
    (e e' : ℕ × S) (he : e ∈ entries) (he' : e' ∈ entries) (hne : e ≠ e') :
    e.2 + e'.2 ≤ (entries.map Prod.snd).sum := by
  induction entries with
  | nil => cases he
  | cons hd rest ih =>
    have hrest : ∀ e ∈ rest, 0 ≤ e.2 := fun e h => hnonneg e (List.mem_cons_of_mem hd h)
    have hall : ∀ x ∈ rest.map Prod.snd, 0 ≤ x := by
      intro x hx
      obtain ⟨e, hmem, rfl⟩ := List.mem_map.mp hx
      exact hrest e hmem
    have hone : ∀ e ∈ rest, e.2 ≤ (rest.map Prod.snd).sum := fun e h =>
      List.single_le_sum hall e.2 (List.mem_map_of_mem h)
    rw [List.map_cons, List.sum_cons]
    rcases List.mem_cons.mp he with rfl | hmem
    · rcases List.mem_cons.mp he' with rfl | hmem'
      · exact absurd rfl hne
      · exact add_le_add le_rfl (hone e' hmem')
    · rcases List.mem_cons.mp he' with rfl | hmem'
      · rw [add_comm]
        exact add_le_add le_rfl (hone e hmem)
      · exact (ih hrest hmem hmem').trans (le_add_of_nonneg_left (hnonneg hd List.mem_cons_self))

theorem totalEnergy_pos {m : Measurements S} (hm : m.Nonneg) : 0 < m.totalEnergy := by
  refine add_pos_of_nonneg_of_pos (List.sum_nonneg fun x hx => ?_) tiny_pos
  obtain ⟨e, hmem, rfl⟩ := List.mem_map.mp hx
  exact hm e.1 e.2 (Dict.mem_entries_iff.mp hmem)

/-- At most one layer has more than half of the energy. -/
theorem outlierLayer_unique {m : Measurements S} (hm : m.Nonneg) {layer layer' : ℕ}
    (h : m.IsOutlierLayer layer) (h' : m.IsOutlierLayer layer') : layer = layer' := by
  obtain ⟨e, hget, hhalf⟩ := h
  obtain ⟨e', hget', hhalf'⟩ := h'
  have htotal : 0 < m.totalEnergy := totalEnergy_pos hm
  by_contra hne
  have hsum : e + e' ≤ (m.layerEnergy.entries.map Prod.snd).sum :=
    add_le_sum_of_ne (fun e hmem => hm e.1 e.2 (Dict.mem_entries_iff.mp hmem))
      (layer, e) (layer', e')
      (Dict.mem_entries_iff.mpr hget) (Dict.mem_entries_iff.mpr hget')
      fun heq => hne (congrArg Prod.fst heq)
  rw [lt_div_iff₀ htotal] at hhalf hhalf'
  have htiny : 0 < (tiny : S) := tiny_pos
  have hdef : m.totalEnergy = (m.layerEnergy.entries.map Prod.snd).sum + tiny := rfl
  linarith

omit [IsStrictOrderedRing S] in
theorem mem_outlierRatios {m : Measurements S} {layer : ℕ} :
    (∃ ratio, (layer, ratio) ∈ m.outlierRatios) ↔ m.IsOutlierLayer layer := by
  constructor
  · rintro ⟨ratio, hmem⟩
    obtain ⟨hratio, hhalf⟩ := List.mem_filter.mp hmem
    obtain ⟨e, he, heq⟩ := List.mem_map.mp hratio
    cases heq
    exact ⟨e.2, Dict.mem_entries_iff.mp he, of_decide_eq_true hhalf⟩
  · rintro ⟨e, hget, hhalf⟩
    refine ⟨e / m.totalEnergy, List.mem_filter.mpr ⟨?_, decide_eq_true hhalf⟩⟩
    exact List.mem_map.mpr ⟨(layer, e), Dict.mem_entries_iff.mpr hget, rfl⟩

end

end DeltaHealthAnalyzer
