/-
Which keys the scale of outlier layers is applied to.

The analyser writes an outlier layer into a text, and the adapter looks for the
number of a key's layer in it.  The number is found in the text of every layer
whose decimal form begins with it.

* `inKey_outlierText` — which numbers are found in the text of a layer;
* `isOutlier_report` — which layers are taken for outliers;
* `damping_iff` — exactly when they are the reported ones.
-/
import NeuralScalpel.Decimals
import NeuralScalpel.DeltaHealth
import Mathlib.Data.Rat.Sqrt

/-! ### Numbers in texts -/

/-- A needle that begins with a character is found only where the character is. -/
theorem infix_cons_iff_of_not_mem {α : Type} {c : α} {needle text : List α} (hc : c ∉ text) :
    c :: needle <:+: c :: text ↔ needle <+: text := by
  rw [List.infix_cons_iff, List.cons_prefix_cons]
  constructor
  · rintro (⟨-, hbegins⟩ | hin)
    · exact hbegins
    · exact absurd (hin.subset List.mem_cons_self) hc
  · exact fun h => Or.inl ⟨rfl, h⟩

/-- The decimal form of the second number begins with that of the first. -/
def DecimalPrefix (k m : ℕ) : Prop := Nat.toDigits 10 k <+: Nat.toDigits 10 m

instance (k m : ℕ) : Decidable (DecimalPrefix k m) := inferInstanceAs (Decidable (_ <+: _))

namespace DeltaHealthAnalyzer

section

variable {S : Type} [Field S] [LinearOrder S] [FloorRing S]

theorem not_mem_fixedOne {c : Char} (hc : c.isDigit = false) (hdot : c ≠ '.') (x : S) :
    c ∉ (fixedOne x).toList := by
  have hrepr : ∀ n : ℕ, (toString n).toList = Nat.toDigits 10 n := fun n => Nat.toList_repr
  unfold fixedOne
  simp only [String.toList_append, hrepr, List.mem_append, not_or]
  refine ⟨⟨not_mem_toDigits hc _, ?_⟩, not_mem_toDigits hc _⟩
  exact fun hmem => hdot (List.mem_singleton.mp hmem)

/-- A number is found in the text of a layer whose decimal form begins with it. -/
theorem inKey_outlierText (k m : ℕ) (ratio : S) :
    inKey s!"Layer {k}" (outlierText m ratio) = true ↔ DecimalPrefix k m := by
  have hneedle : (s!"Layer {k}").toList = 'L' :: ("ayer ".toList ++ Nat.toDigits 10 k) := by
    show ("Layer " ++ Nat.repr k).toList = _
    rw [String.toList_append, Nat.toList_repr]
    rfl
  have htext : (outlierText m ratio).toList = 'L' :: ("ayer ".toList ++ (Nat.toDigits 10 m ++
      ' ' :: ('(' :: ((fixedOne (ratio * 100)).toList ++ "%)".toList)))) := by
    show ("Layer " ++ Nat.repr m ++ " (" ++ fixedOne (ratio * 100) ++ "%)").toList = _
    simp only [String.toList_append, Nat.toList_repr, List.append_assoc]
    rfl
  -- the capital of the word stands at the front of the text only
  have hcapital : 'L' ∉ "ayer ".toList ++ (Nat.toDigits 10 m ++
      ' ' :: ('(' :: ((fixedOne (ratio * 100)).toList ++ "%)".toList))) := by
    simp only [List.mem_append, List.mem_cons, not_or]
    refine ⟨by decide, not_mem_toDigits (by decide) m, by decide, by decide, ?_, by decide⟩
    exact not_mem_fixedOne (by decide) (by decide) _
  unfold inKey
  rw [occursIn_iff, hneedle, htext, infix_cons_iff_of_not_mem hcapital,
    List.prefix_append_right_inj]
  exact ⟨prefix_of_prefix_append_cons (not_mem_toDigits (by decide) k),
    fun h => h.trans (List.prefix_append _ _)⟩

/-- The layers the adapter takes for outliers. -/
theorem isOutlier_report (math : HealthMath S) (m : Measurements S) (layer : Option ℕ) :
    isOutlier (m.report math).toDeltaHealth layer = true ↔
      ∃ k, layer = some k ∧ ∃ l, m.IsOutlierLayer l ∧ DecimalPrefix k l := by
  cases layer with
  | none => simp [isOutlier]
  | some k =>
    have hany : isOutlier (m.report math).toDeltaHealth (some k) = true ↔
        ∃ e ∈ m.outlierRatios, inKey s!"Layer {k}" (outlierText e.1 e.2) = true := by
      simp only [isOutlier, Measurements.report, List.any_map, List.any_eq_true,
        Function.comp_apply]
    rw [hany]
    constructor
    · rintro ⟨e, hmem, htext⟩
      exact ⟨k, rfl, e.1, mem_outlierRatios.mp ⟨e.2, hmem⟩, (inKey_outlierText k e.1 e.2).mp htext⟩
    · rintro ⟨k', hk, l, hl, hbegins⟩
      cases hk
      obtain ⟨ratio, hmem⟩ := mem_outlierRatios.mpr hl
      exact ⟨(l, ratio), hmem, (inKey_outlierText k l ratio).mpr hbegins⟩

/-! ### Damping -/

/-- The scale without the part of outlier layers. -/
def healthScale (adapter : Adapter S) (health : DeltaHealth S) : S :=
  (if health.verdict = "MODERATELY_CONCENTRATED" then
    adapter.scalingConfig.moderatelyConcentratedScale else 1) *
  if health.normalizedSpectralEntropy < 0.5 then
    adapter.scalingConfig.lowNormalizedEntropyScale else 1

/-- The scale of outlier layers is applied to the key. -/
def appliesOutlierScale (adapter : Adapter S) (key : String) : Bool :=
  adapter.scalingConfig.enabled &&
    adapter.deltaHealth.any fun health => isOutlier health (layerPattern key)

omit [FloorRing S] in
/-- What applying it does to the scale of the key. -/
theorem adaptiveScale_eq [IsStrictOrderedRing S] {adapter : Adapter S} {health : DeltaHealth S}
    (henabled : adapter.scalingConfig.enabled = true)
    (hhealth : adapter.deltaHealth = some health) (key : String) :
    adaptiveScale adapter key = max adapter.scalingConfig.minScale
      (min adapter.scalingConfig.maxScale (healthScale adapter health *
        if appliesOutlierScale adapter key then adapter.scalingConfig.outlierLayerScale
        else 1)) := by
  have hhalf : (0.5 : S) = 1 / 2 := by norm_num
  simp only [adaptiveScale, appliesOutlierScale, healthScale, henabled, hhealth, if_true,
    Bool.true_and, Option.any_some, hhalf]

/-- An adapter with the report of the analyser. -/
theorem appliesOutlierScale_iff {math : HealthMath S} {m : Measurements S} {adapter : Adapter S}
    (henabled : adapter.scalingConfig.enabled = true)
    (hhealth : adapter.deltaHealth = some (m.report math).toDeltaHealth) (key : String) :
    appliesOutlierScale adapter key = true ↔
      ∃ k, layerPattern key = some k ∧ ∃ l, m.IsOutlierLayer l ∧ DecimalPrefix k l := by
  unfold appliesOutlierScale
  rw [henabled, hhealth, Bool.true_and, Option.any_some, isOutlier_report]

variable [IsStrictOrderedRing S]

/-- The scale of outlier layers is applied to the keys of reported layers if
the decimal form of the outlier begins with the number the adapter reads in a
key just for the keys of the outlier. -/
theorem damping_iff {math : HealthMath S} {params : List (String × ShapedMatrix S)}
    {m : Measurements S} (hmeasure : measure math params = .ok m) {adapter : Adapter S}
    (henabled : adapter.scalingConfig.enabled = true)
    (hhealth : adapter.deltaHealth = some (m.report math).toDeltaHealth) (key : String) (n : ℕ) :
    (appliesOutlierScale adapter key = true ↔ m.IsOutlierLayer n) ↔
      ∀ l, m.IsOutlierLayer l → ((∃ k, layerPattern key = some k ∧ DecimalPrefix k l) ↔ l = n) := by
  rw [appliesOutlierScale_iff henabled hhealth key]
  constructor
  · intro h l hl
    constructor
    · rintro ⟨k, hk, hbegins⟩
      exact outlierLayer_unique (nonneg_measure hmeasure) hl (h.mp ⟨k, hk, l, hl, hbegins⟩)
    · rintro rfl
      obtain ⟨k, hk, l', hl', hbegins⟩ := h.mpr hl
      -- there is only one outlier
      rw [outlierLayer_unique (nonneg_measure hmeasure) hl hl']
      exact ⟨k, hk, hbegins⟩
  · intro h
    constructor
    · rintro ⟨k, hk, l, hl, hbegins⟩
      exact (h l hl).mp ⟨k, hk, hbegins⟩ ▸ hl
    · intro hn
      obtain ⟨k, hk, hbegins⟩ := (h n hn).mpr rfl
      exact ⟨k, hk, n, hn, hbegins⟩

end

/-! ### Layers 1 and 12 -/

/-- Exact on diagonal matrices and squares, to first order near one. -/
def diagonalMath : HealthMath ℚ where
  svd W := {
    u := .ofFn W.rows (min W.rows W.cols) fun i j => if i = j then 1 else 0
    s := fun i => W.entry i i
    vh := .ofFn (min W.rows W.cols) W.cols fun i j => if i = j then 1 else 0
    shape_u := ⟨rfl, rfl⟩
    shape_vh := ⟨rfl, rfl⟩ }
  log x := x - 1
  sqrt := Rat.sqrt

def scalarParams (layer : ℕ) (x : ℚ) : List (String × ShapedMatrix ℚ) :=
  [(loraKey s!"layers.{layer}.q_proj" .a, .ofFn 1 1 fun _ _ => x),
    (loraKey s!"layers.{layer}.q_proj" .b, .ofFn 1 1 fun _ _ => 1)]

def layersOneAndTwelve : List (String × ShapedMatrix ℚ) := scalarParams 1 3 ++ scalarParams 12 4

def oneAndTwelve : Measurements ℚ where
  layerEnergy := ⟨[(1, 9), (12, 16)], by decide⟩
  totalFrobNormSq := 25
  entropies := [-600000000030000000000 / 900000000060000000001,
    -1200000000040000000000 / 1600000000080000000001]

theorem measure_layersOneAndTwelve :
    measure diagonalMath layersOneAndTwelve = .ok oneAndTwelve := by decide +kernel

theorem isOutlierLayer_oneAndTwelve (l : ℕ) : oneAndTwelve.IsOutlierLayer l ↔ l = 12 := by
  have htwelve : oneAndTwelve.IsOutlierLayer 12 := ⟨16, rfl, by decide +kernel⟩
  refine ⟨fun h => ?_, fun h => h ▸ htwelve⟩
  exact outlierLayer_unique (nonneg_measure measure_layersOneAndTwelve) h htwelve

/-- An adapter with the report on the two layers. -/
def reportedAdapter : Adapter ℚ where
  kind := .llama3ToQwen2
  source := ⟨4, 1, 8, 1, Nat.one_pos⟩
  target := ⟨4, 1, 8, 1, Nat.one_pos⟩
  targetRank := 1
  deltaHealth := some (oneAndTwelve.report diagonalMath).toDeltaHealth
  projectionMode := "linear"
  scalingConfig := .default ℚ
  piecewiseModules := none
  piecewiseLayers := none
  piecewiseMaxLayers := none

/-- Layer 12 is damped as it should be. -/
theorem damping_layerTwelve :
    (appliesOutlierScale reportedAdapter (loraKey "layers.12.q_proj" .a) = true ↔
      oneAndTwelve.IsOutlierLayer 12) := by
  refine (damping_iff measure_layersOneAndTwelve rfl rfl _ 12).mpr fun l hl => ?_
  rw [isOutlierLayer_oneAndTwelve] at hl
  subst hl
  exact ⟨fun _ => rfl, fun _ => ⟨12, by decide, by decide⟩⟩

/-- Layer 1 is damped as well, though only layer 12 is an outlier. -/
theorem damps_layerOne :
    inKey "layers.1." (loraKey "layers.1.q_proj" .a) = true ∧
      appliesOutlierScale reportedAdapter (loraKey "layers.1.q_proj" .a) = true ∧
      ¬ oneAndTwelve.IsOutlierLayer 1 := by
  refine ⟨by decide, ?_, ?_⟩
  · refine (@appliesOutlierScale_iff ℚ _ _ _ diagonalMath _ _ rfl rfl _).mpr ?_
    exact ⟨1, by decide, 12, (isOutlierLayer_oneAndTwelve 12).mpr rfl, by decide⟩
  · rw [isOutlierLayer_oneAndTwelve]
    decide

end DeltaHealthAnalyzer
