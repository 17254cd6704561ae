/-
Exporting solved weights as a LoRA.

Each solved weight is split along its singular directions into two factors,
which are written under the names of the library with a configuration.  The
library multiplies the factors and scales the product by two numbers of the
configuration.

* `exportLora` — the export;
* `peftUpdate` — what the library makes of it;
* `SvdFactors.truncated` — what the factors stand for;
* `exportLora_update` — by default the update is twice that.
-/
import NeuralScalpel.CropAndPad
import NeuralScalpel.PeftNaming
import Mathlib.GroupTheory.GroupAction.Ring

/-! ### Matrices -/

/-- The matrix with rows and columns exchanged. -/
def ShapedMatrix.transpose {R : Type} [Zero R] (M : ShapedMatrix R) : ShapedMatrix R where
  rows := M.cols
  cols := M.rows
  entry i j := M.entry j i
  support i j h := M.support j i fun hM => h hM.symm

/-- The sum of the first `r` singular directions; missing singular values
count as zero. -/
def SvdFactors.truncated {R : Type} [CommRing R] {W : ShapedMatrix R} (svd : SvdFactors W)
    (r : ℕ) : ShapedMatrix R :=
  .ofFn W.rows W.cols fun i j =>
    ∑ k ∈ Finset.range r, svd.u.entry i k * svd.s k * svd.vh.entry k j

/-! ### The export -/

/-- What the export takes from the tensor library. -/
structure ExportMath (R : Type) [Zero R] where
  svd : ∀ W : ShapedMatrix R, SvdFactors W
  sqrt : R → R

structure ActivationAdapterSolution (R : Type) [Zero R] where
  moduleWeights : Dict String (ShapedMatrix R)
  targetModelId : String
  reconstructionErrors : Dict String R

structure LoraConfig where
  peftType : String
  taskType : String
  r : ℕ
  loraAlpha : ℤ
  targetModules : List String
  bias : String
  deriving DecidableEq, Repr

structure ExportMetadata where
  peftKeyPrefix : String
  adapterName : Option String
  keyStyle : String
  targetModelId : String
  deriving DecidableEq, Repr

structure PeftExportResult (R : Type) [Zero R] where
  loraStateDict : Dict String (ShapedMatrix R)
  config : LoraConfig
  rank : ℕ
  loraAlpha : ℤ
  meanError : R
  metadata : ExportMetadata

/-- The arguments of `export_lora` that only name things. -/
structure ExportNames where
  targetModules : Option (List String)
  peftKeyPrefix : String
  adapterName : Option String
  keyStyle : String

/-- The defaults of these arguments. -/
def ExportNames.default : ExportNames := ⟨none, "base_model.model", none, "peft_default"⟩

section Export

variable {R : Type} [Field R] (math : ExportMath R)

/-- `low_rank_decompose_for_peft`. -/
def lowRankDecomposeForPeft (W : ShapedMatrix R) (rank : ℕ) :
    ShapedMatrix R × ShapedMatrix R :=
  let svd := math.svd W
  let uR := svd.u.takeCols rank
  let vhR := svd.vh.takeRows rank
  (.ofFn uR.cols uR.rows fun i j => math.sqrt (svd.s i) * uR.entry j i,
    .ofFn vhR.cols vhR.rows fun i j => vhR.entry j i * math.sqrt (svd.s j))

/-- The loop over the modules. -/
def exportModules (rank : ℕ) (names : ExportNames) : List (String × ShapedMatrix R) →
    Dict String (ShapedMatrix R) → Except PyError (Dict String (ShapedMatrix R))
  | [], loraStateDict => .ok loraStateDict
  | e :: entries, loraStateDict => do
    let factors := lowRankDecomposeForPeft math e.2 rank
    let keyA ← buildPeftLoraKey e.1 .a names.peftKeyPrefix names.adapterName names.keyStyle
    let keyB ← buildPeftLoraKey e.1 .b names.peftKeyPrefix names.adapterName names.keyStyle
    exportModules rank names entries ((loraStateDict.set keyA factors.1).set keyB factors.2)

/-- `target_modules or list(solution.module_weights.keys())`. -/
def targetModulesOr (targetModules : Option (List String)) (keys : List String) : List String :=
  match targetModules with
  | none => keys
  | some [] => keys
  | some modules => modules

/-- `sum(errors.values()) / len(errors)`. -/
def meanError (errors : Dict String R) : Except PyError R :=
  if errors.isEmpty then .error (.external "ZeroDivisionError: division by zero")
  else .ok ((errors.entries.map Prod.snd).sum / (errors.entries.length : R))

/-- `export_lora`. -/
def exportLora (solution : ActivationAdapterSolution R) (rank : ℕ) (loraAlpha : Option ℤ)
    (names : ExportNames) : Except PyError (PeftExportResult R) := do
  if solution.moduleWeights.isEmpty then
    throw (.runtimeError "No modules were successfully solved in the solution.")
  let loraAlpha := loraAlpha.getD (rank * 2)
  let loraStateDict ← exportModules math rank names solution.moduleWeights.entries .empty
  let meanErr ← meanError solution.reconstructionErrors
  pure {
    loraStateDict := loraStateDict
    config := {
      peftType := "LORA"
      taskType := "CAUSAL_LM"
      r := rank
      loraAlpha := loraAlpha
      targetModules := targetModulesOr names.targetModules solution.moduleWeights.keys
      bias := "none" }
    rank := rank
    loraAlpha := loraAlpha
    meanError := meanErr
    metadata := ⟨names.peftKeyPrefix, names.adapterName, names.keyStyle, solution.targetModelId⟩ }

end Export

/-- The update the library applies for a pair: `lora_alpha / r * B @ A`. -/
def peftUpdate {R : Type} [Field R] (config : LoraConfig) (a b : ShapedMatrix R) :
    ShapedMatrix R :=
  (b.mul a).scale ((config.loraAlpha : R) / (config.r : R))

/-! ### Names -/

/-- All names of a style have the same frame. -/
def framedKey (head tail moduleName : String) (half : LoraHalf) : String :=
  head ++ moduleName ++ ".lora_" ++ half.letter ++ tail

theorem buildPeftLoraKey_framed {names : ExportNames}
    (hstyle : names.keyStyle ∈ ["peft_default", "peft_named", "raw"]) :
    ∃ head tail, ∀ moduleName half,
      buildPeftLoraKey moduleName half names.peftKeyPrefix names.adapterName names.keyStyle =
        .ok (framedKey head tail moduleName half) := by
  simp only [List.mem_cons, List.not_mem_nil, or_false] at hstyle
  rcases hstyle with hstyle | hstyle | hstyle
  · refine ⟨names.peftKeyPrefix ++ ".", ".weight", fun moduleName half => ?_⟩
    rw [hstyle]
    rfl
  · refine ⟨names.peftKeyPrefix ++ ".", "." ++ adapterOrDefault names.adapterName ++ ".weight",
      fun moduleName half => ?_⟩
    rw [hstyle]
    simp only [buildPeftLoraKey, framedKey, String.append_assoc]
    rfl
  · refine ⟨"", ".weight", fun moduleName half => ?_⟩
    rw [hstyle, framedKey, String.empty_append]
    rfl

/-- Tensors of different modules or halves have different names. -/
theorem framedKey_inj {head tail m m' : String} {half half' : LoraHalf}
    (h : framedKey head tail m half = framedKey head tail m' half') : m = m' ∧ half = half' := by
  have hlist := congrArg String.toList h
  simp only [framedKey, String.toList_append, List.append_assoc] at hlist
  have hletter : half.letter.toList.length = half'.letter.toList.length := by
    cases half <;> cases half' <;> rfl
  obtain ⟨hmodule, hrest⟩ := List.append_inj' (List.append_cancel_left hlist) (by
    rw [List.length_append, List.length_append, List.length_append, List.length_append, hletter])
  refine ⟨String.toList_inj.mp hmodule, ?_⟩
  have hhalf := String.toList_inj.mp (List.append_cancel_right (List.append_cancel_left hrest))
  cases half <;> cases half' <;> first | rfl | exact absurd hhalf (by decide)

/-! ### What is written -/

section Written

variable {R : Type} [Field R] (math : ExportMath R) (rank : ℕ)

/-- The tensors of one module, under their names. -/
def moduleWrites (head tail : String)
    (e : String × ShapedMatrix R) : List (String × ShapedMatrix R) :=
  [(framedKey head tail e.1 .a, (lowRankDecomposeForPeft math e.2 rank).1),
    (framedKey head tail e.1 .b, (lowRankDecomposeForPeft math e.2 rank).2)]

/-- The loop writes the tensors of each module in turn. -/
theorem exportModules_eq {names : ExportNames} {head tail : String}
    (hframe : ∀ moduleName half,
      buildPeftLoraKey moduleName half names.peftKeyPrefix names.adapterName names.keyStyle =
        .ok (framedKey head tail moduleName half))
    (entries : List (String × ShapedMatrix R)) (writes : List (String × ShapedMatrix R)) :
    exportModules math rank names entries (.ofWrites writes) =
      .ok (.ofWrites (writes ++ entries.flatMap (moduleWrites math rank head tail))) := by
  induction entries generalizing writes with
  | nil => rw [exportModules, List.flatMap_nil, List.append_nil]
  | cons e entries ih =>
    have hwrite : ((Dict.ofWrites writes).set (framedKey head tail e.1 .a)
        (lowRankDecomposeForPeft math e.2 rank).1).set (framedKey head tail e.1 .b)
        (lowRankDecomposeForPeft math e.2 rank).2 =
          Dict.ofWrites (writes ++ moduleWrites math rank head tail e) := by
      rw [moduleWrites, List.append_cons, Dict.ofWrites_append_singleton,
        Dict.ofWrites_append_singleton]
    rw [exportModules, hframe, hframe]
    show exportModules math rank names entries _ = _
    rw [hwrite, ih, List.flatMap_cons, List.append_assoc]

/-- No name is written twice. -/
theorem nodup_moduleWrites (head tail : String)
    {entries : List (String × ShapedMatrix R)} (hnodup : (entries.map Prod.fst).Nodup) :
    ((entries.flatMap (moduleWrites math rank head tail)).map Prod.fst).Nodup := by
  have hne : ∀ m, framedKey head tail m .a ≠ framedKey head tail m .b := by
    intro m h
    cases (framedKey_inj h).2
  rw [List.map_flatMap, List.nodup_flatMap]
  constructor
  · rintro ⟨m, W⟩ -
    simpa [moduleWrites] using hne m
  · refine (List.pairwise_map.mp hnodup).imp fun {e e'} hmodules => ?_
    -- a common name would be one of the same module
    intro key hkey hkey'
    simp only [moduleWrites, List.map_cons, List.map_nil, List.mem_cons, List.not_mem_nil,
      or_false] at hkey hkey'
    rcases hkey with rfl | rfl <;> rcases hkey' with h | h <;>
      exact hmodules (framedKey_inj h).1

end Written

/-! ### The update -/

section Update

variable {R : Type} [Field R] (math : ExportMath R)

/-- The two factors multiply to the first singular directions, transposed. -/
theorem mul_lowRankDecompose {W : ShapedMatrix R} (rank : ℕ)
    (hsqrt : ∀ k < min W.rows W.cols,
      math.sqrt ((math.svd W).s k) * math.sqrt ((math.svd W).s k) = (math.svd W).s k) :
    (lowRankDecomposeForPeft math W rank).2.mul (lowRankDecomposeForPeft math W rank).1 =
      ((math.svd W).truncated rank).transpose := by
  set svd := math.svd W with hsvd
  obtain ⟨hurows, hucols⟩ := svd.shape_u
  obtain ⟨hvrows, hvcols⟩ := svd.shape_vh
  refine ShapedMatrix.ext hvcols hurows fun i j => ?_
  show ∑ k ∈ Finset.range (svd.vh.takeRows rank).rows,
      (if i < svd.vh.cols ∧ k < min rank svd.vh.rows then
        (svd.vh.takeRows rank).entry k i * math.sqrt (svd.s k) else 0) *
      (if k < min rank svd.u.cols ∧ j < svd.u.rows then
        math.sqrt (svd.s k) * (svd.u.takeCols rank).entry j k else 0) =
    if j < W.rows ∧ i < W.cols then
      ∑ k ∈ Finset.range rank, svd.u.entry j k * svd.s k * svd.vh.entry k i else 0
  rw [ShapedMatrix.rows_takeRows, hvrows, hvcols, hurows, hucols]
  by_cases hin : j < W.rows ∧ i < W.cols
  · rw [if_pos hin]
    -- beyond the directions there are, the sum has only zeros
    have hdirections : ∑ k ∈ Finset.range (min rank (min W.rows W.cols)),
        svd.u.entry j k * svd.s k * svd.vh.entry k i =
          ∑ k ∈ Finset.range rank, svd.u.entry j k * svd.s k * svd.vh.entry k i := by
      refine Finset.sum_subset (Finset.range_mono (min_le_left _ _)) fun k hk hmin => ?_
      have hcols : svd.u.cols ≤ k := by
        rw [Finset.mem_range] at hk hmin
        omega
      rw [ShapedMatrix.entry_eq_zero (Or.inr hcols), zero_mul, zero_mul]
    rw [← hdirections]
    refine Finset.sum_congr rfl fun k hk => ?_
    have hk' : k < min rank (min W.rows W.cols) := Finset.mem_range.mp hk
    obtain ⟨hrank, hmin⟩ := lt_min_iff.mp hk'
    rw [if_pos ⟨hin.2, hk'⟩, if_pos ⟨hk', hin.1⟩, ShapedMatrix.entry_takeRows, if_pos hrank,
      ShapedMatrix.entry_takeCols, if_pos hrank]
    calc svd.vh.entry k i * math.sqrt (svd.s k) * (math.sqrt (svd.s k) * svd.u.entry j k)
        = svd.u.entry j k * (math.sqrt (svd.s k) * math.sqrt (svd.s k)) * svd.vh.entry k i := by
          ring
      _ = svd.u.entry j k * svd.s k * svd.vh.entry k i := by rw [hsqrt k hmin]
  · rw [if_neg hin]
    refine Finset.sum_eq_zero fun k _ => ?_
    rcases not_and_or.mp hin with hj | hi
    · rw [@if_neg (k < min rank (min W.rows W.cols) ∧ j < W.rows) _ fun h => hj h.2, mul_zero]
    · rw [@if_neg (i < W.cols ∧ k < min rank (min W.rows W.cols)) _ fun h => hi h.1, zero_mul]

/-- The pair of a module in what was exported. -/
def WrittenPair (result : PeftExportResult R) (names : ExportNames) (moduleName : String)
    (a b : ShapedMatrix R) : Prop :=
  ∃ keyA keyB,
    buildPeftLoraKey moduleName .a names.peftKeyPrefix names.adapterName names.keyStyle =
        .ok keyA ∧
      buildPeftLoraKey moduleName .b names.peftKeyPrefix names.adapterName names.keyStyle =
        .ok keyB ∧
      result.loraStateDict.get? keyA = some a ∧ result.loraStateDict.get? keyB = some b

/-- The export succeeds and writes the factors of every module. -/
theorem exportLora_spec (solution : ActivationAdapterSolution R) {names : ExportNames}
    (hmodules : solution.moduleWeights.isEmpty = false)
    (herrors : solution.reconstructionErrors.isEmpty = false)
    (hstyle : names.keyStyle ∈ ["peft_default", "peft_named", "raw"]) (rank : ℕ)
    (loraAlpha : Option ℤ) :
    ∃ result, exportLora math solution rank loraAlpha names = .ok result ∧
      result.config.r = rank ∧ result.config.loraAlpha = loraAlpha.getD (rank * 2) ∧
      ∀ name W, solution.moduleWeights.get? name = some W →
        WrittenPair result names name (lowRankDecomposeForPeft math W rank).1
          (lowRankDecomposeForPeft math W rank).2 := by
  obtain ⟨head, tail, hframe⟩ := buildPeftLoraKey_framed hstyle
  have hloop := exportModules_eq math rank hframe solution.moduleWeights.entries []
  have hmean : meanError solution.reconstructionErrors =
      .ok ((solution.reconstructionErrors.entries.map Prod.snd).sum /
        (solution.reconstructionErrors.entries.length : R)) :=
    if_neg (Bool.eq_false_iff.mp herrors)
  have hrun : ∃ result, exportLora math solution rank loraAlpha names = .ok result ∧
      result.config.r = rank ∧ result.config.loraAlpha = loraAlpha.getD (rank * 2) ∧
      result.loraStateDict = .ofWrites
        (solution.moduleWeights.entries.flatMap (moduleWrites math rank head tail)) := by
    unfold exportLora
    rw [hmodules, hmean, show (Dict.empty : Dict String (ShapedMatrix R)) = .ofWrites [] from rfl,
      hloop]
    exact ⟨_, rfl, rfl, rfl, rfl⟩
  obtain ⟨result, hok, hr, halpha, hwritten⟩ := hrun
  refine ⟨result, hok, hr, halpha, fun name W hget => ?_⟩
  have hmem : (name, W) ∈ solution.moduleWeights.entries := Dict.mem_entries_iff.mpr hget
  have hnodup := nodup_moduleWrites math rank head tail solution.moduleWeights.nodup
  refine ⟨_, _, hframe name .a, hframe name .b, ?_, ?_⟩ <;>
    · rw [hwritten, Dict.get?_ofWrites hnodup]
      refine List.mem_flatMap.mpr ⟨_, hmem, ?_⟩
      simp [moduleWrites]

variable [CharZero R]

/-- By default the update of a module is twice the transpose of its first
`rank` singular directions. -/
theorem exportLora_update (solution : ActivationAdapterSolution R) (names : ExportNames)
    (herrors : ∀ name, solution.moduleWeights.contains name = true →
      solution.reconstructionErrors.contains name = true)
    (hstyle : names.keyStyle ∈ ["peft_default", "peft_named", "raw"]) {rank : ℕ} (hrank : 1 ≤ rank)
    {name : String} {W : ShapedMatrix R} (hget : solution.moduleWeights.get? name = some W)
    (hsqrt : ∀ k < min W.rows W.cols,
      math.sqrt ((math.svd W).s k) * math.sqrt ((math.svd W).s k) = (math.svd W).s k) :
    ∃ result a b, exportLora math solution rank none names = .ok result ∧
      WrittenPair result names name a b ∧ a.cols = W.rows ∧ b.rows = W.cols ∧
      (rank ≤ min W.rows W.cols → a.rows = rank ∧ b.cols = rank) ∧
      peftUpdate result.config a b = ((math.svd W).truncated rank).transpose.scale (2 : R) := by
  have hmodule : solution.moduleWeights.contains name = true := Dict.contains_iff.mpr ⟨W, hget⟩
  obtain ⟨result, hok, hr, halpha, hwritten⟩ := exportLora_spec math solution
    (Dict.isEmpty_eq_false hmodule) (Dict.isEmpty_eq_false (herrors name hmodule)) hstyle rank none
  refine ⟨result, _, _, hok, hwritten name W hget, (math.svd W).shape_u.1, (math.svd W).shape_vh.2,
    fun hle => ⟨?_, ?_⟩, ?_⟩
  · show min rank (math.svd W).u.cols = rank
    rw [(math.svd W).shape_u.2, min_eq_left hle]
  · show min rank (math.svd W).vh.rows = rank
    rw [(math.svd W).shape_vh.1, min_eq_left hle]
  · have hne : (rank : R) ≠ 0 := Nat.cast_ne_zero.mpr (by omega)
    have hscaling : (result.config.loraAlpha : R) / (result.config.r : R) = 2 := by
      rw [hr, halpha, Option.getD_none]
      push_cast
      rw [mul_comm, mul_div_cancel_right₀ _ hne]
    rw [peftUpdate, hscaling, mul_lowRankDecompose math rank hsqrt]

end Update

/-! ### Two directions, and one number -/

/-- The export with the decompositions of `sampleTorch`. -/
def sampleExportMath : ExportMath ℚ := ⟨sampleTorch.svd, sampleTorch.sqrt⟩

/-- The singular values are four and one. -/
def squaresWeight : ShapedMatrix ℚ := .ofFn 3 2 fun i j => if i = j then 4 - 3 * (i : ℚ) else 0

def squaresSolution : ActivationAdapterSolution ℚ where
  moduleWeights := .ofWrites [("model.layers.0.mlp.down_proj", squaresWeight)]
  targetModelId := "target"
  reconstructionErrors := .ofWrites [("model.layers.0.mlp.down_proj", 0)]

/-- At rank one the second direction is left out. -/
theorem squaresSolution_update :
    ∃ result a b, exportLora sampleExportMath squaresSolution 1 none .default = .ok result ∧
      WrittenPair result .default "model.layers.0.mlp.down_proj" a b ∧ a.cols = 3 ∧ b.rows = 2 ∧
      (1 ≤ min 3 2 → a.rows = 1 ∧ b.cols = 1) ∧
      peftUpdate result.config a b =
        ((sampleExportMath.svd squaresWeight).truncated 1).transpose.scale (2 : ℚ) := by
  refine exportLora_update sampleExportMath squaresSolution .default ?_ (by decide) le_rfl
    (Dict.get?_set_self _ _ _) ?_
  · intro name hname
    rw [← Dict.mem_keys_iff] at hname ⊢
    exact hname
  · have hroots : ∀ k < 2, Rat.sqrt (squaresWeight.entry k k) * Rat.sqrt (squaresWeight.entry k k) =
        squaresWeight.entry k k := by decide +kernel
    exact hroots

/-- A solution of one module with one weight. -/
def scalarSolution : ActivationAdapterSolution ℚ where
  moduleWeights := .ofWrites [("model.layers.0.mlp.down_proj", .ofFn 1 1 fun _ _ => 1)]
  targetModelId := "target"
  reconstructionErrors := .ofWrites [("model.layers.0.mlp.down_proj", 0)]

theorem get?_scalarSolution :
    scalarSolution.moduleWeights.get? "model.layers.0.mlp.down_proj" =
      some (.ofFn 1 1 fun _ _ => 1) := Dict.get?_set_self _ _ _

/-- The names and the module determine the pair. -/
theorem WrittenPair.unique {R : Type} [Field R] {result : PeftExportResult R} {names : ExportNames}
    {name : String} {a b a' b' : ShapedMatrix R} (h : WrittenPair result names name a b)
    (h' : WrittenPair result names name a' b') : a = a' ∧ b = b' := by
  obtain ⟨keyA, keyB, hkeyA, hkeyB, ha, hb⟩ := h
  obtain ⟨keyA', keyB', hkeyA', hkeyB', ha', hb'⟩ := h'
  cases hkeyA.symm.trans hkeyA'
  cases hkeyB.symm.trans hkeyB'
  exact ⟨Option.some.inj (ha.symm.trans ha'), Option.some.inj (hb.symm.trans hb')⟩

/-- What is written for the one weight. -/
theorem scalarSolution_written {rank : ℕ} {result : PeftExportResult ℚ} {a b : ShapedMatrix ℚ}
    (hok : exportLora sampleExportMath scalarSolution rank none .default = .ok result)
    (hpair : WrittenPair result .default "model.layers.0.mlp.down_proj" a b) :
    result.config.r = rank ∧ result.config.loraAlpha = rank * 2 ∧
      a = (lowRankDecomposeForPeft sampleExportMath (.ofFn 1 1 fun _ _ => 1) rank).1 ∧
      b = (lowRankDecomposeForPeft sampleExportMath (.ofFn 1 1 fun _ _ => 1) rank).2 := by
  have hstyle : ExportNames.default.keyStyle ∈ ["peft_default", "peft_named", "raw"] := by decide
  obtain ⟨result', hok', hr, halpha, hwritten⟩ :=
    exportLora_spec sampleExportMath scalarSolution rfl rfl hstyle rank none
  cases hok.symm.trans hok'
  exact ⟨hr, halpha, hpair.unique (hwritten _ _ get?_scalarSolution)⟩

/-- The weight is one, and the update two; at rank two the factors have one
row and one column. -/
theorem scalar_doubled :
    (¬∃ result a b, exportLora sampleExportMath scalarSolution 1 none .default = .ok result ∧
      WrittenPair result .default "model.layers.0.mlp.down_proj" a b ∧ a.rows = 1 ∧ a.cols = 1 ∧
      b.rows = 1 ∧ b.cols = 1 ∧
      peftUpdate result.config a b =
        ((sampleExportMath.svd (.ofFn 1 1 fun _ _ => 1)).truncated 1).transpose) ∧
    ¬∃ result a b, exportLora sampleExportMath scalarSolution 2 none .default = .ok result ∧
      WrittenPair result .default "model.layers.0.mlp.down_proj" a b ∧ a.rows = 2 ∧
      b.cols = 2 := by
  constructor
  · rintro ⟨result, a, b, hok, hpair, -, -, -, -, hupdate⟩
    obtain ⟨hr, halpha, rfl, rfl⟩ := scalarSolution_written hok hpair
    have hentry := congrArg (fun M => M.entry 0 0) hupdate
    simp only [peftUpdate, hr, halpha] at hentry
    exact absurd hentry (by decide +kernel)
  · rintro ⟨result, a, b, hok, hpair, hrows, -⟩
    obtain ⟨-, -, rfl, -⟩ := scalarSolution_written hok hpair
    exact absurd hrows (by decide)
