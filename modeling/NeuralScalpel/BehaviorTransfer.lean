/-
Transfer of a behaviour from model to model.

The activations that an adapter shifts in one model are collected prompt by
prompt, mapped to another model along an alignment that was learnt from
activations of both, and solved for in the weights of the other.

* `pipeline_tidy` — no stage, returning or raising, leaves a hook behind;
* `extract_shifts` — each row of a delta is the shift on one prompt;
* `extract_shared` — a module that both models share shows no shift;
* `transfer_weights` — what is solved for in the end: the best weights from the
  inputs of a module to the shifts along the best map.
-/
import NeuralScalpel.AdapterSolving
import NeuralScalpel.HookCollector
import NeuralScalpel.Runs

open Effect

/-! ### Rows of matrices -/

namespace ShapedMatrix

variable {R : Type}

/-- The size of a dimension in which one of two operands may be repeated. -/
def broadcastSize (a b : ℕ) : Option ℕ :=
  if a = b then some a else if a = 1 then some b else if b = 1 then some a else none

def sizesDiffer (a b dimension : ℕ) : PyError :=
  .runtimeError (s!"The size of tensor a ({a}) must match the size of tensor b ({b}) " ++
    s!"at non-singleton dimension {dimension}")

/-- An entry of a matrix of which a single row or column is repeated. -/
def repeated [Zero R] (M : ShapedMatrix R) (i j : ℕ) : R :=
  M.entry (if M.rows = 1 then 0 else i) (if M.cols = 1 then 0 else j)

/-- `a - b`. -/
def sub? [Zero R] [Sub R] (A B : ShapedMatrix R) : Except PyError (ShapedMatrix R) :=
  match broadcastSize A.cols B.cols, broadcastSize A.rows B.rows with
  | none, _ => .error (sizesDiffer A.cols B.cols 1)
  | some _, none => .error (sizesDiffer A.rows B.rows 0)
  | some cols, some rows => .ok (.ofFn rows cols fun i j => A.repeated i j - B.repeated i j)

/-- Matrices of equally many rows are subtracted row by row. -/
theorem sub?_rowBlock [Zero R] [Sub R] {A B D : ShapedMatrix R} (hrows : A.rows = B.rows)
    (h : A.sub? B = .ok D) {i : ℕ} (hi : i < A.rows) :
    D.rows = A.rows ∧ (A.rowBlock i 1).sub? (B.rowBlock i 1) = .ok (D.rowBlock i 1) := by
  have hsame : broadcastSize A.rows B.rows = some A.rows := if_pos hrows
  have hone : broadcastSize 1 1 = some 1 := rfl
  unfold sub? at h ⊢
  rw [hsame] at h
  show _ ∧ (match broadcastSize A.cols B.cols, broadcastSize 1 1 with
    | none, _ => _
    | some _, none => _
    | some _, some _ => _) = _
  rw [hone]
  cases hcols : broadcastSize A.cols B.cols with
  | none =>
    rw [hcols] at h
    cases h
  | some cols =>
    rw [hcols] at h
    cases h
    have hrepeated : ∀ M : ShapedMatrix R, M.rows = A.rows → ∀ j, j < cols →
        (M.cols = 1 ∨ cols = M.cols) → (M.rowBlock i 1).repeated 0 j = M.repeated i j := by
      intro M hM j hj hwidth
      have hin : (if M.cols = 1 then 0 else j) < M.cols := by
        split_ifs with h1
        · rw [h1]
          exact Nat.one_pos
        · exact (hwidth.resolve_left h1) ▸ hj
      have hrow : i = if M.rows = 1 then 0 else i := by
        split_ifs with h1
        · rw [hM] at h1
          rw [h1] at hi
          exact Nat.lt_one_iff.mp hi
        · rfl
      show (M.rowBlock i 1).entry 0 (if M.cols = 1 then 0 else j) = _
      rw [entry_rowBlock, if_pos ⟨Nat.one_pos, hin⟩, Nat.add_zero]
      unfold repeated
      rw [← hrow]
    have hwidths : (A.cols = 1 ∨ cols = A.cols) ∧ (B.cols = 1 ∨ cols = B.cols) := by
      unfold broadcastSize at hcols
      split_ifs at hcols with h1 h2 h3 <;> cases hcols
      · exact ⟨.inr rfl, .inr h1⟩
      · exact ⟨.inl h2, .inr rfl⟩
      · exact ⟨.inr rfl, .inl h3⟩
    refine ⟨rfl, congrArg Except.ok (ext rfl rfl fun i' j => ?_)⟩
    rw [entry_rowBlock]
    show (if i' < 1 ∧ j < cols then _ else _) = if i' < 1 ∧ j < cols then
      (if i + i' < A.rows ∧ j < cols then _ else _) else _
    split_ifs with hin hrow
    · obtain rfl : i' = 0 := Nat.lt_one_iff.mp hin.1
      rw [hrepeated A rfl j hin.2 hwidths.1, hrepeated B hrows.symm j hin.2 hwidths.2, Nat.add_zero]
    · obtain rfl : i' = 0 := Nat.lt_one_iff.mp hin.1
      exact absurd ⟨hi, hin.2⟩ hrow
    · rfl

/-- A row of a product is the row times the other factor. -/
theorem rowBlock_mul [CommRing R] (D P : ShapedMatrix R) (i : ℕ) :
    (D.mul P).rowBlock i 1 = (D.rowBlock i 1).mul P := by
  refine ext rfl rfl fun i' j => ?_
  rw [entry_rowBlock]
  show (if i' < 1 ∧ j < P.cols then _ else _) =
    ∑ k ∈ Finset.range D.cols, (D.rowBlock i 1).entry i' k * P.entry k j
  split_ifs with hin
  · obtain rfl : i' = 0 := Nat.lt_one_iff.mp hin.1
    show ∑ k ∈ Finset.range D.cols, D.entry (i + 0) k * P.entry k j = _
    refine Finset.sum_congr rfl fun k hk => ?_
    rw [entry_rowBlock, if_pos ⟨Nat.one_pos, Finset.mem_range.mp hk⟩]
  · refine (Finset.sum_eq_zero fun k hk => ?_).symm
    rw [entry_rowBlock]
    split_ifs with hrow
    · rw [P.support k j fun hP => hin ⟨hrow.1, hP.2⟩, mul_zero]
    · rw [zero_mul]

end ShapedMatrix

namespace BehaviorTransfer

open HookCollector
open AdapterSolving (BestMap MappedFrom SolveFn SolvesSystems deltaKey matrixLib moduleWeights_iff
  solveRidge)
open Alignment (AlignmentMap activationsOf transportDelta)

variable {ι R Input : Type} [DecidableEq ι]

/-! ### The stages -/

/-- Format a prompt if there is a formatter, and tokenise it. -/
def encodePrompt (tokenizer : String → Except PyError Input)
    (promptFormatter : Option (String → Except PyError String)) (prompt : String) :
    Except PyError Input := do
  let text ← match promptFormatter with
    | some format => format prompt
    | none => pure prompt
  tokenizer text

structure BehavioralDelta (R : Type) [Zero R] where
  layerDeltas : Dict String (ShapedMatrix R)
  sourceModelId : String
  numPrompts : ℕ
  layers : List String
  promptFormatting : Bool

/-- `adapted_acts[layer] - base_acts[layer]`. -/
def layerDelta [Zero R] [Sub R] (baseActs adaptedActs : Dict String (ShapedMatrix R))
    (layer : String) : Except PyError (ShapedMatrix R) := do
  let adapted ← activationsOf adaptedActs layer
  let base ← activationsOf baseActs layer
  adapted.sub? base

def extractBehaviorDelta [Zero R] [Sub R] (baseModel adaptedModel : TorchModel ι R Input)
    (prompts : List String) (tokenizer : String → Except PyError Input) (layers : List String)
    (promptFormatter : Option (String → Except PyError String)) :
    WorldM ι R (BehavioralDelta R) := do
  if prompts.isEmpty then throw (.valueError "prompts must not be empty.")
  else if layers.isEmpty then throw (.valueError "layers must not be empty.")
  else
    let (baseActs, adaptedActs) ← collectBoth baseModel adaptedModel layers layers
      (encodePrompt tokenizer promptFormatter) prompts
    let deltas ← Effect.ofExcept (Dict.ofKeys (layerDelta baseActs adaptedActs) layers)
    pure ⟨deltas, baseModel.nameOrPath.getD "unknown", prompts.length, layers,
      promptFormatter.isSome⟩

section Stages

variable {K S : Type} [Field K] [LinearOrder S]

/-- `align`, with the collecting: the checks come first, and hold when they
come again. -/
def align (sourceModel targetModel : TorchModel ι K Input) (calibrationPrompts : List String)
    (tokenizer : String → Except PyError Input) (sourceLayers targetLayers : List String)
    (method : String) (promptFormatter : Option (String → Except PyError String))
    (autoCorrespondence : Bool) (correspondenceMethod : String)
    (cka : ShapedMatrix K → ShapedMatrix K → S) (solve : SolveFn K) :
    WorldM ι K (AlignmentMap (ShapedMatrix K)) := do
  if calibrationPrompts.isEmpty then
    throw (.valueError "calibration_prompts must not be empty.")
  else if sourceLayers.isEmpty || targetLayers.isEmpty then
    throw (.valueError "source_layers and target_layers must not be empty.")
  else if !autoCorrespondence && sourceLayers.length != targetLayers.length then
    throw (.valueError ("Source and target layer lists must match in length unless " ++
      "auto_correspondence=True."))
  else
    let (sourceActs, targetActs) ← collectBoth sourceModel targetModel sourceLayers targetLayers
      (encodePrompt tokenizer promptFormatter) calibrationPrompts
    Effect.ofExcept (AdapterSolving.align (matrixLib K) calibrationPrompts sourceLayers targetLayers
      method autoCorrespondence correspondenceMethod cka (solveRidge solve · · 1) sourceActs
      targetActs)

/-- `solve_activation_adapter`, with the collecting. -/
def solveActivationAdapter (solve : SolveFn K) (sqrt : K → K) (targetModel : TorchModel ι K Input)
    (desiredDelta : Dict String (ShapedMatrix K)) (targetModelId : String) (prompts : List String)
    (tokenizer : String → Except PyError Input) (targetModules : List String)
    (moduleToDeltaLayer : Option (Dict String String))
    (promptFormatter : Option (String → Except PyError String)) (strict : Bool) :
    WorldM ι K (ActivationAdapterSolution K × List String × List String) := do
  if prompts.isEmpty then throw (.valueError "prompts must not be empty.")
  else if targetModules.isEmpty then throw (.valueError "target_modules must not be empty.")
  else
    let inputsStacked ← collectOne targetModel targetModules
      (encodePrompt tokenizer promptFormatter) prompts
    Effect.ofExcept (AdapterSolving.solveActivationAdapter solve sqrt prompts targetModules
      inputsStacked desiredDelta targetModelId moduleToDeltaLayer strict)

/-! ### No hook is left behind -/

theorem tidy_align (sourceModel targetModel : TorchModel ι K Input)
    (calibrationPrompts : List String) (tokenizer : String → Except PyError Input)
    (sourceLayers targetLayers : List String) (method : String)
    (promptFormatter : Option (String → Except PyError String)) (autoCorrespondence : Bool)
    (correspondenceMethod : String) (cka : ShapedMatrix K → ShapedMatrix K → S)
    (solve : SolveFn K) :
    Keeps Tidy (align sourceModel targetModel calibrationPrompts tokenizer sourceLayers targetLayers
      method promptFormatter autoCorrespondence correspondenceMethod cka solve) :=
  .ite (fun _ => .throw _) fun _ => .ite (fun _ => .throw _) fun _ =>
    .ite (fun _ => .throw _) fun _ =>
      .bind (tidy_collectBoth _ _ _ _ _ _) fun _ => .ofExcept _

omit [LinearOrder S] in
theorem tidy_extract (baseModel adaptedModel : TorchModel ι K Input) (prompts : List String)
    (tokenizer : String → Except PyError Input) (layers : List String)
    (promptFormatter : Option (String → Except PyError String)) :
    Keeps Tidy (extractBehaviorDelta baseModel adaptedModel prompts tokenizer layers
      promptFormatter) :=
  .ite (fun _ => .throw _) fun _ => .ite (fun _ => .throw _) fun _ =>
    .bind (tidy_collectBoth _ _ _ _ _ _) fun _ => .bind (.ofExcept _) fun _ => .pure _

omit [LinearOrder S] in
theorem tidy_solve (solve : SolveFn K) (sqrt : K → K) (targetModel : TorchModel ι K Input)
    (desiredDelta : Dict String (ShapedMatrix K)) (targetModelId : String) (prompts : List String)
    (tokenizer : String → Except PyError Input) (targetModules : List String)
    (moduleToDeltaLayer : Option (Dict String String))
    (promptFormatter : Option (String → Except PyError String)) (strict : Bool) :
    Keeps Tidy (solveActivationAdapter solve sqrt targetModel desiredDelta targetModelId prompts
      tokenizer targetModules moduleToDeltaLayer promptFormatter strict) :=
  .ite (fun _ => .throw _) fun _ => .ite (fun _ => .throw _) fun _ =>
    .bind (tidy_collectOne _ _ _ _) fun _ => .ofExcept _

/-- A stage of the transfer that runs models, with what it is given. -/
inductive Stage (ι K Input : Type) [Field K]
  | align (sourceModel targetModel : TorchModel ι K Input) (calibrationPrompts : List String)
    (tokenizer : String → Except PyError Input) (sourceLayers targetLayers : List String)
    (method : String) (promptFormatter : Option (String → Except PyError String))
    (autoCorrespondence : Bool) (correspondenceMethod : String)
  | extract (baseModel adaptedModel : TorchModel ι K Input) (prompts : List String)
    (tokenizer : String → Except PyError Input) (layers : List String)
    (promptFormatter : Option (String → Except PyError String))
  | solve (targetModel : TorchModel ι K Input) (desiredDelta : Dict String (ShapedMatrix K))
    (targetModelId : String) (prompts : List String) (tokenizer : String → Except PyError Input)
    (targetModules : List String) (moduleToDeltaLayer : Option (Dict String String))
    (promptFormatter : Option (String → Except PyError String)) (strict : Bool)

/-- Perform a stage, and drop what it returns. -/
def perform (solve : SolveFn K) (sqrt : K → K) (cka : ShapedMatrix K → ShapedMatrix K → S) :
    Stage ι K Input → WorldM ι K Unit
  | .align source target prompts tokenizer sourceLayers targetLayers method formatter auto
      correspondence => (fun _ => ()) <$> align source target prompts tokenizer sourceLayers
        targetLayers method formatter auto correspondence cka solve
  | .extract base adapted prompts tokenizer layers formatter =>
    (fun _ => ()) <$> extractBehaviorDelta base adapted prompts tokenizer layers formatter
  | .solve target delta targetModelId prompts tokenizer modules moduleToDeltaLayer formatter
      strict =>
    (fun _ => ()) <$> solveActivationAdapter solve sqrt target delta targetModelId prompts tokenizer
      modules moduleToDeltaLayer formatter strict

theorem tidy_perform (solve : SolveFn K) (sqrt : K → K)
    (cka : ShapedMatrix K → ShapedMatrix K → S) (stage : Stage ι K Input) :
    Keeps Tidy (perform solve sqrt cka stage) := by
  cases stage with
  | align => exact .map _ (tidy_align _ _ _ _ _ _ _ _ _ _ _ _)
  | extract => exact .map _ (tidy_extract _ _ _ _ _ _)
  | solve => exact .map _ (tidy_solve _ _ _ _ _ _ _ _ _ _ _)

/-- **No stage leaves a hook behind.**  After any stages, each of which may
return or raise, on models that may share modules, every module has the hooks
it had, and no earlier collector has lost or gained one. -/
theorem pipeline_tidy (solve : SolveFn K) (sqrt : K → K)
    (cka : ShapedMatrix K → ShapedMatrix K → S) (stages : List (Stage ι K Input))
    (w : World ι K) :
    let w' := Runs.run (fun w stage => after (perform solve sqrt cka stage) w) w stages
    w'.hooks = w.hooks ∧
      ∀ c < w.nextCollector, (w'.collectors c).hooks = (w.collectors c).hooks := by
  intro w'
  have htidy : Tidy w w' :=
    Runs.invariant_run_of_step (I := Tidy w)
      (fun w stage h => trans_of Tidy h ((tidy_perform solve sqrt cka stage).after w))
      (refl_of Tidy w)
  exact ⟨htidy.hooks, htidy.handles⟩

end Stages

/-! ### What a delta is made of -/

section Rows

variable [AddGroup R] {baseModel adaptedModel : TorchModel ι R Input} {prompts layers : List String}
variable {tokenizer : String → Except PyError Input}
variable {promptFormatter : Option (String → Except PyError String)}
variable {w w' : World ι R} {delta : BehavioralDelta R}

/-- A delta is the difference of what the two models' layers were called with. -/
structure Shift (baseRows adaptedRows : List (ShapedMatrix R)) (D : ShapedMatrix R) : Prop where
  base : baseRows ≠ [] ∧ ShapedMatrix.SameCols baseRows
  adapted : adaptedRows ≠ [] ∧ ShapedMatrix.SameCols adaptedRows
  sub : (ShapedMatrix.stack adaptedRows).sub? (ShapedMatrix.stack baseRows) = .ok D

/-- Every layer asked for has its shift, and no other has one. -/
theorem extract_eq_ok (h : extractBehaviorDelta baseModel adaptedModel prompts tokenizer layers
    promptFormatter w = .ok delta w') (layer : String) :
    let encode := encodePrompt tokenizer promptFormatter
    let models := [baseModel, adaptedModel]
    (layer ∈ layers → ∃ D, delta.layerDeltas.get? layer = some D) ∧
      ∀ D, delta.layerDeltas.get? layer = some D → layer ∈ layers ∧
        Shift (layerRows models baseModel encode prompts layer)
          (layerRows models adaptedModel encode prompts layer) D := by
  intro encode models
  unfold extractBehaviorDelta at h
  split at h
  · cases h
  split at h
  · cases h
  obtain ⟨⟨baseActs, adaptedActs⟩, w₁, hcollect, h⟩ := run_bind_eq_ok.mp h
  obtain ⟨deltas, w₂, hdeltas, h⟩ := run_bind_eq_ok.mp h
  cases h
  obtain ⟨hdeltas, -⟩ := ofExcept_eq_ok.mp hdeltas
  obtain ⟨hbase, hadapted⟩ := collectBoth_eq_ok hcollect
  refine ⟨fun hlayer => ?_, fun D hD => ?_⟩
  · obtain ⟨D, hD⟩ := Dict.exists_of_fillKeys hdeltas layer hlayer
    exact ⟨D, (Dict.get?_ofKeys hdeltas).mpr ⟨hlayer, hD⟩⟩
  · obtain ⟨hlayer, hD⟩ := (Dict.get?_ofKeys hdeltas).mp hD
    obtain ⟨A, hA, hD⟩ := bind_eq_ok.mp hD
    obtain ⟨B, hB, hD⟩ := bind_eq_ok.mp hD
    obtain ⟨hne, hsame, rfl⟩ :=
      eq_stack_of_collected (hbase layer) (Alignment.activationsOf_eq_ok.mp hB)
    obtain ⟨hne', hsame', rfl⟩ :=
      eq_stack_of_collected (hadapted layer) (Alignment.activationsOf_eq_ok.mp hA)
    exact ⟨hlayer, ⟨hne, hsame⟩, ⟨hne', hsame'⟩, hD⟩

/-- If both models call their layer once on every prompt, with one sample, then
the delta has a row for each prompt: the shift on it. -/
theorem extract_shifts (h : extractBehaviorDelta baseModel adaptedModel prompts tokenizer layers
    promptFormatter w = .ok delta w') {layer : String} (hlayer : layer ∈ layers)
    {baseRow adaptedRow : String → ShapedMatrix R}
    (hbase : ∀ prompt ∈ prompts, RowOn [baseModel, adaptedModel] baseModel
      (encodePrompt tokenizer promptFormatter) layer prompt (baseRow prompt))
    (hadapted : ∀ prompt ∈ prompts, RowOn [baseModel, adaptedModel] adaptedModel
      (encodePrompt tokenizer promptFormatter) layer prompt (adaptedRow prompt)) :
    ∃ D, delta.layerDeltas.get? layer = some D ∧ D.rows = prompts.length ∧
      ∀ before prompt after, prompts = before ++ prompt :: after →
        (adaptedRow prompt).sub? (baseRow prompt) = .ok (D.rowBlock before.length 1) := by
  obtain ⟨hhas, hshift⟩ := extract_eq_ok h layer
  obtain ⟨D, hD⟩ := hhas hlayer
  obtain ⟨-, hshift⟩ := hshift D hD
  rw [layerRows_eq_map hbase, layerRows_eq_map hadapted] at hshift
  have hone : ∀ p ∈ prompts, (baseRow p).rows = 1 ∧ (adaptedRow p).rows = 1 :=
    fun p hp => ⟨(hbase p hp).2, (hadapted p hp).2⟩
  obtain ⟨first, rest, rfl⟩ : ∃ first rest, prompts = first :: rest :=
    List.exists_cons_of_ne_nil fun hnil => hshift.base.1 (by rw [hnil]; rfl)
  have hblocks : ∀ before prompt after, first :: rest = before ++ prompt :: after →
      D.rows = (first :: rest).length ∧
        (adaptedRow prompt).sub? (baseRow prompt) = .ok (D.rowBlock before.length 1) := by
    intro before prompt after hsplit
    rw [hsplit] at hshift hone ⊢
    obtain ⟨hrows, hblock⟩ := rowBlock_map hshift.base.2 fun p hp => (hone p hp).1
    obtain ⟨hrows', hblock'⟩ := rowBlock_map hshift.adapted.2 fun p hp => (hone p hp).2
    have hlt : before.length < (before ++ prompt :: after).length := by
      rw [List.length_append, List.length_cons]
      omega
    obtain ⟨hD, hsub⟩ := ShapedMatrix.sub?_rowBlock (hrows'.trans hrows.symm) hshift.sub
      (hrows'.symm ▸ hlt)
    rw [hblock, hblock'] at hsub
    exact ⟨hD.trans hrows', hsub⟩
  exact ⟨D, hD, (hblocks [] first rest rfl).1, fun before prompt after hsplit =>
    (hblocks before prompt after hsplit).2⟩

/-- **A shared module shows no shift.**  Where both models have the same module
object under the name of a layer, both collectors keep all of its calls,
whichever model makes them, and the delta of the layer is zero. -/
theorem extract_shared (h : extractBehaviorDelta baseModel adaptedModel prompts tokenizer layers
    promptFormatter w = .ok delta w') {layer : String} {m : ι}
    (hbase : (layer, m) ∈ baseModel.namedModules)
    (hadapted : (layer, m) ∈ adaptedModel.namedModules) {D : ShapedMatrix R}
    (hD : delta.layerDeltas.get? layer = some D) (i j : ℕ) : D.entry i j = 0 := by
  obtain ⟨-, hshift⟩ := (extract_eq_ok h layer).2 D hD
  have hunique : ∀ model : TorchModel ι R Input, (layer, m) ∈ model.namedModules →
      ∀ m', (layer, m') ∈ model.namedModules ↔ m' = m := by
    intro model hmem m'
    refine ⟨fun hmem' => ?_, fun heq => heq ▸ hmem⟩
    exact (Prod.mk.inj (List.inj_on_of_nodup_map model.names_nodup hmem' hmem rfl)).2
  have hsame : layerRows [baseModel, adaptedModel] adaptedModel
      (encodePrompt tokenizer promptFormatter) prompts layer =
        layerRows [baseModel, adaptedModel] baseModel
          (encodePrompt tokenizer promptFormatter) prompts layer := by
    refine List.flatMap_congr fun call _ => ?_
    simp only [rowsOfLayer, hunique _ hbase, hunique _ hadapted]
  have hsub := hshift.sub
  rw [hsame] at hsub
  unfold ShapedMatrix.sub? at hsub
  split at hsub
  · cases hsub
  · cases hsub
  · cases hsub
    show (if _ then _ else _) = _
    split_ifs
    · exact sub_self _
    · rfl

end Rows

/-! ### From prompts to weights -/

section Transfer

variable {K S : Type} [Field K] [LinearOrder K] [IsStrictOrderedRing K] [LinearOrder S]
variable {solve : SolveFn K} {sqrt : K → K} {cka : ShapedMatrix K → ShapedMatrix K → S}
variable {sourceModel targetModel baseModel adaptedModel : TorchModel ι K Input}
variable {calibrationPrompts sourceLayers targetLayers prompts layers : List String}
variable {method correspondenceMethod : String} {autoCorrespondence strict : Bool}
variable {tokenizer tokenizer' : String → Except PyError Input}
variable {formatter formatter' : Option (String → Except PyError String)}
variable {mapping : AlignmentMap (ShapedMatrix K)} {delta : BehavioralDelta K}
variable {transported : Dict String (ShapedMatrix K)} {w w' w₁ w₁' w₂ w₂' : World ι K}
variable {solvedModel : TorchModel ι K Input} {targetModelId : String}
variable {solvingPrompts targetModules solved skipped : List String}
variable {tokenizer'' : String → Except PyError Input}
variable {formatter'' : Option (String → Except PyError String)}
variable {moduleToDeltaLayer : Option (Dict String String)} {solution : ActivationAdapterSolution K}

/-- Alignment maps a layer in the best way between what its source layer and
the layer itself were called with. -/
theorem align_eq_ok (hsolve : SolvesSystems solve)
    (h : align sourceModel targetModel calibrationPrompts tokenizer sourceLayers targetLayers method
      formatter autoCorrespondence correspondenceMethod cka solve w = .ok mapping w')
    {layer : String} {p : ShapedMatrix K} (hp : mapping.layerMaps.get? layer = some p) :
    ∃ sLayer, MappedFrom autoCorrespondence mapping layer sLayer ∧
      BestMap 1 (.stack (layerRows [sourceModel, targetModel] sourceModel
          (encodePrompt tokenizer formatter) calibrationPrompts sLayer))
        (.stack (layerRows [sourceModel, targetModel] targetModel
          (encodePrompt tokenizer formatter) calibrationPrompts layer)) p := by
  unfold align at h
  split at h
  · cases h
  split at h
  · cases h
  split at h
  · cases h
  obtain ⟨⟨sourceActs, targetActs⟩, w₁, hcollect, h⟩ := run_bind_eq_ok.mp h
  obtain ⟨halign, -⟩ := ofExcept_eq_ok.mp h
  obtain ⟨hsource, htarget⟩ := collectBoth_eq_ok hcollect
  obtain ⟨sLayer, x, y, hs, hx, hy, hbest⟩ :=
    (AdapterSolving.align_best hsolve halign).mp hp
  obtain ⟨-, -, rfl⟩ := eq_stack_of_collected (hsource sLayer) hx
  obtain ⟨-, -, rfl⟩ := eq_stack_of_collected (htarget layer) hy
  exact ⟨sLayer, hs, hbest⟩

/-- Where the layer is called once on every prompt by both models of the delta,
each row of a transported delta is the shift on one prompt times the best map
between what the aligned layers were called with. -/
theorem transported_shifts (hsolve : SolvesSystems solve)
    (halign : align sourceModel targetModel calibrationPrompts tokenizer sourceLayers targetLayers
      method formatter autoCorrespondence correspondenceMethod cka solve w = .ok mapping w')
    (hextract : extractBehaviorDelta baseModel adaptedModel prompts tokenizer' layers formatter'
      w₁ = .ok delta w₁')
    (htransport : transportDelta (matrixLib K) delta.layerDeltas mapping = .ok transported)
    {layer : String} {v : ShapedMatrix K} (hv : transported.get? layer = some v)
    {baseRow adaptedRow : String → ShapedMatrix K}
    (hbase : ∀ prompt ∈ prompts, RowOn [baseModel, adaptedModel] baseModel
      (encodePrompt tokenizer' formatter') layer prompt (baseRow prompt))
    (hadapted : ∀ prompt ∈ prompts, RowOn [baseModel, adaptedModel] adaptedModel
      (encodePrompt tokenizer' formatter') layer prompt (adaptedRow prompt)) :
    ∃ sLayer p, MappedFrom autoCorrespondence mapping layer sLayer ∧
      BestMap 1 (.stack (layerRows [sourceModel, targetModel] sourceModel
          (encodePrompt tokenizer formatter) calibrationPrompts sLayer))
        (.stack (layerRows [sourceModel, targetModel] targetModel
          (encodePrompt tokenizer formatter) calibrationPrompts layer)) p ∧
      v.rows = prompts.length ∧ ∀ before prompt after, prompts = before ++ prompt :: after →
        ∃ shift, (adaptedRow prompt).sub? (baseRow prompt) = .ok shift ∧
          v.rowBlock before.length 1 = shift.mul p := by
  obtain ⟨d, p, hd, hp, rfl⟩ := (AdapterSolving.transported_iff htransport).mp hv
  obtain ⟨sLayer, hs, hbest⟩ := align_eq_ok hsolve halign hp
  have hlayer : layer ∈ layers := ((extract_eq_ok hextract layer).2 d hd).1
  obtain ⟨D, hD, hrows, hshift⟩ := extract_shifts hextract hlayer hbase hadapted
  obtain rfl : d = D := Option.some.inj (hd.symm.trans hD)
  refine ⟨sLayer, p, hs, hbest, hrows, fun before prompt after hsplit => ?_⟩
  exact ⟨_, hshift before prompt after hsplit, ShapedMatrix.rowBlock_mul d p before.length⟩

/-- **From prompts to weights.**  Learn an alignment, extract a delta, transport
it and solve for it: where both models of the delta call their layer once on
every prompt, the weights solved for a module are the best from what the module
was called with to the shifts on the prompts, each times the best map between
what the aligned layers were called with. -/
theorem transfer_weights (hsolve : SolvesSystems solve)
    (halign : align sourceModel targetModel calibrationPrompts tokenizer sourceLayers targetLayers
      method formatter autoCorrespondence correspondenceMethod cka solve w = .ok mapping w')
    (hextract : extractBehaviorDelta baseModel adaptedModel prompts tokenizer' layers formatter'
      w₁ = .ok delta w₁')
    (htransport : transportDelta (matrixLib K) delta.layerDeltas mapping = .ok transported)
    (hsolved : solveActivationAdapter solve sqrt solvedModel transported targetModelId
      solvingPrompts tokenizer'' targetModules moduleToDeltaLayer formatter'' strict w₂ =
        .ok (solution, solved, skipped) w₂')
    {module : String} {W : ShapedMatrix K} (hW : solution.moduleWeights.get? module = some W)
    {baseRow adaptedRow : String → ShapedMatrix K}
    (hbase : ∀ prompt ∈ prompts, RowOn [baseModel, adaptedModel] baseModel
      (encodePrompt tokenizer' formatter') (deltaKey moduleToDeltaLayer module) prompt
      (baseRow prompt))
    (hadapted : ∀ prompt ∈ prompts, RowOn [baseModel, adaptedModel] adaptedModel
      (encodePrompt tokenizer' formatter') (deltaKey moduleToDeltaLayer module) prompt
      (adaptedRow prompt)) :
    ∃ sLayer p v, MappedFrom autoCorrespondence mapping (deltaKey moduleToDeltaLayer module)
        sLayer ∧
      BestMap 1 (.stack (layerRows [sourceModel, targetModel] sourceModel
          (encodePrompt tokenizer formatter) calibrationPrompts sLayer))
        (.stack (layerRows [sourceModel, targetModel] targetModel
          (encodePrompt tokenizer formatter) calibrationPrompts
          (deltaKey moduleToDeltaLayer module))) p ∧
      BestMap 1 (.stack (layerRows [solvedModel] solvedModel (encodePrompt tokenizer'' formatter'')
        solvingPrompts module)) v W ∧
      v.rows = prompts.length ∧ ∀ before prompt after, prompts = before ++ prompt :: after →
        ∃ shift, (adaptedRow prompt).sub? (baseRow prompt) = .ok shift ∧
          v.rowBlock before.length 1 = shift.mul p := by
  unfold solveActivationAdapter at hsolved
  split at hsolved
  · cases hsolved
  split at hsolved
  · cases hsolved
  obtain ⟨inputsStacked, w₃, hcollect, hsolved⟩ := run_bind_eq_ok.mp hsolved
  obtain ⟨hsolved, -⟩ := ofExcept_eq_ok.mp hsolved
  obtain ⟨-, X, v, hX, hv, hbest⟩ := (moduleWeights_iff hsolve hsolved module W).mp hW
  obtain ⟨-, -, rfl⟩ := eq_stack_of_collected (collectOne_eq_ok hcollect module) hX
  obtain ⟨sLayer, p, hs, hp, hrows, hshift⟩ :=
    transported_shifts hsolve halign hextract htransport hv hbase hadapted
  exact ⟨sLayer, p, v, hs, hp, hbest, hrows, hshift⟩

end Transfer

/-! ### Models of one module -/

/-- One sample of two features. -/
def sampleRow (x : ℝ) (prompt : String) : ShapedMatrix ℝ :=
  .ofFn 1 2 fun _ j => x + prompt.length * j

/-- A model of one module, called once on every prompt. -/
def oneModule (m : ℕ) (x : ℝ) : TorchModel ℕ ℝ String where
  namedModules := [("model.layers.0", m)]
  names_nodup := List.nodup_singleton _
  forward prompt := ([(m, .tuple [.matrix (sampleRow x prompt)])], none)
  nameOrPath := none

/-- No hooks and no collectors. -/
def unwatched : World ℕ ℝ where
  hooks _ := []
  nextId := 0
  collectors _ := .new ℕ []
  nextCollector := 0
  fresh _ _ h := absurd h List.not_mem_nil
  owned _ _ h := absurd h List.not_mem_nil

/-- The adapter has wrapped the module where it is. -/
theorem sameModule_zero : ∃ delta w' D,
    extractBehaviorDelta (oneModule 0 1) (oneModule 0 4) ["a", "few"] .ok ["model.layers.0"] none
      unwatched = .ok delta w' ∧
    delta.layerDeltas.get? "model.layers.0" = some D ∧ ∀ i j, D.entry i j = 0 := by
  obtain ⟨delta, w', hrun⟩ : ∃ delta w', extractBehaviorDelta (oneModule 0 1) (oneModule 0 4)
      ["a", "few"] .ok ["model.layers.0"] none unwatched = .ok delta w' := ⟨_, _, rfl⟩
  obtain ⟨D, hD⟩ := (extract_eq_ok hrun "model.layers.0").1 (List.mem_singleton_self _)
  exact ⟨delta, w', D, hrun, hD, extract_shared hrun (List.mem_singleton_self _)
    (List.mem_singleton_self _) hD⟩

theorem oneModule_weights : ∃ sLayer p v W,
    BestMap 1 (.stack (layerRows [oneModule 0 1, oneModule 1 2] (oneModule 0 1)
        (encodePrompt .ok none) ["a", "few"] sLayer))
      (.stack (layerRows [oneModule 0 1, oneModule 1 2] (oneModule 1 2)
        (encodePrompt .ok none) ["a", "few"] "model.layers.0")) p ∧
    BestMap 1 (.stack (layerRows [oneModule 1 2] (oneModule 1 2) (encodePrompt .ok none)
      ["a", "few"] "model.layers.0")) v W ∧
    v.rows = 2 := by
  obtain ⟨mapping, delta, transported, solution, solved, skipped, w₁, w₂, w₃, W, halign, hextract,
      htransport, hsolved, hW⟩ : ∃ mapping delta transported solution solved skipped w₁ w₂ w₃ W,
    align (oneModule 0 1) (oneModule 1 2) ["a", "few"] .ok ["model.layers.0"] ["model.layers.0"]
      "ridge" none false "linear_cka" (fun _ _ => (0 : ℝ)) (AdapterSolving.inverseSolve ℝ)
      unwatched = .ok mapping w₁ ∧
    extractBehaviorDelta (oneModule 0 1) (oneModule 2 4) ["a", "few"] .ok ["model.layers.0"] none
      unwatched = .ok delta w₂ ∧
    transportDelta (matrixLib ℝ) delta.layerDeltas mapping = .ok transported ∧
    solveActivationAdapter (AdapterSolving.inverseSolve ℝ) Real.sqrt (oneModule 1 2) transported
      "target" ["a", "few"] .ok ["model.layers.0"] none none true unwatched =
        .ok (solution, solved, skipped) w₃ ∧
    solution.moduleWeights.get? "model.layers.0" = some W :=
    ⟨_, _, _, _, _, _, _, _, _, _, rfl, rfl, rfl, rfl, rfl⟩
  have hbase : ∀ prompt ∈ ["a", "few"], RowOn [oneModule 0 1, oneModule 2 4] (oneModule 0 1)
      (encodePrompt .ok none) (deltaKey none "model.layers.0") prompt (sampleRow 1 prompt) :=
    fun prompt _ => ⟨rfl, rfl⟩
  have hadapted : ∀ prompt ∈ ["a", "few"], RowOn [oneModule 0 1, oneModule 2 4] (oneModule 2 4)
      (encodePrompt .ok none) (deltaKey none "model.layers.0") prompt (sampleRow 4 prompt) :=
    fun prompt _ => ⟨rfl, rfl⟩
  obtain ⟨sLayer, p, v, -, hp, hbest, hrows, -⟩ := transfer_weights
    AdapterSolving.inverseSolve_solves halign hextract htransport hsolved hW hbase hadapted
  exact ⟨sLayer, p, v, W, hp, hbest, hrows⟩

end BehaviorTransfer
