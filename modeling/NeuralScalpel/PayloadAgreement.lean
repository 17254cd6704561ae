/-
The validator of payloads and the loader, side by side.

Both read the same file and walk the same layers, each with its own checks.
`ValidatorAgreesWithLoader` says that what one returns the other returns too,
as far as the loader can be held to the validator's limits.  On manifests the
schema accepts:

* `validateLayer_eq_ok_iff` — for one layer, the validator asks what the loader
  asks and that the tensor is finite;
* `collectDeltas_validate_iff` — and so for the walk over the layers;
* `validatorAgreesWithLoader_iff` — the two agree except on an empty digest,
  which only the loader compares, and on a tensor that is not finite and is
  replaced by a later layer of the same name.
-/
import NeuralScalpel.Payload

/-! ### Manifests the schema accepts -/

/-- What the schema asks of a layer. -/
def LayerSpec.acceptedBySchema (layer : LayerSpec) : Bool :=
  layer.shape.all (1 ≤ ·) && layer.deltaSha256.isSome

/-- What the schema asks of a payload block. -/
def PayloadBlock.acceptedBySchema (block : PayloadBlock) : Bool := block.sha256.isSome

/-- What the schema asks of the fields the program reads. -/
def Manifest.acceptedBySchema (m : Manifest) : Bool :=
  m.sourceAdapterSha256.isSome && m.targetModelSha256.isSome &&
    (m.verdict == some "PASS" || m.verdict == some "CAUTION" || m.verdict == some "FAIL") &&
    m.payload.all PayloadBlock.acceptedBySchema &&
    !m.layers.isEmpty && m.layers.all LayerSpec.acceptedBySchema

/-! ### One layer -/

/-- No element is NaN or infinite. -/
def Tensor.AllFinite (t : Tensor) : Prop := t.hasNan = false ∧ t.hasInf = false

/-- The payload has a tensor for the layer, of the declared shape and type. -/
def Fits (allTensors : Dict String Tensor) (layer : LayerSpec) (t : Tensor) : Prop :=
  allTensors.get? layer.deltaKey = some t ∧ (layer.shape = [] ∨ t.shape = layer.shape) ∧
    (layer.dtype = "" ∨ t.dtype = layer.dtype)

/-- The tensor stored for the layer, if there is one, is finite. -/
def FiniteAt (allTensors : Dict String Tensor) (layer : LayerSpec) : Prop :=
  ∀ t, allTensors.get? layer.deltaKey = some t → t.AllFinite

theorem loadLayer_eq_ok_iff {filepath : String} {allTensors : Dict String Tensor}
    {layer : LayerSpec} {t : Tensor} :
    loadLayer filepath allTensors layer = .ok t ↔ Fits allTensors layer t := by
  unfold loadLayer Fits
  cases hget : allTensors.get? layer.deltaKey with
  | none => simp
  | some delta =>
    simp only
    split_ifs with hshape hdtype
    · refine iff_of_false (fun h => by cases h) ?_
      rintro ⟨heq, hs, -⟩
      cases heq
      exact hs.elim hshape.1 hshape.2
    · refine iff_of_false (fun h => by cases h) ?_
      rintro ⟨heq, -, hd⟩
      cases heq
      exact hd.elim hdtype.1 hdtype.2
    · constructor
      · intro h
        cases h
        exact ⟨rfl, by tauto, by tauto⟩
      · rintro ⟨heq, -⟩
        cases heq
        rfl

/-- The validator asks what the loader asks, and that the tensor is finite. -/
theorem validateLayer_eq_ok_iff {allTensors : Dict String Tensor} {layer : LayerSpec}
    {t : Tensor} :
    validateLayer allTensors layer = .ok t ↔ Fits allTensors layer t ∧ t.AllFinite := by
  constructor
  · intro h
    refine ⟨validateLayer_eq_ok h, ?_⟩
    have hget := (validateLayer_eq_ok h).1
    unfold validateLayer at h
    rw [hget] at h
    simp only at h
    split_ifs at h with hs hd hnan hinf
    exact ⟨by simpa using hnan, by simpa using hinf⟩
  · rintro ⟨⟨hget, hshape, hdtype⟩, hnan, hinf⟩
    unfold validateLayer
    rw [hget]
    simp only
    rw [if_neg (by tauto), if_neg (by tauto), hnan, hinf]
    rfl

/-! ### The walk over the layers -/

/-- The validator's walk returns what the loader's walk returns, on layers that
are all finite. -/
theorem collectDeltas_validate_iff (filepath : String) {allTensors : Dict String Tensor}
    {layers : List LayerSpec} : ∀ {deltas collected : Dict String Tensor},
    collectDeltas (validateLayer allTensors) layers deltas = .ok collected ↔
      collectDeltas (loadLayer filepath allTensors) layers deltas = .ok collected ∧
        ∀ layer ∈ layers, FiniteAt allTensors layer := by
  induction layers with
  | nil =>
    intro deltas collected
    simp [collectDeltas]
  | cons layer layers ih =>
    intro deltas collected
    rw [collectDeltas, collectDeltas, Effect.bind_eq_ok, Effect.bind_eq_ok, List.forall_mem_cons]
    constructor
    · rintro ⟨t, ht, hrest⟩
      obtain ⟨hfits, hfinite⟩ := validateLayer_eq_ok_iff.mp ht
      obtain ⟨hload, hall⟩ := ih.mp hrest
      -- the tensor of the layer is the one both look at
      refine ⟨⟨t, loadLayer_eq_ok_iff.mpr hfits, hload⟩, fun t' ht' => ?_, hall⟩
      rw [hfits.1, Option.some.injEq] at ht'
      exact ht' ▸ hfinite
    · rintro ⟨⟨t, ht, hrest⟩, hlayer, hall⟩
      have hfits := loadLayer_eq_ok_iff.mp ht
      exact ⟨t, validateLayer_eq_ok_iff.mpr ⟨hfits, hlayer t hfits.1⟩, ih.mpr ⟨hrest, hall⟩⟩

/-- The loader's walk returns when every layer has a fitting tensor. -/
theorem collectDeltas_load_ok (filepath : String) {allTensors : Dict String Tensor}
    {layers : List LayerSpec} : ∀ (deltas : Dict String Tensor),
    (∃ collected, collectDeltas (loadLayer filepath allTensors) layers deltas = .ok collected) ↔
      ∀ layer ∈ layers, ∃ t, Fits allTensors layer t := by
  induction layers with
  | nil =>
    intro deltas
    simp [collectDeltas]
  | cons layer layers ih =>
    intro deltas
    simp only [collectDeltas, Effect.bind_eq_ok, List.forall_mem_cons, loadLayer_eq_ok_iff]
    constructor
    · rintro ⟨collected, t, ht, hrest⟩
      exact ⟨⟨t, ht⟩, (ih _).mp ⟨collected, hrest⟩⟩
    · rintro ⟨⟨t, ht⟩, hall⟩
      obtain ⟨collected, hrest⟩ := (ih _).mpr hall
      exact ⟨collected, t, ht, hrest⟩

/-- The tensors that stay in the result are finite: those of the layers whose
name no later layer has. -/
def FinalsFinite (allTensors : Dict String Tensor) : List LayerSpec → Prop
  | [] => True
  | layer :: layers =>
    (layer.name ∉ layers.map LayerSpec.name → FiniteAt allTensors layer) ∧
      FinalsFinite allTensors layers

/-- What the loader's walk adds is finite exactly when the final tensors are. -/
theorem collected_finite_iff {filepath : String} {allTensors : Dict String Tensor}
    {layers : List LayerSpec} : ∀ {deltas collected : Dict String Tensor},
    collectDeltas (loadLayer filepath allTensors) layers deltas = .ok collected →
      ((∀ n t, collected.get? n = some t → t.AllFinite) ↔
        FinalsFinite allTensors layers ∧
          ∀ n ∉ layers.map LayerSpec.name, ∀ t, deltas.get? n = some t → t.AllFinite) := by
  induction layers with
  | nil =>
    intro deltas collected h
    cases h
    simp [FinalsFinite]
  | cons layer layers ih =>
    intro deltas collected h
    obtain ⟨delta, hdelta, hrest⟩ := Effect.bind_eq_ok.mp h
    have hget := (loadLayer_eq_ok_iff.mp hdelta).1
    -- the induction is on the layers, for every dictionary collected so far
    rw [ih hrest, FinalsFinite, and_comm (a := layer.name ∉ _ → _), and_assoc]
    refine and_congr_right fun _ => ?_
    constructor
    · intro hall
      refine ⟨fun hlast t ht => ?_, fun n hn t ht => ?_⟩
      · rw [hget, Option.some.injEq] at ht
        exact ht ▸ hall layer.name hlast delta (Dict.get?_set_self _ _ _)
      · obtain ⟨hne, hnot⟩ := not_or.mp (List.mem_cons.not.mp hn)
        exact hall n hnot t (by rw [Dict.get?_set_of_ne hne, ht])
    · rintro ⟨hlayer, hall⟩ n hn t ht
      -- either this layer is the last one of its name, or its tensor was there before
      by_cases hname : n = layer.name
      · rw [hname, Dict.get?_set_self, Option.some.injEq] at ht
        exact hlayer (hname ▸ hn) t (ht ▸ hget)
      · rw [Dict.get?_set_of_ne hname] at ht
        exact hall n (List.mem_cons.not.mpr (not_or.mpr ⟨hname, hn⟩)) t ht

/-! ### The whole file -/

section

variable {files : FileSystem} {baseDir : Option String} {limit : ℕ} {m : Manifest}
  {filepath : String} {file : PayloadFile} {deltas : Dict String Tensor}

/-- The size of the file is known and within the limit. -/
def PayloadFile.Within (limit : ℕ) (file : PayloadFile) : Prop :=
  ∃ fileSize, file.size = .ok fileSize ∧ fileSize ≤ limit

/-- The digest the manifest gives, `none` without one. -/
def Manifest.payloadSha256 (m : Manifest) : Option String := m.payload.bind PayloadBlock.sha256

theorem checkSize_eq_ok {u : Unit} : checkSize limit file = .ok u ↔ file.Within limit := by
  unfold checkSize PayloadFile.Within
  cases hsize : file.size with
  | error e => simp
  | ok fileSize =>
    by_cases h : fileSize > limit
    · simp [h]
    · simp [h, Nat.le_of_not_gt h]

theorem checkSha256_eq_ok {sha : String} {u : Unit} :
    checkSha256 sha file = .ok u ↔ sha = "" ∨ file.sha256 = .ok sha := by
  unfold checkSha256
  by_cases hempty : sha = ""
  · simp [hempty]
  · rw [if_neg hempty, or_iff_right hempty]
    cases hsha : file.sha256 with
    | error e => simp
    | ok actual =>
      by_cases h : actual = sha
      · simp [h]
      · simp [h]

theorem verifyPayloadIntegrity_eq_ok {sha : Option String} {u : Unit} :
    verifyPayloadIntegrity filepath file sha = .ok u ↔ ∀ s, sha = some s → file.sha256 = .ok s := by
  cases sha with
  | none => simp [verifyPayloadIntegrity]
  | some s =>
    unfold verifyPayloadIntegrity
    cases hsha : file.sha256 with
    | error e => simp
    | ok actual =>
      by_cases h : actual = s
      · simp [h]
      · simp [h]

theorem parseSafetensors_eq_ok_iff {allTensors : Dict String Tensor} :
    parseSafetensors file = .ok allTensors ↔ file.tensors = .ok allTensors := by
  refine ⟨parseSafetensors_eq_ok, fun h => ?_⟩
  rw [parseSafetensors, h]

theorem loadFile_eq_ok_iff {allTensors : Dict String Tensor} :
    loadFile file = .ok allTensors ↔ file.tensors = .ok allTensors := by
  unfold loadFile
  cases file.tensors <;> simp

/-- When the validator returns. -/
theorem validatePayload_eq_ok_iff (hpath : resolvePayloadPath m baseDir = some filepath)
    (hfile : files filepath = some file) :
    validatePayload files baseDir limit m = .ok deltas ↔
      file.Within limit ∧ (m.payloadSha256.getD "" = "" ∨
        file.sha256 = .ok (m.payloadSha256.getD "")) ∧
      ∃ allTensors, file.tensors = .ok allTensors ∧
        collectDeltas (validateLayer allTensors) m.layers .empty = .ok deltas := by
  unfold validatePayload
  rw [hpath]
  simp only [hfile, checkExists, Effect.bind_eq_ok, checkSize_eq_ok, checkSha256_eq_ok,
    parseSafetensors_eq_ok_iff]
  constructor
  · rintro ⟨f, hf, -, hsize, -, hsha, hcollect⟩
    cases hf
    exact ⟨hsize, hsha, hcollect⟩
  · rintro ⟨hsize, hsha, hcollect⟩
    exact ⟨file, rfl, (), hsize, (), hsha, hcollect⟩

/-- When the loader returns. -/
theorem loadPayloadDeltas_eq_ok_iff (hpath : resolvePayloadPath m baseDir = some filepath)
    (hfile : files filepath = some file) :
    loadPayloadDeltas files baseDir m = .ok deltas ↔
      (∀ sha, m.payloadSha256 = some sha → file.sha256 = .ok sha) ∧
      ∃ allTensors, file.tensors = .ok allTensors ∧
        collectDeltas (loadLayer filepath allTensors) m.layers .empty = .ok deltas := by
  unfold loadPayloadDeltas
  rw [hpath]
  simp only [hfile, openPayload, Effect.bind_eq_ok, verifyPayloadIntegrity_eq_ok,
    loadFile_eq_ok_iff]
  constructor
  · rintro ⟨f, hf, -, hsha, hcollect⟩
    cases hf
    exact ⟨hsha, hcollect⟩
  · rintro ⟨hsha, hcollect⟩
    exact ⟨file, rfl, (), hsha, hcollect⟩

/-! ### Agreement -/

/-- What the validator returns the loader returns, and what the loader returns
the validator returns, if the file is within the limit and the deltas finite. -/
def ValidatorAgreesWithLoader (files : FileSystem) (baseDir : Option String) (limit : ℕ)
    (m : Manifest) : Prop :=
  (∀ deltas, validatePayload files baseDir limit m = .ok deltas →
      loadPayloadDeltas files baseDir m = .ok deltas) ∧
    ∀ deltas, loadPayloadDeltas files baseDir m = .ok deltas →
      (∀ filepath file, resolvePayloadPath m baseDir = some filepath →
        files filepath = some file → file.Within limit) →
      (∀ n t, deltas.get? n = some t → t.AllFinite) →
      validatePayload files baseDir limit m = .ok deltas

/-- The file the manifest refers to is within the limit and has a fitting
tensor for every layer. -/
structure Loadable (files : FileSystem) (baseDir : Option String) (limit : ℕ) (m : Manifest)
    (file : PayloadFile) (allTensors : Dict String Tensor) : Prop where
  found : ∃ filepath, resolvePayloadPath m baseDir = some filepath ∧ files filepath = some file
  within : file.Within limit
  parses : file.tensors = .ok allTensors
  fits : ∀ layer ∈ m.layers, ∃ t, Fits allTensors layer t

/-- With an empty digest some tensor is not finite; with the right digest no
layer whose tensor is not finite is hidden by later layers that are. -/
def AgreementCondition (files : FileSystem) (baseDir : Option String) (limit : ℕ)
    (m : Manifest) : Prop :=
  ∀ file allTensors, Loadable files baseDir limit m file allTensors →
    (m.payloadSha256 = some "" → ¬∀ layer ∈ m.layers, FiniteAt allTensors layer) ∧
      ∀ sha, m.payloadSha256 = some sha → file.sha256 = .ok sha →
        FinalsFinite allTensors m.layers → ∀ layer ∈ m.layers, FiniteAt allTensors layer

theorem payloadSha256_of_accepted (hschema : m.acceptedBySchema = true)
    (hpath : resolvePayloadPath m baseDir = some filepath) : ∃ sha, m.payloadSha256 = some sha := by
  unfold Manifest.acceptedBySchema at hschema
  unfold resolvePayloadPath at hpath
  unfold Manifest.payloadSha256
  cases hpayload : m.payload with
  | none =>
    rw [hpayload] at hpath
    cases hpath
  | some block =>
    rw [hpayload] at hschema
    simp only [Option.all_some, PayloadBlock.acceptedBySchema, Bool.and_eq_true] at hschema
    exact Option.isSome_iff_exists.mp hschema.1.1.2

variable (limit) in
/-- Whatever either of them returns is empty without a payload. -/
theorem eq_empty_of_no_payload (hpath : resolvePayloadPath m baseDir = none) :
    validatePayload files baseDir limit m = .ok .empty ∧
      loadPayloadDeltas files baseDir m = .ok .empty := by
  rw [validatePayload, loadPayloadDeltas, hpath]
  exact ⟨rfl, rfl⟩

variable (limit) in
/-- Neither returns without a file. -/
theorem not_ok_of_no_file (hpath : resolvePayloadPath m baseDir = some filepath)
    (hfile : files filepath = none) :
    validatePayload files baseDir limit m ≠ .ok deltas ∧
      loadPayloadDeltas files baseDir m ≠ .ok deltas := by
  rw [validatePayload, loadPayloadDeltas, hpath]
  simp only [hfile, checkExists, openPayload]
  constructor
  · intro h
    cases h
  · intro h
    cases h

/-- What the validator returns is backed by a loadable file whose tensors are
finite, and what the loader returns too, if the file is within the limit. -/
theorem loadable_of_load (hpath : resolvePayloadPath m baseDir = some filepath)
    (hfile : files filepath = some file) (hwithin : file.Within limit)
    {allTensors : Dict String Tensor} (hparses : file.tensors = .ok allTensors)
    (hcollect : collectDeltas (loadLayer filepath allTensors) m.layers .empty = .ok deltas) :
    Loadable files baseDir limit m file allTensors :=
  ⟨⟨filepath, hpath, hfile⟩, hwithin, hparses,
    (collectDeltas_load_ok filepath _).mp ⟨deltas, hcollect⟩⟩

theorem agreementCondition_of_agrees
    (hdigest : ∀ filepath file, files filepath = some file → file.sha256 ≠ .ok "")
    (hagree : ValidatorAgreesWithLoader files baseDir limit m) :
    AgreementCondition files baseDir limit m := by
  intro file allTensors h
  obtain ⟨filepath, hpath, hfile⟩ := h.found
  obtain ⟨hforth, hback⟩ := hagree
  obtain ⟨d, hd⟩ := (collectDeltas_load_ok filepath .empty).mpr h.fits
  refine ⟨fun hempty hall => ?_, fun sha hsha hdig hfinals => ?_⟩
  · -- the validator skips an empty digest, the loader compares it
    have hok := (validatePayload_eq_ok_iff hpath hfile).mpr ⟨h.within,
      Or.inl (by rw [hempty, Option.getD_some]), allTensors, h.parses,
      (collectDeltas_validate_iff filepath).mpr ⟨hd, hall⟩⟩
    have hload := (loadPayloadDeltas_eq_ok_iff hpath hfile).mp (hforth d hok)
    exact hdigest filepath file hfile (hload.1 "" hempty)
  · -- the loader looks at no element, and returns the last tensor of each name
    have hok := (loadPayloadDeltas_eq_ok_iff hpath hfile).mpr
      ⟨fun s hs => by rw [hdig, ← Option.some.inj (hsha.symm.trans hs)], allTensors, h.parses, hd⟩
    have hfinite := (collected_finite_iff hd).mpr ⟨hfinals, by simp⟩
    have hwithin : ∀ filepath file', resolvePayloadPath m baseDir = some filepath →
        files filepath = some file' → file'.Within limit := by
      intro filepath' file' hpath' hfile'
      rw [hpath] at hpath'
      cases hpath'
      rw [hfile] at hfile'
      cases hfile'
      exact h.within
    obtain ⟨-, -, allTensors', hparses, hcollect⟩ :=
      (validatePayload_eq_ok_iff hpath hfile).mp (hback d hok hwithin hfinite)
    rw [h.parses] at hparses
    cases hparses
    exact ((collectDeltas_validate_iff filepath).mp hcollect).2

theorem agrees_of_agreementCondition (hschema : m.acceptedBySchema = true)
    (hcond : AgreementCondition files baseDir limit m) :
    ValidatorAgreesWithLoader files baseDir limit m := by
  cases hpath : resolvePayloadPath m baseDir with
  | none =>
    obtain ⟨hvalidate, hload⟩ := eq_empty_of_no_payload limit hpath
    refine ⟨fun d h => ?_, fun d h _ _ => ?_⟩
    · rw [hvalidate] at h
      cases h
      exact hload
    · rw [hload] at h
      cases h
      exact hvalidate
  | some filepath =>
    obtain ⟨sha, hsha⟩ := payloadSha256_of_accepted hschema hpath
    cases hfile : files filepath with
    | none =>
      refine ⟨fun d h => ?_, fun d h _ _ => ?_⟩
      · exact absurd h (not_ok_of_no_file limit hpath hfile).1
      · exact absurd h (not_ok_of_no_file limit hpath hfile).2
    | some file =>
      refine ⟨fun d h => ?_, fun d h hwithin hfinite => ?_⟩
      · obtain ⟨hsize, hdig, allTensors, hparses, hcollect⟩ :=
          (validatePayload_eq_ok_iff hpath hfile).mp h
        obtain ⟨hd, hall⟩ := (collectDeltas_validate_iff filepath).mp hcollect
        -- all layers are finite, so the digest is not empty and was compared
        have hempty := (hcond file allTensors (loadable_of_load hpath hfile hsize hparses hd)).1
        refine (loadPayloadDeltas_eq_ok_iff hpath hfile).mpr
          ⟨fun s hs => ?_, allTensors, hparses, hd⟩
        rw [hs, Option.getD_some] at hdig
        exact hdig.resolve_left fun hs' => hempty (by rw [hs, hs']) hall
      · obtain ⟨hdig, allTensors, hparses, hcollect⟩ :=
          (loadPayloadDeltas_eq_ok_iff hpath hfile).mp h
        have hsize := hwithin filepath file hpath hfile
        -- what was replaced is finite by the condition
        have hfinals := ((collected_finite_iff hcollect).mp hfinite).1
        have hall := (hcond file allTensors
          (loadable_of_load hpath hfile hsize hparses hcollect)).2 sha hsha (hdig sha hsha) hfinals
        refine (validatePayload_eq_ok_iff hpath hfile).mpr ⟨hsize, Or.inr ?_, allTensors, hparses,
          (collectDeltas_validate_iff filepath).mpr ⟨hcollect, hall⟩⟩
        rw [hsha, Option.getD_some]
        exact hdig sha hsha

/-- **When the validator and the loader agree.**  On a manifest the schema
accepts: unless the digest is empty and the file passes all the other checks,
or a layer whose tensor is not finite is replaced by a later one. -/
theorem validatorAgreesWithLoader_iff (hschema : m.acceptedBySchema = true)
    (hdigest : ∀ filepath file, files filepath = some file → file.sha256 ≠ .ok "") :
    ValidatorAgreesWithLoader files baseDir limit m ↔
      AgreementCondition files baseDir limit m :=
  ⟨agreementCondition_of_agrees hdigest, agrees_of_agreementCondition hschema⟩

end

namespace Demo

/-- A tensor with one element. -/
def scalar (x : Scalar) : Tensor := ⟨[1], "float32", [x], rfl⟩

/-- A manifest with one layer whose payload block gives `sha256`. -/
def digested (sha256 : String) : Manifest where
  routeId := "r"
  sourceAdapterSha256 := some ""
  targetModelSha256 := some ""
  tenantId := none
  license := none
  verdict := some "PASS"
  payload := some ⟨"/payload.safetensors", some sha256⟩
  layers := [⟨"w", [1], "float32", some "", none⟩]

def oneDigest : String := "d7e1133cd341e7d3cc71b7b59792f107c0584c2c03448dd4eb743acb5fd85371"

/-- A file with the number one under the name `w`. -/
def oneTensor : FileSystem := fun filepath =>
  if filepath = "/payload.safetensors" then
    some ⟨.ok 68, .ok oneDigest, .ok (Dict.ofWrites [("w", scalar (.finite 1))])⟩
  else none

end Demo

/-- On a manifest the schema accepts with the empty string for a digest, the
validator returns the deltas and the loader raises. -/
theorem validator_without_loader :
    (Demo.digested "").acceptedBySchema = true ∧
      ¬ValidatorAgreesWithLoader Demo.oneTensor none 2147483648 (Demo.digested "") := by
  refine ⟨by decide, fun hagree => ?_⟩
  have hload := hagree.1 (Dict.ofWrites [("w", Demo.scalar (.finite 1))]) (by rfl)
  have hraise : ∃ e, loadPayloadDeltas Demo.oneTensor none (Demo.digested "") =
      .error e := ⟨_, by rfl⟩
  obtain ⟨e, he⟩ := hraise
  rw [he] at hload
  cases hload

/-- The law, on a manifest with the digest of the file. -/
theorem validatorAgreesWithLoader_digested :
    ValidatorAgreesWithLoader Demo.oneTensor none 2147483648 (Demo.digested Demo.oneDigest) ↔
      AgreementCondition Demo.oneTensor none 2147483648 (Demo.digested Demo.oneDigest) := by
  refine validatorAgreesWithLoader_iff (by decide) fun filepath file hfile => ?_
  unfold Demo.oneTensor at hfile
  split_ifs at hfile
  cases hfile
  decide
