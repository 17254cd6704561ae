/-
Payload files: resolution, validation and loading.

A manifest refers to a safetensors file of weight deltas.  `validatePayload`
makes every check before a swap and raises a `PayloadValidationError` with the
failure class for the policy; `loadPayloadDeltas` is the loader `apply_swap`
falls back to.  Both walk the manifest's layers and collect one delta for each:

* `get?_collectDeltas` — with distinct layer names, the delta collected under a
  layer's name is the one its check returned;
* `validatePayload_spec` — what a successful validation says of the file;
* `ofPayload_of_validatePayload` — a failed validation never quarantines the
  worker;
* `loadPayloadDeltas_of_empty` — when validation returned no deltas, the loader
  returns none either.
-/
import NeuralScalpel.Registry
import NeuralScalpel.Tensor

/-! ### Paths -/

/-- A parsed POSIX path: the root, if absolute, and the components without
empty ones and `.`. -/
structure PurePosixPath where
  root : String
  parts : List String
  deriving DecidableEq, Repr

namespace PurePosixPath

/-- Exactly two leading slashes are a root of their own. -/
def rootOf : List Char → String
  | '/' :: '/' :: '/' :: _ => "/"
  | '/' :: '/' :: _ => "//"
  | '/' :: _ => "/"
  | _ => ""

def ofString (s : String) : PurePosixPath :=
  ⟨rootOf s.toList, ((s.toList.splitOn '/').map String.ofList).filter fun p => p ≠ "" ∧ p ≠ "."⟩

def isAbsolute (p : PurePosixPath) : Bool := p.root ≠ ""

/-- `base / p` for a relative `p`. -/
def join (base p : PurePosixPath) : PurePosixPath := ⟨base.root, base.parts ++ p.parts⟩

def str (p : PurePosixPath) : String :=
  if p.root = "" ∧ p.parts = [] then "." else p.root ++ "/".intercalate p.parts

end PurePosixPath

/-- Drop a leading `file://` or `file:`. -/
def stripFileScheme (uri : String) : String :=
  if "file://".toList.isPrefixOf uri.toList then String.ofList (uri.toList.drop 7)
  else if "file:".toList.isPrefixOf uri.toList then String.ofList (uri.toList.drop 5)
  else uri

/-- The path of the payload file, `none` for a route without a payload. -/
def resolvePayloadPath (routeData : Manifest) (baseDir : Option String) : Option String :=
  match routeData.payload with
  | none => none
  | some block =>
    if block.uri = "" then none
    else
      let path := PurePosixPath.ofString (stripFileScheme block.uri)
      if !path.isAbsolute && baseDir.getD "" ≠ "" then
        some ((PurePosixPath.ofString (baseDir.getD "")).join path).str
      else some path.str

/-! ### The file system -/

/-- What the operating system and the safetensors library say about a file
that exists: its size, its digest and the tensors in it, or why they fail. -/
structure PayloadFile where
  size : Except String ℕ
  sha256 : Except String String
  tensors : Except String (Dict String Tensor)

/-- The files that exist. -/
abbrev FileSystem := String → Option PayloadFile

/-! ### Validation -/

/-- `str` of a list of strings. -/
def pyList (xs : List String) : String :=
  "[" ++ ", ".intercalate (xs.map fun x => s!"'{x}'") ++ "]"

/-- The key under which a layer's delta is stored. -/
def LayerSpec.deltaKey (layer : LayerSpec) : String := layer.payloadKey.getD layer.name

/-- Walk the layers and collect the delta `check` returns for each. -/
def collectDeltas {ε : Type} (check : LayerSpec → Except ε Tensor) :
    List LayerSpec → Dict String Tensor → Except ε (Dict String Tensor)
  | [], deltas => .ok deltas
  | layer :: layers, deltas => do
    let delta ← check layer
    collectDeltas check layers (deltas.set layer.name delta)

/-- Steps 5 to 8 of the validation, for one layer. -/
def validateLayer (allTensors : Dict String Tensor) (layer : LayerSpec) :
    Except PayloadValidationError Tensor :=
  match allTensors.get? layer.deltaKey with
  | none =>
    .error ⟨.payloadTensorKeyMissing,
      s!"Key '{layer.deltaKey}' not in payload. Available: {pyList allTensors.keys}"⟩
  | some delta =>
    if layer.shape ≠ [] ∧ delta.shape ≠ layer.shape then
      .error ⟨.payloadShapeMismatch,
        s!"Layer '{layer.name}': expected shape {layer.shape}, got {delta.shape}"⟩
    else if layer.dtype ≠ "" ∧ delta.dtype ≠ layer.dtype then
      .error ⟨.payloadDtypeMismatch,
        s!"Layer '{layer.name}': expected dtype {layer.dtype}, got {delta.dtype}"⟩
    else if delta.hasNan then
      .error ⟨.payloadNanInfDetected,
        s!"Layer '{layer.name}': NaN values detected in delta tensor"⟩
    else if delta.hasInf then
      .error ⟨.payloadNanInfDetected,
        s!"Layer '{layer.name}': Inf values detected in delta tensor"⟩
    else .ok delta

/-- Step 1: the file exists. -/
def checkExists (filepath : String) (file : Option PayloadFile) :
    Except PayloadValidationError PayloadFile :=
  match file with
  | none => .error ⟨.payloadFileNotFound, s!"Payload file does not exist: {filepath}"⟩
  | some file => .ok file

/-- Step 2: the file is not too large. -/
def checkSize (maxPayloadBytes : ℕ) (file : PayloadFile) : Except PayloadValidationError Unit :=
  match file.size with
  | .error e => .error ⟨.payloadIoError, s!"Cannot stat payload file: {e}"⟩
  | .ok fileSize =>
    if fileSize > maxPayloadBytes then
      .error ⟨.payloadTooLarge, s!"Payload size {fileSize} exceeds limit {maxPayloadBytes}"⟩
    else .ok ()

/-- Step 3: the digest is the manifest's, if it gives one. -/
def checkSha256 (expectedSha : String) (file : PayloadFile) :
    Except PayloadValidationError Unit :=
  if expectedSha = "" then .ok ()
  else
    match file.sha256 with
    | .error e => .error ⟨.payloadIoError, s!"I/O error computing SHA-256: {e}"⟩
    | .ok actualSha =>
      if actualSha ≠ expectedSha then
        .error ⟨.payloadSha256Mismatch,
          s!"Expected SHA-256: {expectedSha}, actual: {actualSha}"⟩
      else .ok ()

/-- Step 4: the file parses. -/
def parseSafetensors (file : PayloadFile) :
    Except PayloadValidationError (Dict String Tensor) :=
  match file.tensors with
  | .ok allTensors => .ok allTensors
  | .error e =>
    let errMsg := e.toList.map Char.toLower
    if occursIn "header" errMsg || occursIn "invalid" errMsg || occursIn "corrupt" errMsg then
      .error ⟨.payloadHeaderCorrupted, s!"Safetensors header parse error: {e}"⟩
    else
      .error ⟨.payloadIoError, s!"Failed to load safetensors file: {e}"⟩

/-- Pre-swap validation of a route's payload: the deltas by layer name. -/
def validatePayload (files : FileSystem) (baseDir : Option String) (maxPayloadBytes : ℕ)
    (routeData : Manifest) : Except PayloadValidationError (Dict String Tensor) :=
  match resolvePayloadPath routeData baseDir with
  | none => .ok .empty
  | some filepath => do
    -- in the order of the failure classes: the first check that fails decides
    let file ← checkExists filepath (files filepath)
    checkSize maxPayloadBytes file
    checkSha256 ((routeData.payload.bind PayloadBlock.sha256).getD "") file
    let allTensors ← parseSafetensors file
    collectDeltas (validateLayer allTensors) routeData.layers .empty

/-! ### Loading -/

def loadLayer (filepath : String) (allTensors : Dict String Tensor) (layer : LayerSpec) :
    Except PyError Tensor :=
  match allTensors.get? layer.deltaKey with
  | none =>
    .error (.keyError (s!"Payload key '{layer.deltaKey}' not found in {filepath}. " ++
      s!"Available keys: {pyList allTensors.keys}"))
  | some delta =>
    if layer.shape ≠ [] ∧ delta.shape ≠ layer.shape then
      .error (.valueError (s!"Shape mismatch for {layer.name}: " ++
        s!"manifest says {layer.shape}, payload has {delta.shape}"))
    else if layer.dtype ≠ "" ∧ delta.dtype ≠ layer.dtype then
      .error (.valueError (s!"Dtype mismatch for {layer.name}: " ++
        s!"manifest says {layer.dtype}, payload has {delta.dtype}"))
    else .ok delta

/-- Verifies the file's digest whenever the manifest has the key. -/
def verifyPayloadIntegrity (filepath : String) (file : PayloadFile) (expected : Option String) :
    Except PyError Unit :=
  match expected with
  | none => .ok ()
  | some expectedSha256 =>
    match file.sha256 with
    | .error e => .error (.external e)
    | .ok actual =>
      if actual ≠ expectedSha256 then
        .error (.valueError (s!"Payload integrity check FAILED.\n  Expected: {expectedSha256}\n" ++
          s!"  Actual:   {actual}\n  File:     {filepath}"))
      else .ok ()

def loadFile (file : PayloadFile) : Except PyError (Dict String Tensor) :=
  match file.tensors with
  | .error e => .error (.external e)
  | .ok allTensors => .ok allTensors

def openPayload (filepath : String) (file : Option PayloadFile) : Except PyError PayloadFile :=
  match file with
  | none => .error (.fileNotFoundError s!"Payload file not found: {filepath}")
  | some file => .ok file

/-- The loader `apply_swap` uses when it is handed no deltas. -/
def loadPayloadDeltas (files : FileSystem) (baseDir : Option String) (routeData : Manifest) :
    Except PyError (Dict String Tensor) :=
  match resolvePayloadPath routeData baseDir with
  | none => .ok .empty
  | some filepath => do
    -- no size limit here, and no search for NaN or infinity
    let file ← openPayload filepath (files filepath)
    verifyPayloadIntegrity filepath file (routeData.payload.bind PayloadBlock.sha256)
    let allTensors ← loadFile file
    collectDeltas (loadLayer filepath allTensors) routeData.layers .empty

/-! ### Collected deltas -/

section Collect

variable {ε : Type} {check : LayerSpec → Except ε Tensor}

/-- Every layer passed its check, and its name has a delta. -/
theorem collectDeltas_spec : ∀ {layers : List LayerSpec} {deltas collected : Dict String Tensor},
    collectDeltas check layers deltas = .ok collected →
      (∀ layer ∈ layers, (∃ t, check layer = .ok t) ∧ collected.contains layer.name = true) ∧
        ∀ n, deltas.contains n = true → collected.contains n = true := by
  intro layers
  induction layers with
  | nil =>
    intro deltas collected h
    cases h
    exact ⟨by simp, fun _ hn => hn⟩
  | cons layer layers ih =>
    intro deltas collected h
    obtain ⟨delta, hdelta, hrest⟩ := Effect.bind_eq_ok.mp h
    obtain ⟨hlayers, hkeys⟩ := ih hrest
    have hname : collected.contains layer.name = true :=
      hkeys _ (Dict.contains_set.mpr (Or.inl rfl))
    refine ⟨fun l hl => ?_, fun n hn => hkeys n (Dict.contains_set.mpr (Or.inr hn))⟩
    rcases List.mem_cons.mp hl with rfl | hl
    · exact ⟨⟨delta, hdelta⟩, hname⟩
    · exact hlayers l hl

/-- A name no layer has keeps its delta. -/
theorem get?_collectDeltas_of_not_mem : ∀ {layers : List LayerSpec}
    {deltas collected : Dict String Tensor} {n : String},
    collectDeltas check layers deltas = .ok collected → n ∉ layers.map LayerSpec.name →
      collected.get? n = deltas.get? n := by
  intro layers
  induction layers with
  | nil =>
    intro deltas collected n h _
    cases h
    rfl
  | cons layer layers ih =>
    intro deltas collected n h hn
    obtain ⟨delta, hdelta, hrest⟩ := Effect.bind_eq_ok.mp h
    obtain ⟨hne, hnot⟩ := not_or.mp (List.mem_cons.not.mp hn)
    rw [ih hrest hnot, Dict.get?_set_of_ne hne]

/-- With distinct names, a layer's name has the delta its check returned. -/
theorem get?_collectDeltas : ∀ {layers : List LayerSpec} {deltas collected : Dict String Tensor},
    collectDeltas check layers deltas = .ok collected → (layers.map LayerSpec.name).Nodup →
      ∀ layer ∈ layers, ∃ t, check layer = .ok t ∧ collected.get? layer.name = some t := by
  intro layers
  induction layers with
  | nil => simp
  | cons layer layers ih =>
    intro deltas collected h hnodup l hl
    obtain ⟨delta, hdelta, hrest⟩ := Effect.bind_eq_ok.mp h
    obtain ⟨hnot, hnodup'⟩ := List.nodup_cons.mp hnodup
    rcases List.mem_cons.mp hl with rfl | hl
    · refine ⟨delta, hdelta, ?_⟩
      rw [get?_collectDeltas_of_not_mem hrest hnot, Dict.get?_set_self]
    · exact ih hrest hnodup' l hl

end Collect

/-- The checks of one layer, as conditions. -/
theorem validateLayer_eq_ok {allTensors : Dict String Tensor} {layer : LayerSpec} {t : Tensor}
    (h : validateLayer allTensors layer = .ok t) :
    allTensors.get? layer.deltaKey = some t ∧ (layer.shape = [] ∨ t.shape = layer.shape) ∧
      (layer.dtype = "" ∨ t.dtype = layer.dtype) := by
  unfold validateLayer at h
  rcases hget : allTensors.get? layer.deltaKey with _ | delta
  · rw [hget] at h
    exact absurd h (by simp)
  · rw [hget] at h
    simp only at h
    split_ifs at h with hs hd hnan hinf
    cases h
    exact ⟨rfl, by tauto, by tauto⟩

theorem parseSafetensors_eq_ok {file : PayloadFile} {allTensors : Dict String Tensor}
    (h : parseSafetensors file = .ok allTensors) : file.tensors = .ok allTensors := by
  unfold parseSafetensors at h
  rcases htensors : file.tensors with e | ts
  · rw [htensors] at h
    simp only at h
    split_ifs at h
  · rw [htensors] at h
    cases h
    rfl

theorem checkExists_eq_ok {filepath : String} {found : Option PayloadFile} {file : PayloadFile}
    (h : checkExists filepath found = .ok file) : found = some file := by
  rcases found with _ | f
  · exact absurd h (by simp [checkExists])
  · cases h
    rfl

/-- What a successful validation says: there is no payload file, or the file
parses and every layer passed its checks. -/
theorem validatePayload_spec {files : FileSystem} {baseDir : Option String} {limit : ℕ}
    {routeData : Manifest} {deltas : Dict String Tensor}
    (h : validatePayload files baseDir limit routeData = .ok deltas) :
    (resolvePayloadPath routeData baseDir = none ∧ deltas = .empty) ∨
      ∃ filepath file allTensors, resolvePayloadPath routeData baseDir = some filepath ∧
        files filepath = some file ∧ file.tensors = .ok allTensors ∧
        collectDeltas (validateLayer allTensors) routeData.layers .empty = .ok deltas := by
  unfold validatePayload at h
  rcases hpath : resolvePayloadPath routeData baseDir with _ | filepath
  · rw [hpath] at h
    cases h
    exact Or.inl ⟨rfl, rfl⟩
  · rw [hpath] at h
    obtain ⟨file, hfile, h⟩ := Effect.bind_eq_ok.mp h
    obtain ⟨_, _, h⟩ := Effect.bind_eq_ok.mp h
    obtain ⟨_, _, h⟩ := Effect.bind_eq_ok.mp h
    obtain ⟨allTensors, hparse, hcollect⟩ := Effect.bind_eq_ok.mp h
    exact Or.inr ⟨filepath, file, allTensors, rfl, checkExists_eq_ok hfile,
      parseSafetensors_eq_ok hparse, hcollect⟩

/-- A successful validation that returned no deltas: there is no payload file
or there are no layers. -/
theorem validatePayload_of_isEmpty {files : FileSystem} {baseDir : Option String} {limit : ℕ}
    {routeData : Manifest} {deltas : Dict String Tensor}
    (h : validatePayload files baseDir limit routeData = .ok deltas)
    (hempty : deltas.isEmpty = true) :
    resolvePayloadPath routeData baseDir = none ∨ routeData.layers = [] := by
  rcases validatePayload_spec h with ⟨hpath, _⟩ | ⟨_, _, allTensors, _, _, _, hcollect⟩
  · exact Or.inl hpath
  · -- a layer would have left its delta in the dictionary
    refine Or.inr (List.eq_nil_iff_forall_not_mem.mpr fun layer hlayer => ?_)
    obtain ⟨v, hv⟩ := Dict.contains_iff.mp ((collectDeltas_spec hcollect).1 layer hlayer).2
    rw [Dict.get?_of_isEmpty hempty] at hv
    exact absurd hv (by simp)

/-- When validation returned no deltas, the loader returns none either, now or
later. -/
theorem loadPayloadDeltas_of_empty {files files' : FileSystem} {baseDir : Option String}
    {limit : ℕ} {routeData : Manifest} {deltas loaded : Dict String Tensor}
    (h : validatePayload files baseDir limit routeData = .ok deltas)
    (hempty : deltas.isEmpty = true)
    (hload : loadPayloadDeltas files' baseDir routeData = .ok loaded) : loaded = .empty := by
  unfold loadPayloadDeltas at hload
  rcases hpath : resolvePayloadPath routeData baseDir with _ | filepath
  · rw [hpath] at hload
    cases hload
    rfl
  · have hlayers : routeData.layers = [] :=
      (validatePayload_of_isEmpty h hempty).resolve_left (by simp [hpath])
    rw [hpath] at hload
    obtain ⟨_, _, hload⟩ := Effect.bind_eq_ok.mp hload
    obtain ⟨_, _, hload⟩ := Effect.bind_eq_ok.mp hload
    obtain ⟨_, _, hcollect⟩ := Effect.bind_eq_ok.mp hload
    rw [hlayers] at hcollect
    cases hcollect
    rfl

/-! ### Failed validations -/

/-- The failure classes of payload validation: none of them quarantines the
worker. -/
def FailureClass.ofPayload (fc : FailureClass) : Prop :=
  (evaluateFailure fc).targetPhase = .routeQuarantined ∨
    (evaluateFailure fc).quarantineScope = none

theorem ofPayload_of_collectDeltas {allTensors : Dict String Tensor}
    {e : PayloadValidationError} : ∀ {layers : List LayerSpec} {deltas : Dict String Tensor},
    collectDeltas (validateLayer allTensors) layers deltas = .error e →
      e.failureClass.ofPayload := by
  intro layers
  induction layers with
  | nil =>
    intro deltas h
    exact absurd h (by simp [collectDeltas])
  | cons layer layers ih =>
    intro deltas h
    rcases Effect.bind_eq_error.mp h with hlayer | ⟨_, _, hrest⟩
    · unfold validateLayer at hlayer
      split at hlayer
      · cases hlayer
        exact Or.inl rfl
      · split_ifs at hlayer <;> cases hlayer <;> exact Or.inl rfl
    · exact ih hrest

theorem ofPayload_of_checkExists {filepath : String} {found : Option PayloadFile}
    {e : PayloadValidationError} (h : checkExists filepath found = .error e) :
    e.failureClass.ofPayload := by
  rcases found with _ | file
  · cases h
    exact Or.inl rfl
  · exact absurd h (by simp [checkExists])

theorem ofPayload_of_checkSize {limit : ℕ} {file : PayloadFile} {e : PayloadValidationError}
    (h : checkSize limit file = .error e) : e.failureClass.ofPayload := by
  unfold checkSize at h
  split at h
  · cases h
    exact Or.inl rfl
  · -- a file that is too large is refused without a quarantine
    split_ifs at h
    cases h
    exact Or.inr rfl

theorem ofPayload_of_checkSha256 {expectedSha : String} {file : PayloadFile}
    {e : PayloadValidationError} (h : checkSha256 expectedSha file = .error e) :
    e.failureClass.ofPayload := by
  unfold checkSha256 at h
  split_ifs at h
  split at h
  · cases h
    exact Or.inl rfl
  · split_ifs at h
    cases h
    exact Or.inl rfl

theorem ofPayload_of_parseSafetensors {file : PayloadFile} {e : PayloadValidationError}
    (h : parseSafetensors file = .error e) : e.failureClass.ofPayload := by
  unfold parseSafetensors at h
  split at h
  · cases h
  · simp only at h
    split_ifs at h <;> cases h <;> exact Or.inl rfl

/-- A failed validation quarantines the route or nothing, never the worker. -/
theorem ofPayload_of_validatePayload {files : FileSystem} {baseDir : Option String} {limit : ℕ}
    {routeData : Manifest} {e : PayloadValidationError}
    (h : validatePayload files baseDir limit routeData = .error e) : e.failureClass.ofPayload := by
  unfold validatePayload at h
  rcases hpath : resolvePayloadPath routeData baseDir with _ | filepath
  · rw [hpath] at h
    exact absurd h (by simp)
  · rw [hpath] at h
    -- the first check that fails names the class
    rcases Effect.bind_eq_error.mp h with hexists | ⟨file, _, h⟩
    · exact ofPayload_of_checkExists hexists
    rcases Effect.bind_eq_error.mp h with hsize | ⟨_, _, h⟩
    · exact ofPayload_of_checkSize hsize
    rcases Effect.bind_eq_error.mp h with hsha | ⟨_, _, h⟩
    · exact ofPayload_of_checkSha256 hsha
    rcases Effect.bind_eq_error.mp h with hparse | ⟨allTensors, _, hcollect⟩
    · exact ofPayload_of_parseSafetensors hparse
    · exact ofPayload_of_collectDeltas hcollect
