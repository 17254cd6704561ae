/-
Release packages.

`runPackageRelease` gathers the files of a run and of an adapter in an output
directory, on top of whatever the directory holds, and records a digest for
each file it finds there.  `runPackageValidate` compares a package with its
records, and the verdict of the report in it with the recorded one.

* `released_of_release` — what a release leaves: the staged files, and the
  metadata made from the report of the run;
* `validate_eq_ok_iff` — what a successful validation says about any directory
  with the metadata of a release;
* `validate_released_iff` — a package passes its own validation unless its report
  was there before, or its verdict is NaN;
* `files_kept_of_validate` — a package that passes holds every released file
  unchanged, and files under other names go unnoticed.

Digests, the JSON files and the interpreter's `str` are parameters.
-/
import NeuralScalpel.JsonCanonical
import NeuralScalpel.Payload

open JsonValue

/-- What the commands ask of the digest, of JSON files and of the interpreter. -/
structure PackageLibrary (β φ : Type) where
  calculateSha256 : β → String
  load : β → Except PyError (JsonValue φ)
  dump : JsonValue φ → β
  encode : String → β
  display : JsonValue φ → String
  value : φ → Scalar

/-- A JSON file reads back as it was written, and reading gives dictionaries. -/
structure PackageLibrary.RoundTrips {β φ : Type} (lib : PackageLibrary β φ) : Prop where
  load_dump : ∀ v, DistinctKeys v → lib.load (lib.dump v) = .ok v
  distinct : ∀ content v, lib.load content = .ok v → DistinctKeys v

namespace Package

/-- What a name in a directory stands for. -/
inductive Entry (β : Type)
  | file (content : β)
  | folder

abbrev Folder (β : Type) := Dict String (Entry β)

/-- A directory of regular files. -/
abbrev PackageDir (β : Type) := Dict String β

section

variable {β φ : Type} (lib : PackageLibrary β φ)

/-! ### Releasing -/

/-- Copy a file of the source directory, if the name exists there. -/
def copy2 (src : Folder β) (name : String) (outputDir : PackageDir β) :
    Except PyError (PackageDir β) :=
  match src.get? name with
  | none => .ok outputDir
  | some (.file content) => .ok (outputDir.set name content)
  | some .folder => .error (.external ("IsADirectoryError: " ++ name))

def copyAll (src : Folder β) : List String → PackageDir β → Except PyError (PackageDir β)
  | [], outputDir => .ok outputDir
  | name :: names, outputDir => do
    let outputDir ← copy2 src name outputDir
    copyAll src names outputDir

def coreFiles : List String :=
  ["adapter_model.safetensors", "adapter_model.bin", "adapter_config.json"]

def reportsToCopy : List String :=
  ["diagnostic_report.json", "target_eval_results.json", "final_analysis.md"]

/-- The model card of the run, or else of the adapter. -/
def copyReadme (runDir adapterDir : Folder β) (outputDir : PackageDir β) :
    Except PyError (PackageDir β) :=
  if runDir.contains "README.md" then copy2 runDir "README.md" outputDir
  else copy2 adapterDir "README.md" outputDir

/-- The report of the run, empty without one. -/
def readReport (runDir : Folder β) : Except PyError (JsonValue φ) :=
  match runDir.get? "diagnostic_report.json" with
  | none => .ok (.obj [])
  | some (.file content) => lib.load content
  | some .folder => .error (.external "IsADirectoryError: diagnostic_report.json")

/-- `Path(value).name`, which only strings have. -/
def pathName : JsonValue φ → Except PyError String
  | .str s => .ok ((PurePosixPath.ofString s).parts.getLast?.getD "")
  | _ => .error (.external "TypeError: expected str, bytes or os.PathLike object")

def generateCitationCff (report : JsonValue φ) : Except PyError String := do
  let sourceAdapter ← getFieldD "source_adapter" (.str "unknown") report
  let targetModel ← getFieldD "target_model" (.str "unknown") report
  let name ← pathName sourceAdapter
  pure ("\n".intercalate [
    "cff-version: 1.2.0",
    "message: \"If you use this projected adapter, please cite it as follows.\"",
    "title: \"Projected Adapter: " ++ name ++ " for " ++ lib.display targetModel ++ "\"",
    "authors:",
    "  - family-names: \"Neural-Scalpel-Autogen\"",
    "version: \"1.0.0\"",
    "date-released: \"2026-05-07\"",
    "url: \"https://github.com/ponpoke/Neural-Scalpel\""])

/-- Only a report that holds something is cited. -/
def writeCitation (report : JsonValue φ) (outputDir : PackageDir β) :
    Except PyError (PackageDir β) :=
  if truthy lib.value report then do
    let cff ← generateCitationCff lib report
    pure (outputDir.set "CITATION.cff" (lib.encode cff))
  else pure outputDir

/-- The digest of every file but the metadata, by name. -/
def fileHashes (outputDir : PackageDir β) : List (String × JsonValue φ) :=
  (outputDir.entries.filter fun e => e.1 ≠ "projection_metadata.json").map fun e =>
    (e.1, .str (lib.calculateSha256 e.2))

/-- The published metadata of a report. -/
def pubMeta (report : JsonValue φ) (hashes : List (String × JsonValue φ)) :
    Except PyError (JsonValue φ) := do
  let decision ← getFieldD "release_decision_gate" (.obj []) report
  let sourceAdapter ← getFieldD "source_adapter" .null report
  let targetModel ← getFieldD "target_model" .null report
  let verdict ← getFieldD "verdict" .null decision
  let recommendation ← getFieldD "recommendation" .null decision
  pure (.obj [
    ("framework", .str "Neural-Scalpel v2.9.0"),
    ("distribution_type", .str "Projected-PEFT-Adapter"),
    ("source_adapter", sourceAdapter),
    ("target_model", targetModel),
    ("diagnostic_verdict", verdict),
    ("recommendation", recommendation),
    ("created_by", .str "neural-scalpel package-release"),
    ("integrity_hashes", .obj hashes)])

/-- A directory named on the command line. -/
structure DirArg (β : Type) where
  path : String
  contents : Option (Folder β)

/-- The directory of an argument, which has to exist. -/
def openDir (what : String) (arg : DirArg β) : Except PyError (Folder β) :=
  match arg.contents with
  | none => .error (.fileNotFoundError (what ++ " directory not found: " ++ arg.path))
  | some dir => .ok dir

/-- Build a package in the output directory, on top of what it holds. -/
def runPackageRelease (runArg adapterArg : DirArg β) (outputDir : PackageDir β) :
    Except PyError (PackageDir β) := do
  let runDir ← openDir "Run" runArg
  let adapterDir ← openDir "Adapter" adapterArg
  -- nothing is removed first: other files that are there go into the package
  let outputDir ← copyAll adapterDir coreFiles outputDir
  let outputDir ← copyAll runDir reportsToCopy outputDir
  let outputDir ← copyReadme runDir adapterDir outputDir
  let report ← readReport lib runDir
  let outputDir ← writeCitation lib report outputDir
  -- the metadata of an earlier release is left out, and then overwritten
  let metadata ← pubMeta report (fileHashes lib outputDir)
  pure (outputDir.set "projection_metadata.json" (lib.dump metadata))

/-! ### Validating -/

/-- The verdict a report tells. -/
def reportVerdict (report : JsonValue φ) : Except PyError (JsonValue φ) := do
  let gate ← getFieldD "release_decision_gate" (.obj []) report
  getFieldD "verdict" .null gate

/-- The verdict told by a report file. -/
def verdictOf (content : β) : Except PyError (JsonValue φ) := do
  let report ← lib.load content
  reportVerdict report

/-- The recorded names that are not in the package. -/
def missing (packageDir : PackageDir β) (hashes : List (String × JsonValue φ)) : List String :=
  (hashes.filter fun e => !packageDir.contains e.1).map Prod.fst

/-- The recorded names whose file has another digest. -/
def mismatches (packageDir : PackageDir β) (hashes : List (String × JsonValue φ)) :
    List String :=
  (hashes.filter fun e => (packageDir.get? e.1).any fun content =>
    !isStr (lib.calculateSha256 content) e.2).map Prod.fst

/-- The recorded digests; a value without items raises. -/
def readHashes (metadata : JsonValue φ) : Except PyError (List (String × JsonValue φ)) := do
  let hashes ← getFieldD "integrity_hashes" (.obj []) metadata
  match hashes with
  | .obj fields => .ok fields
  | _ => .error (.attributeError "object has no attribute 'items'")

/-- The report in the package tells another verdict than the metadata. -/
def diagnosticMismatch (packageDir : PackageDir β) (metadata : JsonValue φ) :
    Except PyError Bool :=
  match packageDir.get? "diagnostic_report.json" with
  | none => .ok false
  | some content => do
    let reportVerdict ← verdictOf lib content
    let verdict ← getFieldD "diagnostic_verdict" .null metadata
    pure (!equal lib.value reportVerdict verdict)

/-- Returns on success and exits otherwise. -/
def runPackageValidate (packageDir : PackageDir β) : Except PyError Unit :=
  match packageDir.get? "projection_metadata.json" with
  | none => .error (.external "SystemExit: 1")
  | some content => do
    let metadata ← lib.load content
    let hashes ← readHashes metadata
    let mismatch ← diagnosticMismatch lib packageDir metadata
    -- the files are looked up by the recorded names, and no others are looked at
    Effect.require ((missing packageDir hashes).isEmpty &&
      (mismatches lib packageDir hashes).isEmpty && !mismatch) (.external "SystemExit: 1")

end

/-! ### What a release leaves -/

section

variable {β φ : Type} {lib : PackageLibrary β φ}

/-- The file a name stands for after copying it from `src`. -/
def copied (src : Folder β) (outputDir : PackageDir β) (name : String) : Option β :=
  match src.get? name with
  | some (.file content) => some content
  | _ => outputDir.get? name

theorem copy2_cases {src : Folder β} {name : String} {out out' : PackageDir β}
    (h : copy2 src name out = .ok out') :
    src.get? name = none ∧ out' = out ∨
      ∃ content, src.get? name = some (.file content) ∧ out' = out.set name content := by
  unfold copy2 at h
  split at h
  · rename_i hnone
    cases h
    exact Or.inl ⟨hnone, rfl⟩
  · rename_i content hfile
    cases h
    exact Or.inr ⟨content, hfile, rfl⟩
  · cases h

theorem get?_copy2 {src : Folder β} {name : String} {out out' : PackageDir β}
    (h : copy2 src name out = .ok out') (n : String) :
    out'.get? n = if n = name then copied src out n else out.get? n := by
  rcases copy2_cases h with ⟨hsrc, rfl⟩ | ⟨content, hsrc, rfl⟩
  · by_cases hn : n = name
    · subst hn
      rw [if_pos rfl, copied, hsrc]
    · rw [if_neg hn]
  · rw [Dict.get?_set]
    by_cases hn : n = name
    · subst hn
      rw [if_pos rfl, if_pos rfl, copied, hsrc]
    · rw [if_neg hn, if_neg hn]

/-- What a copied name stands for depends on the old directory through that
name only. -/
theorem copied_congr {src : Folder β} {out out' : PackageDir β} {n : String}
    (h : out'.get? n = out.get? n ∨ out'.get? n = copied src out n) :
    copied src out' n = copied src out n := by
  unfold copied at h ⊢
  rcases hsrc : src.get? n with _ | entry
  · rw [hsrc] at h
    exact h.elim id id
  · cases entry with
    | file content => rfl
    | folder =>
      rw [hsrc] at h
      exact h.elim id id

theorem get?_copyAll {src : Folder β} {names : List String} {n : String} :
    ∀ {out out' : PackageDir β}, copyAll src names out = .ok out' →
      out'.get? n = if n ∈ names then copied src out n else out.get? n := by
  induction names with
  | nil =>
    intro out out' h
    cases h
    rfl
  | cons name names ih =>
    intro out out' h
    obtain ⟨out₁, hcopy, hrest⟩ := Effect.bind_eq_ok.mp h
    have hget := get?_copy2 hcopy n
    rw [ih hrest]
    -- a name that occurs twice is copied twice, from the same source
    by_cases hn : n = name
    · rw [if_pos hn] at hget
      rw [if_pos (List.mem_cons.mpr (Or.inl hn)), hget, copied_congr (Or.inr hget), ite_self]
    · rw [if_neg hn] at hget
      rw [hget, copied_congr (Or.inl hget)]
      by_cases hmem : n ∈ names
      · rw [if_pos hmem, if_pos (List.mem_cons_of_mem _ hmem)]
      · rw [if_neg hmem, if_neg fun h => hmem ((List.mem_cons.mp h).resolve_left hn)]

theorem distinctKeys_nil : DistinctKeys (.obj [] : JsonValue φ) := ⟨List.nodup_nil, trivial⟩

/-- A field of a dictionary is a dictionary with distinct keys again. -/
theorem distinctKeys_of_getFieldD {key : String} {default v field : JsonValue φ}
    (hv : DistinctKeys v) (hdefault : DistinctKeys default)
    (h : getFieldD key default v = .ok field) : DistinctKeys field := by
  obtain ⟨fields, rfl, rfl⟩ := getFieldD_eq_ok.mp h
  cases hlookup : fields.lookup key with
  | none => exact hdefault
  | some w =>
    have hmem := (Dict.lookup_eq_some_iff_mem hv.1).mp hlookup
    exact distinctFields_iff.mp hv.2 _ hmem

theorem distinctKeys_fileHashes (outputDir : PackageDir β) :
    DistinctKeys (.obj (fileHashes lib outputDir)) := by
  refine ⟨?_, distinctFields_iff.mpr fun e he => ?_⟩
  · rw [fileHashes, List.map_map]
    exact outputDir.nodup.sublist (List.filter_sublist.map Prod.fst)
  · obtain ⟨e₀, -, rfl⟩ := List.mem_map.mp he
    trivial

/-- What a release leaves: `staged` is the directory when the digests are
taken, before the metadata is written. -/
structure Released (lib : PackageLibrary β φ) (runDir : Folder β)
    (outputDir staged packageDir : PackageDir β) (report verdict : JsonValue φ)
    (metadata : List (String × JsonValue φ)) : Prop where
  read : readReport lib runDir = .ok report
  told : reportVerdict report = .ok verdict
  recorded : metadata.lookup "diagnostic_verdict" = some verdict
  hashes : metadata.lookup "integrity_hashes" = some (.obj (fileHashes lib staged))
  distinct : DistinctKeys (.obj metadata)
  reported : staged.get? "diagnostic_report.json" =
    copied runDir outputDir "diagnostic_report.json"
  written : packageDir = staged.set "projection_metadata.json" (lib.dump (.obj metadata))

theorem distinct_of_readReport (hlib : lib.RoundTrips) {runDir : Folder β} {report : JsonValue φ}
    (h : readReport lib runDir = .ok report) : DistinctKeys report := by
  unfold readReport at h
  split at h
  · cases h
    exact distinctKeys_nil
  · exact hlib.distinct _ _ h
  · cases h

/-- The verdict a release records is the one its report tells. -/
theorem pubMeta_spec {report metadata : JsonValue φ} {hashes : List (String × JsonValue φ)}
    (hreport : DistinctKeys report) (hhashes : DistinctKeys (.obj hashes))
    (h : pubMeta report hashes = .ok metadata) :
    ∃ fields verdict, metadata = .obj fields ∧ DistinctKeys (.obj fields) ∧
      reportVerdict report = .ok verdict ∧
      fields.lookup "diagnostic_verdict" = some verdict ∧
      fields.lookup "integrity_hashes" = some (.obj hashes) := by
  have hnull : DistinctKeys (.null : JsonValue φ) := trivial
  obtain ⟨decision, hdecision, h⟩ := Effect.bind_eq_ok.mp h
  obtain ⟨sourceAdapter, hsource, h⟩ := Effect.bind_eq_ok.mp h
  obtain ⟨targetModel, htarget, h⟩ := Effect.bind_eq_ok.mp h
  obtain ⟨verdict, hverdict, h⟩ := Effect.bind_eq_ok.mp h
  obtain ⟨recommendation, hrecommendation, h⟩ := Effect.bind_eq_ok.mp h
  cases h
  have hgate := distinctKeys_of_getFieldD hreport distinctKeys_nil hdecision
  refine ⟨_, verdict, rfl, ⟨?_, trivial, trivial, distinctKeys_of_getFieldD hreport hnull hsource,
    distinctKeys_of_getFieldD hreport hnull htarget, distinctKeys_of_getFieldD hgate hnull hverdict,
    distinctKeys_of_getFieldD hgate hnull hrecommendation, trivial, hhashes, trivial⟩,
    Effect.bind_eq_ok.mpr ⟨decision, hdecision, hverdict⟩, rfl, rfl⟩
  show ["framework", "distribution_type", "source_adapter", "target_model", "diagnostic_verdict",
    "recommendation", "created_by", "integrity_hashes"].Nodup
  decide

theorem get?_writeCitation {report : JsonValue φ} {out out' : PackageDir β}
    (h : writeCitation lib report out = .ok out') {n : String} (hn : n ≠ "CITATION.cff") :
    out'.get? n = out.get? n := by
  unfold writeCitation at h
  by_cases htruthy : truthy lib.value report = true
  · rw [if_pos htruthy] at h
    obtain ⟨cff, -, h⟩ := Effect.bind_eq_ok.mp h
    cases h
    exact Dict.get?_set_of_ne hn
  · rw [if_neg htruthy] at h
    cases h
    rfl

theorem get?_copyReadme {runDir adapterDir : Folder β} {out out' : PackageDir β}
    (h : copyReadme runDir adapterDir out = .ok out') {n : String} (hn : n ≠ "README.md") :
    out'.get? n = out.get? n := by
  unfold copyReadme at h
  by_cases hrun : runDir.contains "README.md" = true
  · rw [if_pos hrun] at h
    rw [get?_copy2 h, if_neg hn]
  · rw [if_neg hrun] at h
    rw [get?_copy2 h, if_neg hn]

/-- What a release that completes has done. -/
theorem released_of_release (hlib : lib.RoundTrips) {runArg adapterArg : DirArg β}
    {outputDir packageDir : PackageDir β}
    (h : runPackageRelease lib runArg adapterArg outputDir = .ok packageDir) :
    ∃ runDir staged report verdict metadata, runArg.contents = some runDir ∧
      Released lib runDir outputDir staged packageDir report verdict metadata := by
  obtain ⟨runDir, hrun, h⟩ := Effect.bind_eq_ok.mp h
  obtain ⟨adapterDir, hadapter, h⟩ := Effect.bind_eq_ok.mp h
  obtain ⟨out₁, hcore, h⟩ := Effect.bind_eq_ok.mp h
  obtain ⟨out₂, hreports, h⟩ := Effect.bind_eq_ok.mp h
  obtain ⟨out₃, hreadme, h⟩ := Effect.bind_eq_ok.mp h
  obtain ⟨report, hread, h⟩ := Effect.bind_eq_ok.mp h
  obtain ⟨staged, hcite, h⟩ := Effect.bind_eq_ok.mp h
  obtain ⟨metadata, hmeta, h⟩ := Effect.bind_eq_ok.mp h
  cases h
  obtain ⟨fields, verdict, rfl, hdistinct, htold, hrecorded, hhashes⟩ :=
    pubMeta_spec (distinct_of_readReport hlib hread) (distinctKeys_fileHashes staged) hmeta
  refine ⟨runDir, staged, report, verdict, fields, ?_, hread, htold, hrecorded, hhashes, hdistinct,
    ?_, rfl⟩
  · unfold openDir at hrun
    cases hcontents : runArg.contents with
    | none =>
      rw [hcontents] at hrun
      cases hrun
    | some dir =>
      rw [hcontents] at hrun
      cases hrun
      rfl
  · -- of all the files written, only the report of the run has that name
    have hfirst : out₁.get? "diagnostic_report.json" = outputDir.get? "diagnostic_report.json" := by
      rw [get?_copyAll hcore, if_neg (by decide)]
    rw [get?_writeCitation hcite (by decide), get?_copyReadme hreadme (by decide),
      get?_copyAll hreports, if_pos (by decide), copied_congr (Or.inl hfirst)]

/-! ### What a validation says -/

theorem mem_fileHashes {staged : PackageDir β} {e : String × JsonValue φ} :
    e ∈ fileHashes lib staged ↔ e.1 ≠ "projection_metadata.json" ∧
      ∃ content, staged.get? e.1 = some content ∧ e.2 = .str (lib.calculateSha256 content) := by
  rw [fileHashes, List.mem_map]
  constructor
  · rintro ⟨e₀, he₀, rfl⟩
    obtain ⟨hmem, hname⟩ := List.mem_filter.mp he₀
    exact ⟨by simpa using hname, e₀.2, Dict.mem_entries_iff.mp hmem, rfl⟩
  · rintro ⟨hname, content, hget, hhash⟩
    refine ⟨(e.1, content), List.mem_filter.mpr ⟨Dict.mem_entries_iff.mpr hget, ?_⟩, ?_⟩
    · exact decide_eq_true hname
    · exact Prod.ext rfl hhash.symm

/-- Every recorded file is there, with its digest. -/
def FilesMatch (lib : PackageLibrary β φ) (staged packageDir : PackageDir β) : Prop :=
  ∀ name content, name ≠ "projection_metadata.json" → staged.get? name = some content →
    ∃ content', packageDir.get? name = some content' ∧
      lib.calculateSha256 content' = lib.calculateSha256 content

theorem filesMatch_iff {staged packageDir : PackageDir β} :
    FilesMatch lib staged packageDir ↔
      (missing packageDir (fileHashes lib staged)).isEmpty = true ∧
        (mismatches lib packageDir (fileHashes lib staged)).isEmpty = true := by
  rw [missing, mismatches, List.isEmpty_map, List.isEmpty_map, List.isEmpty_iff, List.isEmpty_iff,
    List.filter_eq_nil_iff, List.filter_eq_nil_iff]
  constructor
  · intro h
    constructor
    · intro e he
      obtain ⟨hname, content, hget, -⟩ := mem_fileHashes.mp he
      obtain ⟨content', hget', -⟩ := h e.1 content hname hget
      simp [Dict.contains_iff.mpr ⟨content', hget'⟩]
    · intro e he
      obtain ⟨hname, content, hget, hhash⟩ := mem_fileHashes.mp he
      obtain ⟨content', hget', hsha⟩ := h e.1 content hname hget
      rw [hget', Option.any_some, hhash, hsha, isStr_iff.mpr rfl]
      decide
  · rintro ⟨hmissing, hmismatch⟩ name content hname hget
    have he : (name, JsonValue.str (lib.calculateSha256 content)) ∈ fileHashes lib staged :=
      mem_fileHashes.mpr ⟨hname, content, hget, rfl⟩
    have hcontains := hmissing _ he
    have hsame := hmismatch _ he
    rw [Bool.not_eq_true', Bool.not_eq_false, Dict.contains_iff] at hcontains
    obtain ⟨content', hget'⟩ := hcontains
    refine ⟨content', hget', ?_⟩
    rw [hget', Option.any_some, Bool.not_eq_true', Bool.not_eq_false, isStr_iff] at hsame
    exact (JsonValue.str.inj hsame).symm

/-- The report in the package, if there is one, tells the recorded verdict. -/
def ReportMatches (lib : PackageLibrary β φ) (packageDir : PackageDir β) (verdict : JsonValue φ) :
    Prop :=
  ∀ content, packageDir.get? "diagnostic_report.json" = some content →
    ∃ v, verdictOf lib content = .ok v ∧ equal lib.value v verdict = true

theorem diagnosticMismatch_eq_ok_false {packageDir : PackageDir β}
    {metadata : List (String × JsonValue φ)} {verdict : JsonValue φ}
    (hverdict : metadata.lookup "diagnostic_verdict" = some verdict) :
    diagnosticMismatch lib packageDir (.obj metadata) = .ok false ↔
      ReportMatches lib packageDir verdict := by
  have hfield : getFieldD "diagnostic_verdict" .null (.obj metadata) = .ok verdict :=
    getFieldD_eq_ok.mpr ⟨metadata, rfl, by rw [hverdict, Option.getD_some]⟩
  unfold diagnosticMismatch ReportMatches
  cases hreport : packageDir.get? "diagnostic_report.json" with
  | none => simp
  | some content =>
    simp only [Effect.bind_eq_ok, hfield]
    constructor
    · rintro ⟨v, hv, w, hw, hequal⟩ c hc
      cases hc
      cases hw
      refine ⟨v, hv, ?_⟩
      have := Except.ok.inj hequal
      simpa using this
    · intro h
      obtain ⟨v, hv, hequal⟩ := h content rfl
      exact ⟨v, hv, verdict, rfl, by rw [hequal]; rfl⟩

/-- What a successful validation says about a directory that holds the metadata
of a release. -/
theorem validate_eq_ok_iff (hlib : lib.RoundTrips) {runDir : Folder β}
    {outputDir staged packageDir packageDir' : PackageDir β} {report verdict : JsonValue φ}
    {metadata : List (String × JsonValue φ)}
    (h : Released lib runDir outputDir staged packageDir report verdict metadata)
    (hkept : packageDir'.get? "projection_metadata.json" =
      packageDir.get? "projection_metadata.json") :
    runPackageValidate lib packageDir' = .ok () ↔
      FilesMatch lib staged packageDir' ∧ ReportMatches lib packageDir' verdict := by
  have hhashes : readHashes (.obj metadata) = .ok (fileHashes lib staged) := by
    refine Effect.bind_eq_ok.mpr ⟨.obj (fileHashes lib staged), ?_, rfl⟩
    exact getFieldD_eq_ok.mpr ⟨metadata, rfl, by rw [h.hashes, Option.getD_some]⟩
  rw [h.written, Dict.get?_set_self] at hkept
  rw [runPackageValidate, hkept, filesMatch_iff, ← diagnosticMismatch_eq_ok_false h.recorded]
  simp only [Effect.bind_eq_ok, Effect.require_eq_ok, Bool.and_eq_true, Bool.not_eq_true']
  constructor
  · rintro ⟨m, hm, hashes, hread, mismatch, hmismatch, ⟨hmissing, hsame⟩, rfl⟩
    rw [hlib.load_dump _ h.distinct] at hm
    cases hm
    rw [hhashes] at hread
    cases hread
    exact ⟨⟨hmissing, hsame⟩, hmismatch⟩
  · rintro ⟨hfiles, hmismatch⟩
    exact ⟨_, hlib.load_dump _ h.distinct, _, hhashes, false, hmismatch, hfiles, rfl⟩

/-! ### A package and its own validation -/

/-- The recorded verdict is the one of the report in the package: the run has a
report whose verdict is not NaN, or it has none, and what the output directory
held under that name tells no verdict. -/
def VerdictRecorded (lib : PackageLibrary β φ) (runArg : DirArg β) (outputDir : PackageDir β) :
    Prop :=
  match runArg.contents.bind fun runDir => runDir.get? "diagnostic_report.json" with
  | some (.file content) => ∀ v, verdictOf lib content = .ok v → isNan lib.value v = false
  | _ => ∀ content, outputDir.get? "diagnostic_report.json" = some content →
      verdictOf lib content = .ok .null

theorem distinct_of_told (hlib : lib.RoundTrips) {content : β} {report verdict : JsonValue φ}
    (hread : lib.load content = .ok report) (htold : reportVerdict report = .ok verdict) :
    DistinctKeys verdict := by
  have hnull : DistinctKeys (.null : JsonValue φ) := trivial
  obtain ⟨gate, hgate, hfield⟩ := Effect.bind_eq_ok.mp htold
  exact distinctKeys_of_getFieldD
    (distinctKeys_of_getFieldD (hlib.distinct _ _ hread) distinctKeys_nil hgate) hnull hfield

/-- When the report in a package tells the verdict recorded for it. -/
theorem reportMatches_released_iff (hlib : lib.RoundTrips) {runArg : DirArg β} {runDir : Folder β}
    {outputDir staged packageDir : PackageDir β} {report verdict : JsonValue φ}
    {metadata : List (String × JsonValue φ)} (hrun : runArg.contents = some runDir)
    (h : Released lib runDir outputDir staged packageDir report verdict metadata) :
    ReportMatches lib packageDir verdict ↔ VerdictRecorded lib runArg outputDir := by
  have hreported : packageDir.get? "diagnostic_report.json" =
      copied runDir outputDir "diagnostic_report.json" := by
    rw [h.written, Dict.get?_set_of_ne (by decide), h.reported]
  rw [VerdictRecorded, hrun, Option.bind_some, ReportMatches, hreported]
  have hread := h.read
  have htold := h.told
  unfold readReport at hread
  unfold copied
  cases hentry : runDir.get? "diagnostic_report.json" with
  | none =>
    -- an empty report, and the verdict it does not tell
    rw [hentry] at hread
    cases hread
    cases htold
    constructor
    · intro hmatch content hcontent
      obtain ⟨v, hv, hequal⟩ := hmatch content hcontent
      rw [hv, equal_null_iff.mp hequal]
    · intro hnull content hcontent
      exact ⟨.null, hnull content hcontent, rfl⟩
  | some entry =>
    rw [hentry] at hread
    cases entry with
    | folder => cases hread
    | file content =>
      -- the report that was read is the one that was copied
      have hverdict : verdictOf lib content = .ok verdict :=
        Effect.bind_eq_ok.mpr ⟨report, hread, htold⟩
      have hself : equal lib.value verdict verdict = !isNan lib.value verdict :=
        equal_self (distinct_of_told hlib hread htold)
      constructor
      · intro hmatch v hv
        obtain ⟨w, hw, hequal⟩ := hmatch content rfl
        rw [hverdict] at hv hw
        cases hv
        cases hw
        rw [hself] at hequal
        simpa using hequal
      · intro hnan content' hcontent'
        cases hcontent'
        exact ⟨verdict, hverdict, by rw [hself, hnan verdict hverdict]; rfl⟩

theorem filesMatch_released {runDir : Folder β} {outputDir staged packageDir : PackageDir β}
    {report verdict : JsonValue φ} {metadata : List (String × JsonValue φ)}
    (h : Released lib runDir outputDir staged packageDir report verdict metadata) :
    FilesMatch lib staged packageDir := by
  intro name content hname hget
  rw [h.written, Dict.get?_set_of_ne hname]
  exact ⟨content, hget, rfl⟩

/-- **When a package passes its own validation.** -/
theorem validate_released_iff (hlib : lib.RoundTrips) {runArg adapterArg : DirArg β}
    {outputDir packageDir : PackageDir β}
    (h : runPackageRelease lib runArg adapterArg outputDir = .ok packageDir) :
    runPackageValidate lib packageDir = .ok () ↔ VerdictRecorded lib runArg outputDir := by
  obtain ⟨runDir, staged, report, verdict, metadata, hrun, hreleased⟩ :=
    released_of_release hlib h
  rw [validate_eq_ok_iff hlib hreleased rfl, and_iff_right (filesMatch_released hreleased),
    reportMatches_released_iff hlib hrun hreleased]

/-! ### Changes after the release -/

/-- Only the recorded names are looked up. -/
theorem missing_congr {packageDir packageDir' : PackageDir β}
    {hashes : List (String × JsonValue φ)}
    (h : ∀ e ∈ hashes, packageDir'.get? e.1 = packageDir.get? e.1) :
    missing packageDir' hashes = missing packageDir hashes := by
  refine congrArg (List.map Prod.fst) (List.filter_congr fun e he => ?_)
  rw [Dict.contains, Dict.contains, h e he]

theorem mismatches_congr {packageDir packageDir' : PackageDir β}
    {hashes : List (String × JsonValue φ)}
    (h : ∀ e ∈ hashes, packageDir'.get? e.1 = packageDir.get? e.1) :
    mismatches lib packageDir' hashes = mismatches lib packageDir hashes := by
  refine congrArg (List.map Prod.fst) (List.filter_congr fun e he => ?_)
  rw [h e he]

/-- A file under a name that was not released changes nothing for the
validation, unless it is a report. -/
theorem validate_set (hlib : lib.RoundTrips) {runArg adapterArg : DirArg β}
    {outputDir packageDir packageDir' : PackageDir β}
    (h : runPackageRelease lib runArg adapterArg outputDir = .ok packageDir)
    (hkept : packageDir'.get? "projection_metadata.json" =
      packageDir.get? "projection_metadata.json") {name : String}
    (hnew : packageDir.get? name = none) (hname : name ≠ "diagnostic_report.json")
    (content : β) :
    runPackageValidate lib (packageDir'.set name content) =
      runPackageValidate lib packageDir' := by
  obtain ⟨runDir, staged, report, verdict, metadata, -, hreleased⟩ := released_of_release hlib h
  have hmeta : "projection_metadata.json" ≠ name := by
    rintro rfl
    rw [hreleased.written, Dict.get?_set_self] at hnew
    cases hnew
  have hother : ∀ n, n ≠ name → (packageDir'.set name content).get? n = packageDir'.get? n :=
    fun n hn => Dict.get?_set_of_ne hn
  have hhashes : readHashes (.obj metadata) = .ok (fileHashes lib staged) := by
    refine Effect.bind_eq_ok.mpr ⟨.obj (fileHashes lib staged), ?_, rfl⟩
    exact getFieldD_eq_ok.mpr ⟨metadata, rfl, by rw [hreleased.hashes, Option.getD_some]⟩
  -- the new name is not recorded
  have hrecorded : ∀ e ∈ fileHashes lib staged,
      (packageDir'.set name content).get? e.1 = packageDir'.get? e.1 := by
    intro e he
    obtain ⟨hne, c, hget, -⟩ := mem_fileHashes.mp he
    refine hother e.1 ?_
    rintro rfl
    rw [hreleased.written, Dict.get?_set_of_ne hne, hget] at hnew
    cases hnew
  have hreport : diagnosticMismatch lib (packageDir'.set name content) (.obj metadata) =
      diagnosticMismatch lib packageDir' (.obj metadata) := by
    rw [diagnosticMismatch, diagnosticMismatch, hother _ (Ne.symm hname)]
  have hload : packageDir'.get? "projection_metadata.json" = some (lib.dump (.obj metadata)) := by
    rw [hkept, hreleased.written, Dict.get?_set_self]
  rw [runPackageValidate, runPackageValidate, hother _ hmeta, hload]
  simp only [hlib.load_dump _ hreleased.distinct]
  show (readHashes _ >>= _) = (readHashes _ >>= _)
  rw [hhashes]
  show (diagnosticMismatch _ _ _ >>= _) = (diagnosticMismatch _ _ _ >>= _)
  rw [hreport, missing_congr hrecorded, mismatches_congr hrecorded]

/-- **What a validation says of a released package.**  If it passes, every
released file is there unchanged; and files under other names go unnoticed. -/
theorem files_kept_of_validate (hlib : lib.RoundTrips)
    (hsha : Function.Injective lib.calculateSha256) {runArg adapterArg : DirArg β}
    {outputDir packageDir packageDir' : PackageDir β}
    (h : runPackageRelease lib runArg adapterArg outputDir = .ok packageDir)
    (hkept : packageDir'.get? "projection_metadata.json" =
      packageDir.get? "projection_metadata.json") :
    (runPackageValidate lib packageDir' = .ok () → ∀ name content,
      packageDir.get? name = some content → packageDir'.get? name = some content) ∧
    ∀ name content, packageDir.get? name = none → name ≠ "diagnostic_report.json" →
      runPackageValidate lib (packageDir'.set name content) =
        runPackageValidate lib packageDir' := by
  refine ⟨fun hpass name content hget => ?_,
    fun name content hnew hname => validate_set hlib h hkept hnew hname content⟩
  obtain ⟨runDir, staged, report, verdict, metadata, -, hreleased⟩ := released_of_release hlib h
  by_cases hname : name = "projection_metadata.json"
  · rw [hname, hkept, ← hname, hget]
  · rw [hreleased.written, Dict.get?_set_of_ne hname] at hget
    -- equal digests, equal contents
    obtain ⟨content', hget', hhash⟩ :=
      ((validate_eq_ok_iff hlib hreleased hkept).mp hpass).1 name content hname hget
    rw [hget', hsha hhash]

end

/-! ### A release at work -/

namespace Demo

/-- Texts as files, with the digest of the empty object known. -/
noncomputable def library : PackageLibrary String Empty where
  calculateSha256 :=
    JsonText.digestKnown "\x7b\x7d"
      "44136fa355b3678a1146ad16f7e8649e94fb4fc21fe77e8310c060f61caaff8a"
  load := JsonText.decode JsonText.noFloats
  dump v := String.ofList (JsonText.write JsonText.noFloats JsonText.spaced v)
  encode s := s
  display _ := ""
  value x := x.elim

theorem library_roundTrips : library.RoundTrips where
  load_dump _ h := JsonText.decode_write _ h
  distinct _ _ h := JsonText.distinctKeys_of_decode h

theorem library_injective : Function.Injective library.calculateSha256 :=
  JsonText.digestKnown_injective (by decide)

/-- A run without a report. -/
def runArg : DirArg String := ⟨"run", some .empty⟩

/-- An adapter with an empty configuration. -/
def adapterArg : DirArg String :=
  ⟨"adapter", some (Dict.ofWrites [("adapter_config.json", .file "\x7b\x7d")])⟩

/-- The report of an earlier release. -/
def staleReport : JsonValue Empty :=
  .obj [("release_decision_gate", .obj [("verdict", .str "RELEASE_READY")])]

/-- An output directory that still holds it. -/
noncomputable def staleOutput : PackageDir String :=
  Dict.ofWrites [("diagnostic_report.json", library.dump staleReport)]

theorem verdictOf_staleReport :
    verdictOf library (library.dump staleReport) = .ok (.str "RELEASE_READY") := by
  have hdistinct : DistinctKeys staleReport :=
    ⟨by decide, ⟨by decide, trivial, trivial⟩, trivial⟩
  rw [verdictOf, library_roundTrips.load_dump _ hdistinct]
  rfl

theorem release_stale :
    ∃ packageDir, runPackageRelease library runArg adapterArg staleOutput = .ok packageDir :=
  ⟨_, rfl⟩

theorem release_empty :
    ∃ packageDir, runPackageRelease library runArg adapterArg .empty = .ok packageDir ∧
      packageDir.get? "extra.bin" = none ∧ packageDir.get? "more.bin" = none :=
  ⟨_, rfl, rfl, rfl⟩

/-- A release into an empty directory passes. -/
theorem validate_empty {packageDir : PackageDir String}
    (h : runPackageRelease library runArg adapterArg .empty = .ok packageDir) :
    runPackageValidate library packageDir = .ok () := by
  obtain ⟨runDir, staged, report, verdict, metadata, hrun, hreleased⟩ :=
    released_of_release library_roundTrips h
  refine (validate_eq_ok_iff library_roundTrips hreleased rfl).mpr
    ⟨filesMatch_released hreleased, ?_⟩
  refine (reportMatches_released_iff library_roundTrips hrun hreleased).mpr ?_
  intro content hcontent
  cases hcontent

end Demo

/-- A report left in the output directory by an earlier release is packaged
with metadata that does not know its verdict. -/
theorem release_fails_validation :
    ∃ packageDir, runPackageRelease Demo.library Demo.runArg Demo.adapterArg Demo.staleOutput =
        .ok packageDir ∧
      runPackageValidate Demo.library packageDir ≠ .ok () := by
  obtain ⟨packageDir, h⟩ := Demo.release_stale
  refine ⟨packageDir, h, fun hpass => ?_⟩
  obtain ⟨runDir, staged, report, verdict, metadata, hrun, hreleased⟩ :=
    released_of_release Demo.library_roundTrips h
  have hmatch := ((validate_eq_ok_iff Demo.library_roundTrips hreleased rfl).mp hpass).2
  have hrecorded := (reportMatches_released_iff Demo.library_roundTrips hrun hreleased).mp hmatch
  have hnull := hrecorded _ (rfl : Demo.staleOutput.get? "diagnostic_report.json" = some _)
  rw [Demo.verdictOf_staleReport] at hnull
  cases hnull

/-- The law, on a release into an empty directory. -/
theorem validate_released_empty :
    ∃ packageDir, runPackageRelease Demo.library Demo.runArg Demo.adapterArg .empty =
        .ok packageDir ∧
      (runPackageValidate Demo.library packageDir = .ok () ↔
        VerdictRecorded Demo.library Demo.runArg .empty) := by
  obtain ⟨packageDir, h, -⟩ := Demo.release_empty
  exact ⟨packageDir, h, validate_released_iff Demo.library_roundTrips h⟩

/-- A file added to a package goes unnoticed. -/
theorem validate_with_added_file :
    ∃ packageDir, runPackageRelease Demo.library Demo.runArg Demo.adapterArg .empty =
        .ok packageDir ∧
      (packageDir.set "extra.bin" "x").get? "projection_metadata.json" =
        packageDir.get? "projection_metadata.json" ∧
      runPackageValidate Demo.library (packageDir.set "extra.bin" "x") = .ok () ∧
      (packageDir.set "extra.bin" "x").get? "extra.bin" ≠ packageDir.get? "extra.bin" := by
  obtain ⟨packageDir, h, hnew, -⟩ := Demo.release_empty
  refine ⟨packageDir, h, Dict.get?_set_of_ne (by decide), ?_, ?_⟩
  · rw [validate_set Demo.library_roundTrips h rfl hnew (by decide)]
    exact Demo.validate_empty h
  · rw [Dict.get?_set_self, hnew]
    exact Option.some_ne_none _

/-- The released files of a package with a file more are all there, and another
file changes nothing. -/
theorem files_kept_with_added_file :
    ∃ packageDir, runPackageRelease Demo.library Demo.runArg Demo.adapterArg .empty =
        .ok packageDir ∧
      (∀ name content, packageDir.get? name = some content →
        (packageDir.set "extra.bin" "x").get? name = some content) ∧
      runPackageValidate Demo.library ((packageDir.set "extra.bin" "x").set "more.bin" "y") =
        .ok () := by
  obtain ⟨packageDir, h, hnew, hnew'⟩ := Demo.release_empty
  have hmeta : (packageDir.set "extra.bin" "x").get? "projection_metadata.json" =
      packageDir.get? "projection_metadata.json" := Dict.get?_set_of_ne (by decide)
  obtain ⟨hkept, hadded⟩ := files_kept_of_validate Demo.library_roundTrips
    Demo.library_injective h hmeta
  have hpass : runPackageValidate Demo.library (packageDir.set "extra.bin" "x") = .ok () := by
    rw [validate_set Demo.library_roundTrips h rfl hnew (by decide)]
    exact Demo.validate_empty h
  exact ⟨packageDir, h, hkept hpass, (hadded _ _ hnew' (by decide)).trans hpass⟩

end Package
