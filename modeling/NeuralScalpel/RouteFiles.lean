/-
Route files.

The route manager writes a route to a file named by the last components of its
source and target ids and its domain, and loads it from there when the ids hash
to what the file says.

* `createRoute`, `signRoute`, `verifyAndLoadRoute` — the manager;
* `verify_eq_ok_iff` — when the file of a route loads;
* `loads_both_iff` — exactly when two routes do not overwrite each other;
* `loads_createAll` — after any number of calls, a route whose file no later call
  has written loads;
* `loads_signed_iff` — under which keys a route that has been signed loads.

The file system, the hashes and the JSON reader and writer are parameters.
-/
import NeuralScalpel.RouteSigner
import NeuralScalpel.Substrings

/-- What the manager uses of its host. -/
structure RouteHost (φ β ι : Type) where
  /-- `str.encode("utf-8")`. -/
  encode : String → β
  /-- `hashlib.sha256(data).hexdigest()`. -/
  sha256 : β → String
  /-- `hmac.HMAC(key, payload, sha256).hexdigest()`, of texts. -/
  hmac : String → String → String
  /-- `json.dumps(value, sort_keys=True)`. -/
  sortedText : JsonValue φ → String
  display : JsonValue φ → String
  /-- Which number a float is. -/
  value : φ → Scalar
  /-- `json.dump(value, f, indent=4)`. -/
  dump : JsonValue φ → β
  /-- `json.load(f)`. -/
  load : β → Except PyError (JsonValue φ)
  /-- The file a path names; none where opening it for writing raises. -/
  locate : String → Option ι
  load_dump : ∀ v, JsonValue.DistinctKeys v → load (dump v) = .ok v

namespace ScalpelRouteManager

open JsonValue

variable {φ β ι : Type}

/-! ### Calls -/

/-- `f"{drift:.4f}"`, as far as it raises. -/
def formatDrift : JsonValue φ → Except PyError Unit
  | .float _ => .ok ()
  | .bool _ => .ok ()
  -- an integer is converted to a float first
  | .int n =>
    if n.natAbs < 2 ^ 1024 - 2 ^ 970 then .ok ()
    else .error (.external "OverflowError: int too large to convert to float")
  | .str _ => .error (.valueError "Unknown format code 'f' for object of type 'str'")
  | _ => .error (.external "TypeError: unsupported format string")

/-- The arguments of a call: the matrices are JSON values, and the drift is a number. -/
structure RouteCall (φ : Type) where
  sourceId : String
  targetId : String
  domain : String
  rMatrix : JsonValue φ
  sFactor : JsonValue φ
  expectedDrift : JsonValue φ
  rMatrix_distinct : DistinctKeys rMatrix
  sFactor_distinct : DistinctKeys sFactor
  drift_number : formatDrift expectedDrift = .ok ()

/-- `text.split('/')[-1]`. -/
def lastComponent (text : String) : String :=
  String.ofList ((text.toList.splitOn '/').getLastD [])

def fileName (c : RouteCall φ) : String :=
  lastComponent c.sourceId ++ "-to-" ++ lastComponent c.targetId ++ "-" ++ c.domain ++
    ".scalpel_route"

/-- `os.path.join(dir, name)`. -/
def joinPath (dir name : String) : String :=
  if name.toList.head? = some '/' ∨ dir = "" then name
  else if dir.toList.getLast? = some '/' then dir ++ name
  else dir ++ "/" ++ name

def routePath (routeDir : String) (c : RouteCall φ) : String := joinPath routeDir (fileName c)

def matrices (c : RouteCall φ) : JsonValue φ := .obj [("R", c.rMatrix), ("s", c.sFactor)]

/-- `route_data`, before it is signed. -/
def document (sourceHash targetHash : String) (c : RouteCall φ) : JsonValue φ :=
  .obj [("metadata", .obj [("source", .str c.sourceId), ("target", .str c.targetId),
      ("domain", .str c.domain), ("source_hash", .str sourceHash),
      ("target_hash", .str targetHash), ("expected_drift", c.expectedDrift),
      ("version", .str "1.0")]),
    ("matrices", matrices c), ("signature", .null)]

section

variable [DecidableEq ι] (host : RouteHost φ β ι)

/-! ### The manager -/

/-- The content of the file that a path names, if there is one. -/
def contentAt (files : Dict ι β) (path : String) : Option β := host.locate path >>= files.get?

/-- `calculate_hash`: of a file if the identifier names one, else of its text. -/
def calculateHash (files : Dict ι β) (id : String) : String :=
  match contentAt host files id with
  | some content => host.sha256 content
  | none => host.sha256 (host.encode id)

/-- `with open(filepath, "w") as f: json.dump(route_data, f, indent=4)`. -/
def writeRoute (filepath : String) (routeData : JsonValue φ) : EStateM PyError (Dict ι β) Unit :=
  match host.locate filepath with
  | none => throw (.external "OSError")
  | some file => modify fun files => files.set file (host.dump routeData)

/-- `create_route`. -/
def createRoute (routeDir : String) (c : RouteCall φ) : EStateM PyError (Dict ι β) String := do
  let files ← get
  let routeData := document (calculateHash host files c.sourceId)
    (calculateHash host files c.targetId) c
  writeRoute host (routePath routeDir c) routeData
  pure (routePath routeDir c)

/-- `value[key]`, for a key that is a string. -/
def subscript (key : String) : JsonValue φ → Except PyError (JsonValue φ)
  | .obj fields =>
    match fields.lookup key with
    | some field => .ok field
    | none => .error (.keyError key)
  | _ => .error (.external "TypeError: indices must be integers")

/-- `route_data["signature"] = value`. -/
def withSignature (signature : JsonValue φ) : JsonValue φ → Except PyError (JsonValue φ)
  | .obj fields => .ok (.obj (Dict.setEntries "signature" signature fields))
  | _ => .error (.external "TypeError: object does not support item assignment")

def readRoute (files : Dict ι β) (filepath : String) : Except PyError (JsonValue φ) :=
  match contentAt host files filepath with
  | none => .error (.fileNotFoundError ("Route file not found: " ++ filepath))
  | some content => host.load content

/-- `sign_route`. -/
def signRoute (filepath providerKey : String) : EStateM PyError (Dict ι β) Unit := do
  let files ← get
  let routeData ← Effect.ofExcept (readRoute host files filepath)
  let unsigned ← Effect.ofExcept (withSignature .null routeData)
  let signature := host.hmac providerKey (host.sortedText unsigned)
  let signed ← Effect.ofExcept (withSignature (.str signature) unsigned)
  writeRoute host filepath signed

/-- One of the keys has made the signature; those after it are not tried. -/
def verifiedBy (payload : String) (signature : JsonValue φ) : List String → Except PyError Bool
  | [] => .ok false
  | key :: keys => do
    if ← RouteSigner.compareDigest (host.hmac key payload) signature then pure true
    else verifiedBy payload signature keys

/-- The chain of trust, which is checked only when there are keys to trust. -/
def verifyTrust (trustedKeys : Option (List String)) (routeData : JsonValue φ) :
    Except PyError Unit :=
  match trustedKeys with
  | none => .ok ()
  | some keys => do
    let signature ← getFieldD "signature" .null routeData
    Effect.require (truthy host.value signature)
      (.permissionError "Web of Trust Error: Route is not signed.")
    let unsigned ← withSignature .null routeData
    let verified ← verifiedBy host (host.sortedText unsigned) signature keys
    Effect.require verified (.permissionError
      "Web of Trust Error: Signature verification failed. Route may be poisoned.")

/-- One of the two hash checks. -/
def verifyHashField (side hashKey idKey currentHash currentId : String) (metadata : JsonValue φ) :
    Except PyError Unit := do
  let expectedHash ← subscript hashKey metadata
  if isStr currentHash expectedHash then pure ()
  else
    let expectedId ← subscript idKey metadata
    throw (.valueError ("Strict Version Control Error: " ++ side ++
      " hash mismatch. Route expects " ++ host.display expectedId ++ ", got " ++ currentId ++ "."))

/-- `verify_and_load_route`. -/
def verifyAndLoadRoute (files : Dict ι β) (filepath currentSourceId currentTargetId : String)
    (trustedKeys : Option (List String)) : Except PyError (JsonValue φ) := do
  let routeData ← readRoute host files filepath
  verifyTrust host trustedKeys routeData
  let metadata ← subscript "metadata" routeData
  verifyHashField host "Source" "source_hash" "source"
    (calculateHash host files currentSourceId) currentSourceId metadata
  verifyHashField host "Target" "target_hash" "target"
    (calculateHash host files currentTargetId) currentTargetId metadata
  let drift ← getField "expected_drift" metadata
  match drift with
  | none => pure ()
  | some drift => formatDrift drift
  subscript "matrices" routeData

end

/-! ### The file of a route -/

theorem distinctKeys_of_formatDrift {drift : JsonValue φ} (h : formatDrift drift = .ok ()) :
    DistinctKeys drift := by
  cases drift with
  | arr elems => cases h
  | obj fields => cases h
  | _ => exact trivial

theorem distinctKeys_document (sourceHash targetHash : String) (c : RouteCall φ) :
    DistinctKeys (document sourceHash targetHash c) := by
  have hmetadata : ["source", "target", "domain", "source_hash", "target_hash", "expected_drift",
      "version"].Nodup := by decide
  have hmatrices : ["R", "s"].Nodup := by decide
  have hroute : ["metadata", "matrices", "signature"].Nodup := by decide
  have hdrift := distinctKeys_of_formatDrift c.drift_number
  exact ⟨hroute, ⟨hmetadata, trivial, trivial, trivial, trivial, trivial, hdrift, trivial, trivial⟩,
    ⟨hmatrices, c.rMatrix_distinct, c.sFactor_distinct, trivial⟩, trivial, trivial⟩

section

variable [DecidableEq ι] {host : RouteHost φ β ι} {files : Dict ι β} {path : String} {file : ι}

/-- Writing a file changes what is found at the paths that name it. -/
theorem contentAt_set (id : String) (content : β) :
    contentAt host (files.set file content) id =
      if host.locate id = some file then some content else contentAt host files id := by
  unfold contentAt
  cases hid : host.locate id with
  | none => simp
  | some file' =>
    show (files.set file content).get? file' = _
    rw [Dict.get?_set]
    by_cases h : file' = file <;> simp [h]

theorem readRoute_of_content {routeData : JsonValue φ} (hkeys : DistinctKeys routeData)
    (h : contentAt host files path = some (host.dump routeData)) :
    readRoute host files path = .ok routeData := by
  rw [readRoute, h]
  exact host.load_dump routeData hkeys

omit [DecidableEq ι] in
theorem verifyHashField_eq_ok {side hashKey idKey currentHash currentId : String}
    {metadata : JsonValue φ} {u : Unit} :
    verifyHashField host side hashKey idKey currentHash currentId metadata = .ok u ↔
      subscript hashKey metadata = .ok (.str currentHash) := by
  unfold verifyHashField
  rw [Effect.bind_eq_ok]
  constructor
  · rintro ⟨expectedHash, hhash, h⟩
    by_cases hequal : isStr currentHash expectedHash = true
    · rw [hhash, isStr_iff.mp hequal]
    · rw [if_neg hequal] at h
      obtain ⟨_, -, hthrow⟩ := Effect.bind_eq_ok.mp h
      cases hthrow
  · intro hhash
    exact ⟨_, hhash, by rw [if_pos (isStr_iff.mpr rfl)]; rfl⟩

/-- What loading finds in a route file: the hashes it checks, a drift it can print, and
the matrices. -/
structure IsRoute (sourceHash targetHash : String) (c : RouteCall φ) (routeData : JsonValue φ) :
    Prop where
  metadata : ∃ metadata, subscript "metadata" routeData = .ok metadata ∧
    subscript "source_hash" metadata = .ok (.str sourceHash) ∧
    subscript "target_hash" metadata = .ok (.str targetHash) ∧
    getField "expected_drift" metadata = .ok (some c.expectedDrift)
  matrices : subscript "matrices" routeData = .ok (matrices c)

theorem isRoute_document (sourceHash targetHash : String) (c : RouteCall φ) :
    IsRoute sourceHash targetHash c (document sourceHash targetHash c) :=
  ⟨⟨_, rfl, rfl, rfl, rfl⟩, rfl⟩

/-- A route file loads under ids that hash to what the file says, and gives its
matrices. -/
theorem verify_eq_ok_iff {sourceHash targetHash sourceId targetId : String} {c : RouteCall φ}
    {routeData loaded : JsonValue φ} {trustedKeys : Option (List String)}
    (hread : readRoute host files path = .ok routeData)
    (hroute : IsRoute sourceHash targetHash c routeData) :
    verifyAndLoadRoute host files path sourceId targetId trustedKeys = .ok loaded ↔
      verifyTrust host trustedKeys routeData = .ok () ∧
        sourceHash = calculateHash host files sourceId ∧
        targetHash = calculateHash host files targetId ∧ loaded = matrices c := by
  obtain ⟨metadata, hmetadata, hsource, htarget, hdrift⟩ := hroute.metadata
  unfold verifyAndLoadRoute
  simp only [hread, Effect.bind_eq_ok, Except.ok.injEq, exists_eq_left', hmetadata,
    verifyHashField_eq_ok, hsource, htarget, hdrift, c.drift_number, hroute.matrices,
    JsonValue.str.injEq, exists_const]
  constructor
  · rintro ⟨_, htrust, hsource, htarget, _, -, rfl⟩
    exact ⟨htrust, hsource, htarget, rfl⟩
  · rintro ⟨htrust, hsource, htarget, rfl⟩
    exact ⟨_, htrust, hsource, htarget, trivial, rfl⟩

/-- A route file does not load under a source that hashes to something else. -/
theorem verify_source_mismatch {sourceHash targetHash sourceId targetId : String}
    {c : RouteCall φ} (hread : readRoute host files path = .ok (document sourceHash targetHash c))
    (hne : calculateHash host files sourceId ≠ sourceHash) :
    verifyAndLoadRoute host files path sourceId targetId none =
      .error (.valueError ("Strict Version Control Error: Source hash mismatch. Route expects " ++
        host.display (.str c.sourceId) ++ ", got " ++ sourceId ++ ".")) := by
  have hfield : isStr (calculateHash host files sourceId) (.str sourceHash : JsonValue φ) ≠ true :=
    fun h => hne (JsonValue.str.inj (isStr_iff.mp h)).symm
  have hcheck : ∀ metadata, subscript "source_hash" metadata = .ok (.str sourceHash) →
      subscript "source" metadata = .ok (.str c.sourceId) →
      verifyHashField host "Source" "source_hash" "source" (calculateHash host files sourceId)
          sourceId metadata =
        .error (.valueError ("Strict Version Control Error: Source hash mismatch. Route expects " ++
          host.display (.str c.sourceId) ++ ", got " ++ sourceId ++ ".")) := by
    intro metadata hhash hid
    rw [verifyHashField, hhash]
    refine (if_neg hfield).trans ?_
    rw [hid]
    rfl
  refine Effect.bind_eq_error.mpr (.inr ⟨_, hread, ?_⟩)
  refine Effect.bind_eq_error.mpr (.inr ⟨(), rfl, ?_⟩)
  refine Effect.bind_eq_error.mpr (.inr ⟨_, rfl, ?_⟩)
  exact Effect.bind_eq_error.mpr (.inl (hcheck _ rfl rfl))

end

/-! ### Two routes -/

section

variable [DecidableEq ι] (host : RouteHost φ β ι)

/-- The file of a call is that of its route, with the hashes its ids have. -/
def Filed (routeDir : String) (c : RouteCall φ) (files : Dict ι β) : Prop :=
  contentAt host files (routePath routeDir c) =
    some (host.dump (document (calculateHash host files c.sourceId)
      (calculateHash host files c.targetId) c))

/-- The path loads under the ids of the call, and gives its matrices. -/
def Loads (files : Dict ι β) (path : String) (c : RouteCall φ) : Prop :=
  verifyAndLoadRoute host files path c.sourceId c.targetId none = .ok (matrices c)

/-- The routes of two calls are in one file. -/
def SameFile (routeDir : String) (c c' : RouteCall φ) : Prop :=
  host.locate (routePath routeDir c) = host.locate (routePath routeDir c')

/-- Different identifiers have different hashes. -/
def HashesIdentify (files : Dict ι β) (ids : List String) : Prop :=
  ∀ id ∈ ids, ∀ id' ∈ ids, calculateHash host files id = calculateHash host files id' → id = id'

/-- Writing the route of a call keeps the hash of an identifier: it does not name
the file of the route, or what is written there has the hash that it had. -/
def KeepsHash (routeDir : String) (files : Dict ι β) (c : RouteCall φ) (id : String) : Prop :=
  host.locate id = host.locate (routePath routeDir c) →
    host.sha256 (host.dump (document (calculateHash host files c.sourceId)
      (calculateHash host files c.targetId) c)) = calculateHash host files id

/-- Writing the route of a call `c` keeps the hashes of the ids of a call `c'`. -/
def KeepsHashes (routeDir : String) (files : Dict ι β) (c c' : RouteCall φ) : Prop :=
  KeepsHash host routeDir files c c'.sourceId ∧ KeepsHash host routeDir files c c'.targetId

variable {host} {routeDir path : String} {files files' : Dict ι β} {c c' : RouteCall φ}

theorem writeRoute_eq_ok {routeData : JsonValue φ} {u : Unit} :
    writeRoute host path routeData files = .ok u files' ↔
      ∃ file, host.locate path = some file ∧ files' = files.set file (host.dump routeData) := by
  unfold writeRoute
  cases hfile : host.locate path with
  | none =>
    refine iff_of_false (fun h => by cases h) ?_
    rintro ⟨file, h, -⟩
    cases h
  | some file =>
    constructor
    · intro h
      cases h
      exact ⟨file, rfl, rfl⟩
    · rintro ⟨file', h, hfiles⟩
      rw [hfiles, Option.some.inj h]
      rfl

/-- Writing a route changes what is found at the paths that name its file. -/
theorem contentAt_writeRoute {routeData : JsonValue φ} {u : Unit}
    (h : writeRoute host path routeData files = .ok u files') (id : String) :
    contentAt host files' id =
      if host.locate id = host.locate path then some (host.dump routeData)
      else contentAt host files id := by
  obtain ⟨file, hfile, hfiles⟩ := writeRoute_eq_ok.mp h
  rw [hfiles, contentAt_set, hfile]

theorem calculateHash_writeRoute {routeData : JsonValue φ} {u : Unit}
    (h : writeRoute host path routeData files = .ok u files') {id : String}
    (hid : host.locate id ≠ host.locate path) :
    calculateHash host files' id = calculateHash host files id := by
  rw [calculateHash, contentAt_writeRoute h, if_neg hid, calculateHash]

theorem createRoute_eq_ok :
    createRoute host routeDir c files = .ok path files' ↔
      path = routePath routeDir c ∧ writeRoute host (routePath routeDir c)
        (document (calculateHash host files c.sourceId) (calculateHash host files c.targetId) c)
        files = .ok () files' := by
  rw [createRoute, Effect.get_bind]
  constructor
  · intro h
    obtain ⟨u, written, hwrite, hreturn⟩ := Effect.run_bind_eq_ok.mp h
    obtain ⟨hpath, hfiles⟩ := EStateM.Result.ok.inj hreturn
    rw [← hpath, ← hfiles]
    exact ⟨rfl, hwrite⟩
  · rintro ⟨hpath, hwrite⟩
    rw [hpath]
    exact Effect.run_bind_eq_ok.mpr ⟨(), files', hwrite, rfl⟩

/-- What a call does to what is found at a path. -/
theorem contentAt_createRoute (h : createRoute host routeDir c files = .ok path files')
    (id : String) :
    contentAt host files' id =
      if host.locate id = host.locate (routePath routeDir c) then
        some (host.dump (document (calculateHash host files c.sourceId)
          (calculateHash host files c.targetId) c))
      else contentAt host files id :=
  contentAt_writeRoute (createRoute_eq_ok.mp h).2 id

theorem calculateHash_createRoute {id : String}
    (h : createRoute host routeDir c files = .ok path files')
    (hid : host.locate id ≠ host.locate (routePath routeDir c)) :
    calculateHash host files' id = calculateHash host files id :=
  calculateHash_writeRoute (createRoute_eq_ok.mp h).2 hid

/-- When the hash of an identifier survives a call. -/
theorem calculateHash_createRoute_iff {id : String}
    (h : createRoute host routeDir c files = .ok path files') :
    calculateHash host files id = calculateHash host files' id ↔
      KeepsHash host routeDir files c id := by
  by_cases hid : host.locate id = host.locate (routePath routeDir c)
  · have hwritten : calculateHash host files' id =
        host.sha256 (host.dump (document (calculateHash host files c.sourceId)
          (calculateHash host files c.targetId) c)) := by
      rw [calculateHash, contentAt_createRoute h, if_pos hid]
    rw [hwritten, KeepsHash, eq_comm]
    exact (imp_iff_right hid).symm
  · rw [calculateHash_createRoute h hid]
    exact iff_of_true rfl fun hnamed => absurd hnamed hid

/-- When it survives two calls that write different files. -/
theorem calculateHash_createRoute_two_iff {id path' : String} {files'' : Dict ι β}
    (h : createRoute host routeDir c files = .ok path files')
    (h' : createRoute host routeDir c' files' = .ok path' files'')
    (hother : ¬ SameFile host routeDir c c') :
    calculateHash host files id = calculateHash host files'' id ↔
      KeepsHash host routeDir files c id ∧ KeepsHash host routeDir files' c' id := by
  by_cases hid : host.locate id = host.locate (routePath routeDir c)
  · -- the second call writes another file
    have hnot : host.locate id ≠ host.locate (routePath routeDir c') :=
      fun hid' => hother (hid.symm.trans hid')
    rw [calculateHash_createRoute h' hnot, calculateHash_createRoute_iff h]
    exact (and_iff_left fun hid' => absurd hid' hnot).symm
  · rw [← calculateHash_createRoute h hid, calculateHash_createRoute_iff h']
    exact (and_iff_right fun hid' => absurd hid' hid).symm

/-- Ids that name no file, with digests of their own. -/
theorem hashesIdentify_of_absent {ids : List String}
    (habsent : ∀ id ∈ ids, contentAt host files id = none)
    (hinj : ∀ id ∈ ids, ∀ id' ∈ ids,
      host.sha256 (host.encode id) = host.sha256 (host.encode id') → id = id') :
    HashesIdentify host files ids := by
  intro id hid id' hid'
  rw [calculateHash, calculateHash, habsent id hid, habsent id' hid']
  exact hinj id hid id' hid'

/-- A path with the file of a call loads under ids that hash to what it says. -/
theorem loads_iff_of_content {sourceHash targetHash : String}
    (hcontent : contentAt host files path =
      some (host.dump (document sourceHash targetHash c'))) :
    Loads host files path c ↔ sourceHash = calculateHash host files c.sourceId ∧
      targetHash = calculateHash host files c.targetId ∧ matrices c = matrices c' := by
  have hread := readRoute_of_content (distinctKeys_document _ _ c') hcontent
  rw [Loads, verify_eq_ok_iff hread (isRoute_document _ _ c')]
  exact and_iff_right rfl

theorem loads_of_filed (h : Filed host routeDir c files) :
    Loads host files (routePath routeDir c) c := by
  have hread := readRoute_of_content (distinctKeys_document _ _ c) h
  exact (verify_eq_ok_iff hread (isRoute_document _ _ c)).mpr ⟨rfl, rfl, rfl, rfl⟩

/-- A call files its route, when writing it does not change the hashes of its ids. -/
theorem filed_createRoute (h : createRoute host routeDir c files = .ok path files')
    (hsource : calculateHash host files' c.sourceId = calculateHash host files c.sourceId)
    (htarget : calculateHash host files' c.targetId = calculateHash host files c.targetId) :
    Filed host routeDir c files' := by
  rw [Filed, contentAt_createRoute h, if_pos rfl, hsource, htarget]

/-- A call leaves a route of another file filed. -/
theorem Filed.createRoute (hc : Filed host routeDir c files)
    (h : createRoute host routeDir c' files = .ok path files')
    (hother : ¬ SameFile host routeDir c c')
    (hsource : calculateHash host files' c.sourceId = calculateHash host files c.sourceId)
    (htarget : calculateHash host files' c.targetId = calculateHash host files c.targetId) :
    Filed host routeDir c files' := by
  rw [Filed, hsource, htarget]
  exact ((contentAt_createRoute h _).trans (if_neg hother)).trans hc

/-- Two calls with different arguments, whose ids and domains name one file by the same
name, differ in an id. -/
theorem ids_ne_of_fileName
    (hdiffer : (c.sourceId, c.targetId, c.domain) ≠ (c'.sourceId, c'.targetId, c'.domain))
    (hname : fileName c = fileName c') :
    ¬ (c.sourceId = c'.sourceId ∧ c.targetId = c'.targetId) := by
  rintro ⟨hsource, htarget⟩
  have hdomain : c.domain = c'.domain := by
    unfold fileName at hname
    rw [hsource, htarget] at hname
    simpa using hname
  exact hdiffer (by rw [hsource, htarget, hdomain])

/-- With no hyphen in the last components, a file name determines them and the domain. -/
theorem fileName_eq_iff (hsource : '-' ∉ (lastComponent c.sourceId).toList)
    (htarget : '-' ∉ (lastComponent c.targetId).toList)
    (hsource' : '-' ∉ (lastComponent c'.sourceId).toList)
    (htarget' : '-' ∉ (lastComponent c'.targetId).toList) :
    fileName c = fileName c' ↔ lastComponent c.sourceId = lastComponent c'.sourceId ∧
      lastComponent c.targetId = lastComponent c'.targetId ∧ c.domain = c'.domain := by
  have hname : ∀ c : RouteCall φ, (fileName c).toList =
      (lastComponent c.sourceId).toList ++ '-' :: ("to-".toList ++
        ((lastComponent c.targetId).toList ++ '-' :: (c.domain.toList ++
          ".scalpel_route".toList))) := by
    intro c
    simp [fileName, String.toList_append, List.append_assoc]
  rw [← String.toList_inj, hname, hname, append_cons_inj hsource hsource',
    List.append_cancel_left_eq, append_cons_inj htarget htarget', List.append_cancel_right_eq,
    String.toList_inj, String.toList_inj, String.toList_inj]

theorem matrices_inj :
    matrices c = matrices c' ↔ c.rMatrix = c'.rMatrix ∧ c.sFactor = c'.sFactor := by
  simp [matrices]

section

variable {path' : String} {files'' : Dict ι β}
  (hcreate : createRoute host routeDir c files = .ok path files')
  (hcreate' : createRoute host routeDir c' files' = .ok path' files'')

include hcreate' in
/-- The last route loads when writing it keeps the hashes of its ids. -/
theorem loads_last_iff :
    Loads host files'' path' c' ↔ KeepsHashes host routeDir files' c' c' := by
  have hcontent := (contentAt_createRoute hcreate' (routePath routeDir c')).trans (if_pos rfl)
  rw [(createRoute_eq_ok.mp hcreate').1, loads_iff_of_content hcontent,
    calculateHash_createRoute_iff hcreate', calculateHash_createRoute_iff hcreate', KeepsHashes,
    and_iff_left rfl]

include hcreate hcreate' in
/-- A route that the next call leaves alone loads when neither changes the hashes
of its ids. -/
theorem loads_kept_iff (hother : ¬ SameFile host routeDir c c') :
    Loads host files'' path c ↔
      KeepsHashes host routeDir files c c ∧ KeepsHashes host routeDir files' c' c := by
  have hkept := (contentAt_createRoute hcreate' (routePath routeDir c)).trans (if_neg hother)
  have hcontent := hkept.trans ((contentAt_createRoute hcreate _).trans (if_pos rfl))
  rw [(createRoute_eq_ok.mp hcreate).1, loads_iff_of_content hcontent,
    calculateHash_createRoute_two_iff hcreate hcreate' hother,
    calculateHash_createRoute_two_iff hcreate hcreate' hother, and_iff_left rfl, KeepsHashes,
    KeepsHashes, and_and_and_comm]

include hcreate hcreate' in
/-- When the second call writes to the file of the first and its own route loads,
the first loads only if both have the same ids and matrices. -/
theorem loads_overwritten_iff (hsame : SameFile host routeDir c c')
    (hhashes : HashesIdentify host files'' [c.sourceId, c.targetId, c'.sourceId, c'.targetId])
    (hlast : Loads host files'' path' c') :
    Loads host files'' path c ↔
      c.sourceId = c'.sourceId ∧ c.targetId = c'.targetId ∧ c.rMatrix = c'.rMatrix ∧
        c.sFactor = c'.sFactor := by
  have hcontent := (contentAt_createRoute hcreate' (routePath routeDir c)).trans (if_pos hsame)
  obtain ⟨hsource, htarget⟩ := (loads_last_iff hcreate').mp hlast
  rw [← calculateHash_createRoute_iff hcreate'] at hsource htarget
  have hinj : ∀ id ∈ [c.sourceId, c.targetId], ∀ id' ∈ [c'.sourceId, c'.targetId],
      calculateHash host files'' id' = calculateHash host files'' id ↔ id = id' := by
    intro id hid id' hid'
    refine ⟨fun h => ?_, fun h => by rw [h]⟩
    exact hhashes id (List.mem_append_left [c'.sourceId, c'.targetId] hid) id'
      (List.mem_append_right [c.sourceId, c.targetId] hid') h.symm
  rw [(createRoute_eq_ok.mp hcreate).1, loads_iff_of_content hcontent, hsource, htarget,
    hinj _ (by simp) _ (by simp), hinj _ (by simp) _ (by simp), matrices_inj]

include hcreate hcreate' in
/-- **When two routes both load.**  The second call must keep the hashes of its own
ids.  Then either the routes are in different files, and writing them keeps the
hashes of the ids of the first; or the calls have the same ids and matrices. -/
theorem loads_both_iff
    (hdiffer : (c.sourceId, c.targetId, c.domain) ≠ (c'.sourceId, c'.targetId, c'.domain))
    (hhashes : HashesIdentify host files'' [c.sourceId, c.targetId, c'.sourceId, c'.targetId]) :
    (Loads host files'' path c ∧ Loads host files'' path' c' ↔
      KeepsHashes host routeDir files' c' c' ∧
        (¬ SameFile host routeDir c c' ∧ KeepsHashes host routeDir files c c ∧
            KeepsHashes host routeDir files' c' c ∨
          SameFile host routeDir c c' ∧ c.sourceId = c'.sourceId ∧ c.targetId = c'.targetId ∧
            c.rMatrix = c'.rMatrix ∧ c.sFactor = c'.sFactor)) ∧
      (fileName c = fileName c' → ¬ (Loads host files'' path c ∧ Loads host files'' path' c')) := by
  have hfirst (hlast : Loads host files'' path' c') : Loads host files'' path c ↔
      ¬ SameFile host routeDir c c' ∧ KeepsHashes host routeDir files c c ∧
          KeepsHashes host routeDir files' c' c ∨
        SameFile host routeDir c c' ∧ c.sourceId = c'.sourceId ∧ c.targetId = c'.targetId ∧
          c.rMatrix = c'.rMatrix ∧ c.sFactor = c'.sFactor := by
    by_cases hsame : SameFile host routeDir c c'
    · rw [loads_overwritten_iff hcreate hcreate' hsame hhashes hlast, and_iff_right hsame]
      exact (or_iff_right fun h => h.1 hsame).symm
    · rw [loads_kept_iff hcreate hcreate' hsame, and_iff_right hsame]
      exact (or_iff_left fun h => hsame h.1).symm
  constructor
  · rw [and_comm, ← loads_last_iff hcreate']
    exact and_congr_right hfirst
  · rintro hname ⟨hloads, hlast⟩
    have hsame : SameFile host routeDir c c' := by rw [SameFile, routePath, routePath, hname]
    rcases (hfirst hlast).mp hloads with ⟨hother, -⟩ | ⟨-, hsource, htarget, -⟩
    · exact hother hsame
    · exact ids_ne_of_fileName hdiffer hname ⟨hsource, htarget⟩

end

end

/-! ### Two routes at work -/

/-- The digests of three ids. -/
def sha256Known (text : String) : String :=
  if text = "org1/model" then "212212e83eb8c58dabf14d463c1cbbbab1d316a53fcdc9e25f1caaf540859cde"
  else if text = "org2/model" then
    "f4e8bfa87ba73cddb0b9871a1511d40be3da2c698e2a17972d1eacef4a3fc667"
  else if text = "base" then "cae662172fd450bb0cd710a769079c05bfc5d8e35efa6576edc7d0377afdd4a2"
  else text

/-- A host with texts as files, each path naming a file of its own. -/
noncomputable def textHost : RouteHost Empty String String where
  encode text := text
  sha256 := sha256Known
  hmac key text := sha256Known (key ++ text)
  sortedText v := String.ofList (JsonText.write JsonText.noFloats JsonText.spaced v)
  display
    | .str text => text
    | v => String.ofList (JsonText.write JsonText.noFloats JsonText.spaced v)
  value x := x.elim
  dump v := String.ofList (JsonText.write JsonText.noFloats JsonText.spaced v)
  load := JsonText.decode JsonText.noFloats
  locate := some
  load_dump _ h := JsonText.decode_write _ h

theorem formatDrift_zero {φ : Type} : formatDrift (.int 0 : JsonValue φ) = .ok () := by
  have hbound : ∀ {n m : ℕ}, n < m → Int.natAbs 0 < 2 ^ m - 2 ^ n := fun h =>
    Nat.sub_pos_of_lt (Nat.pow_lt_pow_right Nat.one_lt_two h)
  rw [formatDrift, if_pos (hbound (show 970 < 1024 by decide))]

/-- A call with a one-by-one matrix. -/
def smallCall (sourceId domain : String) (entry : ℤ) : RouteCall Empty where
  sourceId := sourceId
  targetId := "base"
  domain := domain
  rMatrix := .arr [.arr [.int entry]]
  sFactor := .int 1
  expectedDrift := .int 0
  rMatrix_distinct := ⟨⟨trivial, trivial⟩, trivial⟩
  sFactor_distinct := trivial
  drift_number := formatDrift_zero

theorem createRoute_smallCall (sourceId domain : String) (entry : ℤ) (files : Dict String String) :
    ∃ files', createRoute textHost "routes" (smallCall sourceId domain entry) files =
      .ok (routePath "routes" (smallCall sourceId domain entry)) files' :=
  ⟨_, rfl⟩

/-- The ids of two calls. -/
def exampleIds : List String := ["org1/model", "base", "org2/model", "base"]

theorem contentAt_smallCalls {files' files'' : Dict String String}
    {domain domain' path path' : String} {entry entry' : ℤ}
    (h : createRoute textHost "routes" (smallCall "org1/model" domain entry) .empty =
      .ok path files')
    (h' : createRoute textHost "routes" (smallCall "org2/model" domain' entry') files' =
      .ok path' files'')
    (hpath : ∀ id ∈ exampleIds,
      id ≠ routePath "routes" (smallCall "org1/model" domain entry) ∧
        id ≠ routePath "routes" (smallCall "org2/model" domain' entry')) :
    ∀ id ∈ exampleIds, contentAt textHost files'' id = none := by
  intro id hid
  have hfirst : contentAt textHost files' id = none :=
    (contentAt_createRoute h id).trans
      (if_neg fun hsame => (hpath id hid).1 (Option.some.inj hsame))
  exact (contentAt_createRoute h' id).trans
    ((if_neg fun hsame => (hpath id hid).2 (Option.some.inj hsame)).trans hfirst)

/-- Two routes of different domains. -/
theorem loads_both_domains :
    ∃ path path' files' files'',
      createRoute textHost "routes" (smallCall "org1/model" "chat" 1) .empty = .ok path files' ∧
      createRoute textHost "routes" (smallCall "org2/model" "code" 2) files' = .ok path' files'' ∧
      Loads textHost files'' path (smallCall "org1/model" "chat" 1) ∧
      Loads textHost files'' path' (smallCall "org2/model" "code" 2) := by
  obtain ⟨files', hcreate⟩ := createRoute_smallCall "org1/model" "chat" 1 .empty
  obtain ⟨files'', hcreate'⟩ := createRoute_smallCall "org2/model" "code" 2 files'
  have hids : HashesIdentify textHost files'' exampleIds :=
    hashesIdentify_of_absent (contentAt_smallCalls hcreate hcreate' (by decide)) (by decide)
  have hpaths : routePath "routes" (smallCall "org1/model" "chat" 1) ≠
      routePath "routes" (smallCall "org2/model" "code" 2) := by decide
  have hfiles : ¬ SameFile textHost "routes" (smallCall "org1/model" "chat" 1)
      (smallCall "org2/model" "code" 2) := fun hsame => hpaths (Option.some.inj hsame)
  have hkeeps : ∀ {files : Dict String String} {c : RouteCall Empty} {id : String},
      id ≠ routePath "routes" c → KeepsHash textHost "routes" files c id :=
    fun hne hnamed => absurd (Option.some.inj hnamed) hne
  refine ⟨_, _, files', files'', hcreate, hcreate',
    (loads_both_iff hcreate hcreate' (by decide) hids).1.mpr ⟨?_, .inl ⟨hfiles, ?_, ?_⟩⟩⟩
  · exact ⟨hkeeps (by decide), hkeeps (by decide)⟩
  · exact ⟨hkeeps (by decide), hkeeps (by decide)⟩
  · exact ⟨hkeeps (by decide), hkeeps (by decide)⟩

/-- Two sources of one name: the second route takes the place of the first. -/
theorem loads_both_collision :
    ("org1/model", "base", "chat") ≠ ("org2/model", "base", "chat") ∧ ∃ path files' files'',
      createRoute textHost "routes" (smallCall "org1/model" "chat" 1) .empty = .ok path files' ∧
      createRoute textHost "routes" (smallCall "org2/model" "chat" 2) files' = .ok path files'' ∧
      (∀ files ∈ [.empty, files', files''], HashesIdentify textHost files exampleIds) ∧
      verifyAndLoadRoute textHost files'' path "org1/model" "base" none =
        .error (.valueError ("Strict Version Control Error: Source hash mismatch. " ++
          "Route expects org2/model, got org1/model.")) := by
  obtain ⟨files', hcreate⟩ := createRoute_smallCall "org1/model" "chat" 1 .empty
  obtain ⟨files'', hcreate'⟩ := createRoute_smallCall "org2/model" "chat" 2 files'
  have hpath : routePath "routes" (smallCall "org2/model" "chat" 2) =
      routePath "routes" (smallCall "org1/model" "chat" 1) := by decide
  have hnone : ∀ files ∈ [.empty, files', files''], ∀ id ∈ exampleIds,
      contentAt textHost files id = none := by
    intro files hfiles
    simp only [List.mem_cons, List.not_mem_nil, or_false] at hfiles
    rcases hfiles with rfl | rfl | rfl
    · exact fun _ _ => rfl
    · intro id hid
      have hother : ∀ id ∈ exampleIds, id ≠ routePath "routes" (smallCall "org1/model" "chat" 1) :=
        by decide
      exact (contentAt_createRoute hcreate id).trans
        (if_neg fun hsame => hother id hid (Option.some.inj hsame))
    · exact contentAt_smallCalls hcreate hcreate' (by decide)
  have hids : ∀ files ∈ [.empty, files', files''], HashesIdentify textHost files exampleIds :=
    fun files hfiles => hashesIdentify_of_absent (hnone files hfiles) (by decide)
  refine ⟨by decide, _, files', files'', hcreate, hpath ▸ hcreate', hids, ?_⟩
  have hread := readRoute_of_content (distinctKeys_document _ _ _)
    ((contentAt_createRoute hcreate' _).trans (if_pos rfl))
  rw [← hpath]
  refine (verify_source_mismatch hread fun h => ?_).trans rfl
  -- the source of the second call hashes after the write as before it
  have hkept : calculateHash textHost files' "org2/model" =
      calculateHash textHost files'' "org2/model" := by
    rw [calculateHash, calculateHash, hnone files' (by simp) _ (by decide),
      hnone files'' (by simp) _ (by decide)]
  exact absurd (hids files'' (by simp) "org1/model" (by decide) "org2/model" (by decide)
    (h.trans hkept)) (by decide)

/-! ### Any number of calls -/

section

variable [DecidableEq ι] (host : RouteHost φ β ι)

/-- Calls one after another. -/
def createAll (routeDir : String) : List (RouteCall φ) → EStateM PyError (Dict ι β) Unit
  | [] => pure ()
  | c :: calls => do
    let _ ← createRoute host routeDir c
    createAll routeDir calls

/-- The ids of a call do not name the file of another. -/
def IdsApart (routeDir : String) (c c' : RouteCall φ) : Prop :=
  host.locate c.sourceId ≠ host.locate (routePath routeDir c') ∧
    host.locate c.targetId ≠ host.locate (routePath routeDir c')

variable {host} {routeDir path : String} {files files' : Dict ι β} {c c' : RouteCall φ}

theorem createAll_cons_eq_ok {calls : List (RouteCall φ)} {u : Unit} {files'' : Dict ι β} :
    createAll host routeDir (c :: calls) files = .ok u files'' ↔
      ∃ path files', createRoute host routeDir c files = .ok path files' ∧
        createAll host routeDir calls files' = .ok u files'' := by
  rw [createAll]
  exact Effect.run_bind_eq_ok

/-- A filed route stays filed while no call writes its file, or a file its ids name. -/
theorem Filed.createAll {calls : List (RouteCall φ)} {u : Unit}
    (hc : Filed host routeDir c files)
    (hcalls : ∀ c' ∈ calls, ¬ SameFile host routeDir c c' ∧ IdsApart host routeDir c c')
    (hrun : ScalpelRouteManager.createAll host routeDir calls files = .ok u files') :
    Filed host routeDir c files' := by
  induction calls generalizing files with
  | nil =>
    cases hrun
    exact hc
  | cons c' calls ih =>
    obtain ⟨path, files₁, hcreate, hrest⟩ := createAll_cons_eq_ok.mp hrun
    obtain ⟨hother, hsource, htarget⟩ := hcalls c' List.mem_cons_self
    have hkept : Filed host routeDir c files₁ := hc.createRoute hcreate hother
      (calculateHash_createRoute hcreate hsource) (calculateHash_createRoute hcreate htarget)
    exact ih hkept (fun c'' h => hcalls c'' (List.mem_cons_of_mem _ h)) hrest

/-- After any number of calls, a route whose file no later call has written loads. -/
theorem loads_createAll {before after : List (RouteCall φ)} {u : Unit}
    (hids : IdsApart host routeDir c c)
    (hafter : ∀ c' ∈ after, ¬ SameFile host routeDir c c' ∧ IdsApart host routeDir c c')
    (hrun : createAll host routeDir (before ++ c :: after) files = .ok u files') :
    Loads host files' (routePath routeDir c) c := by
  induction before generalizing files with
  | nil =>
    obtain ⟨path, files₁, hcreate, hrest⟩ := createAll_cons_eq_ok.mp hrun
    have hfiled : Filed host routeDir c files₁ := filed_createRoute hcreate
      (calculateHash_createRoute hcreate hids.1) (calculateHash_createRoute hcreate hids.2)
    exact loads_of_filed (hfiled.createAll hafter hrest)
  | cons c' before ih =>
    obtain ⟨path, files₁, -, hrest⟩ := createAll_cons_eq_ok.mp hrun
    exact ih hrest

end

/-- A route between two others. -/
theorem loads_second_of_three : ∃ files',
    createAll textHost "routes" [smallCall "org1/model" "chat" 1, smallCall "org2/model" "code" 2,
      smallCall "org1/model" "prose" 3] .empty = .ok () files' ∧
    Loads textHost files' (routePath "routes" (smallCall "org2/model" "code" 2))
      (smallCall "org2/model" "code" 2) := by
  obtain ⟨files', hrun⟩ : ∃ files', createAll textHost "routes"
      ([smallCall "org1/model" "chat" 1] ++
        smallCall "org2/model" "code" 2 :: [smallCall "org1/model" "prose" 3]) .empty =
      .ok () files' := ⟨_, rfl⟩
  have hapart : ∀ {id path : String}, id ≠ path → textHost.locate id ≠ textHost.locate path :=
    fun hne h => hne (Option.some.inj h)
  refine ⟨files', hrun, loads_createAll ?_ (fun c' hc' => ?_) hrun⟩
  · exact ⟨hapart (by decide), hapart (by decide)⟩
  · rw [List.mem_singleton.mp hc']
    exact ⟨hapart (by decide), hapart (by decide), hapart (by decide)⟩

/-! ### Signed routes -/

section

variable [DecidableEq ι] {host : RouteHost φ β ι} {routeDir : String} {files files' : Dict ι β}
  {c : RouteCall φ}

/-- What a signature does to the file of a route. -/
theorem withSignature_document (signature sourceHash targetHash : String) (c : RouteCall φ) :
    ∃ routeData, withSignature (.str signature) (document sourceHash targetHash c) = .ok routeData ∧
      withSignature .null routeData = .ok (document sourceHash targetHash c) ∧
      getFieldD "signature" .null routeData = .ok (.str signature) ∧
      IsRoute sourceHash targetHash c routeData ∧ DistinctKeys routeData :=
  ⟨_, rfl, rfl, rfl, ⟨⟨_, rfl, rfl, rfl, rfl⟩, rfl⟩, distinctKeys_document sourceHash targetHash c⟩

omit [DecidableEq ι] in
/-- Trying the keys finds one that has made the signature. -/
theorem verifiedBy_eq (hascii : ∀ key text, RouteSigner.isAscii (host.hmac key text))
    {payload signature : String} (hsignature : RouteSigner.isAscii signature) (keys : List String) :
    verifiedBy host payload (.str signature) keys =
      .ok (keys.any fun key => host.hmac key payload == signature) := by
  induction keys with
  | nil => rfl
  | cons key keys ih =>
    have hcompare :
        RouteSigner.compareDigest (host.hmac key payload) (.str signature : JsonValue φ) =
          .ok (host.hmac key payload == signature) := by
      rw [RouteSigner.compareDigest, hascii, hsignature]
      rfl
    rw [verifiedBy, hcompare, List.any_cons]
    show (if (host.hmac key payload == signature) = true then Except.ok true
      else verifiedBy host payload (.str signature) keys) = _
    rw [ih]
    cases host.hmac key payload == signature <;> rfl

omit [DecidableEq ι] in
/-- The chain of trust of a signed route: one of the keys makes its signature. -/
theorem verifyTrust_eq_ok_iff (hascii : ∀ key text, RouteSigner.isAscii (host.hmac key text))
    {signature : String} (hsignature : RouteSigner.isAscii signature) (hne : signature ≠ "")
    {keys : List String} {routeData unsigned : JsonValue φ} {u : Unit}
    (hfield : getFieldD "signature" .null routeData = .ok (.str signature))
    (hunsigned : withSignature .null routeData = .ok unsigned) :
    verifyTrust host (some keys) routeData = .ok u ↔
      ∃ key ∈ keys, host.hmac key (host.sortedText unsigned) = signature := by
  have htruthy : truthy host.value (.str signature : JsonValue φ) = true := by
    simpa [truthy] using hne
  unfold verifyTrust
  simp only [hfield, hunsigned, Effect.bind_eq_ok, Except.ok.injEq, exists_eq_left',
    Effect.require_eq_ok, htruthy, verifiedBy_eq hascii hsignature]
  simp

theorem signRoute_eq {path providerKey : String} {routeData unsigned signed : JsonValue φ}
    (hread : readRoute host files path = .ok routeData)
    (hunsigned : withSignature .null routeData = .ok unsigned)
    (hsigned : withSignature (.str (host.hmac providerKey (host.sortedText unsigned))) unsigned =
      .ok signed) :
    signRoute host path providerKey files = writeRoute host path signed files := by
  rw [signRoute, Effect.get_bind, hread]
  show (do
    let unsigned ← Effect.ofExcept (withSignature .null routeData)
    let signature := host.hmac providerKey (host.sortedText unsigned)
    let signed ← Effect.ofExcept (withSignature (.str signature) unsigned)
    writeRoute host path signed) files = _
  rw [hunsigned]
  show (do
    let signed ← Effect.ofExcept (withSignature _ unsigned)
    writeRoute host path signed) files = _
  rw [hsigned]
  rfl

/-- A filed route that has been signed loads when one of the trusted keys makes the same
signature. -/
theorem loads_signed_iff {providerKey : String} {keys : List String} {u : Unit}
    (hascii : ∀ key text, RouteSigner.isAscii (host.hmac key text))
    (hnonempty : ∀ key text, host.hmac key text ≠ "")
    (hids : IdsApart host routeDir c c) (hfiled : Filed host routeDir c files)
    (hsign : signRoute host (routePath routeDir c) providerKey files = .ok u files') :
    verifyAndLoadRoute host files' (routePath routeDir c) c.sourceId c.targetId (some keys) =
        .ok (matrices c) ↔
      ∃ key ∈ keys, host.hmac key (host.sortedText (document (calculateHash host files c.sourceId)
          (calculateHash host files c.targetId) c)) =
        host.hmac providerKey (host.sortedText (document (calculateHash host files c.sourceId)
          (calculateHash host files c.targetId) c)) := by
  have hread := readRoute_of_content (distinctKeys_document _ _ c) hfiled
  obtain ⟨signed, hsigned, hunsigned, hfield, hroute, hdistinct⟩ := withSignature_document
    (host.hmac providerKey (host.sortedText (document (calculateHash host files c.sourceId)
      (calculateHash host files c.targetId) c)))
    (calculateHash host files c.sourceId) (calculateHash host files c.targetId) c
  rw [signRoute_eq hread rfl hsigned] at hsign
  have hcontent := (contentAt_writeRoute hsign (routePath routeDir c)).trans (if_pos rfl)
  have hread' := readRoute_of_content hdistinct hcontent
  rw [verify_eq_ok_iff hread' hroute, calculateHash_writeRoute hsign hids.1,
    calculateHash_writeRoute hsign hids.2,
    verifyTrust_eq_ok_iff hascii (hascii _ _) (hnonempty _ _) hfield hunsigned]
  exact and_iff_left ⟨rfl, rfl, rfl⟩

end

/-- The text that the first route is signed over. -/
def signedText : String :=
  "\x7b\"matrices\": \x7b\"R\": [[1]], \"s\": 1\x7d, " ++
    "\"metadata\": \x7b\"domain\": \"chat\", \"expected_drift\": 0, " ++
    "\"source\": \"org1/model\", \"source_hash\": " ++
    "\"212212e83eb8c58dabf14d463c1cbbbab1d316a53fcdc9e25f1caaf540859cde\", " ++
    "\"target\": \"base\", \"target_hash\": " ++
    "\"cae662172fd450bb0cd710a769079c05bfc5d8e35efa6576edc7d0377afdd4a2\", " ++
    "\"version\": \"1.0\"\x7d, \"signature\": null\x7d"

/-- The digests of that text under two keys. -/
def knownHmac (key text : String) : String :=
  if text = signedText then
    if key = "provider-key" then "9b0c3a7832940522c093db35fa523e60ff477c6415cf2a42477f35bc08f7a093"
    else "5bd246f83f0b1c7d19bc1e0f2d9d923b67750821122abfe402984cb2b108e9ed"
  else "0"

noncomputable def signingHost : RouteHost Empty String String :=
  { textHost with
    hmac := knownHmac
    sortedText := fun v =>
      String.ofList (JsonText.write JsonText.noFloats JsonText.spaced (JsonText.sortKeys v)) }

theorem signingHost_ascii (key text : String) :
    RouteSigner.isAscii (signingHost.hmac key text) := by
  change RouteSigner.isAscii (knownHmac key text)
  unfold knownHmac
  split_ifs <;> decide

theorem signingHost_hmac_ne (key text : String) : signingHost.hmac key text ≠ "" := by
  change knownHmac key text ≠ ""
  unfold knownHmac
  split_ifs <;> decide

/-- The first route, signed, loads when the second of two trusted keys is the provider's. -/
theorem loads_signed_second_key : ∃ path files' files'',
    createRoute signingHost "routes" (smallCall "org1/model" "chat" 1) .empty = .ok path files' ∧
    signRoute signingHost path "provider-key" files' = .ok () files'' ∧
    verifyAndLoadRoute signingHost files'' path "org1/model" "base"
        (some ["old-key", "provider-key"]) =
      .ok (matrices (smallCall "org1/model" "chat" 1)) := by
  set c := smallCall "org1/model" "chat" 1
  have hapart : ∀ {id path : String}, id ≠ path → signingHost.locate id ≠ signingHost.locate path :=
    fun hne h => hne (Option.some.inj h)
  have hids : IdsApart signingHost "routes" c c := ⟨hapart (by decide), hapart (by decide)⟩
  obtain ⟨files', hcreate⟩ : ∃ files', createRoute signingHost "routes" c .empty =
      .ok (routePath "routes" c) files' := ⟨_, rfl⟩
  have hfiled : Filed signingHost "routes" c files' := filed_createRoute hcreate
    (calculateHash_createRoute hcreate hids.1) (calculateHash_createRoute hcreate hids.2)
  have hread := readRoute_of_content (distinctKeys_document _ _ c) hfiled
  obtain ⟨files'', hsign⟩ : ∃ files'', signRoute signingHost (routePath "routes" c) "provider-key"
      files' = .ok () files'' := by
    rw [signRoute_eq hread rfl rfl]
    exact ⟨_, rfl⟩
  have hloads : verifyAndLoadRoute signingHost files'' (routePath "routes" c) c.sourceId c.targetId
      (some ["old-key", "provider-key"]) = .ok (matrices c) :=
    (loads_signed_iff signingHost_ascii signingHost_hmac_ne hids hfiled hsign).mpr
      ⟨"provider-key", by decide, rfl⟩
  exact ⟨_, files', files'', hcreate, hsign, hloads⟩

end ScalpelRouteManager
