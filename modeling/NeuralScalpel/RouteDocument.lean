/-
Route manifests as parsed documents, and the registry of documents.

The files a registry reads may hold any JSON document.  Here every check of an
admission works on the document itself, so that a field of the wrong type
raises where the program raises:

* `checkAdmission_eq_ok` — an admission passes exactly when every check does;
* `registerRoute_eq` — registering a file stores what is admitted, or nothing;
* `authorised_of_getVerifiedRoute` — what a handed out document is.

The schema validator, the case mapping of strings, the JSON printer and the
HMAC are code outside the repository and enter through `Verifier`.  The texts of
errors leave out the values they quote, which may be of any type here.
-/
import NeuralScalpel.Json
import NeuralScalpel.Registry

/-- What the checks ask of code outside the repository, and the keys of the
signer. -/
structure Verifier where
  schema : Json → Bool
  upper : String → String
  dumps : Json → String
  hmac : String → String → String
  secretKeys : Dict String String

namespace RouteDocument

/-! ### Checks -/

def verifySchema (verifier : Verifier) (routeData : Json) : Except PyError Unit :=
  if verifier.schema routeData then .ok ()
  else .error (.valueError "Route manifest schema validation failed")

/-- `sha256_pattern.match(value)`. -/
def matchHash : Json → Except PyError Bool
  | .str s => .ok (matchesSha256 s)
  | _ => .error (.external "TypeError: expected string or bytes-like object")

/-- The digests of the layers, in order. -/
def verifyLayerHashes : List Json → Except PyError Unit
  | [] => .ok ()
  | layer :: layers => do
    let deltaHash ← layer.getFieldD "delta_sha256" (.str "")
    if !(← matchHash deltaHash) then
      throw (.valueError "Invalid delta_sha256 format for layer")
    verifyLayerHashes layers

def verifyHash (routeData : Json) : Except PyError Unit := do
  let sourceHash ← routeData.getFieldD "source_adapter_sha256" (.str "")
  let targetHash ← routeData.getFieldD "target_model_sha256" (.str "")
  if !(← matchHash sourceHash) then
    throw (.valueError "Invalid source_adapter_sha256 format")
  if !(← matchHash targetHash) then
    throw (.valueError "Invalid target_model_sha256 format")
  let layers ← routeData.getFieldD "layers" (.arr [])
  verifyLayerHashes (← layers.elements)

/-- The text that is signed: the document without its signature block. -/
def canonicalize (verifier : Verifier) : Json → String
  | .obj fields => verifier.dumps (.obj (fields.filter fun field => field.1 != "signature"))
  | routeData => verifier.dumps routeData

/-- The secret a signature names, if the signer has it. -/
def findSecret (verifier : Verifier) (keyId : Json) : Except PyError String := do
  if !keyId.truthy then
    throw (.valueError "Unknown signing key_id")
  match ← keyId.hashKey with
  | .str k =>
    match verifier.secretKeys.get? k with
    | some secret => pure secret
    | none => throw (.valueError "Unknown signing key_id")
  | _ => throw (.valueError "Unknown signing key_id")

def verifySignature (verifier : Verifier) (routeData : Json) : Except PyError Unit := do
  let sigBlock ← routeData.getFieldD "signature" .null
  if !sigBlock.truthy then
    throw (.valueError "Missing signature block.")
  let algorithm ← sigBlock.getFieldD "algorithm" .null
  let keyId ← sigBlock.getFieldD "key_id" .null
  let providedSignature ← sigBlock.getFieldD "value" .null
  if !algorithm.isStr "hmac-sha256" then
    throw (.valueError "Unsupported signature algorithm")
  let secret ← findSecret verifier keyId
  if !providedSignature.isStr (verifier.hmac secret (canonicalize verifier routeData)) then
    throw (.valueError "Cryptographic signature verification failed: Hash mismatch.")

/-- The license as the risk assessment sees it: a string, or something falsy. -/
def verifyLicensePolicy (verifier : Verifier) (routeData : Json) : Except PyError Unit := do
  let licenseName ← routeData.getFieldD "license" (.str "")
  let decision ← match licenseName with
    | .str s => pure (evaluateLicenseRisk verifier.upper s)
    | value =>
      if value.truthy then throw (.attributeError "object has no attribute 'upper'")
      else pure .manualReview
  match decision with
  | .deny => throw (.permissionError "Route rejected due to high-risk license policy")
  | .manualReview => throw (.permissionError "Route rejected: License requires manual review.")
  | .allow => pure ()

def verifyVerdict (routeData : Json) : Except PyError Unit := do
  let diagnostics ← routeData.getFieldD "diagnostics" (.obj [])
  let verdict ← diagnostics.getFieldD "verdict" .null
  if verdict.isStr "FAIL" then
    throw (.valueError "Cannot register route with FAIL verdict.")

def verifyRuntimeCompatibility (routeData : Json) (currentModelHash : String) :
    Except PyError Unit := do
  let targetHash ← routeData.getFieldD "target_model_sha256" .null
  if !targetHash.isStr currentModelHash then
    throw (.valueError "Route target model hash does not match current runtime model hash")

def verifyTenantAccess (routeData : Json) (currentTenant : TenantContext) :
    Except PyError Unit := do
  let routeTenantId ← routeData.getFieldD "tenant_id" .null
  if routeTenantId.truthy && !routeTenantId.isStr currentTenant.tenantId then
    throw (.permissionError "Tenant mismatch.")

/-- All checks of an admission, in the order the registry makes them. -/
def checkAdmission (verifier : Verifier) (routeData : Json) : Except PyError Unit := do
  verifySchema verifier routeData
  verifyHash routeData
  verifySignature verifier routeData
  verifyLicensePolicy verifier routeData
  verifyVerdict routeData

/-- The key a document is stored under. -/
def routeKey (routeData : Json) : Except PyError JsonKey := do
  let routeId ← routeData.item "route_id"
  routeId.hashKey

/-! ### Registry -/

/-- The registry, for documents. -/
structure Registry where
  routes : Dict JsonKey Json
  statuses : Dict JsonKey RouteStatus
  quarantineReasons : Dict JsonKey String

namespace Registry

def empty : Registry := ⟨.empty, .empty, .empty⟩

/-- `routes[key] = routeData`, in production. -/
def store (registry : Registry) (key : JsonKey) (routeData : Json) : Registry :=
  { registry with
    routes := registry.routes.set key routeData
    statuses := registry.statuses.set key .production }

end Registry

/-- Registers the document read from a file; `file` is what reading it gives. -/
def registerRoute (verifier : Verifier) (file : Except PyError Json) :
    EStateM PyError Registry JsonKey := do
  let routeData ← Effect.ofExcept file
  Effect.ofExcept (checkAdmission verifier routeData)
  let routeId ← Effect.ofExcept (routeKey routeData)
  modify fun registry => registry.store routeId routeData
  pure routeId

def statusGate (status : Option RouteStatus) : Except PyError Unit :=
  match status with
  | some .revoked => .error (.permissionError "Route is REVOKED and cannot be executed.")
  | some .quarantined => .error (.permissionError "Route is QUARANTINED and cannot be executed.")
  | _ => .ok ()

/-- The stored document, if there is one that is not falsy. -/
def findRoute (registry : Registry) (routeId : JsonKey) : Except PyError Json :=
  match registry.routes.get? routeId with
  | some routeData =>
    if routeData.truthy then .ok routeData
    else .error (.valueError "Route not found in registry.")
  | none => .error (.valueError "Route not found in registry.")

/-- A route is handed out only if it is safe to run now. -/
def getVerifiedRoute (registry : Registry) (routeId : JsonKey) (runtimeModelHash : String)
    (currentTenant : TenantContext) : Except PyError Json := do
  let routeData ← findRoute registry routeId
  statusGate (registry.statuses.get? routeId)
  verifyRuntimeCompatibility routeData runtimeModelHash
  verifyTenantAccess routeData currentTenant
  pure routeData

def isRevoked (registry : Registry) (routeId : JsonKey) : Bool :=
  registry.statuses.get? routeId == some .revoked

def setStatus (routeId : JsonKey) (status : RouteStatus) : EStateM PyError Registry Unit := do
  let registry ← get
  if registry.routes.contains routeId then
    set { registry with statuses := registry.statuses.set routeId status }
  else
    throw (.valueError "Route not found.")

def revokeRoute (routeId : JsonKey) : EStateM PyError Registry Unit :=
  setStatus routeId .revoked

def quarantineRoute (routeId : JsonKey) (reason : String) : EStateM PyError Registry Unit := do
  setStatus routeId .quarantined
  modify fun registry =>
    { registry with quarantineReasons := registry.quarantineReasons.set routeId reason }

/-! ### What the checks establish -/

/-- The document passes every check of an admission. -/
structure Verified (verifier : Verifier) (routeData : Json) : Prop where
  schema : verifySchema verifier routeData = .ok ()
  hashes : verifyHash routeData = .ok ()
  signature : verifySignature verifier routeData = .ok ()
  license : verifyLicensePolicy verifier routeData = .ok ()
  verdict : verifyVerdict routeData = .ok ()

theorem checkAdmission_eq_ok {verifier : Verifier} {routeData : Json} {u : Unit} :
    checkAdmission verifier routeData = .ok u ↔ Verified verifier routeData := by
  unfold checkAdmission
  simp only [Effect.bind_eq_ok]
  constructor
  · rintro ⟨_, hschema, _, hhash, _, hsig, _, hlicense, hverdict⟩
    exact ⟨hschema, hhash, hsig, hlicense, hverdict⟩
  · intro h
    exact ⟨(), h.schema, (), h.hashes, (), h.signature, (), h.license, h.verdict⟩

theorem verifyRuntimeCompatibility_eq_ok {routeData : Json} {hash : String} {u : Unit} :
    verifyRuntimeCompatibility routeData hash = .ok u ↔
      routeData.getFieldD "target_model_sha256" .null = .ok (.str hash) := by
  unfold verifyRuntimeCompatibility
  simp only [Effect.bind_eq_ok, Effect.guard_eq_ok, Bool.not_eq_false', Json.isStr_iff]
  constructor
  · rintro ⟨_, hfield, rfl⟩
    exact hfield
  · intro hfield
    exact ⟨_, hfield, rfl⟩

/-- The tenant a document is bound to, if any, is the given one. -/
def OpenTo (routeData : Json) (tenant : TenantContext) : Prop :=
  ∃ routeTenantId, routeData.getFieldD "tenant_id" .null = .ok routeTenantId ∧
    (routeTenantId.truthy = true → routeTenantId = .str tenant.tenantId)

theorem verifyTenantAccess_eq_ok {routeData : Json} {tenant : TenantContext} {u : Unit} :
    verifyTenantAccess routeData tenant = .ok u ↔ OpenTo routeData tenant := by
  unfold verifyTenantAccess OpenTo
  simp only [Effect.bind_eq_ok, Effect.guard_eq_ok]
  refine exists_congr fun routeTenantId => and_congr_right fun _ => ?_
  rw [← Json.isStr_iff]
  cases routeTenantId.truthy <;> simp

theorem statusGate_eq_ok {status : Option RouteStatus} {u : Unit} :
    statusGate status = .ok u ↔ status ≠ some .revoked ∧ status ≠ some .quarantined := by
  rcases status with _ | status
  · simp [statusGate]
  · cases status <;> simp [statusGate]

/-- What may be handed out: a stored document, neither revoked nor
quarantined, made for the running model and open to the caller. -/
structure Authorised (registry : Registry) (routeId : JsonKey) (runtimeModelHash : String)
    (tenant : TenantContext) (routeData : Json) : Prop where
  stored : registry.routes.get? routeId = some routeData
  not_revoked : registry.statuses.get? routeId ≠ some .revoked
  not_quarantined : registry.statuses.get? routeId ≠ some .quarantined
  compatible :
    routeData.getFieldD "target_model_sha256" .null = .ok (.str runtimeModelHash)
  open_to_tenant : OpenTo routeData tenant

theorem stored_of_findRoute {registry : Registry} {routeId : JsonKey} {routeData : Json}
    (h : findRoute registry routeId = .ok routeData) :
    registry.routes.get? routeId = some routeData := by
  unfold findRoute at h
  rcases hstored : registry.routes.get? routeId with _ | d
  · rw [hstored] at h
    exact absurd h (by simp)
  · rw [hstored] at h
    by_cases htruthy : d.truthy = true
    · simpa [htruthy] using h
    · exact absurd h (by simp [htruthy])

theorem authorised_of_getVerifiedRoute {registry : Registry} {routeId : JsonKey} {hash : String}
    {tenant : TenantContext} {routeData : Json}
    (h : getVerifiedRoute registry routeId hash tenant = .ok routeData) :
    Authorised registry routeId hash tenant routeData := by
  unfold getVerifiedRoute at h
  simp only [Effect.bind_eq_ok, statusGate_eq_ok, verifyRuntimeCompatibility_eq_ok,
    verifyTenantAccess_eq_ok] at h
  obtain ⟨d, hfound, _, ⟨hrevoked, hquarantined⟩, _, hhash, _, htenant, hdata⟩ := h
  cases hdata
  exact ⟨stored_of_findRoute hfound, hrevoked, hquarantined, hhash, htenant⟩

/-- A revoked or quarantined route is never handed out. -/
theorem getVerifiedRoute_raises {registry : Registry} {routeId : JsonKey}
    (h : registry.statuses.get? routeId = some .revoked ∨
      registry.statuses.get? routeId = some .quarantined) (hash : String)
    (tenant : TenantContext) : ∃ e, getVerifiedRoute registry routeId hash tenant = .error e := by
  rcases hget : getVerifiedRoute registry routeId hash tenant with e | routeData
  · exact ⟨e, rfl⟩
  · have hauth := authorised_of_getVerifiedRoute hget
    rcases h with h | h
    · exact absurd h hauth.not_revoked
    · exact absurd h hauth.not_quarantined

/-! ### What the operations do -/

/-- What registering a file would store, and under which key. -/
def admission (verifier : Verifier) (file : Except PyError Json) :
    Except PyError (JsonKey × Json) := do
  let routeData ← file
  checkAdmission verifier routeData
  let routeId ← routeKey routeData
  pure (routeId, routeData)

theorem admission_eq_ok {verifier : Verifier} {file : Except PyError Json} {key : JsonKey}
    {routeData : Json} :
    admission verifier file = .ok (key, routeData) ↔
      file = .ok routeData ∧ Verified verifier routeData ∧ routeKey routeData = .ok key := by
  unfold admission
  simp only [Effect.bind_eq_ok, checkAdmission_eq_ok]
  constructor
  · rintro ⟨d, hfile, _, hverified, k, hkey, heq⟩
    cases heq
    exact ⟨hfile, hverified, hkey⟩
  · rintro ⟨hfile, hverified, hkey⟩
    exact ⟨routeData, hfile, (), hverified, key, hkey, rfl⟩

/-- Registering a file stores what is admitted, or raises and stores nothing. -/
theorem registerRoute_eq (verifier : Verifier) (file : Except PyError Json)
    (registry : Registry) :
    registerRoute verifier file registry =
      match admission verifier file with
      | .ok (key, routeData) => .ok key (registry.store key routeData)
      | .error e => .error e registry := by
  unfold registerRoute admission
  rcases file with e | routeData
  · rfl
  · simp only [Effect.ofExcept, bind, EStateM.bind, Except.bind, pure, EStateM.pure]
    generalize checkAdmission verifier routeData = checked
    generalize routeKey routeData = keyed
    cases checked <;> cases keyed <;> rfl

theorem setStatus_eq (routeId : JsonKey) (status : RouteStatus) (registry : Registry) :
    setStatus routeId status registry =
      if registry.routes.contains routeId then
        .ok () { registry with statuses := registry.statuses.set routeId status }
      else .error (.valueError "Route not found.") registry := by
  show (if registry.routes.contains routeId = true then set _
    else throw _ : EStateM PyError Registry Unit) registry = _
  by_cases h : registry.routes.contains routeId = true
  · rw [if_pos h, if_pos h]
    rfl
  · rw [if_neg h, if_neg h]
    rfl

end RouteDocument
