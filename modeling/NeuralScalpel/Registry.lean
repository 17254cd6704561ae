/-
Route manifests and the route registry.

The registry admits a manifest only after every check, and hands a route out
only if it is registered, neither revoked nor quarantined, made for the
running model and open to the calling tenant:

* `getVerifiedRoute_eq_ok` — exactly when a route is handed out;
* `registerRoute_error` — a refused registration leaves the registry alone;
* `routes_quarantineRoute`, `routes_revokeRoute` — only statuses change.

The JSON-schema library, the HMAC of the signer and the case mapping of
strings enter through `AdmissionChecks`.
-/
import NeuralScalpel.Dict
import NeuralScalpel.FailurePolicy
import NeuralScalpel.Substrings

/-- One entry of a manifest's `layers`. -/
structure LayerSpec where
  name : String
  shape : List ℕ
  dtype : String
  deltaSha256 : Option String
  payloadKey : Option String
  deriving DecidableEq, Repr

/-- The reference to the payload file. -/
structure PayloadBlock where
  uri : String
  sha256 : Option String
  deriving DecidableEq, Repr

/-- A `.scalpel_route` manifest: the fields the program reads, `none` where
the document has no such key. -/
structure Manifest where
  routeId : String
  sourceAdapterSha256 : Option String
  targetModelSha256 : Option String
  tenantId : Option String
  license : Option String
  verdict : Option String
  payload : Option PayloadBlock
  layers : List LayerSpec
  deriving DecidableEq, Repr

/-- The tenant making a request. -/
structure TenantContext where
  tenantId : String
  deriving DecidableEq, Repr

/-! ### Policy -/

inductive RouteStatus
  | draft
  | diagnosed
  | staging
  | canary
  | production
  | revoked
  | quarantined
  deriving DecidableEq, Repr

inductive PolicyDecision
  | allow
  | deny
  | manualReview
  deriving DecidableEq, Repr

/-- The risk of a license; `upper` is the case mapping of strings. -/
def evaluateLicenseRisk (upper : String → String) (licenseName : String) : PolicyDecision :=
  if licenseName = "" then .manualReview
  else if ["MIT", "APACHE", "BSD"].any fun l => occursIn l (upper licenseName).toList then .allow
  else if ["GPL", "AGPL", "CC-BY-NC-SA"].any fun l => occursIn l (upper licenseName).toList then
    .deny
  else .manualReview

/-! ### Verifier -/

/-- What admission asks of other code: the complaint of the schema library, if
it has one, and what the signer raises. -/
structure AdmissionChecks where
  schema : Manifest → Except String Unit
  signature : Manifest → Except PyError Unit
  upper : String → String

def isHexDigit (c : Char) : Bool :=
  ('a' ≤ c && c ≤ 'f') || ('A' ≤ c && c ≤ 'F') || ('0' ≤ c && c ≤ '9')

/-- The pattern of a SHA-256 digest; its `$` also matches before a final
newline. -/
def matchesSha256 (s : String) : Bool :=
  (s.toList.take 64).length == 64 && (s.toList.take 64).all isHexDigit &&
    (s.toList.drop 64 == [] || s.toList.drop 64 == ['\n'])

def verifySchema (checks : AdmissionChecks) (routeData : Manifest) : Except PyError Unit :=
  match checks.schema routeData with
  | .ok _ => .ok ()
  | .error message =>
    .error (.valueError s!"Route manifest schema validation failed: {message}")

def verifyHash (routeData : Manifest) : Except PyError Unit :=
  let sourceHash := routeData.sourceAdapterSha256.getD ""
  let targetHash := routeData.targetModelSha256.getD ""
  if !matchesSha256 sourceHash then
    .error (.valueError s!"Invalid source_adapter_sha256 format: {sourceHash}")
  else if !matchesSha256 targetHash then
    .error (.valueError s!"Invalid target_model_sha256 format: {targetHash}")
  else
    -- the loop stops at the first layer whose digest is malformed
    match routeData.layers.find? fun layer => !matchesSha256 (layer.deltaSha256.getD "") with
    | some layer =>
      let deltaHash := layer.deltaSha256.getD ""
      .error (.valueError s!"Invalid delta_sha256 format for layer {layer.name}: {deltaHash}")
    | none => .ok ()

def verifySignature (checks : AdmissionChecks) (routeData : Manifest) : Except PyError Unit :=
  checks.signature routeData

def verifyLicensePolicy (checks : AdmissionChecks) (routeData : Manifest) :
    Except PyError Unit :=
  let licenseName := routeData.license.getD ""
  match evaluateLicenseRisk checks.upper licenseName with
  | .deny =>
    .error (.permissionError s!"Route rejected due to high-risk license policy: {licenseName}")
  | .manualReview => .error (.permissionError
      s!"Route rejected: License '{licenseName}' requires manual review.")
  | .allow => .ok ()

def verifyRuntimeCompatibility (routeData : Manifest) (currentModelHash : String) :
    Except PyError Unit :=
  if routeData.targetModelSha256 ≠ some currentModelHash then
    let printed := routeData.targetModelSha256.getD "None"
    .error (.valueError (s!"Route target model hash ({printed}) " ++
      s!"does not match current runtime model hash ({currentModelHash})."))
  else .ok ()

theorem verifyRuntimeCompatibility_eq_ok {routeData : Manifest} {hash : String} {u : Unit} :
    verifyRuntimeCompatibility routeData hash = .ok u ↔
      routeData.targetModelSha256 = some hash := by
  by_cases h : routeData.targetModelSha256 = some hash <;>
    simp [verifyRuntimeCompatibility, h]

/-- A route without a tenant, or with an empty one, is open to every tenant. -/
def Manifest.opensTo (routeData : Manifest) (tenant : TenantContext) : Bool :=
  match routeData.tenantId with
  | none => true
  | some t => t == "" || t == tenant.tenantId

def verifyTenantAccess (routeData : Manifest) (tenant : TenantContext) : Except PyError Unit :=
  if routeData.opensTo tenant then .ok ()
  else
    let routeTenantId := routeData.tenantId.getD "None"
    .error (.permissionError (s!"Tenant mismatch. Route is bound to tenant '{routeTenantId}', " ++
      s!"but current context is '{tenant.tenantId}'."))

theorem verifyTenantAccess_eq_ok {routeData : Manifest} {tenant : TenantContext} {u : Unit} :
    verifyTenantAccess routeData tenant = .ok u ↔ routeData.opensTo tenant = true := by
  by_cases h : routeData.opensTo tenant = true <;> simp [verifyTenantAccess, h]

/-! ### Registry -/

structure RouteRegistry where
  routes : Dict String Manifest
  statuses : Dict String RouteStatus
  quarantineReasons : Dict String String

namespace RouteRegistry

def empty : RouteRegistry := ⟨.empty, .empty, .empty⟩

/-- All checks of an admission, in the order the registry makes them. -/
def checkAdmission (checks : AdmissionChecks) (routeData : Manifest) : Except PyError Unit := do
  verifySchema checks routeData
  verifyHash routeData
  verifySignature checks routeData
  verifyLicensePolicy checks routeData
  if routeData.verdict = some "FAIL" then
    throw (.valueError "Cannot register route with FAIL verdict.")

/-- Registers the manifest read from a file; `file` is what reading it gives. -/
def registerRoute (checks : AdmissionChecks) (file : Except PyError Manifest) :
    EStateM PyError RouteRegistry String := do
  let routeData ← Effect.ofExcept file
  Effect.ofExcept (checkAdmission checks routeData)
  modify fun registry => { registry with
    routes := registry.routes.set routeData.routeId routeData
    statuses := registry.statuses.set routeData.routeId .production }
  pure routeData.routeId

/-- Revoked and quarantined routes cannot be executed. -/
def statusGate (routeId : String) (status : Option RouteStatus) : Except PyError Unit :=
  match status with
  | some .revoked =>
    .error (.permissionError s!"Route {routeId} is REVOKED and cannot be executed.")
  | some .quarantined =>
    .error (.permissionError s!"Route {routeId} is QUARANTINED and cannot be executed.")
  | _ => .ok ()

/-- A route is handed out only if it is safe to run now. -/
def getVerifiedRoute (registry : RouteRegistry) (routeId runtimeModelHash : String)
    (tenant : TenantContext) : Except PyError Manifest :=
  match registry.routes.get? routeId with
  | none => .error (.valueError s!"Route {routeId} not found in registry.")
  | some routeData => do
    statusGate routeId (registry.statuses.get? routeId)
    verifyRuntimeCompatibility routeData runtimeModelHash
    verifyTenantAccess routeData tenant
    pure routeData

/-- Sets a status other than the one given at registration. -/
def setStatus (routeId : String) (status : RouteStatus) : EStateM PyError RouteRegistry Unit := do
  let registry ← get
  -- any status may follow any other
  if registry.routes.contains routeId then
    set { registry with statuses := registry.statuses.set routeId status }
  else
    throw (.valueError s!"Route {routeId} not found.")

def revokeRoute (routeId : String) : EStateM PyError RouteRegistry Unit :=
  setStatus routeId .revoked

def quarantineRoute (routeId reason : String) : EStateM PyError RouteRegistry Unit := do
  setStatus routeId .quarantined
  modify fun registry =>
    { registry with quarantineReasons := registry.quarantineReasons.set routeId reason }

/-! ### What a hand-out means -/

/-- The conditions under which a route may run. -/
structure Authorised (registry : RouteRegistry) (routeId runtimeModelHash : String)
    (tenant : TenantContext) (routeData : Manifest) : Prop where
  registered : registry.routes.get? routeId = some routeData
  not_revoked : registry.statuses.get? routeId ≠ some .revoked
  not_quarantined : registry.statuses.get? routeId ≠ some .quarantined
  compatible : routeData.targetModelSha256 = some runtimeModelHash
  open_to_tenant : routeData.opensTo tenant = true

theorem statusGate_eq_ok {routeId : String} {status : Option RouteStatus} {u : Unit} :
    statusGate routeId status = .ok u ↔
      status ≠ some .revoked ∧ status ≠ some .quarantined := by
  rcases status with _ | status
  · simp [statusGate]
  · cases status <;> simp [statusGate]

/-- A route is handed out exactly when it is authorised. -/
theorem getVerifiedRoute_eq_ok {registry : RouteRegistry} {routeId hash : String}
    {tenant : TenantContext} {routeData : Manifest} :
    registry.getVerifiedRoute routeId hash tenant = .ok routeData ↔
      registry.Authorised routeId hash tenant routeData := by
  unfold getVerifiedRoute
  rcases hr : registry.routes.get? routeId with _ | m
  · exact ⟨fun h => absurd h (by simp), fun h => absurd (hr ▸ h.registered) (by simp)⟩
  · simp only [Effect.bind_eq_ok, statusGate_eq_ok, verifyRuntimeCompatibility_eq_ok,
      verifyTenantAccess_eq_ok]
    constructor
    · rintro ⟨_, ⟨hrev, hquar⟩, _, hhash, _, htenant, hm⟩
      cases hm
      exact ⟨hr, hrev, hquar, hhash, htenant⟩
    · rintro ⟨hreg, hrev, hquar, hhash, htenant⟩
      rw [hr] at hreg
      cases hreg
      exact ⟨(), ⟨hrev, hquar⟩, (), hhash, (), htenant, rfl⟩

theorem registered_of_getVerifiedRoute {registry : RouteRegistry} {routeId hash : String}
    {tenant : TenantContext} {routeData : Manifest}
    (h : registry.getVerifiedRoute routeId hash tenant = .ok routeData) :
    registry.routes.get? routeId = some routeData :=
  (getVerifiedRoute_eq_ok.mp h).registered

/-! ### What the operations change -/

/-- A refused registration leaves the registry alone. -/
theorem registerRoute_error (checks : AdmissionChecks) (file : Except PyError Manifest)
    (registry : RouteRegistry) :
    Effect.wp (registerRoute checks file) (fun _ _ => True) (fun _ registry' =>
      registry' = registry) registry := by
  simp [registerRoute]

theorem routes_setStatus (routeId : String) (status : RouteStatus) :
    Effect.Keeps (fun registry registry' : RouteRegistry => registry'.routes = registry.routes)
      (setStatus routeId status) := by
  intro registry
  unfold setStatus
  by_cases h : registry.routes.contains routeId = true <;> simp [h]

/-- Revoking changes no manifest. -/
theorem routes_revokeRoute (routeId : String) :
    Effect.Keeps (fun registry registry' : RouteRegistry => registry'.routes = registry.routes)
      (revokeRoute routeId) :=
  routes_setStatus routeId .revoked

/-- Quarantining changes no manifest. -/
theorem routes_quarantineRoute (routeId reason : String) :
    Effect.Keeps (fun registry registry' : RouteRegistry => registry'.routes = registry.routes)
      (quarantineRoute routeId reason) := by
  intro registry
  rw [quarantineRoute, Effect.wp_bind]
  exact routes_setStatus routeId .quarantined registry

/-- Quarantining a registered route cannot fail. -/
theorem quarantineRoute_returns {registry : RouteRegistry} {routeId : String}
    (h : registry.routes.contains routeId = true) (reason : String) :
    Effect.wp (quarantineRoute routeId reason)
      (fun _ registry' => registry'.statuses.get? routeId = some .quarantined)
      (fun _ _ => False) registry := by
  simp [quarantineRoute, setStatus, h]

end RouteRegistry
