/-
Runs of the route registry.

The registry of documents as a machine: each input is one call, and a call
that raises leaves the state it had reached.

* `Sound` — every stored document passed every check and is stored under its
  own id, and exactly the stored ids have a status;
* `sound_next` — every call preserves it;
* `registry_sound` — so it holds after any calls on a fresh registry, together
  with what a failing registration and a successful hand-out mean there;
* `StaysRevoked` — at every point of a run a route is revoked and cannot be had;
* `staysRevoked_iff` — exactly the runs that neither admit nor quarantine the
  route.
-/
import NeuralScalpel.RouteDocument
import NeuralScalpel.Runs

namespace RouteDocument

/-- A call of the registry. -/
inductive Call
  | register (file : Except PyError Json)
  | quarantine (routeId : JsonKey) (reason : String)
  | revoke (routeId : JsonKey)
  | getVerified (routeId : JsonKey) (runtimeModelHash : String) (tenant : TenantContext)

/-- The registry after a call. -/
def next (verifier : Verifier) (registry : Registry) : Call → Registry
  | .register file => Effect.after (registerRoute verifier file) registry
  | .quarantine routeId reason => Effect.after (quarantineRoute routeId reason) registry
  | .revoke routeId => Effect.after (revokeRoute routeId) registry
  | .getVerified _ _ _ => registry

/-! ### What one call does -/

theorem next_register (verifier : Verifier) (registry : Registry) (file : Except PyError Json) :
    next verifier registry (.register file) =
      match admission verifier file with
      | .ok (key, routeData) => registry.store key routeData
      | .error _ => registry := by
  show Effect.after (registerRoute verifier file) registry = _
  unfold Effect.after
  rw [registerRoute_eq]
  rcases admission verifier file with e | ⟨key, routeData⟩ <;> rfl

/-- The registry with a new status for a stored route. -/
def Registry.withStatus (registry : Registry) (routeId : JsonKey) (status : RouteStatus) :
    Registry :=
  if registry.routes.contains routeId then
    { registry with statuses := registry.statuses.set routeId status }
  else registry

theorem next_revoke (verifier : Verifier) (registry : Registry) (routeId : JsonKey) :
    next verifier registry (.revoke routeId) = registry.withStatus routeId .revoked := by
  show Effect.after (setStatus routeId .revoked) registry = _
  unfold Effect.after Registry.withStatus
  rw [setStatus_eq]
  by_cases h : registry.routes.contains routeId = true <;> simp [h]

/-- Quarantining changes the status and, where there is none to change, nothing. -/
theorem next_quarantine (verifier : Verifier) (registry : Registry) (routeId : JsonKey)
    (reason : String) :
    ∃ reasons, next verifier registry (.quarantine routeId reason) =
      { registry.withStatus routeId .quarantined with quarantineReasons := reasons } := by
  show ∃ reasons, Effect.after (setStatus routeId .quarantined >>= _) registry = _
  unfold Registry.withStatus Effect.after
  simp only [bind, EStateM.bind, setStatus_eq]
  by_cases h : registry.routes.contains routeId = true
  · rw [if_pos h, if_pos h]
    exact ⟨_, rfl⟩
  · rw [if_neg h, if_neg h]
    exact ⟨registry.quarantineReasons, rfl⟩

/-! ### The invariant -/

/-- What the registry promises of its contents. -/
structure Sound (verifier : Verifier) (registry : Registry) : Prop where
  own_id : ∀ (key : JsonKey) (routeData : Json),
    registry.routes.get? key = some routeData → routeKey routeData = .ok key
  verified : ∀ (key : JsonKey) (routeData : Json),
    registry.routes.get? key = some routeData → Verified verifier routeData
  status_iff : ∀ key : JsonKey,
    registry.statuses.contains key = true ↔ registry.routes.contains key = true

theorem sound_empty (verifier : Verifier) : Sound verifier .empty where
  own_id key routeData h := absurd h (by simp [Registry.empty])
  verified key routeData h := absurd h (by simp [Registry.empty])
  status_iff key := by simp [Registry.empty, Dict.contains]

/-- Storing an admitted document under its id preserves the invariant. -/
theorem Sound.store {verifier : Verifier} {registry : Registry} (h : Sound verifier registry)
    {key : JsonKey} {routeData : Json} (hkey : routeKey routeData = .ok key)
    (hverified : Verified verifier routeData) : Sound verifier (registry.store key routeData) := by
  have hlookup : ∀ k d, (registry.store key routeData).routes.get? k = some d →
      (k = key ∧ d = routeData) ∨ registry.routes.get? k = some d := by
    intro k d hk
    unfold Registry.store at hk
    rw [Dict.get?_set] at hk
    by_cases hkk : k = key
    · rw [if_pos hkk] at hk
      exact Or.inl ⟨hkk, (Option.some.inj hk).symm⟩
    · rw [if_neg hkk] at hk
      exact Or.inr hk
  refine ⟨?_, ?_, ?_⟩
  · intro k d hk
    rcases hlookup k d hk with ⟨rfl, rfl⟩ | hold
    · exact hkey
    · exact h.own_id k d hold
  · intro k d hk
    rcases hlookup k d hk with ⟨rfl, rfl⟩ | hold
    · exact hverified
    · exact h.verified k d hold
  · intro k
    unfold Registry.store
    rw [Dict.contains_set, Dict.contains_set, h.status_iff k]

theorem Sound.withStatus {verifier : Verifier} {registry : Registry}
    (h : Sound verifier registry) (routeId : JsonKey) (status : RouteStatus) :
    Sound verifier (registry.withStatus routeId status) := by
  unfold Registry.withStatus
  by_cases hstored : registry.routes.contains routeId = true
  · rw [if_pos hstored]
    refine ⟨h.own_id, h.verified, fun k => ?_⟩
    rw [Dict.contains_set, h.status_iff k]
    constructor
    · rintro (rfl | hk)
      · exact hstored
      · exact hk
    · exact Or.inr
  · rw [if_neg hstored]
    exact h

/-- Every call preserves the invariant. -/
theorem sound_next {verifier : Verifier} {registry : Registry} (call : Call)
    (h : Sound verifier registry) : Sound verifier (next verifier registry call) := by
  cases call with
  | register file =>
    rw [next_register]
    rcases hadm : admission verifier file with e | ⟨key, routeData⟩
    · exact h
    · obtain ⟨_, hverified, hkey⟩ := admission_eq_ok.mp hadm
      exact h.store hkey hverified
  | quarantine routeId reason =>
    obtain ⟨reasons, heq⟩ := next_quarantine verifier registry routeId reason
    rw [heq]
    have hstatus := h.withStatus routeId .quarantined
    exact ⟨hstatus.own_id, hstatus.verified, hstatus.status_iff⟩
  | revoke routeId =>
    rw [next_revoke]
    exact h.withStatus routeId .revoked
  | getVerified routeId hash tenant => exact h

theorem sound_run (verifier : Verifier) (calls : List Call) :
    Sound verifier (Runs.run (next verifier) .empty calls) :=
  Runs.invariant_run_of_step (fun _ call h => sound_next call h) (sound_empty verifier)

/-- After any calls on a fresh registry: what is stored passed every check, a
registration that raises changes nothing, and what is handed out is stored,
verified, made for the caller's model and open to the caller. -/
theorem registry_sound (verifier : Verifier) (calls : List Call) :
    let registry := Runs.run (next verifier) Registry.empty calls
    Sound verifier registry ∧
    (∀ file e registry', registerRoute verifier file registry = .error e registry' →
      registry' = registry) ∧
    (∀ routeId hash tenant routeData,
      getVerifiedRoute registry routeId hash tenant = .ok routeData →
        registry.routes.get? routeId = some routeData ∧ Verified verifier routeData ∧
        routeData.getFieldD "target_model_sha256" .null = .ok (.str hash) ∧
        OpenTo routeData tenant) := by
  intro registry
  have hsound : Sound verifier registry := sound_run verifier calls
  refine ⟨hsound, ?_, ?_⟩
  · intro file e registry' h
    rw [registerRoute_eq] at h
    rcases hadm : admission verifier file with e' | ⟨key, routeData⟩
    · rw [hadm] at h
      cases h
      rfl
    · rw [hadm] at h
      cases h
  · intro routeId hash tenant routeData h
    have hauth := authorised_of_getVerifiedRoute h
    exact ⟨hauth.stored, hsound.verified routeId routeData hauth.stored, hauth.compatible,
      hauth.open_to_tenant⟩

/-! ### Revocation -/

/-- The only document the calls admit under the id is the given one. -/
def OnlyAdmits (verifier : Verifier) (routeId : JsonKey) (routeData : Json)
    (calls : List Call) : Prop :=
  ∀ call ∈ calls, ∀ file d, call = .register file →
    admission verifier file = .ok (routeId, d) → d = routeData

/-- At every point of the run the route is revoked and every retrieval raises. -/
def StaysRevoked (verifier : Verifier) (routeId : JsonKey) (registry : Registry)
    (calls : List Call) : Prop :=
  ∀ before later, calls = before ++ later →
    isRevoked (Runs.run (next verifier) registry before) routeId = true ∧
    ∀ hash tenant, ∃ e,
      getVerifiedRoute (Runs.run (next verifier) registry before) routeId hash tenant = .error e

/-- A call that writes another status over the revocation: an admitted
registration under the id, or a quarantine. -/
def Call.Overwrites (verifier : Verifier) (routeId : JsonKey) : Call → Prop
  | .register file => ∃ routeData, admission verifier file = .ok (routeId, routeData)
  | .quarantine routeId' _ => routeId' = routeId
  | _ => False

/-- A stored route that is revoked. -/
structure Revoked (routeId : JsonKey) (registry : Registry) : Prop where
  stored : registry.routes.contains routeId = true
  revoked : registry.statuses.get? routeId = some .revoked

theorem Revoked.isRevoked {routeId : JsonKey} {registry : Registry}
    (h : Revoked routeId registry) : isRevoked registry routeId = true := by
  unfold RouteDocument.isRevoked
  rw [h.revoked]
  rfl

theorem Revoked.withStatus {routeId routeId' : JsonKey} {registry : Registry}
    {status : RouteStatus} (h : Revoked routeId registry)
    (hstatus : routeId' = routeId → status = .revoked) :
    Revoked routeId (registry.withStatus routeId' status) := by
  unfold Registry.withStatus
  by_cases hstored : registry.routes.contains routeId' = true
  · rw [if_pos hstored]
    refine ⟨h.stored, ?_⟩
    show (registry.statuses.set routeId' status).get? routeId = _
    rw [Dict.get?_set]
    by_cases hid : routeId = routeId'
    · rw [if_pos hid, hstatus hid.symm]
    · rw [if_neg hid]
      exact h.revoked
  · rw [if_neg hstored]
    exact h

theorem revoked_next_revoke {verifier : Verifier} {registry : Registry} {routeId : JsonKey}
    (hstored : registry.routes.contains routeId = true) :
    Revoked routeId (next verifier registry (.revoke routeId)) := by
  rw [next_revoke, Registry.withStatus, if_pos hstored]
  refine ⟨hstored, ?_⟩
  show (registry.statuses.set routeId .revoked).get? routeId = _
  rw [Dict.get?_set, if_pos rfl]

/-- A revocation survives every call that does not write over it. -/
theorem Revoked.next {verifier : Verifier} {registry : Registry} {routeId : JsonKey}
    (call : Call) (h : Revoked routeId registry) (hcall : ¬call.Overwrites verifier routeId) :
    Revoked routeId (next verifier registry call) := by
  cases call with
  | register file =>
    rw [next_register]
    rcases hadm : admission verifier file with e | ⟨key, routeData⟩
    · exact h
    · have hkey : routeId ≠ key := by
        rintro rfl
        exact hcall ⟨routeData, hadm⟩
      refine ⟨?_, ?_⟩
      · exact Dict.contains_set.mpr (Or.inr h.stored)
      · show (registry.statuses.set key .production).get? routeId = _
        rw [Dict.get?_set, if_neg hkey]
        exact h.revoked
  | quarantine routeId' reason =>
    obtain ⟨reasons, heq⟩ := next_quarantine verifier registry routeId' reason
    rw [heq]
    have hkept : Revoked routeId (registry.withStatus routeId' .quarantined) :=
      h.withStatus fun hid => absurd hid hcall
    exact ⟨hkept.stored, hkept.revoked⟩
  | revoke routeId' =>
    rw [next_revoke]
    exact h.withStatus fun _ => rfl
  | getVerified routeId' hash tenant => exact h

/-- A call that writes over the revocation ends it. -/
theorem not_isRevoked_of_overwrites {verifier : Verifier} {registry : Registry}
    {routeId : JsonKey} {call : Call} (h : Revoked routeId registry)
    (hcall : call.Overwrites verifier routeId) :
    isRevoked (RouteDocument.next verifier registry call) routeId = false := by
  unfold isRevoked
  cases call with
  | register file =>
    obtain ⟨routeData, hadm⟩ := hcall
    rw [next_register, hadm]
    show ((registry.statuses.set routeId .production).get? routeId == _) = false
    rw [Dict.get?_set, if_pos rfl]
    rfl
  | quarantine routeId' reason =>
    obtain rfl : routeId' = routeId := hcall
    obtain ⟨reasons, heq⟩ := next_quarantine verifier registry routeId' reason
    rw [heq, Registry.withStatus, if_pos h.stored]
    show ((registry.statuses.set routeId' .quarantined).get? routeId' == _) = false
    rw [Dict.get?_set, if_pos rfl]
    rfl
  | revoke routeId' => exact hcall.elim
  | getVerified routeId' hash tenant => exact hcall.elim

/-- From a revoked route, the revocation lasts exactly through the runs that
never write over it. -/
theorem staysRevoked_of_revoked {verifier : Verifier} {routeId : JsonKey} :
    ∀ {calls : List Call} {registry : Registry}, Revoked routeId registry →
      (StaysRevoked verifier routeId registry calls ↔
        ∀ call ∈ calls, ¬call.Overwrites verifier routeId) := by
  intro calls
  induction calls with
  | nil =>
    intro registry h
    refine ⟨fun _ call hcall => absurd hcall List.not_mem_nil, fun _ before later heq => ?_⟩
    obtain ⟨rfl, rfl⟩ := List.append_eq_nil_iff.mp heq.symm
    exact ⟨h.isRevoked, fun hash tenant => getVerifiedRoute_raises (Or.inl h.revoked) hash tenant⟩
  | cons call calls ih =>
    intro registry h
    rw [List.forall_mem_cons]
    constructor
    · intro hstays
      have hcall : ¬call.Overwrites verifier routeId := by
        intro hover
        have hrev := (hstays [call] calls rfl).1
        rw [Runs.run_cons, Runs.run_nil, not_isRevoked_of_overwrites h hover] at hrev
        exact absurd hrev (by decide)
      refine ⟨hcall, (ih (h.next call hcall)).mp fun before later heq => ?_⟩
      exact hstays (call :: before) later (by rw [heq, List.cons_append])
    · rintro ⟨hcall, hcalls⟩ before later heq
      rcases before with _ | ⟨call', before⟩
      · exact ⟨h.isRevoked,
          fun hash tenant => getVerifiedRoute_raises (Or.inl h.revoked) hash tenant⟩
      · obtain ⟨rfl, rfl⟩ := List.cons.inj heq
        exact (ih (h.next call hcall)).mpr hcalls before later rfl

/-- A revocation is permanent for the revoked document if no run that admits
no other document under the id ends it. -/
def RevocationLasts (verifier : Verifier) (routeId : JsonKey) (routeData : Json)
    (registry : Registry) (calls : List Call) : Prop :=
  OnlyAdmits verifier routeId routeData calls →
    StaysRevoked verifier routeId (next verifier registry (.revoke routeId)) calls

/-- Revoking a registered route lasts exactly through the later calls that
neither admit a document under its id again nor quarantine it. -/
theorem revocationLasts_iff (verifier : Verifier) (routeId : JsonKey) (routeData : Json)
    (registry : Registry) (calls : List Call)
    (hstored : registry.routes.get? routeId = some routeData) :
    RevocationLasts verifier routeId routeData registry calls ↔
      (OnlyAdmits verifier routeId routeData calls →
        ∀ call ∈ calls, ¬call.Overwrites verifier routeId) := by
  have hcontains : registry.routes.contains routeId = true := by
    rw [Dict.contains, hstored]
    rfl
  exact imp_congr_right fun _ => staysRevoked_of_revoked (revoked_next_revoke hcontains)

def sampleVerifier : Verifier where
  schema _ := true
  upper s := s
  dumps _ := "text"
  hmac secret text := secret ++ text
  secretKeys := Dict.empty.set "key" "secret"

def sampleDigest : Json := .str (String.ofList (List.replicate 64 'a'))

/-- A signed manifest under a permissive license. -/
def sampleManifest (license : String) : Json := .obj [
  ("route_id", .str "r"),
  ("source_adapter_sha256", sampleDigest),
  ("target_model_sha256", sampleDigest),
  ("license", .str license),
  ("diagnostics", .obj [("verdict", .str "PASS")]),
  ("layers", .arr [.obj [("name", .str "w"), ("delta_sha256", sampleDigest)]]),
  ("signature", .obj [("algorithm", .str "hmac-sha256"), ("key_id", .str "key"),
    ("value", .str "secrettext")])]

/-- The registry that has admitted the sample manifest. -/
def sampleRegistry : Registry :=
  next sampleVerifier .empty (.register (.ok (sampleManifest "MIT")))

theorem admission_sampleManifest :
    admission sampleVerifier (.ok (sampleManifest "MIT")) =
      .ok (.str "r", sampleManifest "MIT") := by
  rfl

theorem stored_sampleRegistry :
    sampleRegistry.routes.get? (.str "r") = some (sampleManifest "MIT") := by
  unfold sampleRegistry
  rw [next_register, admission_sampleManifest]
  rfl

/-- Registering the revoked manifest once more puts it back into production. -/
theorem revocation_lifted :
    sampleRegistry.routes.get? (.str "r") = some (sampleManifest "MIT") ∧
      ¬RevocationLasts sampleVerifier (.str "r") (sampleManifest "MIT") sampleRegistry
        [.register (.ok (sampleManifest "MIT"))] := by
  refine ⟨stored_sampleRegistry, fun hlasts => ?_⟩
  have honly : OnlyAdmits sampleVerifier (.str "r") (sampleManifest "MIT")
      [.register (.ok (sampleManifest "MIT"))] := by
    intro call hcall file d hfile hadm
    obtain rfl : call = .register (.ok (sampleManifest "MIT")) := List.mem_singleton.mp hcall
    obtain rfl : .ok (sampleManifest "MIT") = file := Call.register.inj hfile
    exact (Except.ok.inj (admission_eq_ok.mp hadm).1).symm
  have hrev := (hlasts honly [.register (.ok (sampleManifest "MIT"))] [] rfl).1
  revert hrev
  decide +kernel

/-- Retrievals and further revocations leave the sample route revoked. -/
theorem revocation_kept :
    StaysRevoked sampleVerifier (.str "r")
      (next sampleVerifier sampleRegistry (.revoke (.str "r")))
      [.getVerified (.str "r") "model" ⟨"t"⟩, .revoke (.str "r")] := by
  refine (revocationLasts_iff sampleVerifier (.str "r") (sampleManifest "MIT") sampleRegistry
    _ stored_sampleRegistry).mpr (fun _ call hcall hover => ?_) fun call hcall file d hfile _ => ?_
  · rcases List.mem_pair.mp hcall with rfl | rfl
    · exact hover.elim
    · exact hover.elim
  · rcases List.mem_pair.mp hcall with rfl | rfl
    · cases hfile
    · cases hfile

end RouteDocument
