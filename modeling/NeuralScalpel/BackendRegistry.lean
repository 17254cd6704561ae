/-
The registry of external backends, and the proxy engine that uses it.

A URL has one record of its health, made when it is first registered, and the
routes registered to the URL share it.  An inference posts to the URL of its
route, and marks that URL unhealthy when the backend times out or fails with a
status of 500 or more.

* `Record` — what has happened, as one would read it in a log: registrations,
  removals and reports of health;
* `Serves` — the URL a route should be sent to, by that log;
* `agrees_run` — the registry agrees with the log after every run;
* `resolveBackend_iff`, `proxy_routes` — so routes are resolved, and requests
  posted, as the log says.
-/
import NeuralScalpel.Dict
import NeuralScalpel.Runs
import Mathlib.Data.Rat.Defs

namespace ProxyEngine

/-! ### The registry -/

structure BackendInfo where
  url : String
  isHealthy : Bool
  failureCount : ℕ
  deriving DecidableEq

/-- A record is known by its number; both dictionaries refer to it. -/
structure BackendRegistry where
  infos : List BackendInfo
  routeMappings : Dict String ℕ
  backends : Dict String ℕ

namespace BackendRegistry

def init : BackendRegistry := ⟨[], .empty, .empty⟩

def registerBackend (r : BackendRegistry) (routeId url : String) : BackendRegistry :=
  let r := if (r.backends.get? url).isSome then r
    else { r with
      infos := r.infos ++ [⟨url, true, 0⟩]
      backends := r.backends.set url r.infos.length }
  match r.backends.get? url with
  | some i => { r with routeMappings := r.routeMappings.set routeId i }
  | none => r

/-- The record of a route. -/
def info? (r : BackendRegistry) (routeId : String) : Option BackendInfo :=
  (r.routeMappings.get? routeId).bind fun i => r.infos[i]?

def resolveBackend (r : BackendRegistry) (routeId : String) : Option String :=
  match r.info? routeId with
  | some info => if info.isHealthy then some info.url else none
  | none => none

def updateHealth (r : BackendRegistry) (url : String) (isHealthy : Bool) : BackendRegistry :=
  match r.backends.get? url with
  | none => r
  | some i => { r with
      infos := r.infos.modify i fun info => { info with
        isHealthy := isHealthy
        failureCount := if isHealthy then 0 else info.failureCount + 1 } }

def getRouteStatus (r : BackendRegistry) (routeId : String) : String :=
  match r.info? routeId with
  | none => "NOT_FOUND"
  | some info => if info.isHealthy then "READY" else "UNHEALTHY_BACKEND"

def removeRoute (r : BackendRegistry) (routeId : String) : BackendRegistry :=
  { r with routeMappings := r.routeMappings.erase routeId }

end BackendRegistry

/-! ### The engine -/

/-- The attributes that are read from a request, where it has them. -/
structure InferRequest where
  routeId : Option String
  prompt : Option String
  maxTokens : Option ℤ
  temperature : Option ℚ

structure Payload where
  model : String
  prompt : String
  maxTokens : ℤ
  temperature : ℚ
  auditRef : String
  tenantId : Option String
  deriving DecidableEq

def InferRequest.payload (req : InferRequest) (tenantId : Option String) (auditRef : String) :
    Payload where
  model := "neural-scalpel-routed"
  prompt := req.prompt.getD ""
  maxTokens := req.maxTokens.getD 50
  temperature := req.temperature.getD 0
  auditRef := auditRef
  tenantId := tenantId

/-- What `infer` raises. -/
inductive ProxyError
  | missingRoute
  | unresolved (routeId status : String)
  | timeout (routeId url : String)
  | backend (code : ℕ) (routeId : String)
  | forwarding (message : String)
  deriving DecidableEq

def ProxyError.message : ProxyError → String
  | .missingRoute => "Request must contain a route_id"
  | .unresolved routeId status =>
    "Could not resolve backend for route '" ++ routeId ++ "': status=" ++ status
  | .timeout routeId url => "Backend timeout for route '" ++ routeId ++ "' at " ++ url
  | .backend code routeId => "Backend error " ++ toString code ++ " for route '" ++ routeId ++ "'"
  | .forwarding message => "Proxy forwarding failed: " ++ message

/-- How a post ends; `J` is the type of what a backend sends. -/
inductive Response (J : Type)
  | json (body : J)
  | timeout
  | status (code : ℕ)
  | failure (message : String)

/-- `infer` up to its `await`: the route and the URL that is posted to. -/
def startInfer (r : BackendRegistry) (req : InferRequest) : Except ProxyError (String × String) :=
  match req.routeId with
  | none => .error .missingRoute
  | some routeId =>
    if routeId = "" then .error .missingRoute
    else
      match r.resolveBackend routeId with
      | none => .error (.unresolved routeId (r.getRouteStatus routeId))
      | some backendUrl =>
        -- an empty URL is no URL
        if backendUrl = "" then .error (.unresolved routeId (r.getRouteStatus routeId))
        else .ok (routeId, backendUrl)

variable {J : Type}

/-- A response that tells on the health of the backend. -/
def Response.unhealthy : Response J → Bool
  | .timeout => true
  | .status code => 500 ≤ code
  | _ => false

/-- `infer` from its `await` on. -/
def finishInfer (r : BackendRegistry) (routeId backendUrl : String) (response : Response J) :
    Except ProxyError J × BackendRegistry :=
  match response with
  | .json body => (.ok body, r)
  | .timeout => (.error (.timeout routeId backendUrl), r.updateHealth backendUrl false)
  | .status code =>
    (.error (.backend code routeId),
      if 500 ≤ code then r.updateHealth backendUrl false else r)
  | .failure message => (.error (.forwarding message), r)

/-! ### Runs -/

/-- The calls of the registry, an inference up to its post, and the end of the
`n`th post. -/
inductive Operation (J : Type)
  | register (routeId url : String)
  | remove (routeId : String)
  | updateHealth (url : String) (isHealthy : Bool)
  | infer (req : InferRequest) (tenantId : Option String) (auditRef : String)
  | respond (n : ℕ) (response : Response J)

/-- What can be read in the log of the service. -/
inductive Record
  | registered (routeId url : String)
  | removed (routeId : String)
  | reported (url : String) (isHealthy : Bool)
  deriving DecidableEq

/-- The registry, the posts that are not answered, everything that was posted, the
results of the inferences, and the log, the latest first. -/
structure History (J : Type) where
  registry : BackendRegistry
  inFlight : List (Option (String × String))
  posts : List (String × Payload)
  results : List (Except ProxyError J)
  log : List Record

namespace History

def start : History J := ⟨.init, [], [], [], []⟩

def perform (h : History J) : Operation J → History J
  | .register routeId url => { h with
      registry := h.registry.registerBackend routeId url
      log := .registered routeId url :: h.log }
  | .remove routeId => { h with
      registry := h.registry.removeRoute routeId
      log := .removed routeId :: h.log }
  | .updateHealth url isHealthy => { h with
      registry := h.registry.updateHealth url isHealthy
      log := .reported url isHealthy :: h.log }
  | .infer req tenantId auditRef =>
    match startInfer h.registry req with
    | .error e => { h with results := h.results ++ [.error e] }
    | .ok (routeId, backendUrl) => { h with
        inFlight := h.inFlight ++ [some (routeId, backendUrl)]
        posts := h.posts ++ [(backendUrl, req.payload tenantId auditRef)] }
  | .respond n response =>
    match h.inFlight[n]? with
    | some (some (routeId, backendUrl)) =>
      let outcome := finishInfer h.registry routeId backendUrl response
      { h with
        registry := outcome.2
        inFlight := h.inFlight.set n none
        results := h.results ++ [outcome.1]
        log := if response.unhealthy then .reported backendUrl false :: h.log else h.log }
    | _ => h

end History

/-! ### What the log says -/

/-- The URL of the last registration of a route that was not removed since. -/
def lastRegistration (routeId : String) : List Record → Option String
  | [] => none
  | .registered routeId' url :: log =>
    if routeId' = routeId then some url else lastRegistration routeId log
  | .removed routeId' :: log => if routeId' = routeId then none else lastRegistration routeId log
  | .reported _ _ :: log => lastRegistration routeId log

/-- The URL has been registered, for any route. -/
def everRegistered (url : String) : List Record → Bool
  | [] => false
  | .registered _ url' :: log => url' = url || everRegistered url log
  | .removed _ :: log => everRegistered url log
  | .reported _ _ :: log => everRegistered url log

/-- The latest report of the health of a URL since it was first registered. -/
def lastReport (url : String) : List Record → Option Bool
  | [] => none
  | .registered _ _ :: log => lastReport url log
  | .removed _ :: log => lastReport url log
  | .reported url' isHealthy :: log =>
    if url' = url ∧ everRegistered url log then some isHealthy else lastReport url log

/-- The route was last registered to the URL, and no report on the URL, or the
latest, was healthy. -/
def Serves (log : List Record) (routeId url : String) : Prop :=
  lastRegistration routeId log = some url ∧
    (lastReport url log = none ∨ lastReport url log = some true)

theorem everRegistered_of_lastRegistration {routeId url : String} {log : List Record}
    (h : lastRegistration routeId log = some url) : everRegistered url log = true := by
  induction log with
  | nil => exact absurd h (by simp [lastRegistration])
  | cons entry log ih =>
    cases entry with
    | registered routeId' url' =>
      rw [lastRegistration] at h
      by_cases hroute : routeId' = routeId
      · rw [if_pos hroute] at h
        simp [everRegistered, Option.some.inj h]
      · rw [if_neg hroute] at h
        simp [everRegistered, ih h]
    | removed routeId' =>
      rw [lastRegistration] at h
      by_cases hroute : routeId' = routeId
      · rw [if_pos hroute] at h
        exact absurd h (by simp)
      · rw [if_neg hroute] at h
        exact ih h
    | reported url' isHealthy => exact ih h

/-- Reports on a URL nobody has registered are not taken. -/
theorem lastReport_of_not_registered {url : String} {log : List Record}
    (h : everRegistered url log = false) : lastReport url log = none := by
  induction log with
  | nil => rfl
  | cons entry log ih =>
    cases entry with
    | registered routeId url' =>
      rw [everRegistered, Bool.or_eq_false_iff] at h
      exact ih h.2
    | removed routeId => exact ih h
    | reported url' isHealthy =>
      have h : everRegistered url log = false := h
      rw [lastReport, if_neg fun hboth => by simp [h] at hboth]
      exact ih h

/-! ### The registry agrees with the log -/

/-- Each registered URL has a record of its own, with the health last reported,
and each route refers to the record of its URL. -/
structure Agrees (r : BackendRegistry) (log : List Record) : Prop where
  backends : ∀ url, (r.backends.get? url).isSome = everRegistered url log
  infos : ∀ url i, r.backends.get? url = some i → ∃ info, r.infos[i]? = some info ∧
    info.url = url ∧ info.isHealthy = (lastReport url log).getD true
  routes : ∀ routeId, r.routeMappings.get? routeId =
    (lastRegistration routeId log).bind r.backends.get?

namespace Agrees

variable {r : BackendRegistry} {log : List Record}

theorem init : Agrees .init [] where
  backends _ := rfl
  infos _ _ h := absurd h (by simp [BackendRegistry.init])
  routes _ := rfl

/-- A route refers to the record of the URL it was last registered to. -/
theorem info? (h : Agrees r log) (routeId : String) :
    lastRegistration routeId log = none ∧ r.info? routeId = none ∨
      ∃ url info, lastRegistration routeId log = some url ∧ r.info? routeId = some info ∧
        info.url = url ∧ info.isHealthy = (lastReport url log).getD true := by
  rcases hlast : lastRegistration routeId log with _ | url
  · refine Or.inl ⟨rfl, ?_⟩
    rw [BackendRegistry.info?, h.routes, hlast]
    rfl
  · have hknown := everRegistered_of_lastRegistration hlast
    rw [← h.backends, Option.isSome_iff_exists] at hknown
    obtain ⟨i, hi⟩ := hknown
    obtain ⟨info, hinfo, hurl, hhealth⟩ := h.infos url i hi
    refine Or.inr ⟨url, info, rfl, ?_, hurl, hhealth⟩
    rw [BackendRegistry.info?, h.routes, hlast]
    simp only [Option.bind_some, hi]
    exact hinfo

theorem resolveBackend_iff (h : Agrees r log) {routeId url : String} :
    r.resolveBackend routeId = some url ↔ Serves log routeId url := by
  unfold BackendRegistry.resolveBackend Serves
  rcases h.info? routeId with ⟨hlast, hinfo⟩ | ⟨url', info, hlast, hinfo, hurl, hhealth⟩
  · simp [hlast, hinfo]
  · simp only [hlast, hinfo, hurl, hhealth, Option.some.injEq]
    rcases hreport : lastReport url' log with _ | isHealthy
    · simp only [Option.getD_none, if_true, Option.some.injEq]
      constructor
      · rintro rfl
        exact ⟨rfl, Or.inl hreport⟩
      · exact fun hboth => hboth.1
    · cases isHealthy with
      | true =>
        simp only [Option.getD_some, if_true, Option.some.injEq]
        constructor
        · rintro rfl
          exact ⟨rfl, Or.inr hreport⟩
        · exact fun hboth => hboth.1
      | false =>
        simp only [Option.getD_some, Bool.false_eq_true, if_false]
        refine iff_of_false (by simp) ?_
        rintro ⟨rfl, hnone | htrue⟩
        · rw [hreport] at hnone
          exact absurd hnone (by simp)
        · rw [hreport] at htrue
          exact absurd htrue (by simp)

/-- A URL that is registered again keeps its record. -/
theorem register_known (h : Agrees r log) {url : String} {i : ℕ}
    (hi : r.backends.get? url = some i) (routeId : String) :
    Agrees (r.registerBackend routeId url) (.registered routeId url :: log) := by
  have hregister : r.registerBackend routeId url =
      { r with routeMappings := r.routeMappings.set routeId i } := by
    simp [BackendRegistry.registerBackend, hi]
  rw [hregister]
  refine ⟨fun url' => ?_, h.infos, fun routeId' => ?_⟩
  · rw [everRegistered, ← h.backends]
    by_cases hurl : url = url'
    · simp [← hurl, hi]
    · simp [hurl]
  · simp only [Dict.get?_set, lastRegistration]
    by_cases hroute : routeId' = routeId
    · simp [hroute, hi]
    · rw [if_neg hroute, if_neg (Ne.symm hroute)]
      exact h.routes routeId'

/-- A new URL gets a new record, a healthy one. -/
theorem register_new (h : Agrees r log) {url : String} (hnew : r.backends.get? url = none)
    (routeId : String) :
    Agrees (r.registerBackend routeId url) (.registered routeId url :: log) := by
  have hregister : r.registerBackend routeId url =
      { infos := r.infos ++ [⟨url, true, 0⟩]
        routeMappings := r.routeMappings.set routeId r.infos.length
        backends := r.backends.set url r.infos.length } := by
    simp [BackendRegistry.registerBackend, hnew]
  have hnever : everRegistered url log = false := by
    rw [← h.backends, hnew]
    rfl
  rw [hregister]
  refine ⟨fun url' => ?_, fun url' i hget => ?_, fun routeId' => ?_⟩
  · simp only [Dict.get?_set, everRegistered, ← h.backends]
    by_cases hurl : url' = url
    · simp [hurl]
    · simp [hurl, Ne.symm hurl]
  · rw [Dict.get?_set] at hget
    by_cases hurl : url' = url
    · rw [if_pos hurl] at hget
      obtain rfl := Option.some.inj hget
      refine ⟨⟨url, true, 0⟩, by simp, hurl.symm, ?_⟩
      show true = (lastReport url' log).getD true
      rw [hurl, lastReport_of_not_registered hnever]
      rfl
    · rw [if_neg hurl] at hget
      obtain ⟨info, hinfo, hrest⟩ := h.infos url' i hget
      refine ⟨info, ?_, hrest⟩
      rw [List.getElem?_append_left (List.getElem?_eq_some_iff.mp hinfo).1]
      exact hinfo
  · rw [Dict.get?_set, lastRegistration]
    by_cases hroute : routeId' = routeId
    · simp [hroute]
    · rw [if_neg hroute, if_neg (Ne.symm hroute), h.routes]
      -- the other routes are registered to other URLs
      rcases hlast : lastRegistration routeId' log with _ | url'
      · rfl
      · have hne : url' ≠ url := by
          rintro rfl
          rw [everRegistered_of_lastRegistration hlast] at hnever
          exact absurd hnever (by simp)
        show r.backends.get? url' = (r.backends.set url r.infos.length).get? url'
        rw [Dict.get?_set, if_neg hne]

theorem register (h : Agrees r log) (routeId url : String) :
    Agrees (r.registerBackend routeId url) (.registered routeId url :: log) := by
  rcases hget : r.backends.get? url with _ | i
  · exact h.register_new hget routeId
  · exact h.register_known hget routeId

theorem remove (h : Agrees r log) (routeId : String) :
    Agrees (r.removeRoute routeId) (.removed routeId :: log) := by
  refine ⟨h.backends, h.infos, fun routeId' => ?_⟩
  simp only [BackendRegistry.removeRoute, Dict.get?_erase, lastRegistration]
  by_cases hroute : routeId' = routeId
  · simp [hroute]
  · rw [if_neg hroute, if_neg (Ne.symm hroute)]
    exact h.routes routeId'

/-- A report reaches the one record of its URL. -/
theorem updateHealth (h : Agrees r log) (url : String) (isHealthy : Bool) :
    Agrees (r.updateHealth url isHealthy) (.reported url isHealthy :: log) := by
  rcases hget : r.backends.get? url with _ | i
  · have hnever : everRegistered url log = false := by
      rw [← h.backends, hget]
      rfl
    have hsame : r.updateHealth url isHealthy = r := by
      simp [BackendRegistry.updateHealth, hget]
    rw [hsame]
    refine ⟨h.backends, fun url' i hi => ?_, h.routes⟩
    obtain ⟨info, hinfo, hurl, hhealth⟩ := h.infos url' i hi
    refine ⟨info, hinfo, hurl, ?_⟩
    rw [lastReport, if_neg ?_]
    · exact hhealth
    · rintro ⟨rfl, hknown⟩
      rw [hnever] at hknown
      exact absurd hknown (by simp)
  · have hknown : everRegistered url log = true := by
      rw [← h.backends, hget]
      rfl
    have hupdate : r.updateHealth url isHealthy = { r with
        infos := r.infos.modify i fun info => { info with
          isHealthy := isHealthy
          failureCount := if isHealthy then 0 else info.failureCount + 1 } } := by
      simp [BackendRegistry.updateHealth, hget]
    rw [hupdate]
    refine ⟨h.backends, fun url' i' hi' => ?_, h.routes⟩
    obtain ⟨info, hinfo, hurl, hhealth⟩ := h.infos url' i' hi'
    simp only [List.getElem?_modify, hinfo, Option.map_eq_map, Option.map_some]
    by_cases hsame : url = url'
    · subst hsame
      obtain rfl := Option.some.inj (hget.symm.trans hi')
      refine ⟨_, rfl, ?_, ?_⟩
      · simp [hurl]
      · simp [lastReport, hknown]
    · -- records of different URLs are different
      have hne : i ≠ i' := by
        rintro rfl
        obtain ⟨info', hinfo', hurl', _⟩ := h.infos url i hget
        obtain rfl := Option.some.inj (hinfo.symm.trans hinfo')
        exact hsame (hurl'.symm.trans hurl)
      refine ⟨info, ?_, hurl, ?_⟩
      · simp [hne]
      · simp [lastReport, hsame, hhealth]

theorem finishInfer (h : Agrees r log) (routeId url : String) (response : Response J) :
    Agrees (finishInfer r routeId url response).2
      (if response.unhealthy then .reported url false :: log else log) := by
  cases response with
  | json body => exact h
  | failure message => exact h
  | timeout => exact h.updateHealth url false
  | status code =>
    unfold ProxyEngine.finishInfer Response.unhealthy
    by_cases hcode : 500 ≤ code
    · simp only [hcode, if_true, decide_true]
      exact h.updateHealth url false
    · simp only [hcode, if_false, decide_false, Bool.false_eq_true]
      exact h

end Agrees

/-! ### One operation -/

/-- A call of `infer` raises or posts, and leaves registry and log alone. -/
theorem perform_infer (h : History J) (req : InferRequest) (tenantId : Option String)
    (auditRef : String) :
    (∃ e, startInfer h.registry req = .error e ∧ h.perform (.infer req tenantId auditRef) =
        { h with results := h.results ++ [.error e] }) ∨
      ∃ routeId url, startInfer h.registry req = .ok (routeId, url) ∧
        h.perform (.infer req tenantId auditRef) = { h with
          inFlight := h.inFlight ++ [some (routeId, url)]
          posts := h.posts ++ [(url, req.payload tenantId auditRef)] } := by
  rcases hstart : startInfer h.registry req with e | ⟨routeId, url⟩
  · exact Or.inl ⟨e, rfl, by simp [History.perform, hstart]⟩
  · exact Or.inr ⟨routeId, url, rfl, by simp [History.perform, hstart]⟩

/-- A response to a post that waits for one is handled, another one is not heard. -/
theorem perform_respond (h : History J) (n : ℕ) (response : Response J) :
    h.perform (.respond n response) = h ∨
      ∃ routeId url, h.inFlight[n]? = some (some (routeId, url)) ∧
        h.perform (.respond n response) = { h with
          registry := (finishInfer h.registry routeId url response).2
          inFlight := h.inFlight.set n none
          results := h.results ++ [(finishInfer h.registry routeId url response).1]
          log := if response.unhealthy then .reported url false :: h.log else h.log } := by
  rcases hcall : h.inFlight[n]? with _ | _ | ⟨routeId, url⟩
  · exact Or.inl (by simp [History.perform, hcall])
  · exact Or.inl (by simp [History.perform, hcall])
  · exact Or.inr ⟨routeId, url, rfl, by simp [History.perform, hcall]⟩

theorem agrees_perform {h : History J} (hagrees : Agrees h.registry h.log) (op : Operation J) :
    Agrees (h.perform op).registry (h.perform op).log := by
  cases op with
  | register routeId url => exact hagrees.register routeId url
  | remove routeId => exact hagrees.remove routeId
  | updateHealth url isHealthy => exact hagrees.updateHealth url isHealthy
  | infer req tenantId auditRef =>
    rcases perform_infer h req tenantId auditRef with ⟨e, _, heq⟩ | ⟨routeId, url, _, heq⟩ <;>
    · rw [heq]
      exact hagrees
  | respond n response =>
    rcases perform_respond h n response with heq | ⟨routeId, url, _, heq⟩
    · rw [heq]
      exact hagrees
    · rw [heq]
      exact hagrees.finishInfer routeId url response

/-- The registry agrees with the log after every run. -/
theorem agrees_run (ops : List (Operation J)) :
    Agrees (Runs.run History.perform History.start ops).registry
      (Runs.run History.perform History.start ops).log :=
  Runs.invariant_run_of_step (I := fun h : History J => Agrees h.registry h.log)
    (fun _ op h => agrees_perform h op) Agrees.init

/-! ### Where requests go -/

/-- What a call of `infer` does: it posts nothing, or posts the request to the URL
that serves its route; it raises and posts nothing when there is none. -/
structure InferredRight (h : History J) (req : InferRequest) (tenantId : Option String)
    (auditRef : String) : Prop where
  posts : (h.perform (.infer req tenantId auditRef)).posts = h.posts ∨
    ∃ routeId url, req.routeId = some routeId ∧ Serves h.log routeId url ∧
      (h.perform (.infer req tenantId auditRef)).posts =
        h.posts ++ [(url, req.payload tenantId auditRef)]
  refused : (∀ routeId url, req.routeId = some routeId → ¬Serves h.log routeId url) →
    (h.perform (.infer req tenantId auditRef)).posts = h.posts ∧
      ∃ e, (h.perform (.infer req tenantId auditRef)).results = h.results ++ [.error e]
  sent : ∀ routeId url, req.routeId = some routeId → routeId ≠ "" → url ≠ "" →
    Serves h.log routeId url → (h.perform (.infer req tenantId auditRef)).posts =
      h.posts ++ [(url, req.payload tenantId auditRef)]

/-- A call posts to the URL its route is resolved to, unless one of the two is
empty. -/
theorem startInfer_eq_ok_iff {r : BackendRegistry} {req : InferRequest} {routeId url : String} :
    startInfer r req = .ok (routeId, url) ↔ req.routeId = some routeId ∧ routeId ≠ "" ∧ url ≠ "" ∧
      r.resolveBackend routeId = some url := by
  unfold startInfer
  rcases req.routeId with _ | routeId'
  · simp
  · by_cases hroute : routeId' = ""
    · simp only [hroute, if_true, Option.some.injEq, reduceCtorEq, false_iff]
      rintro ⟨rfl, hne, _⟩
      exact hne rfl
    · simp only [if_neg hroute, Option.some.injEq]
      rcases hresolve : r.resolveBackend routeId' with _ | url'
      · simp only [reduceCtorEq, false_iff]
        rintro ⟨rfl, _, _, hsome⟩
        rw [hresolve] at hsome
        exact absurd hsome (by simp)
      · by_cases hurl : url' = ""
        · simp only [hurl, if_true, reduceCtorEq, false_iff]
          rintro ⟨rfl, _, hne, hsome⟩
          rw [hresolve] at hsome
          exact hne ((Option.some.inj hsome).symm.trans hurl)
        · simp only [if_neg hurl, Except.ok.injEq, Prod.mk.injEq]
          constructor
          · rintro ⟨rfl, rfl⟩
            exact ⟨rfl, hroute, hurl, hresolve⟩
          · rintro ⟨rfl, _, _, hsome⟩
            exact ⟨rfl, Option.some.inj (hresolve.symm.trans hsome)⟩

theorem inferredRight_of_agrees {h : History J} (hagrees : Agrees h.registry h.log)
    (req : InferRequest) (tenantId : Option String) (auditRef : String) :
    InferredRight h req tenantId auditRef := by
  rcases perform_infer h req tenantId auditRef with ⟨e, hstart, heq⟩ | ⟨routeId, url, hstart, heq⟩
  · refine ⟨Or.inl (by rw [heq]), fun _ => ⟨by rw [heq], e, by rw [heq]⟩,
      fun routeId url hroute hne hurl hserves => ?_⟩
    have hok := startInfer_eq_ok_iff.mpr
      ⟨hroute, hne, hurl, hagrees.resolveBackend_iff.mpr hserves⟩
    rw [hstart] at hok
    exact absurd hok (by simp)
  · obtain ⟨hroute, hne, hurl, hresolve⟩ := startInfer_eq_ok_iff.mp hstart
    have hserves := hagrees.resolveBackend_iff.mp hresolve
    refine ⟨Or.inr ⟨routeId, url, hroute, hserves, by rw [heq]⟩,
      fun hnone => absurd hserves (hnone routeId url hroute),
      fun routeId' url' hroute' _ _ hserves' => ?_⟩
    -- one URL serves a route
    obtain rfl := Option.some.inj (hroute.symm.trans hroute')
    have hsame : url = url' := Option.some.inj (hserves.1.symm.trans hserves'.1)
    rw [heq, hsame]

/-- **Each route goes to its own healthy backend**, in every state a run can
reach, and only a call of `infer` posts. -/
theorem proxy_routes (ops : List (Operation J)) :
    let h := Runs.run History.perform History.start ops
    (∀ routeId url, h.registry.resolveBackend routeId = some url ↔ Serves h.log routeId url) ∧
    (∀ req tenantId auditRef, InferredRight h req tenantId auditRef) ∧
    ∀ op, (∀ req tenantId auditRef, op ≠ .infer req tenantId auditRef) →
      (h.perform op).posts = h.posts := by
  intro h
  have hagrees : Agrees h.registry h.log := agrees_run ops
  refine ⟨fun routeId url => hagrees.resolveBackend_iff, inferredRight_of_agrees hagrees,
    fun op hop => ?_⟩
  cases op with
  | register | remove | updateHealth => rfl
  | infer req tenantId auditRef => exact absurd rfl (hop req tenantId auditRef)
  | respond n response =>
    rcases perform_respond h n response with heq | ⟨routeId, url, _, heq⟩ <;> rw [heq]

end ProxyEngine
