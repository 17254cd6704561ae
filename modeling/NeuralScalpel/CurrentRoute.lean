/-
The persistent gateway refines a current-route machine.

When every step succeeds, `ensureRoute` is a machine with one variable: the
route asked for last.  A call says whether the variable has changed, the weights
are those of its value, and the counters count its changes.

* `ensureRoute_returns` — when every step succeeds, an activation returns;
* `afterActivation_simulates` — one activation simulates one step of the
  one-variable machine;
* `run_simulates` — so does every run, and the counters count changes;
* `ensureRoute_refines_current` — what each call of a run returns and leaves.
-/
import NeuralScalpel.Agreement

open Effect

/-! ### The one-variable machine -/

/-- The route asked for last, the base model at first. -/
def currentAfter (rs : List String) : String := Runs.run (fun _ r => r) baseRoute rs

/-- The pairs of a route and the route asked for next, from `p` on. -/
def stepsFrom : String → List String → List (String × String)
  | _, [] => []
  | p, r :: rs => (p, r) :: stepsFrom r rs

/-- The step swaps a route in. -/
def swapsIn (step : String × String) : Bool := step.2 ≠ baseRoute && step.2 ≠ step.1

/-- The step rolls a route back. -/
def rollsBack (step : String × String) : Bool := step.1 ≠ baseRoute && step.2 ≠ step.1

/-- No step of a swap raises. -/
structure SwapFaults.Clean (faults : SwapFaults) : Prop where
  clone : ∀ i, faults.clone i = none
  checksum : ∀ i, faults.checksum i = none
  add : ∀ i, faults.add i = none

namespace Runtime

variable {w : Worker} {base : Store} {rt : Runtime}

/-! ### Steps that succeed -/

/-- The layer resolves to a parameter that is as declared, and has a delta of
the declared shape. -/
def Fits (w : Worker) (base : Store) (deltas : Dict String Tensor) (layer : LayerSpec) : Prop :=
  ∃ target address delta, w.locate layer.name = some (target, address) ∧
    (base address).shape = layer.shape ∧ (base address).dtype = layer.dtype ∧
    deltas.get? layer.name = some delta ∧ delta.shape = layer.shape

theorem captureLayer_returns {faults : SwapFaults} {state : Dict String ℕ}
    {deltas : Dict String Tensor} {layer : LayerSpec} (hmodel : w.model = some state)
    (hfaults : faults.Clean) (hfits : Fits w base deltas layer) (i : ℕ) (golden : Golden) :
    Returns (captureLayer w faults state base i layer) golden := by
  obtain ⟨target, address, _, hlocate, hshape, hdtype, _⟩ := hfits
  obtain ⟨hresolve, hget⟩ := (Worker.locate_of_model hmodel).mp hlocate
  have hsub : subscript (some state) target = .ok address := by rw [subscript, hget]
  have hcheck : checkLayer layer target (base address) = .ok () :=
    checkLayer_eq_ok.mpr ⟨hshape, hdtype⟩
  simp [Returns, captureLayer, hresolve, hsub, hcheck, hfaults.clone, hfaults.checksum]

theorem captureSnapshot_returns {faults : SwapFaults} {routeData : Manifest}
    {deltas : Dict String Tensor} {state : Dict String ℕ} (hmodel : w.model = some state)
    (hfaults : faults.Clean) (hstore : rt.store = base)
    (hfits : ∀ layer ∈ routeData.layers, Fits w base deltas layer) :
    Returns (captureSnapshot w faults routeData) rt := by
  rw [Returns, captureSnapshot, hmodel]
  simp only
  rw [wp_bind, wp_get, hstore]
  by_cases hcovers : rt.golden.covers routeData = true
  · rw [if_pos hcovers]
    trivial
  · rw [if_neg hcovers, wp_zoom, wp_bind, wp_set]
    refine (wp_forEach (I := fun left _ => ∀ layer ∈ left, layer ∈ routeData.layers)
      (fun i layer left golden hleft => ?_) fun _ h => h).mono (fun _ _ _ => trivial) fun _ _ h => h
    refine (captureLayer_returns hmodel hfaults (hfits layer (hleft layer List.mem_cons_self)) i
      golden).mono (fun _ _ _ l hl => hleft l (List.mem_cons_of_mem _ hl)) fun _ _ h => h

theorem swapLayer_returns {faults : SwapFaults} {state : Dict String ℕ} {routeData : Manifest}
    {deltas : Dict String Tensor} {layer : LayerSpec} (hmodel : w.model = some state)
    (hfaults : faults.Clean) (hfits : Fits w base deltas layer)
    (hmapped : ∃ address, rt.golden.Mapped w layer.name address)
    (hlayout : SameLayouts base rt.store) (i : ℕ) :
    wp (swapLayer state faults routeData deltas i layer)
      (fun _ rt' => rt'.golden = rt.golden ∧ SameLayouts base rt'.store) (fun _ _ => False) rt := by
  obtain ⟨target, address, delta, hlocate, hshape, _, hdelta, hdshape⟩ := hfits
  obtain ⟨a, ha⟩ := hmapped
  have htarget : (rt.golden.target layer.name, a) = (target, address) :=
    Option.some.inj (ha.target_eq.symm.trans hlocate)
  obtain ⟨-, hget⟩ := (Worker.locate_of_model hmodel).mp hlocate
  have hbroadcast : broadcastsTo delta.shape (rt.store address).shape = true := by
    rw [(hlayout address).1, hshape, hdshape]
    exact broadcastsTo_refl _
  have hlayer : layerDelta routeData deltas target layer (rt.store address) =
      .ok (delta.toDtype (rt.store address).dtype) := by
    rw [layerDelta, hdelta]
    rfl
  have hadd : addInPlace (rt.store address) (delta.toDtype (rt.store address).dtype) =
      .ok ((rt.store address).plus (delta.toDtype (rt.store address).dtype)) :=
    addInPlace_eq_ok.mpr (Tensor.add_eq_some.mpr ⟨hbroadcast, rfl⟩)
  rw [swapLayer, wp_bind, wp_get, (Prod.mk.inj htarget).1, hget]
  -- every step that could raise is known, so one state is left
  simp only [wp_bind, wp_ofExcept, wp_raiseIf, wp_modify, hlayer, hfaults.add, hadd,
    Except.ok.injEq, reduceCtorEq, IsEmpty.forall_iff, implies_true, and_true, forall_eq',
    forall_const]
  exact ⟨trivial, trans_of SameLayouts hlayout (sameLayouts_update (Tensor.sameLayout_plus _ _))⟩

theorem applySwap_returns {env : Environment} {routeData : Manifest}
    {deltas : Dict String Tensor} {state : Dict String ℕ} (hmodel : w.model = some state)
    (hfaults : env.swap.Clean) (happly : deltasToApply w env.files routeData deltas = .ok deltas)
    (hlayout : SameLayouts base rt.store)
    (hfits : ∀ layer ∈ routeData.layers, Fits w base deltas layer)
    (hmapped : ∀ layer ∈ routeData.layers, ∃ address, rt.golden.Mapped w layer.name address) :
    Returns (applySwap w env routeData deltas) rt := by
  rw [Returns, applySwap, hmodel]
  simp only [wp_bind, wp_ofExcept, wp_modify, happly]
  refine ⟨fun d hd => ?_, fun e he => absurd he (by simp)⟩
  obtain rfl := Except.ok.inj hd
  refine (wp_forEach (I := fun left rt' => rt'.golden = rt.golden ∧ SameLayouts base rt'.store ∧
    ∀ layer ∈ left, layer ∈ routeData.layers) (fun i layer left rt' h => ?_)
    ⟨rfl, hlayout, fun _ h => h⟩).mono (fun _ _ _ => trivial) fun _ _ h => h
  obtain ⟨hgolden, hlayout', hleft⟩ := h
  have hlayer := hleft layer List.mem_cons_self
  refine (swapLayer_returns hmodel hfaults (hfits layer hlayer) (hgolden ▸ hmapped layer hlayer)
    hlayout' i).mono ?_ fun _ _ h => h
  rintro _ rt'' ⟨hg, hl⟩
  exact ⟨hg.trans hgolden, hl, fun l hl => hleft l (List.mem_cons_of_mem _ hl)⟩

/-- From a ready worker with its base weights, a swap in which no step raises
returns. -/
theorem swapIn_returns {env : Environment} {routeId : String} {routeData : Manifest}
    {deltas : Dict String Tensor} {state : Dict String ℕ} (hmodel : w.model = some state)
    (hfaults : env.swap.Clean) (happly : deltasToApply w env.files routeData deltas = .ok deltas)
    (h : Recoverable w base rt) (hphase : rt.phase = .ready) (hstore : rt.store = base)
    (hfits : ∀ layer ∈ routeData.layers, Fits w base deltas layer) :
    Returns (swapIn w env routeId routeData deltas) rt := by
  rw [Returns, swapIn, wp_bind]
  refine wp_transition_of_valid hphase (by decide) fun machine hm => ?_
  rw [wp_bind]
  have hstore₁ : (rt.setMachine machine).store = base := hstore
  refine ((captureSnapshot_returns hmodel hfaults hstore₁ hfits).wp
    (captureSnapshot_of_base hstore₁ h.golden)).mono ?_ fun _ _ hfalse => hfalse
  rintro _ _ ⟨golden, rfl, hok, hsnap⟩
  rw [wp_bind]
  refine wp_transition_of_valid hm (by decide) fun machine₁ hm₁ => ?_
  rw [wp_bind]
  refine wp_transition_of_valid hm₁ (by decide) fun machine₂ hm₂ => ?_
  rw [wp_bind]
  have hmapped : ∀ layer ∈ routeData.layers, ∃ address, golden.Mapped w layer.name address :=
    fun layer hlayer => hok.exists_mapped (hsnap layer hlayer)
  have hstore₂ : (setMachine machine₂ (setMachine machine₁
      { rt.setMachine machine with golden := golden })).store = base := hstore
  have hlayout₂ : SameLayouts base (setMachine machine₂ (setMachine machine₁
      { rt.setMachine machine with golden := golden })).store := hstore₂ ▸ refl_of SameLayouts _
  refine ((applySwap_returns hmodel hfaults happly hlayout₂ hfits hmapped).wp
    (applySwap_spec hstore₂ hmapped)).mono ?_ fun _ _ hfalse => hfalse
  rintro _ rt' ⟨_, hmachine, _⟩
  have hphase' : rt'.phase = .swapping := (congrArg RuntimeStateMachine.phase hmachine).trans hm₂
  exact wp_transition_of_valid hphase' (by decide) fun _ _ => trivial

/-! ### Activations that succeed -/

/-- The activation of a route succeeds in every step: it verifies, its payload
validates to the given deltas, its layers fit and no step of the swap raises. -/
structure Succeeds (w : Worker) (base : Store) (registry : RouteRegistry) (routeData : Manifest)
    (deltas : Dict String Tensor) (activation : Activation) : Prop where
  verified : registry.getVerifiedRoute activation.routeId w.runtimeModelHash activation.tenant =
    .ok routeData
  valid : validatePayload activation.env.files w.payloadBaseDir w.maxPayloadBytes routeData =
    .ok deltas
  applies : ∃ applied, deltasToApply w activation.env.files routeData deltas = .ok applied
  fits : ∀ layer ∈ routeData.layers, Fits w base deltas layer
  swap : activation.env.swap.Clean

theorem Succeeds.deltasToApply_eq {registry : RouteRegistry} {routeData : Manifest}
    {deltas : Dict String Tensor} {activation : Activation}
    (h : Succeeds w base registry routeData deltas activation) :
    deltasToApply w activation.env.files routeData deltas = .ok deltas := by
  obtain ⟨applied, happly⟩ := h.applies
  obtain rfl := eq_of_deltasToApply h.valid happly
  exact happly

/-- The manifest and the deltas of each route of a run. -/
structure Catalogue where
  manifest : String → Manifest
  deltas : String → Dict String Tensor

/-- The activation succeeds in every step, and so do the copies and digests of
its rollbacks. -/
structure Smooth (w : Worker) (base : Store) (registry : RouteRegistry) (catalogue : Catalogue)
    (activation : Activation) : Prop where
  resident : activation.env.resident.Clean
  cycle : activation.env.cycle.Clean
  succeeds : activation.routeId ≠ baseRoute → Succeeds w base registry
    (catalogue.manifest activation.routeId) (catalogue.deltas activation.routeId) activation

/-- The deltas that count as validated are those of the catalogue. -/
def Catalogue.Lists (w : Worker) (catalogue : Catalogue) (routeId : String) (routeData : Manifest)
    (deltas : Dict String Tensor) : Prop :=
  routeData = catalogue.manifest routeId ∧ deltas = catalogue.deltas routeId ∧
    ∃ files, validatePayload files w.payloadBaseDir w.maxPayloadBytes routeData = .ok deltas

/-- The base weights plus the deltas of a route; no deltas for the base model. -/
def routeWeights (w : Worker) (base : Store) (catalogue : Catalogue) (routeId : String) : Store :=
  if routeId = baseRoute then base
  else plusDeltas w (catalogue.manifest routeId) (catalogue.deltas routeId)
    (catalogue.manifest routeId).layers base

variable {registry : RouteRegistry} {catalogue : Catalogue} {activation : Activation}

/-- The runtime holds the value of the one-variable machine. -/
structure Simulates (w : Worker) (base : Store) (registry : RouteRegistry) (catalogue : Catalogue)
    (current : String) (rt : Runtime) : Prop where
  consistent : Consistent w base registry.routes (catalogue.Lists w) rt
  registry_eq : rt.registry = registry
  active : rt.activeRouteId = current

theorem Smooth.lists (h : Smooth w base registry catalogue activation)
    (hbase : activation.routeId ≠ baseRoute) (routeData : Manifest) (deltas : Dict String Tensor)
    (hroute : registry.routes.get? activation.routeId = some routeData)
    (hvalid : validatePayload activation.env.files w.payloadBaseDir w.maxPayloadBytes routeData =
      .ok deltas) : catalogue.Lists w activation.routeId routeData deltas := by
  have hs := h.succeeds hbase
  obtain rfl := Option.some.inj
    (hroute.symm.trans (RouteRegistry.registered_of_getVerifiedRoute hs.verified))
  exact ⟨rfl, Except.ok.inj (hvalid.symm.trans hs.valid), _, hvalid⟩

/-- When every step succeeds, swapping a route in returns. -/
theorem activate_returns {state : Dict String ℕ} (hmodel : w.model = some state)
    (h : Simulates w base registry catalogue baseRoute rt)
    (hsmooth : Smooth w base registry catalogue activation)
    (hbase : activation.routeId ≠ baseRoute) :
    Returns (activate w activation.env activation.routeId activation.tenant) rt := by
  have hs := hsmooth.succeeds hbase
  have hg := h.consistent.grounded h.active
  have hswap : ∀ {rt₁ : Runtime} {deltas}, rt₁.phase = rt.phase → rt₁.store = rt.store →
      Recoverable w base rt₁ → deltas = catalogue.deltas activation.routeId →
      wp (swapIn w activation.env activation.routeId (catalogue.manifest activation.routeId) deltas)
        (fun _ _ => True)
        (fun _ rt₂ => wp (performRollback w activation.env.cycle activation.routeId)
          (fun _ _ => False) (fun _ _ => False) rt₂) rt₁ := by
    rintro rt₁ deltas hphase hstore hrec rfl
    exact (swapIn_returns hmodel hs.swap hs.deltasToApply_eq hrec (hphase.trans hg.phase)
      (hstore.trans hg.store) hs.fits).mono (fun _ _ h => h) fun _ _ hfalse => hfalse.elim
  refine wp_activate (fun e he => ?_) fun routeData hroute => ?_
  · rw [h.registry_eq, hs.verified] at he
    exact absurd he (by simp)
  · rw [h.registry_eq, hs.verified] at hroute
    obtain rfl := Except.ok.inj hroute
    rw [cachedDeltas, wp_bind, wp_get]
    -- validated now, or at an earlier activation with the same result
    rcases hget : rt.validatedDeltaCache.get? activation.routeId with _ | deltas
    · simp only [wp_bind, wp_ofExcept, hs.valid, Except.mapError, wp_modify, wp_pure]
      refine ⟨fun deltas hdeltas => ?_, fun e he => absurd he (by simp)⟩
      exact hswap rfl rfl (h.consistent.recoverable.congr rfl rfl) (Except.ok.inj hdeltas).symm
    · obtain ⟨_, _, _, hlisted, _⟩ := h.consistent.cached hget
      exact hswap rfl rfl h.consistent.recoverable hlisted

theorem ensureFromBase_returns {state : Dict String ℕ} (hmodel : w.model = some state)
    (h : Simulates w base registry catalogue baseRoute rt)
    (hsmooth : Smooth w base registry catalogue activation) :
    Returns (ensureFromBase w activation.env activation.routeId activation.tenant) rt := by
  rw [ensureFromBase]
  by_cases hbase : activation.routeId = baseRoute
  · rw [if_pos hbase]
    trivial
  · rw [if_neg hbase]
    exact activate_returns hmodel h hsmooth hbase

/-- When every step succeeds, an activation returns. -/
theorem ensureRoute_returns {state : Dict String ℕ} {current : String}
    (hmodel : w.model = some state) (h : Simulates w base registry catalogue current rt)
    (hsmooth : Smooth w base registry catalogue activation) :
    Returns (ensure w activation) rt := by
  refine wp_ensureRoute (fun hwq _ => ?_) (fun _ _ => trivial) (fun _ _ hbase => ?_)
    fun _ _ _ => ?_
  · rcases h.consistent.phase_ne with hp | hp <;> rw [hp] at hwq <;> exact absurd hwq (by decide)
  · exact ensureFromBase_returns hmodel ⟨h.consistent, h.registry_eq, hbase⟩ hsmooth
  · refine (performRollback_rolledBack h.consistent.recoverable hsmooth.resident).mono
      (fun _ rt₁ hback => ?_) fun _ _ hfalse => hfalse
    have hregistry := (books_eq_iff.mp hback.books).1.trans h.registry_eq
    exact ensureFromBase_returns hmodel
      ⟨(h.consistent.of_rolledBack rfl hback).1, hregistry, rfl⟩ hsmooth

/-! ### Simulation -/

/-- One activation simulates one step of the one-variable machine. -/
theorem afterActivation_simulates {state : Dict String ℕ} {current : String}
    (hmodel : w.model = some state) (h : Simulates w base registry catalogue current rt)
    (hsmooth : Smooth w base registry catalogue activation) :
    returned (ensure w activation) rt = some (decide (activation.routeId ≠ current)) ∧
      Simulates w base registry catalogue activation.routeId (rt.afterActivation w activation) ∧
      (rt.afterActivation w activation).swapCount = rt.swapCount +
        (if swapsIn (current, activation.routeId) then 1 else 0) ∧
      (rt.afterActivation w activation).rollbackCount = rt.rollbackCount +
        (if rollsBack (current, activation.routeId) then 1 else 0) := by
  -- what the call does if it returns, and that it returns
  have hspec := ensureRoute_spec h.consistent hsmooth.resident hsmooth.cycle
    (fun hlists => hlists.2.2) hsmooth.lists
  have hreturns := ensureRoute_returns hmodel h hsmooth
  obtain ⟨b, hb⟩ := returns_iff.mp hreturns
  obtain ⟨hcons, hactive, rfl, hswaps, hrollbacks⟩ :=
    (wp_iff.mp (hspec.mono (fun _ _ hq => hq) fun _ _ _ => trivial :
      wp _ _ (fun _ _ => True) rt)).1 b hb
  have hregistry : (rt.afterActivation w activation).registry = rt.registry :=
    (keeps_ensureRoute ensureFrame_registry w activation.env activation.routeId
      activation.tenant).after rt
  rw [h.active] at hb hswaps hrollbacks
  refine ⟨hb, ⟨hcons, hregistry.trans h.registry_eq, hactive⟩, ?_, ?_⟩
  · simpa [afterActivation, swapsIn] using hswaps
  · simpa [afterActivation, rollsBack] using hrollbacks

/-- Every run of activations simulates a run of the one-variable machine, and
the counters count the changes of the variable. -/
theorem run_simulates {state : Dict String ℕ} (hmodel : w.model = some state) :
    ∀ {activations : List Activation} {current : String} {rt : Runtime},
    Simulates w base registry catalogue current rt →
    (∀ a ∈ activations, Smooth w base registry catalogue a) →
    Simulates w base registry catalogue
        (Runs.run (fun _ r => r) current (activations.map Activation.routeId))
        (Runs.run (afterActivation w) rt activations) ∧
      (Runs.run (afterActivation w) rt activations).swapCount = rt.swapCount +
        (stepsFrom current (activations.map Activation.routeId)).countP swapsIn ∧
      (Runs.run (afterActivation w) rt activations).rollbackCount = rt.rollbackCount +
        (stepsFrom current (activations.map Activation.routeId)).countP rollsBack := by
  intro activations
  induction activations with
  | nil => exact fun h _ => ⟨h, rfl, rfl⟩
  | cons activation activations ih =>
    intro current rt h hsmooth
    obtain ⟨_, hstep, hswaps, hrollbacks⟩ :=
      afterActivation_simulates hmodel h (hsmooth activation List.mem_cons_self)
    obtain ⟨hsim, hswaps', hrollbacks'⟩ :=
      ih hstep fun a ha => hsmooth a (List.mem_cons_of_mem _ ha)
    refine ⟨hsim, ?_, ?_⟩
    · rw [Runs.run_cons, hswaps', hswaps, List.map_cons, stepsFrom, List.countP_cons]
      omega
    · rw [Runs.run_cons, hrollbacks', hrollbacks, List.map_cons, stepsFrom, List.countP_cons]
      omega

/-- The weights of a runtime that holds the current route. -/
theorem Simulates.store_eq {current : String}
    (h : Simulates w base registry catalogue current rt) :
    rt.store = routeWeights w base catalogue current := by
  unfold routeWeights
  by_cases hbase : current = baseRoute
  · rw [if_pos hbase]
    exact (h.consistent.grounded (h.active.trans hbase)).store
  · rw [if_neg hbase]
    rcases h.consistent.atRest with hg | hc
    · exact absurd (h.active.symm.trans hg.active) hbase
    · -- the deltas that were swapped in are cached, and the cache is the catalogue's
      obtain ⟨routeData, deltas, hroute, hcached, hstore⟩ := hc.weights
      rw [h.active] at hroute hcached
      obtain ⟨m, hm, rfl, rfl, _⟩ := h.consistent.cached hcached
      rw [h.registry_eq] at hroute
      obtain rfl := Option.some.inj (hm.symm.trans hroute)
      exact hstore

theorem simulates_fresh (w : Worker) (registry : RouteRegistry) (base : Store)
    (catalogue : Catalogue) :
    Simulates w base registry catalogue baseRoute (fresh registry base) :=
  ⟨consistent_fresh w registry base _, rfl, rfl⟩

/-- **The persistent gateway refines the current-route machine.**  In every run
of activations from a fresh runtime in which every step succeeds, each call
says whether the route changes, leaves the base weights plus the deltas of the
route asked for, and the counters count the changes. -/
theorem ensureRoute_refines_current (w : Worker) (registry : RouteRegistry) (base : Store)
    (catalogue : Catalogue) {state : Dict String ℕ} (hmodel : w.model = some state)
    {activations : List Activation}
    (hsmooth : ∀ a ∈ activations, Smooth w base registry catalogue a) :
    ∀ before activation later, activations = before ++ activation :: later →
      let rt := Runs.run (afterActivation w) (fresh registry base) before
      let rs := before.map Activation.routeId
      returned (ensure w activation) rt =
          some (decide (activation.routeId ≠ currentAfter rs)) ∧
        (rt.afterActivation w activation).store =
          routeWeights w base catalogue activation.routeId ∧
        (rt.afterActivation w activation).swapCount =
          (stepsFrom baseRoute (rs ++ [activation.routeId])).countP swapsIn ∧
        (rt.afterActivation w activation).rollbackCount =
          (stepsFrom baseRoute (rs ++ [activation.routeId])).countP rollsBack := by
  rintro before activation later rfl rt rs
  have hsofar : ∀ a ∈ before ++ [activation], Smooth w base registry catalogue a := fun a ha =>
    hsmooth a (by simp only [List.mem_append, List.mem_cons] at ha ⊢; tauto)
  have hstart := simulates_fresh w registry base catalogue
  have hbefore : Simulates w base registry catalogue (currentAfter rs) rt :=
    (run_simulates hmodel hstart fun a ha => hsofar a (List.mem_append_left _ ha)).1
  obtain ⟨hreturned, hstep, -, -⟩ :=
    afterActivation_simulates hmodel hbefore (hsofar activation (by simp))
  obtain ⟨-, hswaps, hrollbacks⟩ := run_simulates hmodel hstart hsofar
  rw [Runs.run_append, List.map_append] at hswaps hrollbacks
  refine ⟨hreturned, hstep.store_eq, hswaps.trans ?_, hrollbacks.trans ?_⟩ <;>
    exact Nat.zero_add _

end Runtime

/-! ### Two routes that share a parameter -/

namespace Demo

/-- The layers of the routes: both change `w`. -/
def layersOf (routeId : String) : List LayerSpec :=
  if routeId = "r" then [layer "w"] else [layer "w", layer "v"]

def catalogue : Runtime.Catalogue where
  manifest routeId := route routeId (some ⟨"/payload", none⟩) (layersOf routeId)
  deltas routeId := (layersOf routeId).foldl (fun d l => d.set l.name (tensor 1)) .empty

def payloads : FileSystem := fun _ =>
  some (fileOf ((Dict.empty.set "w" (tensor 1)).set "v" (tensor 1)))

def activations : List Activation :=
  ["r", "s", "s", baseRoute].map fun routeId => ⟨quiet payloads, routeId, tenant⟩

def twoRoutes : RouteRegistry := registryOf [catalogue.manifest "r", catalogue.manifest "s"]

theorem succeeds_quiet {routeId : String} (h : routeId = "r" ∨ routeId = "s") :
    Runtime.Succeeds worker base twoRoutes (catalogue.manifest routeId) (catalogue.deltas routeId)
      ⟨quiet payloads, routeId, tenant⟩ := by
  have hfits : ∀ l ∈ layersOf routeId, Runtime.Fits worker base (catalogue.deltas routeId) l := by
    rcases h with rfl | rfl
    · rintro l (_ | ⟨_, ⟨⟩⟩)
      exact ⟨"w", 0, tensor 1, by rfl, rfl, rfl, by rfl, rfl⟩
    · rintro l (_ | ⟨_, _ | ⟨_, ⟨⟩⟩⟩)
      · exact ⟨"w", 0, tensor 1, by rfl, rfl, rfl, by rfl, rfl⟩
      · exact ⟨"v", 1, tensor 1, by rfl, rfl, rfl, by rfl, rfl⟩
  rcases h with rfl | rfl <;>
    exact ⟨by rfl, by rfl, ⟨_, by rfl⟩, hfits, fun _ => rfl, fun _ => rfl, fun _ => rfl⟩

theorem smooth_quiet (routeId : String) (h : routeId = "r" ∨ routeId = "s" ∨ routeId = baseRoute) :
    Runtime.Smooth worker base twoRoutes catalogue ⟨quiet payloads, routeId, tenant⟩ := by
  refine ⟨⟨fun _ => rfl, fun _ => rfl⟩, ⟨fun _ => rfl, fun _ => rfl⟩, fun hbase => ?_⟩
  rcases h with hr | hs | rfl
  · exact succeeds_quiet (Or.inl hr)
  · exact succeeds_quiet (Or.inr hs)
  · exact absurd rfl hbase

end Demo

namespace Runtime

/-- After `r`, `s` and `s` again, the base model is restored in a second
rollback. -/
theorem ensureRoute_refines_current_four :
    let go (routeId : String) : Activation := ⟨Demo.quiet Demo.payloads, routeId, Demo.tenant⟩
    let rt := Runs.run (afterActivation Demo.worker) (fresh Demo.twoRoutes Demo.base)
      [go "r", go "s", go "s"]
    returned (ensure Demo.worker (go baseRoute)) rt = some true ∧
      (rt.afterActivation Demo.worker (go baseRoute)).store = Demo.base ∧
      (rt.afterActivation Demo.worker (go baseRoute)).swapCount = 2 ∧
      (rt.afterActivation Demo.worker (go baseRoute)).rollbackCount = 2 := by
  intro go rt
  have hsmooth : ∀ a ∈ [go "r", go "s", go "s", go baseRoute],
      Smooth Demo.worker Demo.base Demo.twoRoutes Demo.catalogue a := by
    intro a ha
    simp only [List.mem_cons, List.not_mem_nil, or_false] at ha
    rcases ha with rfl | rfl | rfl | rfl <;> exact Demo.smooth_quiet _ (by decide)
  exact ensureRoute_refines_current Demo.worker Demo.twoRoutes Demo.base Demo.catalogue rfl hsmooth
    [go "r", go "s", go "s"] (go baseRoute) [] rfl

end Runtime
