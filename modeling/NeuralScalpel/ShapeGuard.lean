/-
Declared and live shapes.

The manifest declares the shape and the element type of each target layer, and
the capture compares them with the live tensor.  The capture is skipped when
golden snapshots of all layers are there, from a route that may have declared
something else, and adding a delta stretches it silently.

* `captureSnapshot_declared` — after a capture that was not skipped, every
  layer is declared as it is live;
* `swapIn_guarded` — a swap adds deltas to such layers only, if a skipped
  capture would not have found another shape or element type;
* `along_guardedDeltas` — the same over runs.
-/
import NeuralScalpel.SwapCalls

open Effect

/-- A delta is added to a live tensor that is as the layer declares. -/
def Event.Guarded : Event → Prop
  | .deltaAdded layer live => live.shape = layer.shape ∧ live.dtype = layer.dtype
  | _ => True

instance : DecidablePred Event.Guarded
  | .deltaAdded layer live =>
    inferInstanceAs (Decidable (live.shape = layer.shape ∧ live.dtype = layer.dtype))
  | .phaseSet _ | .swapApplied _ _ | .forward _ | .rollbackFailed => isTrue trivial

namespace Runtime

variable {w : Worker} {β : Type} {rt : Runtime}

/-- The parameter the layer's name was resolved to is as the layer declares. -/
def declaredLive (w : Worker) (rt : Runtime) (layer : LayerSpec) : Bool :=
  match subscript w.model (rt.golden.target layer.name) with
  | .error _ => true
  | .ok address =>
    (rt.store address).shape == layer.shape && (rt.store address).dtype == layer.dtype

/-- The golden snapshots cover the route, and one of its layers declares
something else than what is live. -/
def reusesMismatched (w : Worker) (rt : Runtime) (routeData : Manifest) : Bool :=
  rt.golden.covers routeData && !routeData.layers.all (declaredLive w rt)

/-- The operation gets to the capture of a route whose layers all have golden
snapshots, and one of them declares another shape or element type than is live. -/
def ReusesMismatched (w : Worker) (rt : Runtime) : Operation β → Prop
  | .call call => ∃ routeData, Swaps w rt routeData call ∧ reusesMismatched w rt routeData = true
  | _ => False

/-- The operation adds deltas to layers as they are declared only. -/
def GuardedDeltas (w : Worker) (rt : Runtime) (op : Operation β) : Prop :=
  ∀ e ∈ eventsSince rt (rt.afterOperation w op), e.Guarded

theorem declaredLive_iff {layer : LayerSpec} :
    declaredLive w rt layer = true ↔
      ∀ address, subscript w.model (rt.golden.target layer.name) = .ok address →
        (rt.store address).shape = layer.shape ∧ (rt.store address).dtype = layer.dtype := by
  unfold declaredLive
  rcases subscript w.model (rt.golden.target layer.name) with e | a
  · simp
  · simp

/-- Only the layout of the live tensor matters, and what the name was resolved to. -/
theorem declaredLive_congr {rt' : Runtime} {layer : LayerSpec} (hgolden : rt'.golden = rt.golden)
    (hlayout : KeepsLayout rt rt') (h : declaredLive w rt layer = true) :
    declaredLive w rt' layer = true := by
  rw [declaredLive_iff] at h ⊢
  intro address haddress
  rw [hgolden] at haddress
  obtain ⟨hs, hd⟩ := h address haddress
  exact ⟨(hlayout address).1.trans hs, (hlayout address).2.trans hd⟩

/-! ### The swap -/

abbrev EmitsGuarded : Runtime → Runtime → Prop := Emits Event.Guarded

/-- After a capture, every layer is declared as it is live, if it was so before
a capture that is skipped. -/
theorem captureSnapshot_declared {faults : SwapFaults} {routeData : Manifest}
    (h : reusesMismatched w rt routeData = false) :
    wp (captureSnapshot w faults routeData)
      (fun _ rt' => EmitsGuarded rt rt' ∧
        ∀ layer ∈ routeData.layers, declaredLive w rt' layer = true)
      (fun _ rt' => EmitsGuarded rt rt') rt := by
  refine captureSnapshot_spec.mono ?_ ?_
  · rintro _ rt' (⟨hcovers, rfl⟩ | ⟨_, golden, rfl, _, hall⟩)
    · -- skipped: the declarations hold by assumption
      rw [reusesMismatched, hcovers, Bool.true_and, Bool.not_eq_false'] at h
      exact ⟨refl_of EmitsGuarded rt', List.all_eq_true.mp h⟩
    · -- made: every layer has been compared
      refine ⟨Appends.nothing rfl, fun layer hlayer => declaredLive_iff.mpr ?_⟩
      intro address haddress
      obtain ⟨_, a, hmapped, hlayout⟩ := hall layer hlayer
      rw [hmapped.subscript_eq] at haddress
      obtain rfl := Except.ok.inj haddress
      exact hlayout
  · rintro _ rt' (rfl | ⟨golden, rfl, _⟩)
    · exact refl_of EmitsGuarded rt'
    · exact Appends.nothing rfl

theorem swapLayer_guarded {faults : SwapFaults} {state : Dict String ℕ} {routeData : Manifest}
    {deltas : Dict String Tensor} {layer : LayerSpec} (hmodel : w.model = some state) (i : ℕ)
    (h : declaredLive w rt layer = true) :
    wp (swapLayer state faults routeData deltas i layer)
      (fun _ rt' => EmitsGuarded rt rt' ∧ rt'.golden = rt.golden)
      (fun _ rt' => EmitsGuarded rt rt') rt := by
  rw [swapLayer, wp_bind, wp_get]
  rcases hget : state.get? (rt.golden.target layer.name) with _ | address
  · exact ⟨refl_of EmitsGuarded rt, rfl⟩
  · have hlayout := declaredLive_iff.mp h address (by simp [subscript, hmodel, hget])
    simp only [wp_bind, wp_ofExcept, wp_raiseIf, wp_modify]
    refine ⟨fun delta _ => ⟨fun _ => ⟨fun sum _ => ⟨?_, trivial⟩, ?_⟩, ?_⟩, ?_⟩
    · exact Appends.one (e := .deltaAdded layer (rt.store address)) rfl hlayout
    all_goals exact fun _ _ => refl_of EmitsGuarded rt

theorem applySwap_guarded {env : Environment} {routeData : Manifest}
    {validatedDeltas : Dict String Tensor}
    (h : ∀ layer ∈ routeData.layers, declaredLive w rt layer = true) :
    wp (applySwap w env routeData validatedDeltas) (fun _ => EmitsGuarded rt)
      (fun _ => EmitsGuarded rt) rt := by
  unfold applySwap
  rcases hmodel : w.model with _ | state
  · exact refl_of EmitsGuarded rt
  · simp only [wp_bind, wp_ofExcept, wp_modify]
    refine ⟨fun deltas _ => ?_, fun _ _ => refl_of EmitsGuarded rt⟩
    have hstart : EmitsGuarded rt
        { rt with trace := rt.trace ++ [.swapApplied routeData deltas] } := Appends.one rfl trivial
    refine (wp_forEach (I := fun left rt' => EmitsGuarded rt rt' ∧
        ∀ layer ∈ left, declaredLive w rt' layer = true)
      (E := fun _ => EmitsGuarded rt) (fun i layer left rt' h' => ?_)
      ⟨hstart, h⟩).mono (fun _ _ h => h.1) fun _ _ h => h
    obtain ⟨hemits, hleft⟩ := h'
    -- a delta changes no layout, so the layers left are still as declared
    refine ((keeps_swapLayer swapFrame_layout.added state env.swap routeData deltas i layer).and_wp
      (swapLayer_guarded hmodel i (hleft layer List.mem_cons_self))).mono ?_ ?_
    · rintro _ rt'' ⟨hlayout, hemits', hgolden⟩
      exact ⟨trans_of EmitsGuarded hemits hemits', fun l hl =>
        declaredLive_congr hgolden hlayout (hleft l (List.mem_cons_of_mem _ hl))⟩
    · rintro _ rt'' ⟨_, hemits'⟩
      exact trans_of EmitsGuarded hemits hemits'

/-- A swap adds deltas to layers as they are declared only, if a skipped capture
would not have found another shape or element type. -/
theorem swapIn_guarded {env : Environment} {routeId : String} {routeData : Manifest}
    {deltas : Dict String Tensor}
    (h : rt.phase = .ready → reusesMismatched w rt routeData = false) :
    wp (swapIn w env routeId routeData deltas) (fun _ => EmitsGuarded rt)
      (fun _ => EmitsGuarded rt) rt := by
  have hphase : ∀ machine rt', EmitsGuarded rt' (setMachine machine rt') :=
    fun machine _ => Appends.one (e := .phaseSet machine.phase) rfl trivial
  have htransition := keeps_transition (R := EmitsGuarded) hphase
  rw [swapIn, wp_bind]
  refine wp_transition (fun hvalid machine _ => ?_) fun _ _ => refl_of EmitsGuarded rt
  have hcheck : reusesMismatched w (rt.setMachine machine) routeData = false :=
    h (ready_of_verifying hvalid)
  have h₁ : EmitsGuarded rt (rt.setMachine machine) := hphase machine rt
  rw [wp_bind]
  refine (captureSnapshot_declared hcheck).mono (fun _ rt₂ hcaptured => ?_)
    fun _ _ h₂ => trans_of EmitsGuarded h₁ h₂
  obtain ⟨h₂, hdeclared⟩ := hcaptured
  have h₁₂ := trans_of EmitsGuarded h₁ h₂
  -- the two phase writes in between leave the store and the snapshots alone
  have hsame : ∀ (target : RuntimePhase) {rt' : Runtime}, EmitsGuarded rt rt' →
      (∀ layer ∈ routeData.layers, declaredLive w rt' layer = true) →
      wp (transition target "" "") (fun _ rt'' => EmitsGuarded rt rt'' ∧
        ∀ layer ∈ routeData.layers, declaredLive w rt'' layer = true)
        (fun _ => EmitsGuarded rt) rt' := fun target {rt'} he hd =>
    wp_transition (fun _ machine' _ => ⟨trans_of EmitsGuarded he (hphase machine' rt'), hd⟩)
      fun _ _ => he
  rw [wp_bind]
  refine (hsame _ h₁₂ hdeclared).mono ?_ fun _ _ he => he
  rintro _ rt₃ ⟨h₃, hdeclared₃⟩
  rw [wp_bind]
  refine (hsame _ h₃ hdeclared₃).mono ?_ fun _ _ he => he
  rintro _ rt₄ ⟨h₄, hdeclared₄⟩
  rw [wp_bind]
  refine (applySwap_guarded hdeclared₄).mono (fun _ rt₅ h₅ => ?_)
    fun _ _ h₅ => trans_of EmitsGuarded h₄ h₅
  exact (htransition _ _ _ rt₅).mono
    (fun _ _ h₆ => trans_of EmitsGuarded (trans_of EmitsGuarded h₄ h₅) h₆)
    fun _ _ h₆ => trans_of EmitsGuarded (trans_of EmitsGuarded h₄ h₅) h₆

/-! ### The operations -/

theorem guarded_of_not_deltaAdded {e : Event} (h : e.isDeltaAdded = false) : e.Guarded := by
  cases e with
  | deltaAdded layer live => cases h
  | phaseSet phase => exact trivial
  | swapApplied routeData deltas => exact trivial
  | forward weights => exact trivial
  | rollbackFailed => exact trivial

theorem Idle.emitsGuarded {rt rt' : Runtime} (h : Idle rt rt') : EmitsGuarded rt rt' :=
  h.noDelta.mono fun _ => guarded_of_not_deltaAdded

/-- The layers a route may be swapped into stay as declared through a rollback. -/
theorem reusesMismatched_congr {rt' : Runtime} {routeData : Manifest}
    (hgolden : rt'.golden = rt.golden) (hlayout : KeepsLayout rt rt')
    (h : reusesMismatched w rt routeData = false) : reusesMismatched w rt' routeData = false := by
  unfold reusesMismatched at h ⊢
  rw [hgolden]
  rcases hcovers : rt.golden.covers routeData with _ | _
  · rfl
  · rw [hcovers, Bool.true_and, Bool.not_eq_false', List.all_eq_true] at h
    rw [Bool.true_and, Bool.not_eq_false', List.all_eq_true]
    exact fun layer hlayer => declaredLive_congr hgolden hlayout (h layer hlayer)

/-- An operation on the registry adds nothing to the trace. -/
theorem onRegistry_emits {α : Type} {P : Event → Prop} (m : EStateM PyError RouteRegistry α) :
    Keeps (Emits P) (onRegistry m) :=
  Keeps.zoom (Keeps.anything m) fun _ _ _ => Appends.nothing rfl

/-- A call is idle up to its swap, which finds the layers as they were at the
beginning of the call. -/
theorem perform_guarded {call : Call β}
    (h : ¬ReusesMismatched w rt (.call call)) :
    wp (perform w call) (fun _ => EmitsGuarded rt) (fun _ => EmitsGuarded rt) rt := by
  refine wp_perform_of_swapIn (fun _ _ h₁ hidle => trans_of EmitsGuarded h₁ hidle.emitsGuarded)
    call (refl_of EmitsGuarded rt) fun rt₁ routeId routeData deltas hidle hswaps => ?_
  have hmatched : reusesMismatched w rt routeData = false :=
    Bool.eq_false_iff.mpr fun hmismatched => h ⟨routeData, hswaps, hmismatched⟩
  have hsame := reusesMismatched_congr hidle.golden hidle.layout hmatched
  exact (swapIn_guarded fun _ => hsame).mono
    (fun _ _ h₂ => trans_of EmitsGuarded hidle.emitsGuarded h₂)
    fun _ _ h₂ => trans_of EmitsGuarded hidle.emitsGuarded h₂

theorem guardedDeltas_of_not_reusesMismatched (op : Operation β)
    (h : ¬ReusesMismatched w rt op) : GuardedDeltas w rt op := by
  have hemits : EmitsGuarded rt (rt.afterOperation w op) := by
    cases op with
    | call c => exact wp_const_iff.mp (perform_guarded h)
    | registerRoute checks file => exact (onRegistry_emits _).after rt
    | quarantineRoute routeId reason => exact (onRegistry_emits _).after rt
    | revokeRoute routeId => exact (onRegistry_emits _).after rt
  exact fun e he => hemits.of_mem_drop he

/-- **No swap touches a layer that is declared otherwise, unless a capture is
skipped over it.**  In every run in which no swap reuses golden snapshots for a
layer declared with another shape or element type than is live, every delta is
added to a live tensor as its layer declares it. -/
theorem along_guardedDeltas {ops : List (Operation β)}
    (h : Runs.Along (afterOperation w) (fun rt op => ¬ReusesMismatched w rt op) rt ops) :
    Runs.Along (afterOperation w) (GuardedDeltas w) rt ops :=
  h.mono fun _ op hop => guardedDeltas_of_not_reusesMismatched op hop

/-- Two routes that declare their common layer as it is live. -/
theorem along_guardedDeltas_two :
    Runs.Along (afterOperation Demo.worker) (GuardedDeltas Demo.worker) Demo.start
      ([.call (.ensureRoute ⟨Demo.quiet Demo.noFiles, "r", Demo.tenant⟩),
        .call (.ensureRoute ⟨Demo.quiet Demo.noFiles, "s", Demo.tenant⟩)] :
          List (Operation Unit)) := by
  refine along_guardedDeltas ⟨?_, ?_, trivial⟩
  · -- a fresh worker has no snapshots to reuse
    rintro ⟨routeData, -, hreused⟩
    cases hreused
  · rintro ⟨routeData, hswaps, hreused⟩
    obtain ⟨-, -, -, -, hroute, -⟩ := hswaps
    have hsecond := congrArg Except.toOption hroute
    rw [show Except.toOption _ = some (Demo.route "s" none [Demo.layer "w"]) by decide +kernel]
      at hsecond
    obtain rfl := Option.some.inj hsecond
    exact absurd hreused (by decide +kernel)

/-- The second of two routes on one layer declares a shorter shape for it, and
its shorter delta is stretched. -/
theorem not_guardedDeltas_second :
    let longTensor : Tensor := ⟨[2], "float32", [.finite 0, .finite 0], rfl⟩
    let longLayer : LayerSpec := ⟨"w", [2], "float32", none, none⟩
    let rt := fresh (Demo.registryOf [Demo.route "r" none [longLayer],
      Demo.route "t" (some ⟨"/payload", none⟩) [Demo.layer "w"]]) fun _ => longTensor
    let files : FileSystem := fun _ => some (Demo.fileOf (Dict.empty.set "w" (Demo.tensor 1)))
    ¬Runs.Along (afterOperation Demo.worker) (GuardedDeltas Demo.worker) rt ([
      .call (.ensureRoute ⟨Demo.quiet Demo.noFiles, "r", Demo.tenant⟩),
      .call (.ensureRoute ⟨Demo.quiet files, "t", Demo.tenant⟩)] : List (Operation Unit)) := by
  rintro longTensor longLayer rt files ⟨_, hguarded, _⟩
  have hevents : ∀ e ∈ eventsSince _ _, e.Guarded := hguarded
  exact absurd hevents (by decide +kernel)

end Runtime
