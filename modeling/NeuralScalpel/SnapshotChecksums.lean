/-
Layers that are changed without a checksum.

A capture writes the snapshot of a layer down before it computes the checksum.
When that raises, the snapshot stays behind alone, and a later capture of
layers that all have snapshots reuses them without a look at the checksums.

* `captureSnapshot_checked` — a capture from nothing that returns has both for
  every layer, and one that reuses has what was there;
* `deltasChecked_run` — deltas are added to checked layers only, in runs that
  never swap over reused snapshots without a checksum;
* `not_reusesUnchecked_run` — which is so while no checksum raises.
-/
import NeuralScalpel.SwapCalls

open Effect

/-! ### Snapshots with their checksums -/

namespace Golden

/-- The layer name has a snapshot and a checksum. -/
def Checked (golden : Golden) (name : String) : Prop :=
  golden.snapshots.contains name = true ∧ golden.checksums.contains name = true

instance (golden : Golden) (name : String) : Decidable (golden.Checked name) :=
  inferInstanceAs (Decidable (_ ∧ _))

/-- Every snapshot has its checksum. -/
def AllChecked (golden : Golden) : Prop :=
  ∀ name, golden.snapshots.contains name = true → golden.checksums.contains name = true

/-- The snapshots of the route's layers are all there, and the checksum of one
of them is not. -/
def Unchecked (golden : Golden) (routeData : Manifest) : Prop :=
  golden.covers routeData = true ∧
    ∃ layer ∈ routeData.layers, golden.checksums.contains layer.name = false

theorem allChecked_empty : AllChecked empty := fun _ h => absurd h (by simp [empty, Dict.contains])

end Golden

/-- A delta is added to a layer with a snapshot and a checksum. -/
def Event.Checked (golden : Golden) : Event → Prop
  | .deltaAdded layer _ => golden.Checked layer.name
  | _ => True

instance (golden : Golden) : ∀ e : Event, Decidable (e.Checked golden)
  | .deltaAdded layer _ => inferInstanceAs (Decidable (golden.Checked layer.name))
  | .phaseSet _ => isTrue trivial
  | .swapApplied _ _ => isTrue trivial
  | .forward _ => isTrue trivial
  | .rollbackFailed => isTrue trivial

namespace Runtime

variable {w : Worker} {β : Type} {rt : Runtime}

/-! ### Captures -/

/-- Capturing a layer keeps what is checked, and adds it. -/
theorem captureLayer_checked {faults : SwapFaults} {state : Dict String ℕ} {store : Store}
    {golden : Golden} (i : ℕ) (layer : LayerSpec) :
    wp (captureLayer w faults state store i layer)
      (fun _ golden' => golden'.Checked layer.name ∧
        ∀ name, golden.Checked name → golden'.Checked name) (fun _ _ => True) golden := by
  simp only [captureLayer, wp_bind, wp_ofExcept, wp_raiseIf, wp_modify]
  refine ⟨fun target _ => ⟨fun address _ => ⟨fun _ _ => ⟨fun _ => ⟨fun _ => ⟨?_, ?_⟩, ?_⟩, ?_⟩,
    ?_⟩, ?_⟩, ?_⟩
  · exact ⟨Dict.contains_set.mpr (Or.inl rfl), Dict.contains_set.mpr (Or.inl rfl)⟩
  · intro name hchecked
    exact ⟨Dict.contains_set.mpr (Or.inr hchecked.1), Dict.contains_set.mpr (Or.inr hchecked.2)⟩
  all_goals exact fun _ _ => trivial

/-- A capture that returns has the checksums of all layers, unless it reuses
snapshots without them. -/
theorem captureSnapshot_checked {faults : SwapFaults} {routeData : Manifest}
    (h : ¬rt.golden.Unchecked routeData) :
    wp (captureSnapshot w faults routeData)
      (fun _ rt' => rt'.trace = rt.trace ∧
        ∀ layer ∈ routeData.layers, rt'.golden.Checked layer.name)
      (fun _ rt' => rt'.trace = rt.trace) rt := by
  unfold captureSnapshot
  rcases w.model with _ | state
  · exact rfl
  · rw [wp_bind, wp_get]
    by_cases hcovers : rt.golden.covers routeData = true
    · rw [if_pos hcovers]
      -- the snapshots are reused, without a look at the checksums
      refine ⟨rfl, fun layer hlayer => ⟨Golden.contains_of_covers hcovers layer hlayer, ?_⟩⟩
      by_contra hmissing
      exact h ⟨hcovers, layer, hlayer, Bool.eq_false_iff.mpr hmissing⟩
    · rw [if_neg hcovers, wp_zoom, wp_bind, wp_set]
      refine (wp_forEach (I := fun left golden => ∀ layer ∈ routeData.layers,
          layer ∈ left ∨ golden.Checked layer.name) (E := fun _ _ => True)
        (fun i layer left golden hleft => ?_) fun layer hlayer => Or.inl hlayer).mono
        (fun _ golden hall => ⟨rfl, fun layer hlayer => ?_⟩) fun _ _ _ => rfl
      · refine (captureLayer_checked i layer).mono ?_ fun _ _ h => h
        rintro _ golden' ⟨hchecked, hkept⟩ l hl
        -- what was still left is this layer, or left after it
        rcases hleft l hl with h | h
        · rcases List.mem_cons.mp h with rfl | h
          · exact Or.inr hchecked
          · exact Or.inl h
        · exact Or.inr (hkept l.name h)
      · exact (hall layer hlayer).resolve_left List.not_mem_nil

/-! ### Swaps -/

/-- Deltas since the first state are added to layers that are checked in the second. -/
def DeltasSince (rt rt' : Runtime) : Prop := Emits (Event.Checked rt'.golden) rt rt'

theorem checked_of_not_deltaAdded {golden : Golden} {e : Event} (h : e.isDeltaAdded = false) :
    e.Checked golden := by
  cases e with
  | deltaAdded layer live => cases h
  | phaseSet phase => exact trivial
  | swapApplied routeData deltas => exact trivial
  | forward weights => exact trivial
  | rollbackFailed => exact trivial

theorem NoDelta.deltasSince {rt rt' : Runtime} (h : NoDelta rt rt') : DeltasSince rt rt' :=
  h.mono fun _ => checked_of_not_deltaAdded

theorem DeltasSince.idle {rt rt₁ rt₂ : Runtime} (h : DeltasSince rt rt₁) (hidle : Idle rt₁ rt₂) :
    DeltasSince rt rt₂ := by
  have hsame : Emits (Event.Checked rt₂.golden) rt rt₁ := by
    rw [hidle.golden]
    exact h
  exact trans_of (Emits _) hsame (hidle.noDelta.mono fun _ => checked_of_not_deltaAdded)

theorem DeltasSince.after_noDelta {rt rt₁ rt₂ : Runtime} (h : DeltasSince rt₁ rt₂)
    (hnone : NoDelta rt rt₁) : DeltasSince rt rt₂ :=
  trans_of (Emits _) (hnone.mono fun _ => checked_of_not_deltaAdded) h

/-- Adding deltas leaves the golden snapshots alone, and adds them to the layers
of the route only. -/
theorem applySwap_checked {env : Environment} {routeData : Manifest}
    {validatedDeltas : Dict String Tensor}
    (h : ∀ layer ∈ routeData.layers, rt.golden.Checked layer.name) :
    wp (applySwap w env routeData validatedDeltas) (fun _ => DeltasSince rt)
      (fun _ => DeltasSince rt) rt := by
  unfold applySwap
  rcases w.model with _ | state
  · exact NoDelta.deltasSince (refl_of NoDelta rt)
  · simp only [wp_bind, wp_ofExcept, wp_modify]
    refine ⟨fun deltas _ => ?_, fun _ _ => NoDelta.deltasSince (refl_of NoDelta rt)⟩
    have hkept : ∀ rt' : Runtime, rt'.golden = rt.golden ∧ DeltasSince rt rt' →
        DeltasSince rt rt' := fun _ h => h.2
    refine (wp_forEach (I := fun left rt' => (∀ layer ∈ left, layer ∈ routeData.layers) ∧
        rt'.golden = rt.golden ∧ DeltasSince rt rt') (E := fun _ rt' => DeltasSince rt rt')
      (fun i layer left rt' hleft => ?_) ⟨fun _ h => h, rfl, ?_⟩).mono
      (fun _ rt' h => hkept rt' h.2) fun _ _ h => h
    · obtain ⟨hmem, hgolden, hsince⟩ := hleft
      -- the layers still to come are layers of the route
      have hrest : ∀ l ∈ left, l ∈ routeData.layers :=
        fun l hl => hmem l (List.mem_cons_of_mem _ hl)
      rw [swapLayer, wp_bind, wp_get]
      rcases state.get? (rt'.golden.target layer.name) with _ | address
      · exact ⟨hrest, hgolden, hsince⟩
      · simp only [wp_bind, wp_ofExcept, wp_raiseIf, wp_modify]
        refine ⟨fun delta _ => ⟨fun _ => ⟨fun sum _ => ⟨hrest, hgolden, ?_⟩, ?_⟩, ?_⟩, ?_⟩
        · have hlayer : rt'.golden.Checked layer.name :=
            hgolden ▸ h layer (hmem layer List.mem_cons_self)
          -- the delta goes to a checked layer
          exact trans_of (Emits _) hsince
            (Appends.one (e := .deltaAdded layer (rt'.store address)) rfl hlayer)
        all_goals exact fun _ _ => hsince
    · exact Appends.one rfl trivial

/-- A swap that does not reuse snapshots without checksums. -/
theorem swapIn_checked {env : Environment} {routeId : String} {routeData : Manifest}
    {validatedDeltas : Dict String Tensor} (h : ¬rt.golden.Unchecked routeData) :
    wp (swapIn w env routeId routeData validatedDeltas) (fun _ => DeltasSince rt)
      (fun _ => DeltasSince rt) rt := by
  rw [swapIn, wp_bind]
  refine wp_transition (fun _ machine _ => ?_) fun _ _ => NoDelta.deltasSince (refl_of NoDelta rt)
  have hstart : NoDelta rt (rt.setMachine machine) := (idle_phase machine rt).noDelta
  -- a transition leaves the snapshots alone
  have hreused : ¬(rt.setMachine machine).golden.Unchecked routeData := h
  rw [wp_bind]
  refine (captureSnapshot_checked hreused).mono ?_ ?_
  · -- nothing has been added when all checksums are there
    rintro _ rt₁ ⟨htrace, hchecked⟩
    have h₁ : NoDelta rt rt₁ := trans_of NoDelta hstart (Appends.nothing htrace)
    rw [wp_bind]
    refine wp_transition (fun _ machine₁ _ => ?_) fun _ _ => h₁.deltasSince
    rw [wp_bind]
    have h₂ : NoDelta rt (rt₁.setMachine machine₁) :=
      trans_of NoDelta h₁ (idle_phase machine₁ rt₁).noDelta
    refine wp_transition (fun _ machine₂ _ => ?_) fun _ _ => h₂.deltasSince
    have h₃ : NoDelta rt (setMachine machine₂ (rt₁.setMachine machine₁)) :=
      trans_of NoDelta h₂ (idle_phase machine₂ _).noDelta
    have hchecked₃ : ∀ layer ∈ routeData.layers,
        (setMachine machine₂ (rt₁.setMachine machine₁)).golden.Checked layer.name := hchecked
    rw [wp_bind]
    refine (applySwap_checked hchecked₃).mono (fun _ rt₄ hsince => ?_)
      fun _ _ hsince => hsince.after_noDelta h₃
    exact wp_transition (fun _ machine₄ _ => (hsince.after_noDelta h₃).idle
      (idle_phase machine₄ rt₄)) fun _ _ => hsince.after_noDelta h₃
  · intro _ rt₁ htrace
    exact NoDelta.deltasSince (trans_of NoDelta hstart (Appends.nothing htrace))

/-! ### Runs -/

/-- Every delta the call adds is added to a layer with a snapshot and a
checksum.  From the first delta of a call on, its golden snapshots stay as they
are. -/
def DeltasChecked (w : Worker) (rt : Runtime) (call : Call β) : Prop :=
  ∀ e ∈ eventsSince rt (rt.afterCall w call), e.Checked (rt.afterCall w call).golden

instance (w : Worker) (rt : Runtime) (call : Call β) : Decidable (DeltasChecked w rt call) :=
  inferInstanceAs (Decidable (∀ e ∈ _, _))

/-- The call gets to the capture of a route whose layers all have snapshots, and
the checksum of one of them is missing. -/
def ReusesUnchecked (w : Worker) (rt : Runtime) (call : Call β) : Prop :=
  ∃ routeData, Swaps w rt routeData call ∧ rt.golden.Unchecked routeData

theorem deltasChecked_of_not_reusesUnchecked {call : Call β} (h : ¬ReusesUnchecked w rt call) :
    DeltasChecked w rt call := by
  have hwp : wp (perform w call) (fun _ => DeltasSince rt) (fun _ => DeltasSince rt) rt := by
    refine wp_perform_of_swapIn (fun _ _ => DeltasSince.idle) call
      (NoDelta.deltasSince (refl_of NoDelta rt)) fun rt₁ routeId routeData deltas hidle hswaps => ?_
    -- nothing has changed the snapshots since the call began
    have hunchecked : ¬rt₁.golden.Unchecked routeData := by
      rw [hidle.golden]
      exact fun hmissing => h ⟨routeData, hswaps, hmissing⟩
    exact (swapIn_checked hunchecked).mono (fun _ _ hsince => hsince.after_noDelta hidle.noDelta)
      fun _ _ hsince => hsince.after_noDelta hidle.noDelta
  intro e he
  exact (wp_const_iff.mp hwp).of_mem_drop he

/-- A capture whose checksums can all be computed leaves no snapshot without one,
whatever else raises. -/
theorem captureSnapshot_allChecked {faults : SwapFaults} {routeData : Manifest}
    (hcomputed : ∀ i, faults.checksum i = none) (h : rt.golden.AllChecked) :
    wp (captureSnapshot w faults routeData) (fun _ rt' => rt'.golden.AllChecked)
      (fun _ rt' => rt'.golden.AllChecked) rt := by
  unfold captureSnapshot
  rcases w.model with _ | state
  · exact h
  · rw [wp_bind, wp_get]
    by_cases hcovers : rt.golden.covers routeData = true
    · rw [if_pos hcovers]
      exact h
    · rw [if_neg hcovers, wp_zoom, wp_bind, wp_set]
      refine wp_forEach (I := fun _ golden => Golden.AllChecked golden)
        (fun i layer _ golden hall => ?_) Golden.allChecked_empty
      simp only [captureLayer, wp_bind, wp_ofExcept, wp_raiseIf, wp_modify, hcomputed i]
      refine ⟨fun target _ => ⟨fun address _ => ⟨fun _ _ => ⟨fun _ => ⟨fun _ => ?_, ?_⟩, ?_⟩, ?_⟩,
        ?_⟩, ?_⟩
      · -- the snapshot and its checksum
        intro name hname
        rw [Dict.contains_set] at hname ⊢
        exact hname.imp_right (hall name)
      · exact fun _ hnone => absurd hnone (by simp)
      all_goals exact fun _ _ => hall

theorem swapIn_allChecked {env : Environment} {routeId : String} {routeData : Manifest}
    {deltas : Dict String Tensor} (hcomputed : ∀ i, env.swap.checksum i = none)
    (h : rt.golden.AllChecked) :
    wp (swapIn w env routeId routeData deltas) (fun _ rt' => rt'.golden.AllChecked)
      (fun _ rt' => rt'.golden.AllChecked) rt := by
  have hgolden : ∀ {α : Type} {m : EStateM PyError Runtime α} {rt' : Runtime},
      Keeps (Same golden) m → rt'.golden.AllChecked →
      wp m (fun _ rt₁ => rt₁.golden.AllChecked) (fun _ rt₁ => rt₁.golden.AllChecked) rt' := by
    intro α m rt' hm hall
    refine (hm rt').mono (fun _ rt₁ hsame => ?_) fun _ rt₁ hsame => ?_
    all_goals
      rw [show rt₁.golden = rt'.golden from hsame]
      exact hall
  have hphase : ∀ target routeId, Keeps (Same golden) (transition target "" routeId) :=
    fun target routeId => keeps_transition (fun _ _ => rfl) target "" routeId
  rw [swapIn, wp_bind]
  refine (hgolden (hphase _ _) h).mono (fun _ rt₁ h₁ => ?_) fun _ _ h => h
  rw [wp_bind]
  refine (captureSnapshot_allChecked hcomputed h₁).mono (fun _ rt₂ h₂ => ?_) fun _ _ h => h
  refine hgolden (Keeps.bind (hphase _ _) fun _ => Keeps.bind (hphase _ _) fun _ => ?_) h₂
  exact Keeps.bind (keeps_applySwap (fun _ _ _ _ _ _ => rfl) fun _ _ _ => rfl) fun _ => hphase _ _

/-- While no checksum of a capture raises, no call reuses snapshots without one. -/
theorem not_reusesUnchecked_run (w : Worker) (registry : RouteRegistry) (base : Store)
    (calls : List (Call β))
    (h : ∀ call ∈ calls, ∀ i, (environment call).swap.checksum i = none) :
    Runs.Along (afterCall w) (fun rt call => ¬ReusesUnchecked w rt call)
      (fresh registry base) calls := by
  have hcomputed : Runs.Along (afterCall w)
      (fun _ call => ∀ i, (environment call).swap.checksum i = none) (fresh registry base)
      calls := by
    refine Runs.along_iff.mpr fun before call later heq => h call ?_
    rw [heq]
    exact List.mem_append_right _ List.mem_cons_self
  refine hcomputed.of_invariant (I := fun rt : Runtime => rt.golden.AllChecked) ?_ ?_
    Golden.allChecked_empty
  · intro rt call hall hcall
    have hkept : ∀ rt₁ rt₂ : Runtime, rt₁.golden.AllChecked → Idle rt₁ rt₂ →
        rt₂.golden.AllChecked := by
      intro rt₁ rt₂ h₁ hidle
      rw [hidle.golden]
      exact h₁
    exact wp_const_iff.mp (wp_perform_of_swapIn hkept call hall fun rt₁ _ _ _ hidle _ =>
      swapIn_allChecked hcall (hkept rt rt₁ hall hidle))
  -- a reused snapshot has its checksum
  · rintro rt call hall - ⟨routeData, -, hcovers, layer, hlayer, hmissing⟩
    have hsnapshot := Golden.contains_of_covers hcovers layer hlayer
    rw [hall layer.name hsnapshot] at hmissing
    exact absurd hmissing (by decide)

/-- **Modified layers have a checksum.**  In every run of a fresh runtime in
which no call reuses snapshots of its route without the checksum of one of the
layers, every delta is added to a layer with a snapshot and a checksum. -/
theorem deltasChecked_run (w : Worker) (registry : RouteRegistry) (base : Store)
    (calls : List (Call β))
    (h : Runs.Along (afterCall w) (fun rt call => ¬ReusesUnchecked w rt call)
      (fresh registry base) calls) :
    Runs.Along (afterCall w) (DeltasChecked w) (fresh registry base) calls :=
  h.mono fun _ _ => deltasChecked_of_not_reusesUnchecked

/-- Two requests of a simulated route in which nothing fails. -/
theorem deltasChecked_two :
    let request : Call Unit := .infer ⟨Demo.quiet Demo.noFiles, "r", Demo.tenant, fun _ => .ok ()⟩
    Runs.Along (afterCall Demo.worker) (DeltasChecked Demo.worker) Demo.start
      [request, request] := by
  intro request
  refine deltasChecked_run Demo.worker _ Demo.base [request, request] ?_
  refine not_reusesUnchecked_run _ _ _ _ fun call hcall i => ?_
  rcases List.mem_pair.mp hcall with rfl | rfl
  all_goals rfl

/-- The checksum of the first capture raises.  The second reuses its snapshot,
and the delta is added to a layer without a checksum. -/
theorem not_deltasChecked_second :
    let failing : Call Unit := .infer
      ⟨{ Demo.quiet Demo.noFiles with
          swap := ⟨fun _ => none, fun _ => some "checksum unavailable", fun _ => none⟩ },
        "r", Demo.tenant, fun _ => .ok ()⟩
    ¬Runs.Along (afterCall Demo.worker) (DeltasChecked Demo.worker) Demo.start
      [failing, failing] := by
  intro failing
  rintro ⟨-, hchecked, -⟩
  exact absurd hchecked (by decide +kernel)

end Runtime
