/-
Golden snapshots and restoration.

The snapshots of a worker are a way back to the base weights as long as two
things hold: every snapshot is the base value of the parameter its name was
resolved to (`Golden.Ok`), and every parameter that has moved has a snapshot
(`Recoverable`).

* `captureSnapshot_spec` — captured on top of the base weights, the snapshots
  are of the base weights, also when the capture stops half way;
* `applySwap_spec` — a swap that stops half way has added a prefix of the
  deltas;
* `rollback_spec` — from a recoverable state, a rollback that returns has
  restored the base weights, and one that raises leaves a recoverable state;
* `performRollback_spec` — after a rollback the worker has its base weights
  back or is quarantined.
-/
import NeuralScalpel.Weights

open Effect

/-- Every copy and every digest of a rollback succeeds. -/
structure RollbackFaults.Clean (faults : RollbackFaults) : Prop where
  copy : ∀ i, faults.copy i = none
  checksum : ∀ i, faults.checksum i = .computed

/-- The layer name has been resolved to the parameter at `address`. -/
def Golden.Mapped (w : Worker) (golden : Golden) (name : String) (address : ℕ) : Prop :=
  ∃ target, golden.nameMapping.get? name = some target ∧ w.locate name = some (target, address)

/-- The snapshots and their digests are those of the store `base`. -/
structure Golden.Ok (w : Worker) (base : Store) (golden : Golden) : Prop where
  snapshot : ∀ {name snapshot}, golden.snapshots.get? name = some snapshot →
    ∃ address, golden.Mapped w name address ∧ snapshot = base address
  digest : ∀ {name digest}, golden.checksums.get? name = some digest →
    ∃ address, golden.Mapped w name address ∧ digest = w.checksum (base address)

namespace Golden

variable {w : Worker} {base : Store} {golden : Golden} {name : String} {address : ℕ}

theorem Mapped.target_eq (h : golden.Mapped w name address) :
    w.locate name = some (golden.target name, address) := by
  obtain ⟨t, hmap, hlocate⟩ := h
  rw [Golden.target, hmap]
  exact hlocate

/-- What a name was resolved to is found in the state dictionary. -/
theorem Mapped.subscript_eq (h : golden.Mapped w name address) :
    Runtime.subscript w.model (golden.target name) = .ok address := by
  obtain ⟨state, hmodel, hget⟩ := Worker.exists_model_of_locate h.target_eq
  simp [Runtime.subscript, hmodel, hget]

theorem Mapped.address_eq (h : golden.Mapped w name address) : w.address name = some address :=
  Worker.address_eq_some.mpr ⟨_, h.target_eq⟩

theorem Mapped.unique {address' : ℕ} (h : golden.Mapped w name address)
    (h' : golden.Mapped w name address') : address = address' :=
  Option.some.inj (h.address_eq.symm.trans h'.address_eq)

theorem ok_empty : Ok w base empty where
  snapshot h := absurd h (by simp [empty])
  digest h := absurd h (by simp [empty])

/-- Only the name mapping matters. -/
theorem Mapped.congr {golden' : Golden} (h : golden.Mapped w name address)
    (hmap : golden'.nameMapping = golden.nameMapping) : golden'.Mapped w name address := by
  obtain ⟨target, hget, hlocate⟩ := h
  exact ⟨target, by rw [hmap, hget], hlocate⟩

/-- Writing down a resolution again, or a new one, keeps the others. -/
theorem Mapped.set {name' target' : String} {address' : ℕ} (h : golden.Mapped w name address)
    (hlocate : w.locate name' = some (target', address')) :
    Mapped w { golden with nameMapping := golden.nameMapping.set name' target' } name address := by
  obtain ⟨target, hget, hloc⟩ := h
  by_cases hn : name = name'
  · subst hn
    rw [hlocate] at hloc
    cases hloc
    exact ⟨target', Dict.get?_set_self _ _ _, hlocate⟩
  · exact ⟨target, by rw [Dict.get?_set_of_ne hn, hget], hloc⟩

theorem Ok.set_nameMapping {target : String} (hok : Ok w base golden)
    (hlocate : w.locate name = some (target, address)) :
    Ok w base { golden with nameMapping := golden.nameMapping.set name target } where
  snapshot h := by
    obtain ⟨a, ha, rfl⟩ := hok.snapshot h
    exact ⟨a, ha.set hlocate, rfl⟩
  digest h := by
    obtain ⟨a, ha, rfl⟩ := hok.digest h
    exact ⟨a, ha.set hlocate, rfl⟩

theorem Ok.set_snapshots (hok : Ok w base golden) (hmapped : golden.Mapped w name address) :
    Ok w base { golden with snapshots := golden.snapshots.set name (base address) } where
  snapshot {n} _ h := by
    by_cases hn : n = name
    · subst hn
      rw [Dict.get?_set_self] at h
      exact ⟨address, hmapped.congr rfl, (Option.some.inj h).symm⟩
    · rw [Dict.get?_set_of_ne hn] at h
      obtain ⟨a, ha, rfl⟩ := hok.snapshot h
      exact ⟨a, ha.congr rfl, rfl⟩
  digest h := by
    obtain ⟨a, ha, rfl⟩ := hok.digest h
    exact ⟨a, ha.congr rfl, rfl⟩

theorem Ok.set_checksums (hok : Ok w base golden) (hmapped : golden.Mapped w name address) :
    Ok w base { golden with
      checksums := golden.checksums.set name (w.checksum (base address)) } where
  snapshot h := by
    obtain ⟨a, ha, rfl⟩ := hok.snapshot h
    exact ⟨a, ha.congr rfl, rfl⟩
  digest {n} _ h := by
    by_cases hn : n = name
    · subst hn
      rw [Dict.get?_set_self] at h
      exact ⟨address, hmapped.congr rfl, (Option.some.inj h).symm⟩
    · rw [Dict.get?_set_of_ne hn] at h
      obtain ⟨a, ha, rfl⟩ := hok.digest h
      exact ⟨a, ha.congr rfl, rfl⟩

/-- A name with a snapshot has been resolved. -/
theorem Ok.exists_mapped (hok : Ok w base golden) (h : golden.snapshots.contains name = true) :
    ∃ address, golden.Mapped w name address := by
  obtain ⟨snapshot, hget⟩ := Dict.contains_iff.mp h
  obtain ⟨address, hmapped, _⟩ := hok.snapshot hget
  exact ⟨address, hmapped⟩

/-- Over the layouts of the base weights, a snapshot is copied back exactly. -/
theorem Ok.exists_copy (hok : Ok w base golden) {entry : String × Tensor}
    (hentry : entry ∈ golden.snapshots.entries) {store : Store}
    (hlayout : Runtime.SameLayouts base store) :
    ∃ address, golden.Mapped w entry.1 address ∧
      Runtime.copyInPlace (store address) entry.2 = .ok (base address) := by
  obtain ⟨address, hmapped, hsnapshot⟩ := hok.snapshot (Dict.mem_entries_iff.mp hentry)
  refine ⟨address, hmapped, ?_⟩
  rw [Runtime.copyInPlace_eq_ok, hsnapshot]
  exact Tensor.copy_eq_of_layout (hlayout address).symm

theorem contains_of_covers {routeData : Manifest} (h : golden.covers routeData = true) :
    ∀ layer ∈ routeData.layers, golden.snapshots.contains layer.name = true :=
  List.all_eq_true.mp (Bool.and_eq_true_iff.mp h).2

/-- The layer has a snapshot and its parameter is declared as it is in `store`. -/
structure Captured (w : Worker) (store : Store) (golden : Golden) (layer : LayerSpec) : Prop where
  contains : golden.snapshots.contains layer.name = true
  mapped : ∃ address, golden.Mapped w layer.name address ∧
    (store address).shape = layer.shape ∧ (store address).dtype = layer.dtype

end Golden

namespace Runtime

open Golden

variable {w : Worker} {base : Store}

/-! ### Capturing -/

theorem checkLayer_eq_ok {layer : LayerSpec} {target : String} {live : Tensor} {u : Unit} :
    checkLayer layer target live = .ok u ↔ live.shape = layer.shape ∧ live.dtype = layer.dtype := by
  unfold checkLayer
  split_ifs <;> simp_all

/-- Capturing one layer: the snapshots stay those of the store whether or not a
step raises, and the layers captured before stay captured. -/
theorem captureLayer_spec {faults : SwapFaults} {state : Dict String ℕ} {golden : Golden}
    (hmodel : w.model = some state) (i : ℕ) (layer : LayerSpec) (hok : Ok w base golden) :
    wp (captureLayer w faults state base i layer)
      (fun _ golden' => Ok w base golden' ∧ Captured w base golden' layer ∧
        ∀ l, Captured w base golden l → Captured w base golden' l)
      (fun _ golden' => Ok w base golden') golden := by
  simp only [captureLayer, wp_bind, wp_ofExcept, wp_raiseIf, wp_modify]
  refine ⟨fun target htarget => ?_, fun _ _ => hok⟩
  obtain ⟨address, haddress⟩ := Dict.contains_iff.mp (contains_of_resolveLayerName htarget)
  have hlocate : w.locate layer.name = some (target, address) :=
    (Worker.locate_of_model hmodel).mpr ⟨htarget, haddress⟩
  have hok₁ := hok.set_nameMapping hlocate
  have hmapped : Mapped w { golden with nameMapping := golden.nameMapping.set layer.name target }
      layer.name address := ⟨target, Dict.get?_set_self _ _ _, hlocate⟩
  -- the mapping is written before the checks, and stays if one of them raises
  refine ⟨fun a ha => ?_, fun _ _ => hok₁⟩
  obtain rfl : address = a := by
    rw [subscript, haddress] at ha
    exact Except.ok.inj ha
  refine ⟨fun _ hcheck => ⟨fun _ => ?_, fun _ _ => hok₁⟩, fun _ _ => hok₁⟩
  have hok₂ := hok₁.set_snapshots hmapped
  refine ⟨fun _ => ⟨hok₂.set_checksums (hmapped.congr rfl), ⟨?_, ?_⟩, ?_⟩, fun _ _ => hok₂⟩
  · exact Dict.contains_set.mpr (Or.inl rfl)
  · exact ⟨address, hmapped.congr rfl, checkLayer_eq_ok.mp hcheck⟩
  · rintro l ⟨hcontains, a, ha, hlayout⟩
    exact ⟨Dict.contains_set.mpr (Or.inr hcontains), a, (ha.set hlocate).congr rfl, hlayout⟩

/-- Capturing all layers from nothing. -/
theorem captureLayers_spec {faults : SwapFaults} {state : Dict String ℕ}
    (hmodel : w.model = some state) (layers : List LayerSpec) :
    wp (forEach (captureLayer w faults state base) 0 layers)
      (fun _ golden => Ok w base golden ∧ ∀ layer ∈ layers, Captured w base golden layer)
      (fun _ golden => Ok w base golden) .empty := by
  refine (wp_forEach (I := fun left golden => Ok w base golden ∧
      ∀ layer ∈ layers, layer ∈ left ∨ Captured w base golden layer)
    (E := fun _ golden => Ok w base golden) (fun i layer left golden ⟨hok, hleft⟩ => ?_)
    ⟨ok_empty, fun layer hlayer => Or.inl hlayer⟩).mono
    (fun _ golden ⟨hok, hall⟩ => ⟨hok, fun layer hlayer => ?_⟩) fun _ _ h => h
  · refine (captureLayer_spec hmodel i layer hok).mono ?_ fun _ _ h => h
    rintro _ golden' ⟨hok', hcaptured, hkeep⟩
    refine ⟨hok', fun l hl => ?_⟩
    rcases hleft l hl with h | h
    · rcases List.mem_cons.mp h with rfl | h
      · exact Or.inr hcaptured
      · exact Or.inl h
    · exact Or.inr (hkeep l h)
  · exact (hall layer hlayer).resolve_left List.not_mem_nil

/-- What capturing does to the state: nothing when the golden snapshots cover
the route, and otherwise snapshots of the store as it is. -/
theorem captureSnapshot_spec {faults : SwapFaults} {routeData : Manifest} {rt : Runtime} :
    wp (captureSnapshot w faults routeData)
      (fun _ rt' => (rt.golden.covers routeData = true ∧ rt' = rt) ∨
        (rt.golden.covers routeData = false ∧ ∃ golden, rt' = { rt with golden := golden } ∧
          Ok w rt.store golden ∧ ∀ layer ∈ routeData.layers, Captured w rt.store golden layer))
      (fun _ rt' => rt' = rt ∨ ∃ golden, rt' = { rt with golden := golden } ∧
        Ok w rt.store golden) rt := by
  unfold captureSnapshot
  rcases hmodel : w.model with _ | state
  · exact Or.inl rfl
  · rw [wp_bind, wp_get]
    by_cases hcovers : rt.golden.covers routeData = true
    · rw [if_pos hcovers]
      exact Or.inl ⟨hcovers, rfl⟩
    · rw [if_neg hcovers, wp_zoom, wp_bind, wp_set]
      refine (captureLayers_spec hmodel routeData.layers).mono ?_ ?_
      · rintro _ golden ⟨hok, hall⟩
        exact Or.inr ⟨Bool.eq_false_iff.mpr hcovers, golden, rfl, hok, hall⟩
      · intro _ golden hok
        exact Or.inr ⟨golden, rfl, hok⟩

/-! ### Swapping -/

/-- The layer resolves to a parameter and its delta could be added there. -/
def Added (w : Worker) (base : Store) (routeData : Manifest) (deltas : Dict String Tensor)
    (layer : LayerSpec) : Prop :=
  ∃ target address delta, w.locate layer.name = some (target, address) ∧
    layerDelta routeData deltas target layer (base address) = .ok delta ∧
    broadcastsTo delta.shape (base address).shape = true

/-- One layer of a swap: its delta is added, or nothing changes. -/
theorem swapLayer_spec {faults : SwapFaults} {state : Dict String ℕ} {routeData : Manifest}
    {deltas : Dict String Tensor} {done : List LayerSpec} {layer : LayerSpec} {address : ℕ}
    {rt : Runtime} (hmodel : w.model = some state) (i : ℕ)
    (hmapped : rt.golden.Mapped w layer.name address)
    (hstore : rt.store = plusDeltas w routeData deltas done base) :
    wp (swapLayer state faults routeData deltas i layer)
      (fun _ rt' => rt'.golden = rt.golden ∧ rt'.machine = rt.machine ∧
        rt'.store = plusDeltas w routeData deltas (done ++ [layer]) base ∧
        Added w base routeData deltas layer)
      (fun _ rt' => rt' = rt) rt := by
  have hlocate := hmapped.target_eq
  have hget : state.get? (rt.golden.target layer.name) = some address :=
    ((Worker.locate_of_model hmodel).mp hlocate).2
  have hlayout : Tensor.SameLayout (rt.store address) (base address) :=
    hstore ▸ sameLayouts_plusDeltas done address
  rw [swapLayer, wp_bind, wp_get, hget]
  simp only [wp_bind, wp_ofExcept, wp_raiseIf, wp_modify]
  -- the delta is computed from the live tensor, but depends on its layout only
  refine ⟨fun delta hdelta => ⟨fun _ => ⟨fun sum hsum => ⟨trivial, trivial, ?_, ?_⟩, ?_⟩, ?_⟩, ?_⟩
  · rw [layerDelta_congr hlayout] at hdelta
    obtain ⟨_, rfl⟩ := Tensor.add_eq_some.mp (addInPlace_eq_ok.mp hsum)
    show Function.update rt.store address _ = _
    rw [plusDeltas_concat hlocate hdelta, hstore]
  · rw [layerDelta_congr hlayout] at hdelta
    obtain ⟨hbroadcast, _⟩ := Tensor.add_eq_some.mp (addInPlace_eq_ok.mp hsum)
    exact ⟨_, address, delta, hlocate, hdelta, hlayout.1 ▸ hbroadcast⟩
  all_goals exact fun _ _ => trivial

/-- A swap on top of the base weights: all deltas, or those of a prefix of the
layers when it raises. -/
theorem applySwap_spec {env : Environment} {routeData : Manifest}
    {validatedDeltas : Dict String Tensor} {rt : Runtime} (hstore : rt.store = base)
    (hmapped : ∀ layer ∈ routeData.layers, ∃ address, rt.golden.Mapped w layer.name address) :
    wp (applySwap w env routeData validatedDeltas)
      (fun _ rt' => rt'.golden = rt.golden ∧ rt'.machine = rt.machine ∧
        ∃ deltas, deltasToApply w env.files routeData validatedDeltas = .ok deltas ∧
          rt'.store = plusDeltas w routeData deltas routeData.layers base ∧
          ∀ layer ∈ routeData.layers, Added w base routeData deltas layer)
      (fun _ rt' => rt'.golden = rt.golden ∧ ∃ deltas done, done <+: routeData.layers ∧
          rt'.store = plusDeltas w routeData deltas done base) rt := by
  unfold applySwap
  rcases hmodel : w.model with _ | state
  · exact ⟨rfl, .empty, [], List.nil_prefix, hstore⟩
  · simp only [wp_bind, wp_ofExcept, wp_modify]
    refine ⟨fun deltas hdeltas => ?_, fun _ _ => ⟨trivial, .empty, [], List.nil_prefix, hstore⟩⟩
    -- the layers done so far are a prefix, and the store has their deltas
    refine (wp_forEach (I := fun left rt' => rt'.golden = rt.golden ∧ rt'.machine = rt.machine ∧
        ∃ done, routeData.layers = done ++ left ∧
          rt'.store = plusDeltas w routeData deltas done base ∧
          ∀ layer ∈ done, Added w base routeData deltas layer)
      (E := fun _ rt' => rt'.golden = rt.golden ∧ ∃ deltas done, done <+: routeData.layers ∧
        rt'.store = plusDeltas w routeData deltas done base)
      (fun i layer left rt' hleft => ?_)
      ⟨rfl, rfl, [], rfl, hstore, fun _ h => absurd h List.not_mem_nil⟩).mono ?_ fun _ _ h => h
    · obtain ⟨hgolden, hmachine, done, hlayers, hdone, hadded⟩ := hleft
      have hmem : layer ∈ routeData.layers := by rw [hlayers]; simp
      obtain ⟨address, haddress⟩ := hmapped layer hmem
      refine (swapLayer_spec hmodel i (hgolden ▸ haddress) hdone).mono ?_ ?_
      · rintro _ rt'' ⟨hg, hm, hs, ha⟩
        refine ⟨hg.trans hgolden, hm.trans hmachine, done ++ [layer], by simp [hlayers], hs, ?_⟩
        intro l hl
        rcases List.mem_append.mp hl with h | h
        · exact hadded l h
        · exact List.mem_singleton.mp h ▸ ha
      · rintro _ rt'' rfl
        exact ⟨hgolden, deltas, done, ⟨_, hlayers.symm⟩, hdone⟩
    · rintro _ rt' ⟨hgolden, hmachine, done, hlayers, hdone, hadded⟩
      rw [List.append_nil] at hlayers
      exact ⟨hgolden, hmachine, deltas, hdeltas, by rw [hdone, hlayers], hlayers ▸ hadded⟩

/-! ### Recoverable states -/

/-- The golden snapshots lead back to the base weights. -/
structure Recoverable (w : Worker) (base : Store) (rt : Runtime) : Prop where
  layout : SameLayouts base rt.store
  golden : Ok w base rt.golden
  covered : ∀ {address}, rt.store address ≠ base address →
    ∃ name, rt.golden.snapshots.contains name = true ∧ rt.golden.Mapped w name address

theorem Recoverable.of_base {rt : Runtime} (hstore : rt.store = base)
    (hgolden : Ok w base rt.golden) : Recoverable w base rt where
  layout := hstore ▸ refl_of SameLayouts rt.store
  golden := hgolden
  covered h := absurd (congrFun hstore _) h

/-- Only the store and the snapshots matter. -/
theorem Recoverable.congr {rt rt' : Runtime} (h : Recoverable w base rt)
    (hstore : rt'.store = rt.store) (hgolden : rt'.golden = rt.golden) :
    Recoverable w base rt' := by
  obtain ⟨hlayout, hok, hcovered⟩ := h
  rw [← hstore] at hlayout
  rw [← hgolden] at hok
  refine ⟨hlayout, hok, fun {address} hne => ?_⟩
  rw [hgolden]
  rw [hstore] at hne
  exact hcovered hne

/-- Deltas of layers with snapshots leave a recoverable state. -/
theorem Recoverable.of_plusDeltas {rt : Runtime} {routeData : Manifest}
    {deltas : Dict String Tensor} {layers : List LayerSpec} (hgolden : Ok w base rt.golden)
    (hstore : rt.store = plusDeltas w routeData deltas layers base)
    (hsnap : ∀ layer ∈ layers, rt.golden.snapshots.contains layer.name = true) :
    Recoverable w base rt where
  layout := hstore ▸ sameLayouts_plusDeltas layers
  golden := hgolden
  covered {address} hne := by
    rw [hstore] at hne
    obtain ⟨layer, hlayer, haddress⟩ := exists_layer_of_plusDeltas_ne hne
    have hcontains := hsnap layer hlayer
    obtain ⟨a, ha⟩ := hgolden.exists_mapped hcontains
    obtain rfl : a = address := Option.some.inj (ha.address_eq.symm.trans haddress)
    exact ⟨layer.name, hcontains, ha⟩

/-! ### Rolling back -/

/-- The store while the entries `left` are still to be restored. -/
structure Restoring (w : Worker) (base : Store) (golden : Golden) (left : List (String × Tensor))
    (store : Store) : Prop where
  layout : SameLayouts base store
  entries : ∀ entry ∈ left, entry ∈ golden.snapshots.entries
  moved : ∀ {address}, store address ≠ base address →
    ∃ entry ∈ left, golden.Mapped w entry.1 address

theorem restoreLayer_spec {faults : RollbackFaults} {golden : Golden} {entry : String × Tensor}
    {left : List (String × Tensor)} {store : Store} (hok : Ok w base golden) (i : ℕ)
    (h : Restoring w base golden (entry :: left) store) :
    wp (restoreLayer w.model faults golden i entry) (fun _ => Restoring w base golden left)
      (fun _ store' => store' = store) store := by
  obtain ⟨address, hmapped, hcopy⟩ :=
    hok.exists_copy (h.entries entry List.mem_cons_self) h.layout
  simp only [restoreLayer, wp_bind, wp_ofExcept, wp_raiseIf, wp_get, wp_set]
  refine ⟨fun a ha => ⟨fun _ => ⟨fun restored hrestored => ?_, ?_⟩, ?_⟩, ?_⟩
  · rw [hmapped.subscript_eq] at ha
    obtain rfl := Except.ok.inj ha
    rw [hcopy] at hrestored
    obtain rfl := Except.ok.inj hrestored
    refine ⟨?_, fun e he => h.entries e (List.mem_cons_of_mem _ he), fun {b} hb => ?_⟩
    · exact trans_of SameLayouts h.layout (sameLayouts_update (h.layout address).symm)
    · -- what still differs is not the parameter just restored, so its entry is still to come
      by_cases hba : b = address
      · subst hba
        exact absurd (Function.update_self _ _ _) hb
      · rw [Function.update_of_ne hba] at hb
        obtain ⟨e, he, hmap⟩ := h.moved hb
        rcases List.mem_cons.mp he with rfl | he
        · exact absurd (hmap.unique hmapped) hba
        · exact ⟨e, he, hmap⟩
  all_goals exact fun _ _ => trivial

/-- A rollback restores the base weights, or raises in a recoverable state. -/
theorem rollback_spec {faults : RollbackFaults} {rt : Runtime} (h : Recoverable w base rt) :
    wp (rollback w faults) (fun _ rt' => rt' = { rt with store := base })
      (fun _ rt' => Recoverable w base rt' ∧ ∃ store, rt' = { rt with store := store }) rt := by
  rw [rollback, wp_bind, wp_get, wp_zoom]
  have hrecoverable : ∀ {left store}, Restoring w base rt.golden left store →
      Recoverable w base { rt with store := store } := fun {left store} hr =>
    { layout := hr.layout
      golden := h.golden
      covered := fun hne => by
        obtain ⟨entry, hentry, hmap⟩ := hr.moved hne
        have hget := Dict.mem_entries_iff.mp (hr.entries entry hentry)
        exact ⟨entry.1, Dict.contains_iff.mpr ⟨_, hget⟩, hmap⟩ }
  refine (wp_forEach (I := Restoring w base rt.golden)
    (E := fun _ store => Recoverable w base { rt with store := store })
    (fun i entry left store hr => ?_)
    { layout := h.layout
      entries := fun _ he => he
      moved := fun hne => by
        obtain ⟨name, hcontains, hmap⟩ := h.covered hne
        obtain ⟨snapshot, hget⟩ := Dict.contains_iff.mp hcontains
        exact ⟨(name, snapshot), Dict.mem_entries_iff.mpr hget, hmap⟩ }).mono
    (fun _ store hr => ?_) fun _ store hr => ⟨hr, store, rfl⟩
  · refine (restoreLayer_spec h.golden i hr).mono (fun _ _ h' => h') ?_
    rintro _ _ rfl
    exact hrecoverable hr
  · -- with no entry left, nothing differs
    have hstore : store = base := by
      funext a
      by_contra hne
      obtain ⟨_, hmem, _⟩ := hr.moved hne
      exact absurd hmem List.not_mem_nil
    rw [hstore]

/-- A failed rollback is written down and quarantines the worker. -/
theorem wp_failRollback {Q : Unit → Runtime → Prop} {E : PyError → Runtime → Prop}
    {fc : FailureClass} {routeId : String} {rt : Runtime}
    (hfc : (evaluateFailure fc).targetPhase = .workerQuarantined)
    (hQ : ∀ machine, machine.phase = .workerQuarantined →
      Q () (setMachine machine { rt with trace := rt.trace ++ [.rollbackFailed] })) :
    wp (failRollback fc routeId) Q E rt := by
  have hscope : (evaluateFailure fc).quarantineScope.isSome = true := by
    rw [scope_of_workerQuarantined hfc]
    rfl
  rw [failRollback, wp_bind, wp_modify, applyVerdict, if_pos hscope, if_pos hfc]
  exact wp_transitionOr (fun _ => hQ) fun _ => hQ _ rfl

/-- A rollback with its three outcomes: verified, failed, or a digest that
cannot be computed. -/
theorem wp_performRollback {Q : Unit → Runtime → Prop} {E : PyError → Runtime → Prop}
    {faults : RollbackFaults} {routeId : String} {rt : Runtime}
    (h : ∀ machine, machine.phase = .rollingBack → wp (rollback w faults)
      (fun _ r =>
        (verifyRollback w faults r.golden r.store = .ok true → ∀ machine,
          machine.phase = .ready →
            Q () (setMachine machine { r with rollbackCount := r.rollbackCount + 1 })) ∧
        (verifyRollback w faults r.golden r.store = .ok false → ∀ machine,
          machine.phase = .workerQuarantined →
            Q () (setMachine machine { r with trace := r.trace ++ [.rollbackFailed] })) ∧
        ∀ e, verifyRollback w faults r.golden r.store = .error e → E e r)
      (fun _ r => ∀ machine, machine.phase = .workerQuarantined →
        Q () (setMachine machine { r with trace := r.trace ++ [.rollbackFailed] }))
      (rt.setMachine machine)) :
    wp (performRollback w faults routeId) Q E rt := by
  rw [performRollback, wp_bind]
  refine wp_forceTransition fun machine hmachine => ?_
  rw [wp_bind, wp_attempt]
  refine (h machine hmachine).mono ?_ fun _ r hr => wp_failRollback rfl hr
  rintro _ r ⟨hverified, hmismatch, hraised⟩
  simp only [wp_bind, wp_get, wp_ofExcept]
  refine ⟨fun verified hv => ?_, hraised⟩
  rcases verified with _ | _
  · exact wp_failRollback rfl (hmismatch hv)
  · exact wp_forceTransition (hverified hv)

/-- After a rollback the worker has its base weights back or is quarantined;
when a digest cannot be computed the weights are restored all the same. -/
theorem performRollback_spec {faults : RollbackFaults} {routeId : String} {rt : Runtime}
    (h : Recoverable w base rt) :
    wp (performRollback w faults routeId)
      (fun _ rt' => Recoverable w base rt' ∧
        (rt'.phase = .workerQuarantined ∨ rt'.phase = .ready ∧ rt'.store = base))
      (fun _ rt' => Recoverable w base rt' ∧ rt'.store = base) rt := by
  refine wp_performRollback fun machine _ => ?_
  have hstart : Recoverable w base (rt.setMachine machine) := h.congr rfl rfl
  refine (rollback_spec hstart).mono ?_ ?_
  · rintro _ r rfl
    have hbase : Recoverable w base { rt.setMachine machine with store := base } :=
      Recoverable.of_base rfl h.golden
    exact ⟨fun _ _ hm => ⟨hbase.congr rfl rfl, Or.inr ⟨hm, rfl⟩⟩,
      fun _ _ hm => ⟨hbase.congr rfl rfl, Or.inl hm⟩, fun _ _ => ⟨hbase, rfl⟩⟩
  · -- a copy has raised half way
    rintro _ r ⟨hr, _⟩ m hm
    exact ⟨hr.congr rfl rfl, Or.inl hm⟩

/-! ### Rollbacks in which nothing goes astray -/

theorem verifyLayers_of_base {faults : RollbackFaults} {golden : Golden} (hok : Ok w base golden)
    (hclean : faults.Clean) : ∀ {entries : List (String × String)} {i : ℕ},
    (∀ entry ∈ entries, entry ∈ golden.checksums.entries) →
      verifyLayers w faults golden base i entries = .ok true := by
  intro entries
  induction entries with
  | nil => exact fun _ => rfl
  | cons entry entries ih =>
    intro i hmem
    obtain ⟨name, expected⟩ := entry
    obtain ⟨address, hmapped, rfl⟩ :=
      hok.digest (Dict.mem_entries_iff.mp (hmem _ List.mem_cons_self))
    have hrest := ih (i := i + 1) fun e he => hmem e (List.mem_cons_of_mem _ he)
    rw [verifyLayers, hmapped.subscript_eq, hclean.checksum i]
    simpa [DigestOutcome.read, bind, Except.bind] using hrest

/-- Over the base weights the digests are the ones taken. -/
theorem verifyRollback_of_base {faults : RollbackFaults} {golden : Golden} (hok : Ok w base golden)
    (hclean : faults.Clean) : verifyRollback w faults golden base = .ok true :=
  verifyLayers_of_base hok hclean fun _ h => h

theorem restoreLayers_returns {faults : RollbackFaults} {golden : Golden} (hok : Ok w base golden)
    (hclean : faults.Clean) {store : Store}
    (hlayout : Runtime.SameLayouts base store) :
    Returns (restoreLayers w faults golden) store := by
  refine wp_forEach (I := fun left store => SameLayouts base store ∧
    ∀ entry ∈ left, entry ∈ golden.snapshots.entries) (fun i entry left store h => ?_)
    ⟨hlayout, fun _ h => h⟩ |>.mono (fun _ _ _ => trivial) fun _ _ h => h
  obtain ⟨hlayout, hentries⟩ := h
  obtain ⟨address, hmapped, hcopy⟩ :=
    hok.exists_copy (hentries entry List.mem_cons_self) hlayout
  simp only [restoreLayer, wp_bind, wp_ofExcept, wp_raiseIf, wp_get, wp_set, hclean.copy,
    hmapped.subscript_eq]
  refine ⟨fun a ha => ?_, fun e he => absurd he (by simp)⟩
  obtain rfl := Except.ok.inj ha
  rw [hcopy]
  refine ⟨fun _ => ⟨fun restored hrestored => ?_, fun e he => absurd he (by simp)⟩,
    fun _ h => absurd h (by simp)⟩
  obtain rfl := Except.ok.inj hrestored
  exact ⟨trans_of SameLayouts hlayout (sameLayouts_update (hlayout address).symm),
    fun e he => hentries e (List.mem_cons_of_mem _ he)⟩

/-- When nothing goes astray, a rollback returns, with the base weights back. -/
theorem performRollback_clean {faults : RollbackFaults} {routeId : String} {rt : Runtime}
    (h : Recoverable w base rt) (hclean : faults.Clean) :
    wp (performRollback w faults routeId)
      (fun _ rt' => rt'.phase = .ready ∧ rt'.store = base ∧
        rt'.rollbackCount = rt.rollbackCount + 1)
      (fun _ _ => False) rt := by
  refine wp_performRollback fun machine _ => ?_
  have hstart : Recoverable w base (rt.setMachine machine) := h.congr rfl rfl
  have hreturns : Returns (rollback w faults) (rt.setMachine machine) := by
    rw [Returns, rollback, wp_bind, wp_get, wp_zoom]
    exact restoreLayers_returns h.golden hclean h.layout
  refine hreturns.wp ((rollback_spec hstart).mono ?_ fun _ _ h => h)
  rintro _ r rfl
  have hverified : verifyRollback w faults rt.golden base = .ok true :=
    verifyRollback_of_base h.golden hclean
  refine ⟨fun _ _ hm => ⟨hm, rfl, rfl⟩, fun hfalse => ?_, fun e herror => ?_⟩
  · exact absurd (hverified.symm.trans hfalse) (by simp)
  · exact absurd (hverified.symm.trans herror) (by simp)

/-- A rollback that went well: the base weights are back, the phase is ready,
and apart from the counter nothing else has changed. -/
structure RolledBack (w : Worker) (base : Store) (rt rt' : Runtime) : Prop where
  phase : rt'.phase = .ready
  store : rt'.store = base
  count : rt'.rollbackCount = rt.rollbackCount + 1
  books : rt'.books = rt.books
  recoverable : Recoverable w base rt'

theorem performRollback_rolledBack {faults : RollbackFaults} {routeId : String} {rt : Runtime}
    (h : Recoverable w base rt) (hclean : faults.Clean) :
    wp (performRollback w faults routeId) (fun _ => RolledBack w base rt) (fun _ _ => False)
      rt := by
  refine ((keeps_performRollback rollbackFrame_books w faults routeId).and_wp
    ((keeps_performRollback rollbackFrame_golden w faults routeId).and_wp
      (performRollback_clean h hclean))).mono ?_ fun _ _ hfalse => hfalse.2.2
  rintro _ rt' ⟨hbooks, hgolden, hphase, hstore, hcount⟩
  exact ⟨hphase, hstore, hcount, hbooks, .of_base hstore (hgolden ▸ h.golden)⟩

/-! ### The whole swap -/

theorem ready_of_verifying {phase : RuntimePhase} (h : .verifying ∈ validTransitions phase) :
    phase = .ready := by
  cases phase <;> simp_all [validTransitions]

/-- Whatever a capture on top of the base weights does, every snapshot is of
the base weights and every layer of the route has one. -/
theorem captureSnapshot_of_base {faults : SwapFaults} {routeData : Manifest} {rt : Runtime}
    (hstore : rt.store = base) (hok : Ok w base rt.golden) :
    wp (captureSnapshot w faults routeData)
      (fun _ rt' => ∃ golden, rt' = { rt with golden := golden } ∧ Ok w base golden ∧
        ∀ layer ∈ routeData.layers, golden.snapshots.contains layer.name = true)
      (fun _ rt' => ∃ golden, rt' = { rt with golden := golden } ∧ Ok w base golden) rt := by
  subst hstore
  refine captureSnapshot_spec.mono ?_ ?_
  · rintro _ rt' (⟨hcovers, rfl⟩ | ⟨_, golden, rfl, hok', hall⟩)
    · -- reused snapshots are of the base weights by assumption
      exact ⟨rt'.golden, rfl, hok, contains_of_covers hcovers⟩
    · exact ⟨golden, rfl, hok', fun layer hlayer => (hall layer hlayer).contains⟩
  · rintro _ rt' (rfl | ⟨golden, rfl, hok'⟩)
    · exact ⟨rt'.golden, rfl, hok⟩
    · exact ⟨golden, rfl, hok'⟩

/-- A swap from a recoverable state that, when ready, has the base weights:
either the weights are the base weights plus the deltas, or the swap raises and
the state is still recoverable. -/
theorem swapIn_spec {env : Environment} {routeId : String} {routeData : Manifest}
    {validatedDeltas : Dict String Tensor} {rt : Runtime} (h : Recoverable w base rt)
    (hready : rt.phase = .ready → rt.store = base) :
    wp (swapIn w env routeId routeData validatedDeltas)
      (fun _ rt' => Recoverable w base rt' ∧ rt'.phase = .swapped ∧ rt.phase = .ready ∧
        ∃ deltas, deltasToApply w env.files routeData validatedDeltas = .ok deltas ∧
          rt'.store = plusDeltas w routeData deltas routeData.layers base ∧
          ∀ layer ∈ routeData.layers, Added w base routeData deltas layer)
      (fun _ rt' => Recoverable w base rt') rt := by
  rw [swapIn, wp_bind]
  refine wp_transition (fun hvalid machine hm => ?_) fun _ _ => h
  -- the table lets only a ready worker in, so the capture sees the base weights
  have hphase := ready_of_verifying hvalid
  have hstore : (rt.setMachine machine).store = base := hready hphase
  rw [wp_bind]
  refine (captureSnapshot_of_base hstore h.golden).mono ?_ ?_
  · rintro _ _ ⟨golden, rfl, hok, hsnap⟩
    rw [wp_bind]
    refine wp_transition_of_valid hm (by decide) fun machine₁ hm₁ => ?_
    rw [wp_bind]
    refine wp_transition_of_valid hm₁ (by decide) fun machine₂ hm₂ => ?_
    rw [wp_bind]
    have hmapped : ∀ layer ∈ routeData.layers, ∃ address, golden.Mapped w layer.name address :=
      fun layer hlayer => hok.exists_mapped (hsnap layer hlayer)
    have hstore₂ : (setMachine machine₂ (setMachine machine₁
        { rt.setMachine machine with golden := golden })).store = base := hstore
    refine (applySwap_spec hstore₂ hmapped).mono ?_ ?_
    · rintro _ rt' ⟨hgolden, hmachine, deltas, hdeltas, hst, hadded⟩
      have hphase' : rt'.phase = .swapping :=
        (congrArg RuntimeStateMachine.phase hmachine).trans hm₂
      refine wp_transition_of_valid hphase' (by decide) fun machine₃ hm₃ => ?_
      have hrec : Recoverable w base rt' :=
        .of_plusDeltas (hgolden ▸ hok) hst fun layer hlayer => hgolden ▸ hsnap layer hlayer
      exact ⟨hrec.congr rfl rfl, hm₃, hphase, deltas, hdeltas, hst, hadded⟩
    · -- a prefix of the layers has been swapped, and each of them has a snapshot
      rintro _ rt' ⟨hgolden, deltas, done, hdone, hst⟩
      exact .of_plusDeltas (hgolden ▸ hok) hst fun layer hlayer =>
        hgolden ▸ hsnap layer (hdone.subset hlayer)
  · rintro _ _ ⟨golden, rfl, hok⟩
    exact .of_base hstore hok

end Runtime
