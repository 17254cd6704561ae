/-
The precedence of module alphas.

The module alpha map is read by the filter of keys and by the scaling of
tensors.  An update should be written with the effective alpha of its layer if
that is positive, and not at all otherwise.

* `written_eq` — the final map is what the adapter returned, scaled by key;
* `alphaScaled_loraKey` — the scaling follows the effective alpha;
* `shouldIncludeKey_loraKey` — the filter reads the entry of the module only;
* `alphaLaw_iff` — exactly when the precedence holds for a pair.
-/
import NeuralScalpel.AlphaMap
import NeuralScalpel.PortRun

/-! ### What the adapter returned -/

section Returned

variable {R S : Type} [CommRing R]

/-- Nothing is done to what the adapter returns. -/
def keepEntries (key : String) (projected : Projected R) :
    Except PyError (List (String × ShapedMatrix R)) :=
  .ok (projected.entries key)

/-- Every tensor with the key it was returned for. -/
def tagEntries (key : String) (projected : Projected R) :
    Except PyError (List (String × String × ShapedMatrix R)) :=
  .ok ((projected.entries key).map fun e => (e.1, key, e.2))

theorem keepEntries_eq_mapPost :
    keepEntries (R := R) = mapPost (fun _ tagged => tagged.2) tagEntries := by
  funext key projected
  show _ = Except.ok (mapWrites _ _)
  unfold mapWrites
  rw [List.map_map]
  exact congrArg Except.ok (List.map_id _).symm

theorem tagEntries_keys (key : String) (projected : Projected R)
    (writes : List (String × String × ShapedMatrix R)) (h : tagEntries key projected = .ok writes) :
    writes.map Prod.fst = (projected.entries key).map Prod.fst := by
  cases h
  rw [List.map_map]
  rfl

variable [Field S] [LinearOrder S] [MulActionWithZero S R] {torch : Torch R S}
  {config : PortConfig S} {adapter : Adapter S} {tensor : String → ShapedMatrix R}
  {fault : Option StreamFault} {keys : List String} {st st' : AdapterState R S}
  {written returned : Dict String (ShapedMatrix R)}

theorem layerWrites_eq_mapPost (halpha : config.alpha ≠ 0) :
    layerWrites config = mapPost (fun k (tagged : String × ShapedMatrix R) =>
      alphaScaled config tagged.1 k tagged.2) tagEntries := by
  funext key projected
  rw [layerWrites_of_not_divides fun hdivides => halpha hdivides.2]
  show _ = Except.ok (mapWrites _ _)
  unfold mapWrites
  rw [List.map_map]
  rfl

theorem exists_streaming {α : Type}
    {post : String → Projected R → Except PyError (List (String × α))} {written : Dict String α}
    (hrun : portRun torch config adapter post tensor fault keys st = .ok written st') :
    ∃ streamed st₁, streaming torch config adapter post tensor fault keys st =
      .ok streamed st₁ := by
  unfold portRun portWrites at hrun
  obtain ⟨writes, hwrites, -⟩ := Effect.run_map_eq_ok.mp hrun
  obtain ⟨streamed, st₁, hstream, -⟩ := Effect.run_bind_eq_ok.mp hwrites
  exact ⟨streamed, st₁, hstream⟩

/-- The final map is what the adapter returned, each tensor scaled by the alpha
of its key. -/
theorem written_eq (hnodup : keys.Nodup)
    (hbases : DistinctBases adapter (includedKeys config keys)) (halpha : config.alpha ≠ 0)
    (hrun : portRun torch config adapter (layerWrites config) tensor fault keys .init =
      .ok written st)
    (hreturned : portRun torch config adapter keepEntries tensor fault keys .init =
      .ok returned st') (k : String) :
    written.get? k = (returned.get? k).map (alphaScaled config k k) := by
  rw [layerWrites_eq_mapPost halpha] at hrun
  rw [keepEntries_eq_mapPost] at hreturned
  obtain ⟨tagged, htagged, hwritten⟩ := portRun_map hrun
  obtain ⟨tagged', htagged', hkept⟩ := portRun_map hreturned
  rw [htagged] at htagged'
  cases htagged'
  rw [hwritten, hkept, Option.map_map]
  rcases hget : tagged.get? k with _ | ⟨key, t⟩
  · rfl
  · obtain ⟨streamed, st₁, hstream⟩ := exists_streaming htagged
    obtain ⟨-, key', projected, writes, hprojected, hwrites, hin⟩ :=
      portRun_projectedAs hnodup hbases tagEntries_keys hstream htagged hget
    cases hwrites
    obtain ⟨e, -, heq⟩ := List.mem_map.mp hin
    obtain rfl : key' = key := congrArg (fun x => x.2.1) heq
    have hsame : replacedAlpha config key' = replacedAlpha config k := by
      rcases hprojected with ⟨-, rfl, -⟩ | ⟨-, hk, hkey, hbase, -⟩
      · rfl
      · exact replacedAlpha_of_baseKey config hkey hk hbase
    simp only [Option.map_some, Function.comp_apply]
    unfold alphaScaled
    rw [hsame]

end Returned

/-! ### The two readings of the map -/

section Readings

variable {base : String} {m : StandardModule} {half : LoraHalf}

theorem currentModule_of_names (h : NamesModule base m) (half : LoraHalf) :
    currentModule (loraKey base half) = some m.name := by
  have hname : ∀ m' : StandardModule, inKey m'.name base = decide (m' = m) := by
    intro m'
    rw [Bool.eq_iff_iff, h.names_iff, decide_eq_true_iff]
  have hq := hname .q
  have hk := hname .k
  have hv := hname .v
  have ho := hname .o
  have hgate := hname .gate
  have hup := hname .up
  have hdown := hname .down
  simp only [StandardModule.name] at hq hk hv ho hgate hup hdown
  rw [currentModule_loraKey]
  unfold standardModules
  simp only [List.find?_cons, List.find?_nil, hq, hk, hv, ho, hgate, hup, hdown]
  cases m <;> rfl

variable {R S : Type} [CommRing R] [Field S] [LinearOrder S] {config : PortConfig S}
  {items : List (AlphaItem S)} {idx : ℕ}

/-- The filter reads the entry of the module, and no entry of the layer. -/
theorem shouldIncludeKey_loraKey (hmap : config.moduleAlphaMap = storeAll items)
    (hinclude : config.includeModules = none) (h : NamesModule base m) (half : LoraHalf) :
    shouldIncludeKey config (loraKey base half) = true ↔
      ¬∃ alpha, moduleEntry items m.name = some alpha ∧ alpha ≤ 0 := by
  have hlora : inKey "lora_" (loraKey base half) = true := by
    refine inKey_of_inKey_suffix ?_
    cases half <;> decide
  unfold shouldIncludeKey
  rw [hlora, hinclude, currentModule_of_names h, hmap, Option.bind_some, get?_storeAll_module]
  rcases moduleEntry items m.name with _ | alpha
  · simp [excludedByModules]
  · simp [excludedByModules]

variable [MulActionWithZero S R]

/-- Scaling follows the effective alpha. -/
theorem alphaScaled_loraKey (hmap : config.moduleAlphaMap = storeAll items)
    (halpha : config.alpha ≠ 0) (h : NamesModule base m)
    (hlayer : alphaLayer (loraKey base half) = some idx) (t : ShapedMatrix R) :
    alphaScaled config (loraKey base half) (loraKey base half) t =
      if half = .b then
        t.scale (effectiveAlpha items config.alpha m.name idx / config.alpha)
      else t := by
  have heffective := targetAlpha_storeAll items config.alpha m.name idx
  have hB : inKey "lora_B" (loraKey base half) = decide (half = .b) := inKey_loraB h.plain half
  unfold alphaScaled replacedAlpha
  rw [currentModule_of_names h, hlayer, hmap, Option.bind_some, ← heffective]
  rcases targetAlpha (storeAll items) m.name (some idx) with _ | target
  · show t = _
    rw [Option.getD_none, div_self halpha, ShapedMatrix.scale_one, ite_self]
  · rw [Option.getD_some]
    by_cases hsame : target = config.alpha
    · rw [Option.filter_some_neg (by simpa using hsame), hsame, div_self halpha,
        ShapedMatrix.scale_one, ite_self]
    · rw [Option.filter_some_pos (by simpa using hsame)]
      simp only [hB, decide_eq_true_eq]

end Readings

/-! ### The law -/

section Law

variable {R S : Type} [CommRing R]

/-- The update of a pair is zero. -/
def NoUpdate (a b : ShapedMatrix R) : Prop := ∀ i j, (b.mul a).entry i j = 0

variable [Field S] [Algebra S R]

theorem noUpdate_scale {c : S} (hc : c ≠ 0) (a b : ShapedMatrix R) :
    NoUpdate a (b.scale c) ↔ NoUpdate a b := by
  have hscale : (b.scale c).mul a = (b.mul a).scale c := by
    have h := ShapedMatrix.scale_mul_scale c (1 : S) b a
    rw [ShapedMatrix.scale_one, mul_one] at h
    exact h
  unfold NoUpdate
  rw [hscale]
  refine forall_congr' fun i => forall_congr' fun j => ?_
  rw [ShapedMatrix.entry_scale]
  constructor
  · intro h
    have hinv : c⁻¹ • c • (b.mul a).entry i j = 0 := by rw [h, smul_zero]
    rwa [inv_smul_smul₀ hc] at hinv
  · intro h
    rw [h, smul_zero]

theorem noUpdate_scale_zero (a b : ShapedMatrix R) : NoUpdate a (b.scale (0 : S)) := by
  intro i j
  rw [ShapedMatrix.entry_mul]
  refine Finset.sum_eq_zero fun k _ => ?_
  rw [ShapedMatrix.entry_scale, zero_smul, zero_mul]

variable [LinearOrder S]

/-- With a positive effective alpha, a pair is handed to the adapter and written as
it is returned, the second tensor times the alpha over the global one; with
any other, no update is written. -/
def AlphaLaw (config : PortConfig S) (keys : List String)
    (returned written : Dict String (ShapedMatrix R)) (base : String) (effective : S) : Prop :=
  (0 < effective → ∀ half, loraKey base half ∈ includedKeys config keys ∧
    written.get? (loraKey base half) = (returned.get? (loraKey base half)).map fun t =>
      if half = .b then t.scale (effective / config.alpha) else t) ∧
  (effective ≤ 0 → ∀ a b, written.get? (loraKey base .a) = some a →
    written.get? (loraKey base .b) = some b → NoUpdate a b)

variable {torch : Torch R S} {config : PortConfig S} {adapter : Adapter S}
  {tensor : String → ShapedMatrix R} {fault : Option StreamFault} {keys : List String}
  {st st' : AdapterState R S} {written returned : Dict String (ShapedMatrix R)}
  {raw : String} {items : List (AlphaItem S)} {base : String} {m : StandardModule} {idx : ℕ}

/-- A pair is written as it is returned, the second tensor scaled. -/
theorem written_loraKey (hmap : config.moduleAlphaMap = storeAll items) (hne : config.alpha ≠ 0)
    (hnodup : keys.Nodup) (hbases : DistinctBases adapter (includedKeys config keys))
    (hrun : portRun torch config adapter (layerWrites config) tensor fault keys .init =
      .ok written st)
    (hreturned : portRun torch config adapter keepEntries tensor fault keys .init =
      .ok returned st')
    (hbase : NamesModule base m) (hlayer : alphaLayer (loraKey base .a) = some idx)
    (half : LoraHalf) :
    written.get? (loraKey base half) = (returned.get? (loraKey base half)).map fun t =>
      if half = .b then
        t.scale (effectiveAlpha items config.alpha m.name idx / config.alpha)
      else t := by
  have hhalf : alphaLayer (loraKey base half) = some idx := by
    rw [alphaLayer_loraKey base half .a]
    exact hlayer
  rw [written_eq hnodup hbases hne hrun hreturned]
  refine congrArg (fun f => Option.map f (returned.get? (loraKey base half))) ?_
  funext t
  exact alphaScaled_loraKey hmap hne hbase hhalf t

/-- A pair is handed to the adapter unless the entry of its module suppresses it. -/
theorem loraKey_mem_includedKeys (hmap : config.moduleAlphaMap = storeAll items)
    (hinclude : config.includeModules = none) (hbase : NamesModule base m) {half : LoraHalf}
    (hkey : loraKey base half ∈ keys) :
    loraKey base half ∈ includedKeys config keys ↔
      ¬∃ alpha, moduleEntry items m.name = some alpha ∧ alpha ≤ 0 := by
  rw [← shouldIncludeKey_loraKey hmap hinclude hbase half]
  unfold includedKeys
  rw [List.mem_filter]
  exact and_iff_right hkey

/-- What is not handed to the adapter is not written. -/
theorem written_of_not_included (hnodup : keys.Nodup)
    (hbases : DistinctBases adapter (includedKeys config keys))
    (hrun : portRun torch config adapter (layerWrites config) tensor fault keys .init =
      .ok written st) {key : String} (hkey : key ∉ includedKeys config keys) :
    written.get? key = none := by
  rcases hget : written.get? key with _ | t
  · rfl
  · obtain ⟨streamed, st₁, hstream⟩ := exists_streaming hrun
    exact absurd (portRun_projectedAs hnodup hbases layerWrites_keys hstream hrun hget).1 hkey

/-- The law holds for a pair exactly when the entry of the module does not
suppress a layer with a positive alpha, and no layer with a negative alpha is
written with an update. -/
theorem alphaLaw_iff (hitems : readItems raw = .ok items)
    (hmap : config.moduleAlphaMap = moduleAlphaMap (some raw)) (halpha : 0 < config.alpha)
    (hinclude : config.includeModules = none) (hnodup : keys.Nodup)
    (hbases : DistinctBases adapter (includedKeys config keys))
    (hrun : portRun torch config adapter (layerWrites config) tensor fault keys .init =
      .ok written st)
    (hreturned : portRun torch config adapter keepEntries tensor fault keys .init =
      .ok returned st')
    (hbase : NamesModule base m) (hlayer : alphaLayer (loraKey base .a) = some idx)
    (hkeys : ∀ half, loraKey base half ∈ keys) :
    AlphaLaw config keys returned written base
        (effectiveAlpha items config.alpha m.name idx) ↔
      ((∃ alpha, moduleEntry items m.name = some alpha ∧ alpha ≤ 0) →
        effectiveAlpha items config.alpha m.name idx ≤ 0) ∧
      (effectiveAlpha items config.alpha m.name idx < 0 →
        (∃ alpha, moduleEntry items m.name = some alpha ∧ alpha ≤ 0) ∨
        ∀ a b, returned.get? (loraKey base .a) = some a →
          returned.get? (loraKey base .b) = some b → NoUpdate a b) := by
  rw [moduleAlphaMap_of_items hitems] at hmap
  have hne : config.alpha ≠ 0 := ne_of_gt halpha
  have hscaled := written_loraKey hmap hne hnodup hbases hrun hreturned hbase hlayer
  have hhanded : ∀ half, loraKey base half ∈ includedKeys config keys ↔
      ¬∃ alpha, moduleEntry items m.name = some alpha ∧ alpha ≤ 0 :=
    fun half => loraKey_mem_includedKeys hmap hinclude hbase (hkeys half)
  have hlost : (∃ alpha, moduleEntry items m.name = some alpha ∧ alpha ≤ 0) →
      ∀ half, written.get? (loraKey base half) = none := fun hmodule half =>
    written_of_not_included hnodup hbases hrun fun hin => (hhanded half).mp hin hmodule
  constructor
  · rintro ⟨hpositive, hnone⟩
    refine ⟨fun hmodule => ?_, fun hnegative => ?_⟩
    · by_contra hlarge
      have hin := (hpositive (not_le.mp hlarge) .a).1
      exact (hhanded .a).mp hin hmodule
    · refine .inr fun a b ha hb => ?_
      have ha' := hscaled .a
      have hb' := hscaled .b
      rw [ha, Option.map_some, if_neg (by decide)] at ha'
      rw [hb, Option.map_some, if_pos rfl] at hb'
      have hzero := hnone (le_of_lt hnegative) _ _ ha' hb'
      exact (noUpdate_scale (div_ne_zero (ne_of_lt hnegative) hne) a b).mp hzero
  · rintro ⟨hmodule, hnegative⟩
    refine ⟨fun hpositive half => ⟨?_, hscaled half⟩, fun hsmall a' b' ha' hb' => ?_⟩
    · refine (hhanded half).mpr fun hsuppressed => ?_
      exact absurd (hmodule hsuppressed) (not_le.mpr hpositive)
    · rw [hscaled] at ha' hb'
      obtain ⟨a, ha, rfl⟩ := Option.map_eq_some_iff.mp ha'
      obtain ⟨b, hb, rfl⟩ := Option.map_eq_some_iff.mp hb'
      rw [if_neg (by decide), if_pos rfl]
      rcases eq_or_lt_of_le hsmall with hzero | hbelow
      · rw [hzero, zero_div]
        exact noUpdate_scale_zero a b
      · rcases hnegative hbelow with hsuppressed | hproduct
        · have hnot := hlost hsuppressed .a
          rw [hscaled, ha] at hnot
          cases hnot
        · exact (noUpdate_scale (div_ne_zero (ne_of_lt hbelow) hne) a b).mpr (hproduct a b ha hb)

end Law

/-! ### A layer that its module suppresses -/

def upKeys : List String :=
  [loraKey "layers.0.mlp.up_proj" .a, loraKey "layers.0.mlp.up_proj" .b]

/-- The global alpha sixteen, with module alphas. -/
def alphaConfig (raw : String) : PortConfig ℚ := ⟨16, moduleAlphaMap (some raw), none⟩

theorem alphaConfig_returns (raw : String) {α : Type}
    (post : String → Projected ℚ → Except PyError (List (String × α)))
    (h : (Effect.returned (portRun sampleTorch (alphaConfig raw) (sampleAdapter "linear" none) post
      upTensor none upKeys) .init).isSome = true) :
    ∃ written st, portRun sampleTorch (alphaConfig raw) (sampleAdapter "linear" none) post
      upTensor none upKeys .init = .ok written st := by
  obtain ⟨written, hwritten⟩ := Option.isSome_iff_exists.mp h
  obtain ⟨st, hrun⟩ := Effect.returned_eq_some.mp hwritten
  exact ⟨written, st, hrun⟩

/-- The entry of the layer is positive, but the filter drops its pair for the entry
of the module. -/
theorem layer_suppressed : ∃ items returned written st st',
    readItems "up_proj=0,up_proj.0=4" = .ok items ∧
    portRun sampleTorch (alphaConfig "up_proj=0,up_proj.0=4") (sampleAdapter "linear" none)
      (layerWrites (alphaConfig "up_proj=0,up_proj.0=4")) upTensor none upKeys .init =
        .ok written st ∧
    portRun sampleTorch (alphaConfig "up_proj=0,up_proj.0=4") (sampleAdapter "linear" none)
      keepEntries upTensor none upKeys .init = .ok returned st' ∧
    ¬AlphaLaw (alphaConfig "up_proj=0,up_proj.0=4") upKeys returned written
      "layers.0.mlp.up_proj" (effectiveAlpha items 16 "up_proj" 0) := by
  have hitems : readItems "up_proj=0,up_proj.0=4" =
      .ok [.module "up_proj" (0 : ℚ), .layer "up_proj" 0 4] := by
    decide +kernel
  obtain ⟨written, st, hrun⟩ := alphaConfig_returns "up_proj=0,up_proj.0=4"
    (layerWrites (alphaConfig "up_proj=0,up_proj.0=4")) (by decide +kernel)
  obtain ⟨returned, st', hreturned⟩ := alphaConfig_returns "up_proj=0,up_proj.0=4"
    keepEntries (by decide +kernel)
  refine ⟨_, returned, written, st, st', hitems, hrun, hreturned, fun hlaw => ?_⟩
  have hin := (hlaw.1 (by decide +kernel) .a).1
  revert hin
  decide +kernel

/-- A range of layers inside a module with an alpha of its own. -/
theorem layer_range_agrees : ∃ items, ∃ returned written : Dict String (ShapedMatrix ℚ),
    readItems "up_proj=8,up_proj.0-3=4" = .ok items ∧
    AlphaLaw (alphaConfig "up_proj=8,up_proj.0-3=4") upKeys returned written
      "layers.0.mlp.up_proj" (effectiveAlpha items 16 "up_proj" 0) := by
  have hitems : readItems "up_proj=8,up_proj.0-3=4" =
      .ok [.module "up_proj" (8 : ℚ), .range "up_proj" 0 3 4] := by
    decide +kernel
  have heffective : effectiveAlpha [.module "up_proj" (8 : ℚ), .range "up_proj" 0 3 4] 16
      "up_proj" 0 = 4 := by
    decide +kernel
  obtain ⟨written, st, hrun⟩ := alphaConfig_returns "up_proj=8,up_proj.0-3=4"
    (layerWrites (alphaConfig "up_proj=8,up_proj.0-3=4")) (by decide +kernel)
  obtain ⟨returned, st', hreturned⟩ := alphaConfig_returns "up_proj=8,up_proj.0-3=4"
    keepEntries (by decide +kernel)
  have hlayer : alphaLayer (loraKey "layers.0.mlp.up_proj" .a) = some 0 := by decide
  refine ⟨_, returned, written, hitems, (alphaLaw_iff hitems rfl (by decide +kernel) rfl
    (by decide) ?_ hrun hreturned namesModule_up hlayer ?_).mpr ⟨?_, ?_⟩⟩
  · intro key _ key' _ heligible
    have hmode : ((sampleAdapter "linear" none).projectionMode == "piecewise") = false := by
      decide
    unfold piecewiseEligible at heligible
    rw [hmode] at heligible
    cases heligible
  · intro half
    cases half <;> decide
  · rintro ⟨alpha, hentry, hle⟩
    have hmodule : moduleEntry [.module "up_proj" (8 : ℚ), .range "up_proj" 0 3 4] "up_proj" =
        some 8 := by
      decide +kernel
    rw [show StandardModule.name .up = "up_proj" from rfl, hmodule] at hentry
    cases hentry
    exact absurd hle (by decide +kernel)
  · intro hnegative
    rw [show effectiveAlpha [.module "up_proj" (8 : ℚ), .range "up_proj" 0 3 4]
      (alphaConfig "up_proj=8,up_proj.0-3=4").alpha (StandardModule.name .up) ((0 : ℕ) : ℤ) = 4
      from heffective] at hnegative
    exact absurd hnegative (by decide +kernel)
