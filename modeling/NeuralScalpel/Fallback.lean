/-
The load-all fallback after a failed streaming loop.

The fallback handles all layers again with the adapter as the failed loop left
it: the pairs it counted, and the tensors it holds.

* `layerWrites_tensor`, `layerWrites_dict` — what is written for a projection;
* `port_cases` — what a loop writes for a key;
* `Holds.restart` — the tensors left in the buffer do no harm;
* `fallbackAgrees_iff` — exactly when the fallback leaves the map that a clean
  run leaves.
-/
import NeuralScalpel.PortLora

/-! ### Scaling by module alphas -/

theorem currentModule_loraKey (base : String) (half : LoraHalf) :
    currentModule (loraKey base half) = standardModules.find? fun m => inKey m base := by
  unfold currentModule
  have hname : ∀ m ∈ standardModules, inKey m (loraKey base half) = inKey m base := by
    intro m hm
    refine inKey_loraKey ?_ ?_
    · revert m
      decide
    · revert m
      cases half <;> decide
  revert hname
  generalize standardModules = modules
  intro hname
  induction modules with
  | nil => rfl
  | cons m ms ih =>
    rw [List.find?_cons, List.find?_cons, hname m List.mem_cons_self,
      ih fun m' hm' => hname m' (List.mem_cons_of_mem m hm')]

theorem alphaLayer_loraKey (base : String) (half half' : LoraHalf) :
    alphaLayer (loraKey base half) = alphaLayer (loraKey base half') := by
  refine searchLayer_loraKey (by decide) (fun half => ?_) base half half'
  cases half
  · decide
  · decide

section LayerWrites

variable {R S : Type} [CommRing R] [LinearOrder S]

/-- Both keys of a pair have one alpha. -/
theorem replacedAlpha_loraKey (config : PortConfig S) (base : String) (half half' : LoraHalf) :
    replacedAlpha config (loraKey base half) = replacedAlpha config (loraKey base half') := by
  unfold replacedAlpha
  rw [currentModule_loraKey, currentModule_loraKey, alphaLayer_loraKey base half half']

theorem replacedAlpha_of_baseKey (config : PortConfig S) {key key' : String}
    (hkey : LoraKeyed key) (hkey' : LoraKeyed key') (h : baseKey key = baseKey key') :
    replacedAlpha config key = replacedAlpha config key' := by
  rw [← hkey.2, ← hkey'.2, h]
  exact replacedAlpha_loraKey config (baseKey key') _ _

variable [Field S]

/-- Scaling by the alpha of a key would divide by a global alpha of zero. -/
def DividesByZero (config : PortConfig S) (key : String) : Prop :=
  (replacedAlpha config key).isSome = true ∧ config.alpha = 0

variable [MulActionWithZero S R]

/-- A tensor written under `newKey` when the module of `key` is scaled. -/
def alphaScaled (config : PortConfig S) (key newKey : String) (t : ShapedMatrix R) :
    ShapedMatrix R :=
  match replacedAlpha config key with
  | none => t
  | some target => if inKey "lora_B" newKey then t.scale (target / config.alpha) else t

variable {config : PortConfig S} {key : String}

theorem layerWrites_of_divides (h : DividesByZero config key) {projected : Projected R}
    (hsome : projected ≠ .nothing) :
    layerWrites config key projected =
      .error (.external "ZeroDivisionError: float division by zero") := by
  obtain ⟨target, htarget⟩ := Option.isSome_iff_exists.mp h.1
  unfold layerWrites
  cases projected with
  | nothing => exact absurd rfl hsome
  | tensor t =>
    simp only [applyModuleAlphaScaling, htarget, h.2, if_true]
    rfl
  | dict entries =>
    simp only [applyModuleAlphaScaling, htarget, h.2, if_true]
    rfl

theorem layerWrites_of_not_divides (h : ¬DividesByZero config key) (projected : Projected R) :
    layerWrites config key projected =
      .ok ((projected.entries key).map fun e => (e.1, alphaScaled config key e.1 e.2)) := by
  unfold layerWrites alphaScaled
  rcases hreplaced : replacedAlpha config key with _ | target
  · cases projected with
    | nothing => rfl
    | tensor t =>
      simp only [applyModuleAlphaScaling, hreplaced]
      rfl
    | dict entries =>
      simp only [applyModuleAlphaScaling, hreplaced, Projected.entries]
      rw [List.map_id']
      rfl
  · have halpha : config.alpha ≠ 0 := fun hzero => h ⟨by rw [hreplaced]; rfl, hzero⟩
    cases projected with
    | nothing => rfl
    | tensor t =>
      simp only [applyModuleAlphaScaling, hreplaced, if_neg halpha]
      rfl
    | dict entries =>
      simp only [applyModuleAlphaScaling, hreplaced, if_neg halpha]
      rfl

theorem not_divides_of_layerWrites {projected : Projected R} (hsome : projected ≠ .nothing)
    {written : List (String × ShapedMatrix R)}
    (h : layerWrites config key projected = .ok written) : ¬DividesByZero config key := by
  intro hdivides
  rw [layerWrites_of_divides hdivides hsome] at h
  cases h

theorem layerWrites_eq_ok {projected : Projected R} {written : List (String × ShapedMatrix R)}
    (h : layerWrites config key projected = .ok written) :
    written = (projected.entries key).map fun e => (e.1, alphaScaled config key e.1 e.2) := by
  by_cases hdivides : DividesByZero config key
  · cases projected with
    | nothing =>
      cases h
      rfl
    | tensor t =>
      exact absurd hdivides (not_divides_of_layerWrites (by simp) h)
    | dict entries =>
      exact absurd hdivides (not_divides_of_layerWrites (by simp) h)
  · rw [layerWrites_of_not_divides hdivides] at h
    cases h
    rfl

theorem layerWrites_keys (key : String) (projected : Projected R)
    (written : List (String × ShapedMatrix R))
    (h : layerWrites config key projected = .ok written) :
    written.map Prod.fst = (projected.entries key).map Prod.fst := by
  rw [layerWrites_eq_ok h, List.map_map]
  rfl

end LayerWrites

/-! ### What a loop writes -/

section Writes

variable {R S : Type} [CommRing R] [Field S] [LinearOrder S] [MulActionWithZero S R]
  (torch : Torch R S) (config : PortConfig S) (adapter : Adapter S)
  (tensor : String → ShapedMatrix R)

/-- What is written for a key projected on its own. -/
def ownWrite (key : String) : ShapedMatrix R :=
  alphaScaled config key key (linearTensor adapter key (tensor key))

/-- What is written for a key projected with its partner. -/
def pairWrite (key : String) : ShapedMatrix R :=
  alphaScaled config key key
    (pairTensor torch adapter (baseKey key) (pairOf tensor (baseKey key)) (keyHalf key))

variable {torch config adapter tensor} {start : ℕ} {keys : List String}
  {ws : List (String × ShapedMatrix R)}

theorem mem_pairEntries {base : String} {pair : LoraHalf → ShapedMatrix R}
    {e : String × ShapedMatrix R} (h : e ∈ pairEntries torch adapter base pair) :
    ∃ half, e = (loraKey base half, pairTensor torch adapter base pair half) := by
  rcases List.mem_pair.mp h with rfl | rfl
  · exact ⟨.a, rfl⟩
  · exact ⟨.b, rfl⟩

/-- A loop writes a key from its own projection, or from that of its pair. -/
theorem port_cases (hnodup : keys.Nodup)
    (h : script torch adapter (layerWrites config) start tensor [] keys = .ok ws) {k : String}
    {v : ShapedMatrix R} (hmem : (k, v) ∈ ws) :
    ¬DividesByZero config k ∧
      (((adapterPairing adapter).takesAt start keys.reverse k = false ∧
          v = ownWrite config adapter tensor k) ∨
        ((adapterPairing adapter).takesAt start keys.reverse k = true ∧ LoraKeyed k ∧
          v = pairWrite torch config adapter tensor k)) := by
  obtain ⟨key, projected, written, -, hwritten, hin, hcase⟩ :=
    mem_script_cases hnodup layerWrites_keys h hmem
  rw [layerWrites_eq_ok hwritten] at hin
  obtain ⟨e, he, heq⟩ := List.mem_map.mp hin
  obtain ⟨hk, rfl⟩ := Prod.ext_iff.mp heq
  simp only at hk
  rcases hcase with ⟨rfl, htakes, rfl⟩ | ⟨hlora, hlora', hbase, htakes, rfl⟩
  · refine ⟨not_divides_of_layerWrites (by simp) hwritten, .inl ⟨htakes, ?_⟩⟩
    obtain rfl := List.mem_singleton.mp he
    rfl
  · have halpha := replacedAlpha_of_baseKey config hlora' hlora hbase
    have hnot : ¬DividesByZero config k := by
      unfold DividesByZero
      rw [← halpha]
      exact not_divides_of_layerWrites (by simp) hwritten
    refine ⟨hnot, .inr ⟨htakes, hlora, ?_⟩⟩
    obtain ⟨half, rfl⟩ := mem_pairEntries he
    have hhalf : half = keyHalf k := by
      have hkey := hk.trans hlora.2.symm
      exact (loraKey_inj hkey).2
    subst hhalf
    unfold pairWrite alphaScaled
    rw [halpha, hk]

theorem perm_writes
    (h : script torch adapter (layerWrites config) start tensor [] keys = .ok ws) :
    (ws.map Prod.fst).Perm ((adapterPairing adapter).single start keys.reverse ++
      (adapterPairing adapter).paired start keys.reverse) := by
  have hkeys := script_keys layerWrites_keys h
  rw [List.append_nil] at hkeys
  have hempty : ws.map Prod.fst ++ ((adapterPairing adapter).single start [] ++
      (adapterPairing adapter).paired start []) = ws.map Prod.fst := List.append_nil _
  rw [hempty] at hkeys
  exact hkeys

theorem nodup_writes (hnodup : keys.Nodup)
    (h : script torch adapter (layerWrites config) start tensor [] keys = .ok ws) :
    (ws.map Prod.fst).Nodup := by
  have hperm := (adapterPairing adapter).perm_of_nodup start
    (List.nodup_reverse.mpr hnodup)
  have hall := hperm.nodup_iff.mpr (List.nodup_reverse.mpr hnodup)
  exact (perm_writes h).nodup_iff.mpr (List.nodup_append.mp hall).1

theorem mem_keys_writes (hnodup : keys.Nodup)
    (h : script torch adapter (layerWrites config) start tensor [] keys = .ok ws) {k : String} :
    k ∈ ws.map Prod.fst ↔ k ∈ keys ∧
      ((adapterPairing adapter).takesAt start keys.reverse k = true →
        (adapterPairing adapter).PartnerTakes start keys.reverse k) := by
  have hreverse := List.nodup_reverse.mpr hnodup
  rw [(perm_writes h).mem_iff, List.mem_append, Pairing.mem_single_iff hreverse,
    Pairing.mem_paired_iff hreverse, List.mem_reverse]
  by_cases htakes : (adapterPairing adapter).takesAt start keys.reverse k = true
  · simp [htakes]
  · simp [htakes]

/-- The final map at a key projected on its own. -/
theorem get?_of_alone (hnodup : keys.Nodup)
    (h : script torch adapter (layerWrites config) start tensor [] keys = .ok ws) {k : String}
    (hk : k ∈ keys) (htakes : (adapterPairing adapter).takesAt start keys.reverse k = false) :
    (Dict.ofWrites ws).get? k = some (ownWrite config adapter tensor k) := by
  have hmem : k ∈ ws.map Prod.fst := by
    refine (mem_keys_writes hnodup h).mpr ⟨hk, fun htrue => ?_⟩
    rw [htakes] at htrue
    cases htrue
  obtain ⟨⟨k', v⟩, hv, rfl⟩ := List.mem_map.mp hmem
  rw [Dict.get?_ofWrites (nodup_writes hnodup h)]
  rcases (port_cases hnodup h hv).2 with ⟨-, heq⟩ | ⟨htrue, -⟩
  · rw [← heq]
    exact hv
  · rw [htakes] at htrue
    cases htrue

/-- At a key whose partner is matched too. -/
theorem get?_of_paired (hnodup : keys.Nodup)
    (h : script torch adapter (layerWrites config) start tensor [] keys = .ok ws) {k : String}
    (hk : k ∈ keys) (htakes : (adapterPairing adapter).takesAt start keys.reverse k = true)
    (hpartner : (adapterPairing adapter).PartnerTakes start keys.reverse k) :
    (Dict.ofWrites ws).get? k = some (pairWrite torch config adapter tensor k) := by
  have hmem : k ∈ ws.map Prod.fst := (mem_keys_writes hnodup h).mpr ⟨hk, fun _ => hpartner⟩
  obtain ⟨⟨k', v⟩, hv, rfl⟩ := List.mem_map.mp hmem
  rw [Dict.get?_ofWrites (nodup_writes hnodup h)]
  rcases (port_cases hnodup h hv).2 with ⟨hfalse, -⟩ | ⟨-, -, heq⟩
  · rw [htakes] at hfalse
    cases hfalse
  · rw [← heq]
    exact hv

end Writes

/-! ### The state a failed loop leaves -/

section Restart

variable {R S : Type} [CommRing R] {adapter : Adapter S} {tensor : String → ShapedMatrix R}
  {seen : List String} {st : AdapterState R S}

/-- The pairs a failed loop has counted are the start of the fallback, and the
keys that wait are left over. -/
theorem Holds.restart (h : Holds adapter 0 tensor [] seen st) :
    Holds adapter st.piecewiseCounter tensor ((adapterPairing adapter).waiting 0 seen) [] st where
  counter := .inl rfl
  held_of_waiting _ hkey := absurd hkey List.not_mem_nil
  of_held base half t ht := by
    obtain ⟨key, hbase, hhalf, heq, hmem⟩ := h.of_held base half t ht
    exact ⟨key, hbase, hhalf, heq, .inr (hmem.resolve_right List.not_mem_nil)⟩
  some_held := h.some_held

/-- The counter decides as the number of pairs would. -/
theorem Holds.takes_restart (h : Holds adapter 0 tensor [] seen st) (seen' : List String)
    (key : String) :
    (adapterPairing adapter).takes st.piecewiseCounter seen' key =
      (adapterPairing adapter).takes ((adapterPairing adapter).pairs seen) seen' key := by
  unfold Pairing.takes
  rcases h.counter with heq | ⟨hexh, hle⟩
  · rw [heq, Nat.zero_add]
  · rw [Nat.zero_add] at hle
    have hexhausted : ∀ count, st.piecewiseCounter ≤ count →
        (adapterPairing adapter).exhausted count = true := fun count hcount =>
      (adapterPairing adapter).exhausted_mono hcount hexh
    rw [hexhausted _ (Nat.le_add_right _ _), hexhausted _ (hle.trans (Nat.le_add_right _ _))]

theorem Holds.takesAt_restart (h : Holds adapter 0 tensor [] seen st) (stream : List String)
    (key : String) :
    (adapterPairing adapter).takesAt st.piecewiseCounter stream key =
      (adapterPairing adapter).takesAt ((adapterPairing adapter).pairs seen) stream key :=
  h.takes_restart _ _

end Restart

/-! ### Two passes -/

section Passes

variable {R S : Type} [CommRing R] [Field S] [LinearOrder S] [MulActionWithZero S R]
  (torch : Torch R S) (config : PortConfig S) (adapter : Adapter S)
  (tensor : String → ShapedMatrix R)

/-- A key that waits for its partner in a clean run and is projected on its own
from a higher count does no harm: the partner waits for it too, both ways of
projecting it give the same, and the partner is projected on its own as well,
or was written before. -/
def HarmlessMove (count : ℕ) (before : List (String × ShapedMatrix R)) (keys : List String)
    (key : String) : Prop :=
  (adapterPairing adapter).PartnerTakes 0 keys.reverse key ∧
    ownWrite config adapter tensor key = pairWrite torch config adapter tensor key ∧
    ((adapterPairing adapter).takesAt count keys.reverse (partnerKey key) = false ∨
      partnerKey key ∈ before.map Prod.fst)

variable {torch config adapter tensor} {count : ℕ} {keys : List String}
  {before ws ws' : List (String × ShapedMatrix R)}

variable (count) in
/-- From a higher count a pass still returns, if every key that moves met its
partner in the clean run. -/
theorem exists_script_of_moves (hnodup : keys.Nodup)
    (hclean : script torch adapter (layerWrites config) 0 tensor [] keys = .ok ws)
    (hmoves : ∀ key ∈ keys, (adapterPairing adapter).takesAt 0 keys.reverse key = true →
      (adapterPairing adapter).takesAt count keys.reverse key = false →
      (adapterPairing adapter).PartnerTakes 0 keys.reverse key) :
    ∃ ws', script torch adapter (layerWrites config) count tensor [] keys = .ok ws' := by
  refine exists_script_iff.mpr fun before key after hsplit => ?_
  obtain ⟨written, hstep⟩ := exists_script_iff.mp ⟨ws, hclean⟩ before key after hsplit
  rw [List.append_nil] at hstep ⊢
  have hkey : key ∈ keys := hsplit ▸ List.mem_append_right _ List.mem_cons_self
  have hplace : ∀ start, (adapterPairing adapter).takesAt start keys.reverse key =
      (adapterPairing adapter).takes start before.reverse key := by
    intro start
    unfold Pairing.takesAt
    rw [hsplit, before_reverse (hsplit ▸ hnodup)]
  rcases hb : (adapterPairing adapter).branch count before.reverse key with _ | _ | _
  · -- projected on its own: in the clean run it was, too, or it met its partner
    have hnot : ¬DividesByZero config key := by
      by_cases htakes : (adapterPairing adapter).takesAt 0 keys.reverse key = true
      · have hmoved := hmoves key hkey htakes
          ((hplace count).trans (Pairing.branch_alone_iff.mp hb))
        have hmem := (mem_keys_writes hnodup hclean).mpr ⟨hkey, fun _ => hmoved⟩
        obtain ⟨⟨k, v⟩, hv, rfl⟩ := List.mem_map.mp hmem
        exact (port_cases hnodup hclean hv).1
      · have hmem := (mem_keys_writes hnodup hclean).mpr ⟨hkey, fun h => absurd h htakes⟩
        obtain ⟨⟨k, v⟩, hv, rfl⟩ := List.mem_map.mp hmem
        exact (port_cases hnodup hclean hv).1
    have hout : scriptStep torch adapter (layerWrites config) count tensor before.reverse key =
        layerWrites config key (.tensor (linearTensor adapter key (tensor key))) := by
      unfold scriptStep
      rw [hb]
      rfl
    exact ⟨_, hout.trans (layerWrites_of_not_divides hnot _)⟩
  · refine ⟨[], ?_⟩
    unfold scriptStep
    rw [hb]
    rfl
  · obtain ⟨htakes, hmeet⟩ := Pairing.branch_meets_iff.mp hb
    have hclean' : (adapterPairing adapter).branch 0 before.reverse key = .meets := by
      refine Pairing.branch_meets_iff.mpr ⟨?_, hmeet⟩
      rw [← hplace] at htakes ⊢
      exact Pairing.takesAt_mono (Nat.zero_le count) htakes
    refine ⟨written, ?_⟩
    unfold scriptStep at hstep ⊢
    rw [hb]
    rw [hclean'] at hstep
    exact hstep

/-- What was written before the fault is what the clean run writes. -/
theorem get?_before (hnodup : keys.Nodup)
    (hclean : script torch adapter (layerWrites config) 0 tensor [] keys = .ok ws)
    (hbefore : before <+: ws) {key : String} (hkey : key ∈ before.map Prod.fst) :
    (Dict.ofWrites before).get? key = (Dict.ofWrites ws).get? key := by
  have hws := nodup_writes hnodup hclean
  have hsub := hbefore.sublist
  obtain ⟨⟨k, v⟩, hv, rfl⟩ := List.mem_map.mp hkey
  rw [(Dict.get?_ofWrites (hws.sublist (hsub.map Prod.fst))).mpr hv,
    (Dict.get?_ofWrites hws).mpr (hsub.subset hv)]

theorem get?_of_not_included {start : ℕ}
    (h : script torch adapter (layerWrites config) start tensor [] keys = .ok ws)
    (hnodup : keys.Nodup) {key : String} (hkey : key ∉ keys) :
    (Dict.ofWrites ws).get? key = none :=
  Dict.get?_ofWrites_of_not_mem fun hin => hkey ((mem_keys_writes hnodup h).mp hin).1

/-- What a second pass that ends in the map of the clean run does to a key that
moves. -/
theorem harmlessMove_of_same (hnodup : keys.Nodup)
    (hclean : script torch adapter (layerWrites config) 0 tensor [] keys = .ok ws)
    (hws' : script torch adapter (layerWrites config) count tensor [] keys = .ok ws')
    (hsame : ∀ key, (Dict.ofWrites (before ++ ws')).get? key = (Dict.ofWrites ws).get? key)
    {key : String} (hkey : key ∈ keys)
    (htakes : (adapterPairing adapter).takesAt 0 keys.reverse key = true)
    (hmoved : (adapterPairing adapter).takesAt count keys.reverse key = false) :
    HarmlessMove torch config adapter tensor count before keys key := by
  have hfinal := hsame key
  rw [Dict.get?_ofWrites_append, get?_of_alone hnodup hws' hkey hmoved, Option.some_or] at hfinal
  have hpartner : (adapterPairing adapter).PartnerTakes 0 keys.reverse key := by
    by_contra hnot
    have hwaiting : key ∉ ws.map Prod.fst := fun hmem =>
      hnot (((mem_keys_writes hnodup hclean).mp hmem).2 htakes)
    rw [Dict.get?_ofWrites_of_not_mem hwaiting] at hfinal
    cases hfinal
  rw [get?_of_paired hnodup hclean hkey htakes hpartner, Option.some_inj] at hfinal
  refine ⟨hpartner, hfinal, ?_⟩
  by_contra hneither
  obtain ⟨hstays, hunwritten⟩ := not_or.mp hneither
  -- the partner waits in vain in the second pass, and is missing
  obtain ⟨hmatch, hmem, hptakes⟩ := hpartner
  have hlora := loraKeyed_of_matchable hmatch
  have hother : partnerKey key ∈ keys := List.mem_reverse.mp hmem
  have hback : (adapterPairing adapter).partner (partnerKey key) = key := hlora.partner_partner
  have hlost : partnerKey key ∉ ws'.map Prod.fst := by
    intro hin
    have hmeets := ((mem_keys_writes hnodup hws').mp hin).2 (Bool.not_eq_false _ |>.mp hstays)
    have hkeyTakes := hmeets.2.2
    rw [hback, hmoved] at hkeyTakes
    cases hkeyTakes
  have hpaired : (adapterPairing adapter).PartnerTakes 0 keys.reverse (partnerKey key) := by
    refine ⟨matchable_of_loraKeyed adapter hlora.partner, ?_, ?_⟩
    · rw [hback, List.mem_reverse]
      exact hkey
    · rw [hback]
      exact htakes
  have hfinal' := hsame (partnerKey key)
  rw [Dict.get?_ofWrites_append, Dict.get?_ofWrites_of_not_mem hlost, Option.none_or,
    Dict.get?_ofWrites_of_not_mem hunwritten,
    get?_of_paired hnodup hclean hother hptakes hpaired] at hfinal'
  cases hfinal'

/-- A key that the second pass projects on its own. -/
theorem get?_second_of_alone (hnodup : keys.Nodup)
    (hclean : script torch adapter (layerWrites config) 0 tensor [] keys = .ok ws)
    (hws' : script torch adapter (layerWrites config) count tensor [] keys = .ok ws')
    {key : String} (hkey : key ∈ keys)
    (hmove : (adapterPairing adapter).takesAt 0 keys.reverse key = true →
      HarmlessMove torch config adapter tensor count before keys key)
    (hcount : (adapterPairing adapter).takesAt count keys.reverse key = false) :
    (Dict.ofWrites (before ++ ws')).get? key = (Dict.ofWrites ws).get? key := by
  rw [Dict.get?_ofWrites_append, get?_of_alone hnodup hws' hkey hcount, Option.some_or]
  rcases htakes : (adapterPairing adapter).takesAt 0 keys.reverse key with _ | _
  · rw [get?_of_alone hnodup hclean hkey htakes]
  · obtain ⟨hpartner, heq, -⟩ := hmove htakes
    rw [get?_of_paired hnodup hclean hkey htakes hpartner, heq]

/-- A key that the second pass projects with its partner. -/
theorem get?_second_of_paired (hnodup : keys.Nodup)
    (hclean : script torch adapter (layerWrites config) 0 tensor [] keys = .ok ws)
    (hws' : script torch adapter (layerWrites config) count tensor [] keys = .ok ws')
    {key : String} (hkey : key ∈ keys)
    (hcount : (adapterPairing adapter).takesAt count keys.reverse key = true)
    (hpartner : (adapterPairing adapter).PartnerTakes count keys.reverse key) :
    (Dict.ofWrites (before ++ ws')).get? key = (Dict.ofWrites ws).get? key := by
  have hmono : ∀ {k}, (adapterPairing adapter).takesAt count keys.reverse k = true →
      (adapterPairing adapter).takesAt 0 keys.reverse k = true :=
    Pairing.takesAt_mono (Nat.zero_le count)
  have hpartner' : (adapterPairing adapter).PartnerTakes 0 keys.reverse key :=
    ⟨hpartner.1, hpartner.2.1, hmono hpartner.2.2⟩
  rw [Dict.get?_ofWrites_append, get?_of_paired hnodup hws' hkey hcount hpartner, Option.some_or,
    get?_of_paired hnodup hclean hkey (hmono hcount) hpartner']

/-- A key that waits in vain in the second pass. -/
theorem get?_second_of_waiting (hnodup : keys.Nodup)
    (hclean : script torch adapter (layerWrites config) 0 tensor [] keys = .ok ws)
    (hws' : script torch adapter (layerWrites config) count tensor [] keys = .ok ws')
    (hbefore : before <+: ws)
    (hmoves : ∀ key ∈ keys, (adapterPairing adapter).takesAt 0 keys.reverse key = true →
      (adapterPairing adapter).takesAt count keys.reverse key = false →
      HarmlessMove torch config adapter tensor count before keys key)
    {key : String} (hcount : (adapterPairing adapter).takesAt count keys.reverse key = true)
    (hpartner : ¬(adapterPairing adapter).PartnerTakes count keys.reverse key) :
    (Dict.ofWrites (before ++ ws')).get? key = (Dict.ofWrites ws).get? key := by
  have hlost : key ∉ ws'.map Prod.fst := fun hin =>
    hpartner (((mem_keys_writes hnodup hws').mp hin).2 hcount)
  rw [Dict.get?_ofWrites_append, Dict.get?_ofWrites_of_not_mem hlost, Option.none_or]
  by_cases hwritten : key ∈ before.map Prod.fst
  · exact get?_before hnodup hclean hbefore hwritten
  · rw [Dict.get?_ofWrites_of_not_mem hwritten]
    symm
    refine Dict.get?_ofWrites_of_not_mem fun hin => ?_
    have htakes := Pairing.takesAt_mono (Nat.zero_le count) hcount
    obtain ⟨hmatch, hmem, hptakes⟩ := ((mem_keys_writes hnodup hclean).mp hin).2 htakes
    have hlora := loraKeyed_of_matchable hmatch
    have hback : partnerKey (partnerKey key) = key := hlora.partner_partner
    -- the partner is the one that moved
    have hpmoved : (adapterPairing adapter).takesAt count keys.reverse (partnerKey key) = false :=
      Bool.eq_false_iff.mpr fun htrue => hpartner ⟨hmatch, hmem, htrue⟩
    obtain ⟨-, -, hcase⟩ := hmoves (partnerKey key) (List.mem_reverse.mp hmem) hptakes hpmoved
    rw [hback] at hcase
    rcases hcase with hfalse | hin'
    · rw [hcount] at hfalse
      cases hfalse
    · exact hwritten hin'

/-- The map after the second pass is that of the clean run exactly when every
move is harmless. -/
theorem same_map_iff (hnodup : keys.Nodup)
    (hclean : script torch adapter (layerWrites config) 0 tensor [] keys = .ok ws)
    (hbefore : before <+: ws) :
    (∃ ws', script torch adapter (layerWrites config) count tensor [] keys = .ok ws' ∧
      ∀ key, (Dict.ofWrites (before ++ ws')).get? key = (Dict.ofWrites ws).get? key) ↔
    ∀ key ∈ keys, (adapterPairing adapter).takesAt 0 keys.reverse key = true →
      (adapterPairing adapter).takesAt count keys.reverse key = false →
      HarmlessMove torch config adapter tensor count before keys key := by
  constructor
  · rintro ⟨ws', hws', hsame⟩ key hkey htakes hmoved
    exact harmlessMove_of_same hnodup hclean hws' hsame hkey htakes hmoved
  · intro hmoves
    obtain ⟨ws', hws'⟩ := exists_script_of_moves count hnodup hclean
      fun key hkey htakes hmoved => (hmoves key hkey htakes hmoved).1
    refine ⟨ws', hws', fun key => ?_⟩
    by_cases hkey : key ∈ keys
    · rcases hcount : (adapterPairing adapter).takesAt count keys.reverse key with _ | _
      · exact get?_second_of_alone hnodup hclean hws' hkey
          (fun htakes => hmoves key hkey htakes hcount) hcount
      · by_cases hpartner : (adapterPairing adapter).PartnerTakes count keys.reverse key
        · exact get?_second_of_paired hnodup hclean hws' hkey hcount hpartner
        · exact get?_second_of_waiting hnodup hclean hws' hbefore hmoves hcount hpartner
    · have hunwritten : key ∉ before.map Prod.fst := fun hin =>
        hkey ((mem_keys_writes hnodup hclean).mp ((hbefore.sublist.map Prod.fst).subset hin)).1
      rw [Dict.get?_ofWrites_append, get?_of_not_included hws' hnodup hkey, Option.none_or,
        Dict.get?_ofWrites_of_not_mem hunwritten, get?_of_not_included hclean hnodup hkey]

end Passes

/-! ### Adapters that project each tensor on its own -/

section Plain

variable {R S : Type} [CommRing R] [Field S] [LinearOrder S] [MulActionWithZero S R]
  (torch : Torch R S) (config : PortConfig S) (adapter : Adapter S)
  (tensor : String → ShapedMatrix R)

/-- What an adapter other than the structural one returns, after a number of
random matrices has been drawn. -/
def plainTensor (draw : ℕ) (t : ShapedMatrix R) : ShapedMatrix R :=
  match adapter.kind with
  | .sdxlToFlux => pcaGuidedSubspaceInjection torch t (torch.randn draw 1 3072)
  | .llama3ToQwen2 | .sdxlToSdxl | .base => t

/-- The random matrices an adapter draws for each layer. -/
def drawsPerLayer : ℕ :=
  match adapter.kind with
  | .sdxlToFlux => 1
  | .llama3ToQwen2 | .sdxlToSdxl | .base => 0

def plainWrite (draw : ℕ) (key : String) : ShapedMatrix R :=
  alphaScaled config key key (plainTensor torch adapter draw (tensor key))

/-- What a loop writes, from a number of draws on. -/
def plainWrites : ℕ → List String → List (String × ShapedMatrix R)
  | _, [] => []
  | draw, key :: keys =>
    (key, plainWrite torch config adapter tensor draw key) ::
      plainWrites (draw + drawsPerLayer adapter) keys

variable {torch config adapter tensor} {keys : List String} {st st' : AdapterState R S}
  {ws : List (String × ShapedMatrix R)}

variable (torch) in
theorem projectTensor_plain (hkind : adapter.kind ≠ .llama3ToQwen2) (key : String)
    (t : ShapedMatrix R) (st : AdapterState R S) :
    ∃ st', projectTensor torch adapter key t st =
      .ok (.tensor (plainTensor torch adapter st.draws t)) st' ∧
        st'.draws = st.draws + drawsPerLayer adapter := by
  unfold projectTensor plainTensor drawsPerLayer
  rcases hk : adapter.kind with _ | _ | _ | _
  · exact absurd hk hkind
  · exact ⟨{ st with draws := st.draws + 1 }, rfl, rfl⟩
  · exact ⟨st, rfl, rfl⟩
  · exact ⟨st, rfl, rfl⟩

theorem layerWrites_tensor {key : String} (h : ¬DividesByZero config key) (t : ShapedMatrix R) :
    layerWrites config key (.tensor t) = .ok [(key, alphaScaled config key key t)] :=
  layerWrites_of_not_divides h (.tensor t)

variable (torch tensor) in
theorem projectAll_plain (hkind : adapter.kind ≠ .llama3ToQwen2) :
    ∀ {keys : List String} (st : AdapterState R S),
      (∀ key ∈ keys, ¬DividesByZero config key) →
      ∃ st', projectAll (projectTensor torch adapter) (layerWrites config) tensor keys st =
          .ok (plainWrites torch config adapter tensor st.draws keys) st' ∧
        st'.draws = st.draws + keys.length * drawsPerLayer adapter := by
  intro keys
  induction keys with
  | nil =>
    intro st _
    exact ⟨st, rfl, by rw [List.length_nil, Nat.zero_mul, Nat.add_zero]⟩
  | cons key keys ih =>
    intro st h
    obtain ⟨st₁, hrun, hdraws⟩ := projectTensor_plain torch hkind key (tensor key) st
    obtain ⟨st₂, hrest, hdraws'⟩ := ih st₁ fun k hk => h k (List.mem_cons_of_mem key hk)
    refine ⟨st₂, ?_, ?_⟩
    · have hwrites := layerWrites_tensor (h key List.mem_cons_self)
        (plainTensor torch adapter st.draws (tensor key))
      refine projectAll_cons_eq_ok.mpr ⟨_, st₁, _, _, hrun, hwrites, hrest, ?_⟩
      rw [hdraws]
      rfl
    · rw [hdraws', hdraws, List.length_cons, Nat.add_mul, Nat.one_mul]
      omega

theorem not_divides_of_projectAll (hkind : adapter.kind ≠ .llama3ToQwen2) :
    ∀ {keys : List String} {st : AdapterState R S} {ws : List (String × ShapedMatrix R)},
      projectAll (projectTensor torch adapter) (layerWrites config) tensor keys st = .ok ws st' →
      ∀ key ∈ keys, ¬DividesByZero config key := by
  intro keys
  induction keys with
  | nil => exact fun _ key hkey => absurd hkey List.not_mem_nil
  | cons first keys ih =>
    intro st ws h
    obtain ⟨st₁, hrun, -⟩ := projectTensor_plain torch hkind first (tensor first) st
    obtain ⟨projected, st₂, writes, rest, hproject, hwrites, hrest, -⟩ :=
      projectAll_cons_eq_ok.mp h
    rw [hrun] at hproject
    cases hproject
    intro key hkey
    rcases List.mem_cons.mp hkey with rfl | hkey
    · intro hdivides
      rw [layerWrites_of_divides hdivides (by simp)] at hwrites
      cases hwrites
    · exact ih hrest key hkey

theorem keys_plainWrites : ∀ {keys : List String} {draw : ℕ},
    (plainWrites torch config adapter tensor draw keys).map Prod.fst = keys := by
  intro keys
  induction keys with
  | nil => exact rfl
  | cons key keys ih =>
    intro draw
    rw [plainWrites, List.map_cons, ih]

theorem mem_plainWrites : ∀ {keys : List String} (draw i : ℕ) {key : String},
    keys[i]? = some key →
    (key, plainWrite torch config adapter tensor (draw + i * drawsPerLayer adapter) key) ∈
      plainWrites torch config adapter tensor draw keys := by
  intro keys
  induction keys with
  | nil =>
    intro draw i key h
    cases h
  | cons first keys ih =>
    intro draw i key h
    rcases i with _ | i
    · cases h
      rw [Nat.zero_mul, Nat.add_zero]
      exact List.mem_cons_self
    · have hrest := ih (draw + drawsPerLayer adapter) i h
      have hdraw : draw + drawsPerLayer adapter + i * drawsPerLayer adapter =
          draw + (i + 1) * drawsPerLayer adapter := by
        rw [Nat.add_mul, Nat.one_mul]
        omega
      rw [hdraw] at hrest
      exact List.mem_cons_of_mem _ hrest

/-- A second pass leaves the map of the first exactly when every layer is
written alike from the later draws. -/
theorem same_plain_map_iff (hnodup : keys.Nodup) {draw : ℕ}
    {before : List (String × ShapedMatrix R)} (hbefore : ∀ k ∈ before.map Prod.fst, k ∈ keys) :
    (∀ key, (Dict.ofWrites (before ++
        plainWrites torch config adapter tensor draw keys)).get? key =
      (Dict.ofWrites (plainWrites torch config adapter tensor 0 keys)).get? key) ↔
    ∀ i key, keys[i]? = some key →
      plainWrite torch config adapter tensor (draw + i * drawsPerLayer adapter) key =
        plainWrite torch config adapter tensor (i * drawsPerLayer adapter) key := by
  have hget : ∀ {draw i : ℕ} {key : String}, keys[i]? = some key →
      (Dict.ofWrites (plainWrites torch config adapter tensor draw keys)).get? key =
        some (plainWrite torch config adapter tensor (draw + i * drawsPerLayer adapter) key) := by
    intro draw i key h
    refine (Dict.get?_ofWrites ?_).mpr (mem_plainWrites _ _ h)
    rw [keys_plainWrites]
    exact hnodup
  constructor
  · intro h i key hkey
    have hsame := h key
    rw [Dict.get?_ofWrites_append, hget hkey, Option.some_or, hget hkey, Nat.zero_add,
      Option.some_inj] at hsame
    exact hsame
  · intro h key
    rw [Dict.get?_ofWrites_append]
    by_cases hkey : key ∈ keys
    · obtain ⟨i, hi⟩ := List.mem_iff_getElem?.mp hkey
      rw [hget hi, Option.some_or, hget hi, Nat.zero_add, h i key hi]
    · have hnot : ∀ draw, key ∉ (plainWrites torch config adapter tensor draw keys).map
          Prod.fst := by
        intro draw
        rw [keys_plainWrites]
        exact hkey
      rw [Dict.get?_ofWrites_of_not_mem (hnot draw), Option.none_or,
        Dict.get?_ofWrites_of_not_mem (hnot 0),
        Dict.get?_ofWrites_of_not_mem fun hin => hkey (hbefore key hin)]

end Plain

/-! ### The fallback -/

section Fallback

variable {R S : Type} [CommRing R] [Field S] [LinearOrder S] [MulActionWithZero S R]

def includedKeys (config : PortConfig S) (keys : List String) : List String :=
  keys.filter (shouldIncludeKey config)

variable (torch : Torch R S) (config : PortConfig S) (adapter : Adapter S)
  (tensor : String → ShapedMatrix R) (fault : StreamFault) (keys : List String)

/-- The fallback returns and leaves the map the writes `ws` of a clean run
leave. -/
def FallbackAgrees (ws : List (String × ShapedMatrix R)) : Prop :=
  ∃ written st, portFallback torch config adapter tensor fault keys .init = .ok written st ∧
    ∀ key, written.get? key = (Dict.ofWrites ws).get? key

/-- The pairs of eligible keys that were complete before the fault. -/
def pairsBeforeFault : ℕ :=
  (adapterPairing adapter).pairs (includedKeys config (fault.projected keys)).reverse

/-- No layer is written otherwise because streaming failed: for the structural
adapter, no key moves from the piecewise to the linear branch because of the
pairs complete before the fault, or the move does no harm; for random injection,
the later random matrices give the same. -/
def FailureHarmless (before : List (String × ShapedMatrix R)) : Prop :=
  match adapter.kind with
  | .llama3ToQwen2 => ∀ key ∈ includedKeys config keys,
      (adapterPairing adapter).takesAt 0 (includedKeys config keys).reverse key = true →
      (adapterPairing adapter).takesAt (pairsBeforeFault config adapter fault keys)
        (includedKeys config keys).reverse key = false →
      HarmlessMove torch config adapter tensor (pairsBeforeFault config adapter fault keys)
        before (includedKeys config keys) key
  | .sdxlToFlux => ∀ i key, (includedKeys config keys)[i]? = some key →
      plainWrite torch config adapter tensor
          ((includedKeys config (fault.projected keys)).length + i) key =
        plainWrite torch config adapter tensor i key
  | .sdxlToSdxl | .base => True

variable {torch config adapter tensor fault keys} {before ws : List (String × ShapedMatrix R)}
  {st st₁ : AdapterState R S}

/-- After a run up to the fault, the fallback is a second loop. -/
theorem fallbackAgrees_iff_second
    (hstream : streamUntil torch config adapter tensor fault keys .init = .ok before st₁) :
    FallbackAgrees torch config adapter tensor fault keys ws ↔
      ∃ ws' st', portLayers torch config adapter tensor keys st₁ = .ok ws' st' ∧
        ∀ key, (Dict.ofWrites (before ++ ws')).get? key = (Dict.ofWrites ws).get? key := by
  have hrun : portFallback torch config adapter tensor fault keys .init =
      (do
        let writes ← portLayers torch config adapter tensor keys
        pure (.ofWrites (before ++ writes)) : AdapterM R S _) st₁ :=
    Effect.run_bind_of_ok hstream
  unfold FallbackAgrees
  rw [hrun]
  constructor
  · rintro ⟨written, st', hwritten, h⟩
    obtain ⟨ws', st₂, hsecond, hreturn⟩ := Effect.run_bind_eq_ok.mp hwritten
    cases hreturn
    exact ⟨ws', st', hsecond, h⟩
  · rintro ⟨ws', st', hsecond, h⟩
    exact ⟨_, st', Effect.run_bind_of_ok hsecond, h⟩

theorem projectTensor_structural (hkind : adapter.kind = .llama3ToQwen2) :
    projectTensor torch adapter = projectStructural torch adapter := by
  funext key t
  unfold projectTensor
  rw [hkind]

/-- A structural pass over keys that is not a second one: its script, and what is
held when it returns. -/
theorem portLayers_structural (hkind : adapter.kind = .llama3ToQwen2) (hnodup : keys.Nodup)
    (hbases : DistinctBases adapter (includedKeys config keys).reverse)
    (hclean : portLayers torch config adapter tensor keys .init = .ok ws st) :
    script torch adapter (layerWrites config) 0 tensor [] (includedKeys config keys) = .ok ws ∧
      Holds adapter 0 tensor [] (includedKeys config keys).reverse st := by
  have hincluded : (includedKeys config keys).Nodup := hnodup.filter _
  obtain ⟨_, hrun, hafter⟩ := projectAll_eq torch (layerWrites config) tensor
    (projectTensor_structural hkind) (List.nodup_reverse.mpr hincluded) hbases
    (fun _ h => absurd h List.not_mem_nil) (List.append_nil _).symm (Holds.init (R := R))
  rw [portLayers_eq, ← includedKeys, hrun] at hclean
  obtain ⟨hok, rfl⟩ := Effect.ofExcept_eq_ok.mp hclean
  exact ⟨hok, hafter ⟨ws, hok⟩⟩

theorem fallback_structural (hkind : adapter.kind = .llama3ToQwen2) (hnodup : keys.Nodup)
    (hbases : DistinctBases adapter (includedKeys config keys))
    (hclean : portLayers torch config adapter tensor keys .init = .ok ws st)
    (hstream : streamUntil torch config adapter tensor fault keys .init = .ok before st₁) :
    FallbackAgrees torch config adapter tensor fault keys ws ↔
      FailureHarmless torch config adapter tensor fault keys before := by
  have hincluded : (includedKeys config keys).Nodup := hnodup.filter _
  obtain ⟨rest, hrest⟩ : includedKeys config (fault.projected keys) <+: includedKeys config keys :=
    (fault.projected_begins keys).filter _
  have hreverse : (includedKeys config keys).reverse =
      rest.reverse ++ (includedKeys config (fault.projected keys)).reverse := by
    rw [← hrest, List.reverse_append]
  have hbases' : DistinctBases adapter (includedKeys config keys).reverse := by
    intro key hkey key' hkey'
    exact hbases key (List.mem_reverse.mp hkey) key' (List.mem_reverse.mp hkey')
  have hbasesBefore : DistinctBases adapter
      (includedKeys config (fault.projected keys)).reverse := by
    intro key hkey key' hkey'
    exact hbases' key (hreverse ▸ List.mem_append_right _ hkey) key'
      (hreverse ▸ List.mem_append_right _ hkey')
  -- the clean run is its script
  have hscript := (portLayers_structural hkind hnodup hbases' hclean).1
  -- the state at the fault
  obtain ⟨before', made, st₁', hstream', hmade, hbefore, hws⟩ :=
    streamUntil_of_clean fault hclean
  rw [hstream] at hstream'
  cases hstream'
  have hholds := (portLayers_structural hkind
    ((fault.projected_begins keys).sublist.nodup hnodup) hbasesBefore hmade).2
  -- the fallback is the script from there
  have hstale : ∀ k ∈ (adapterPairing adapter).waiting 0
      (includedKeys config (fault.projected keys)).reverse,
      (adapterPairing adapter).Stale (includedKeys config keys).reverse k := by
    intro k hk
    rw [hreverse]
    refine Pairing.stale_of_mem_waiting ?_ hk
    rw [← hreverse]
    exact List.nodup_reverse.mpr hincluded
  obtain ⟨st₂, hrun, -⟩ := projectAll_eq torch (layerWrites config) tensor
    (projectTensor_structural hkind) (List.nodup_reverse.mpr hincluded) hbases' hstale
    (List.append_nil _).symm hholds.restart
  rw [fallbackAgrees_iff_second hstream, portLayers_eq, ← includedKeys, hrun]
  simp only [Effect.ofExcept_eq_ok, and_assoc, exists_and_left, exists_eq_left']
  rw [same_map_iff hincluded hscript (hbefore.trans hws)]
  unfold FailureHarmless
  rw [hkind]
  refine forall_congr' fun key => imp_congr_right fun _ => imp_congr_right fun _ => ?_
  unfold HarmlessMove
  rw [hholds.takesAt_restart, hholds.takesAt_restart]
  rfl

theorem fallback_plain (hkind : adapter.kind ≠ .llama3ToQwen2) (hnodup : keys.Nodup)
    (hclean : portLayers torch config adapter tensor keys .init = .ok ws st)
    (hstream : streamUntil torch config adapter tensor fault keys .init = .ok before st₁) :
    FallbackAgrees torch config adapter tensor fault keys ws ↔
      ∀ i key, (includedKeys config keys)[i]? = some key →
        plainWrite torch config adapter tensor
            ((includedKeys config (fault.projected keys)).length * drawsPerLayer adapter +
              i * drawsPerLayer adapter) key =
          plainWrite torch config adapter tensor (i * drawsPerLayer adapter) key := by
  obtain ⟨before', made, st₁', hstream', hmade, hbefore, hws⟩ :=
    streamUntil_of_clean fault hclean
  rw [hstream] at hstream'
  cases hstream'
  rw [portLayers_eq, ← includedKeys] at hclean hmade
  have hnot := not_divides_of_projectAll hkind hclean
  obtain ⟨_, hrun, -⟩ := projectAll_plain torch tensor hkind
    (.init : AdapterState R S) hnot
  rw [hrun] at hclean
  cases hclean
  obtain ⟨_, hrunBefore, hdraws⟩ := projectAll_plain torch tensor hkind
    (.init : AdapterState R S) (not_divides_of_projectAll hkind hmade)
  rw [hrunBefore] at hmade
  cases hmade
  obtain ⟨st₂, hrunAgain, -⟩ := projectAll_plain torch tensor hkind st₁ hnot
  rw [fallbackAgrees_iff_second hstream, portLayers_eq, ← includedKeys, hrunAgain]
  simp only [EStateM.Result.ok.injEq, and_assoc, exists_and_left, exists_eq_left']
  have hkeys : ∀ k ∈ before.map Prod.fst, k ∈ includedKeys config keys := by
    intro k hk
    have hin := ((hbefore.trans hws).sublist.map Prod.fst).subset hk
    rw [keys_plainWrites] at hin
    exact hin
  have hstart : st₁.draws =
      (includedKeys config (fault.projected keys)).length * drawsPerLayer adapter := by
    rw [hdraws]
    exact Nat.zero_add _
  have hincluded : (includedKeys config keys).Nodup := hnodup.filter _
  rw [show (AdapterState.init : AdapterState R S).draws = 0 from rfl,
    same_plain_map_iff hincluded hkeys, hstart]

/-- The fallback leaves the map of a clean run exactly when the failure is
harmless. -/
theorem fallbackAgrees_iff (hnodup : keys.Nodup)
    (hbases : DistinctBases adapter (includedKeys config keys))
    (hclean : portLayers torch config adapter tensor keys .init = .ok ws st)
    (hstream : streamUntil torch config adapter tensor fault keys .init = .ok before st₁) :
    FallbackAgrees torch config adapter tensor fault keys ws ↔
      FailureHarmless torch config adapter tensor fault keys before := by
  rcases hkind : adapter.kind with _ | _ | _ | _
  · exact fallback_structural hkind hnodup hbases hclean hstream
  · rw [fallback_plain (by rw [hkind]; simp) hnodup hclean hstream]
    unfold FailureHarmless drawsPerLayer
    rw [hkind]
    simp only [Nat.mul_one]
  · rw [fallback_plain (by rw [hkind]; simp) hnodup hclean hstream]
    unfold FailureHarmless plainWrite plainTensor
    rw [hkind]
    exact ⟨fun _ => trivial, fun _ _ _ _ => rfl⟩
  · rw [fallback_plain (by rw [hkind]; simp) hnodup hclean hstream]
    unfold FailureHarmless plainWrite plainTensor
    rw [hkind]
    exact ⟨fun _ => trivial, fun _ _ _ _ => rfl⟩

end Fallback

/-! ### A tensor that the fallback leaves out -/

/-- Two up projections, the tensors of one around those of the other. -/
def nestedKeys : List String :=
  [loraKey "layers.1.mlp.up_proj" .a, loraKey "layers.0.mlp.up_proj" .a,
    loraKey "layers.0.mlp.up_proj" .b, loraKey "layers.1.mlp.up_proj" .b]

/-- No module alphas and no filter. -/
def plainConfig : PortConfig ℚ := ⟨1, .empty, none⟩

/-- With two piecewise pairs allowed and streaming failing after three layers,
the inner pair is counted twice, and the first tensor of the outer one is never
written. -/
theorem nested_fallback_differs : ∃ ws st,
    portLayers sampleTorch plainConfig
      { sampleAdapter "piecewise" none with piecewiseMaxLayers := some 2 } upTensor nestedKeys
      .init = .ok ws st ∧
    ¬FallbackAgrees sampleTorch plainConfig
      { sampleAdapter "piecewise" none with piecewiseMaxLayers := some 2 } upTensor
      ⟨3, none⟩ nestedKeys ws := by
  let adapter : Adapter ℚ :=
    { sampleAdapter "piecewise" none with piecewiseMaxLayers := some 2 }
  let outer := loraKey "layers.1.mlp.up_proj" .a
  have hclean : ((Effect.returned (portLayers sampleTorch plainConfig adapter upTensor nestedKeys)
      .init).map fun ws => ((Dict.ofWrites ws).get? outer).isSome) = some true := by
    decide +kernel
  have hfallback : ((Effect.returned (portFallback sampleTorch plainConfig adapter upTensor
      ⟨3, none⟩ nestedKeys) .init).map fun written => (written.get? outer).isSome) =
      some false := by
    decide +kernel
  obtain ⟨ws, hws, hin⟩ := Option.map_eq_some_iff.mp hclean
  obtain ⟨st, hrun⟩ := Effect.returned_eq_some.mp hws
  refine ⟨ws, st, hrun, ?_⟩
  rintro ⟨written, st', hrun', hsame⟩
  rw [Effect.returned_eq_some.mpr ⟨st', hrun'⟩, Option.map_some, Option.some_inj,
    hsame outer, hin] at hfallback
  cases hfallback

/-- Projected linearly, the same stream is written alike. -/
theorem linear_fallback_agrees : ∃ ws st,
    portLayers sampleTorch plainConfig (sampleAdapter "linear" none) upTensor nestedKeys .init =
      .ok ws st ∧
    FallbackAgrees sampleTorch plainConfig (sampleAdapter "linear" none) upTensor ⟨3, none⟩
      nestedKeys ws := by
  have hclean : ((Effect.returned (portLayers sampleTorch plainConfig
      (sampleAdapter "linear" none) upTensor nestedKeys) .init).isSome) = true := by
    decide +kernel
  have hstream : ((Effect.returned (streamUntil sampleTorch plainConfig
      (sampleAdapter "linear" none) upTensor ⟨3, none⟩ nestedKeys) .init).isSome) = true := by
    decide +kernel
  obtain ⟨ws, hws⟩ := Option.isSome_iff_exists.mp hclean
  obtain ⟨before, hbefore⟩ := Option.isSome_iff_exists.mp hstream
  obtain ⟨st, hrun⟩ := Effect.returned_eq_some.mp hws
  obtain ⟨st', hrun'⟩ := Effect.returned_eq_some.mp hbefore
  have hclosed : ∀ key ∈ nestedKeys,
      piecewiseEligible (sampleAdapter "linear" none) key = false := by
    decide +kernel
  refine ⟨ws, st, hrun, (fallbackAgrees_iff (by decide) ?_ hrun hrun').mpr ?_⟩
  · intro key hkey key' _ heligible
    rw [hclosed key (List.mem_of_mem_filter hkey)] at heligible
    cases heligible
  · intro key hkey htakes
    have heligible : piecewiseEligible (sampleAdapter "linear" none) key = true :=
      Pairing.eligible_of_takesAt htakes
    rw [hclosed key (List.mem_of_mem_filter hkey)] at heligible
    cases heligible
