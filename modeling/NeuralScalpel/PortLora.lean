/-
`port_lora`: the streaming loop, module alphas and the load-all fallback.

Every layer of the source adapter that the filter includes is projected,
scaled by the alpha of its module and written.  If streaming fails, all layers
are loaded and handled again by the same adapter.

* `portLayers` — one of the two loops, with the writes it makes;
* `portFallback` — a streaming loop that fails at some point, and the fallback;
* `portLayers_eq` — a loop is a pass over the included layers;
* `streamUntil_of_clean` — what was written when streaming failed.

Layers are given by their keys in order and their tensors.
-/
import NeuralScalpel.PairStream

/-! ### Module alphas -/

/-- A key of the module alpha map: a module, or a layer of one. -/
inductive AlphaKey
  | module (name : String)
  | layer (name : String) (idx : ℤ)
  deriving DecidableEq, Repr

/-- What `port_lora` is asked for, besides the adapter. -/
structure PortConfig (S : Type) where
  alpha : S
  moduleAlphaMap : Dict AlphaKey S
  includeModules : Option (List String)

/-- The first standard module named in a key. -/
def currentModule (key : String) : Option String := standardModules.find? fun m => inKey m key

/-- `re.search(r"layers\.(\d+)\.", key)`. -/
def alphaLayer (key : String) : Option ℕ := searchLayer ["layers"] key.toList

section PortLora

variable {R S : Type} [CommRing R] [Field S] [LinearOrder S]

/-- The alpha set for a layer of a module, else for the module. -/
def targetAlpha (alphaMap : Dict AlphaKey S) (module : String) (layer : Option ℕ) : Option S :=
  match layer.bind fun idx => alphaMap.get? (.layer module idx) with
  | some alpha => some alpha
  | none => alphaMap.get? (.module module)

/-- The alpha that replaces the global one for a key. -/
def replacedAlpha (config : PortConfig S) (key : String) : Option S :=
  ((currentModule key).bind fun module =>
    targetAlpha config.moduleAlphaMap module (alphaLayer key)).filter
      fun target => target ≠ config.alpha

/-- The second tensor of a pair times a factor, alone or in a dictionary. -/
def Projected.scaleB [MulActionWithZero S R] (factor : S) (newKey : String) :
    Projected R → Projected R
  | .nothing => .nothing
  | .tensor t => .tensor (if inKey "lora_B" newKey then t.scale factor else t)
  | .dict entries =>
    .dict (entries.map fun e => (e.1, if inKey "lora_B" e.1 then e.2.scale factor else e.2))

/-- `apply_module_alpha_scaling`. -/
def applyModuleAlphaScaling [MulActionWithZero S R] (config : PortConfig S)
    (key newKey : String) : Projected R → Except PyError (Projected R)
  | .nothing => .ok .nothing
  | projected =>
    match replacedAlpha config key with
    | none => .ok projected
    | some target =>
      if config.alpha = 0 then .error (.external "ZeroDivisionError: float division by zero")
      else .ok (projected.scaleB (target / config.alpha) newKey)

/-- `should_include_key`. -/
def shouldIncludeKey (config : PortConfig S) (key : String) : Bool :=
  !inKey "lora_" key ||
    !excludedByModules config.includeModules key &&
      match (currentModule key).bind fun m => config.moduleAlphaMap.get? (.module m) with
      | some alpha => !decide (alpha ≤ 0)
      | none => true

/-- No adapter renames keys. -/
def mapKey (key : String) : String := key

/-! ### The loops -/

variable [MulActionWithZero S R]

/-- What is written for the projection of a key. -/
def layerWrites (config : PortConfig S) (key : String) (projected : Projected R) :
    Except PyError (List (String × ShapedMatrix R)) := do
  let scaled ← applyModuleAlphaScaling config key (mapKey key) projected
  pure (scaled.entries (mapKey key))

variable (torch : Torch R S) (config : PortConfig S) (adapter : Adapter S)
  (tensor : String → ShapedMatrix R)

/-- The loop over the layers, in either pass. -/
def portLayers : List String → AdapterM R S (List (String × ShapedMatrix R))
  | [] => pure []
  | key :: keys =>
    if shouldIncludeKey config key then do
      let projected ← projectTensor torch adapter key (tensor key)
      let writes ← Effect.ofExcept (layerWrites config key projected)
      let rest ← portLayers keys
      pure (writes ++ rest)
    else portLayers keys

/-- Where the streaming loop raises: after a number of layers, and, when
`writes` is given, after the next layer has been projected and so many of its
writes have been made. -/
structure StreamFault where
  layers : ℕ
  writes : Option ℕ

/-- The layers projected before the fault. -/
def StreamFault.projected (fault : StreamFault) (keys : List String) : List String :=
  keys.take (if fault.writes.isSome then fault.layers + 1 else fault.layers)

/-- The writes made before the fault. -/
def streamUntil (fault : StreamFault) (keys : List String) :
    AdapterM R S (List (String × ShapedMatrix R)) := do
  let writes ← portLayers torch config adapter tensor (keys.take fault.layers)
  match fault.writes with
  | none => pure writes
  | some made => do
    let last ← portLayers torch config adapter tensor ((keys.drop fault.layers).take 1)
    pure (writes ++ last.take made)

/-- Streaming fails and the fallback handles all layers again; the last write for
a key counts. -/
def portFallback (fault : StreamFault) (keys : List String) :
    AdapterM R S (Dict String (ShapedMatrix R)) := do
  let before ← streamUntil torch config adapter tensor fault keys
  let writes ← portLayers torch config adapter tensor keys
  pure (.ofWrites (before ++ writes))

/-! ### What a loop does -/

variable {torch config adapter tensor}

/-- A loop is a pass over the included layers. -/
theorem portLayers_eq (keys : List String) : portLayers torch config adapter tensor keys =
    projectAll (projectTensor torch adapter) (layerWrites config) tensor
      (keys.filter (shouldIncludeKey config)) := by
  induction keys with
  | nil => rfl
  | cons key keys ih =>
    rw [portLayers, ih]
    by_cases hkey : shouldIncludeKey config key = true
    · rw [if_pos hkey, List.filter_cons_of_pos hkey]
      rfl
    · rw [if_neg hkey, List.filter_cons_of_neg hkey]

theorem portLayers_append (keys keys' : List String) :
    portLayers torch config adapter tensor (keys ++ keys') = (do
      let writes ← portLayers torch config adapter tensor keys
      let rest ← portLayers torch config adapter tensor keys'
      pure (writes ++ rest)) := by
  induction keys with
  | nil => simp only [List.nil_append, portLayers, pure_bind, bind_pure]
  | cons key keys ih =>
    rw [List.cons_append, portLayers, portLayers]
    by_cases hkey : shouldIncludeKey config key = true
    · rw [if_pos hkey, if_pos hkey, ih]
      simp only [bind_assoc, pure_bind, List.append_assoc]
    · rw [if_neg hkey, if_neg hkey, ih]

/-- A loop that returns over some layers returns over the first of them. -/
theorem portLayers_of_append {keys keys' : List String} {st st' : AdapterState R S}
    {ws : List (String × ShapedMatrix R)}
    (h : portLayers torch config adapter tensor (keys ++ keys') st = .ok ws st') :
    ∃ writes st₁ rest, portLayers torch config adapter tensor keys st = .ok writes st₁ ∧
      portLayers torch config adapter tensor keys' st₁ = .ok rest st' ∧ ws = writes ++ rest := by
  rw [portLayers_append] at h
  obtain ⟨writes, st₁, hwrites, h⟩ := Effect.run_bind_eq_ok.mp h
  obtain ⟨rest, st₂, hrest, h⟩ := Effect.run_bind_eq_ok.mp h
  cases h
  exact ⟨writes, st₁, rest, hwrites, hrest, rfl⟩

theorem StreamFault.projected_begins (fault : StreamFault) (keys : List String) :
    fault.projected keys <+: keys := List.take_prefix _ _

/-- If the loop would return, the layers before the fault are handled, and a
part of their writes is made. -/
theorem streamUntil_of_clean (fault : StreamFault) {keys : List String}
    {st st' : AdapterState R S} {ws : List (String × ShapedMatrix R)}
    (h : portLayers torch config adapter tensor keys st = .ok ws st') :
    ∃ before made st₁, streamUntil torch config adapter tensor fault keys st = .ok before st₁ ∧
      portLayers torch config adapter tensor (fault.projected keys) st = .ok made st₁ ∧
      before <+: made ∧ made <+: ws := by
  obtain ⟨rest, hrest⟩ := fault.projected_begins keys
  rw [← hrest] at h
  obtain ⟨made, st₁, more, hmade, -, rfl⟩ := portLayers_of_append h
  unfold streamUntil
  rcases hwrites : fault.writes with _ | n
  · have hprojected : fault.projected keys = keys.take fault.layers := by
      unfold StreamFault.projected
      rw [hwrites]
      rfl
    rw [hprojected] at hmade ⊢
    refine ⟨made, made, st₁, ?_, hmade, List.prefix_rfl, List.prefix_append _ _⟩
    exact Effect.run_bind_of_ok hmade
  · have hprojected : fault.projected keys =
        keys.take fault.layers ++ (keys.drop fault.layers).take 1 := by
      unfold StreamFault.projected
      rw [hwrites, Option.isSome_some, if_pos rfl, List.take_add]
    rw [hprojected] at hmade ⊢
    obtain ⟨writes, st₂, last, hfirst, hlast, rfl⟩ := portLayers_of_append hmade
    refine ⟨writes ++ last.take n, writes ++ last, st₁, ?_, hmade, ?_, List.prefix_append _ _⟩
    · exact (Effect.run_bind_of_ok hfirst).trans (Effect.run_bind_of_ok hlast)
    · exact (List.prefix_append_right_inj writes).mpr (List.take_prefix n last)

end PortLora
