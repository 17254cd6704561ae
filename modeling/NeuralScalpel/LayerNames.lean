/-
Resolution of manifest layer names.

A manifest may spell a parameter of the base model with another prefix than
the model does.  `resolveLayerName` tries the known prefix variations, then a
unique suffix match in either direction:

* `contains_of_resolveLayerName` — a resolved name is a parameter.
-/
import NeuralScalpel.Payload

def String.hasPrefix (s pre : String) : Bool := pre.toList.isPrefixOf s.toList

def String.hasSuffix (s suf : String) : Bool := suf.toList.isSuffixOf s.toList

/-- `s[len(pre):]`. -/
def String.dropLen (s pre : String) : String := String.ofList (s.toList.drop pre.length)

/-- The spellings to try, in order. -/
def layerNameCandidates (name : String) : List String :=
  [name] ++
  (if name.hasPrefix "model." then [name.dropLen "model."] else ["model." ++ name]) ++
  (if name.hasPrefix "model.layers." then
    ["model.model.layers." ++ name.dropLen "model.layers."] else []) ++
  (if name.hasPrefix "model.model.layers." then
    ["model.layers." ++ name.dropLen "model.model.layers."] else []) ++
  (if name.hasPrefix "layers." then
    ["model.layers." ++ name.dropLen "layers.", "model.model.layers." ++ name.dropLen "layers."]
  else [])

/-- The parameter of the base model a layer name stands for. -/
def resolveLayerName (name : String) (state : Dict String ℕ) : Except PyError String :=
  match (layerNameCandidates name).find? state.contains with
  | some c => .ok c
  | none =>
    match state.keys.filter fun k => k.hasSuffix name with
    | [k] => .ok k
    | _ =>
      match state.keys.filter fun k => name.hasSuffix k with
      | [k] => .ok k
      | _ =>
        .error (.valueError (s!"Target layer {name} not found in base model. " ++
          s!"Fuzzy candidates tried: {pyList (layerNameCandidates name)}. " ++
          s!"First 10 available keys: {pyList (state.keys.take 10)}"))

/-- A key that alone passes a filter of the keys is a key. -/
theorem contains_of_filter_keys {state : Dict String ℕ} {p : String → Bool} {k : String}
    (h : state.keys.filter p = [k]) : state.contains k = true := by
  have hk : k ∈ state.keys.filter p := by
    rw [h]
    exact List.mem_singleton_self k
  exact Dict.mem_keys_iff.mp (List.mem_of_mem_filter hk)

/-- A resolved name is a parameter of the model. -/
theorem contains_of_resolveLayerName {name target : String} {state : Dict String ℕ}
    (h : resolveLayerName name state = .ok target) : state.contains target = true := by
  unfold resolveLayerName at h
  split at h
  · rename_i c hc
    cases h
    exact List.find?_some hc
  · split at h
    · rename_i k hk
      cases h
      exact contains_of_filter_keys hk
    · split at h
      · rename_i k hk
        cases h
        exact contains_of_filter_keys hk
      · exact absurd h (by simp)
