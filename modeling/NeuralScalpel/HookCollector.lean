/-
Collecting activations.

`collection_context` registers the hooks of a new collector, runs its body and
removes the hooks again, also when the body raises.

* `tidy_collectionContext` — a context whose body leaves the hooks alone leaves
  them as they were, so `collectBoth` and `collectOne` always do.
-/
import NeuralScalpel.ForwardHooks
import Mathlib.Data.List.Count

open Effect

namespace HookCollector

variable {ι R Input α : Type} [DecidableEq ι] [Zero R]

/-! ### Registering and removing -/

namespace World

/-- `self.hooks.append(module.register_forward_hook(self._get_hook(name)))`. -/
def addHook (w : World ι R) {c : ℕ} {name : String} (m : ι)
    (h : c < w.nextCollector ∧ name ∈ (w.collectors c).targetModules) : World ι R where
  hooks := Function.update w.hooks m (w.hooks m ++ [⟨w.nextId, some (c, name)⟩])
  nextId := w.nextId + 1
  collectors := Function.update w.collectors c
    { w.collectors c with hooks := (w.collectors c).hooks ++ [(m, w.nextId)] }
  nextCollector := w.nextCollector
  fresh m' hook hmem := by
    by_cases hm : m' = m
    · subst hm
      rw [Function.update_self] at hmem
      rcases List.mem_append.mp hmem with hold | hnew
      · exact (w.fresh m' hook hold).trans (Nat.lt_succ_self _)
      · rw [List.mem_singleton.mp hnew]
        exact Nat.lt_succ_self _
    · rw [Function.update_of_ne hm] at hmem
      exact (w.fresh m' hook hmem).trans (Nat.lt_succ_self _)
  owned m' hook hmem c' name' howner := by
    have hsame : (Function.update w.collectors c
        { w.collectors c with
          hooks := (w.collectors c).hooks ++ [(m, w.nextId)] } c').targetModules =
          (w.collectors c').targetModules := by
      by_cases hc : c' = c
      · rw [hc, Function.update_self]
      · rw [Function.update_of_ne hc]
    rw [hsame]
    by_cases hm : m' = m
    · subst hm
      rw [Function.update_self] at hmem
      rcases List.mem_append.mp hmem with hold | hnew
      · exact w.owned m' hook hold c' name' howner
      · rw [List.mem_singleton.mp hnew] at howner
        cases howner
        exact h
    · rw [Function.update_of_ne hm] at hmem
      exact w.owned m' hook hmem c' name' howner

/-- `h.remove()`. -/
def removeHook (w : World ι R) (handle : ι × ℕ) : World ι R :=
  { w with
    hooks := Function.update w.hooks handle.1
      ((w.hooks handle.1).filter fun hook => hook.id ≠ handle.2)
    fresh := fun m hook hmem => by
      by_cases hm : m = handle.1
      · rw [hm, Function.update_self] at hmem
        exact w.fresh _ hook (List.mem_of_mem_filter hmem)
      · rw [Function.update_of_ne hm] at hmem
        exact w.fresh m hook hmem
    owned := fun m hook hmem => by
      by_cases hm : m = handle.1
      · rw [hm, Function.update_self] at hmem
        exact w.owned _ hook (List.mem_of_mem_filter hmem)
      · rw [Function.update_of_ne hm] at hmem
        exact w.owned m hook hmem }

end World

/-- One round of the loop of `register`. -/
def registerModule (c : ℕ) (w : World ι R) (entry : String × ι) : World ι R :=
  if h : c < w.nextCollector ∧ entry.1 ∈ (w.collectors c).targetModules then w.addHook entry.2 h
  else w

def register (c : ℕ) (model : TorchModel ι R Input) : WorldM ι R Unit :=
  modify fun w => model.namedModules.foldl (registerModule c) w

def remove (c : ℕ) : WorldM ι R Unit :=
  modify fun w =>
    let w' := (w.collectors c).hooks.foldl World.removeHook w
    w'.setCollector c { w'.collectors c with hooks := [] } rfl

/-- `collection_context`: the hooks are removed whatever the body does. -/
def collectionContext (model : TorchModel ι R Input) (targetModules : List String)
    (body : ℕ → WorldM ι R α) : WorldM ι R α := do
  let w ← get
  let c := w.nextCollector
  set (w.create targetModules)
  register c model
  let result ← attempt (body c)
  remove c
  Effect.ofExcept result

/-- The activations of the layers of two models on the same prompts. -/
def collectBoth (first second : TorchModel ι R Input) (firstLayers secondLayers : List String)
    (encode : String → Except PyError Input) (prompts : List String) :
    WorldM ι R (Dict String (ShapedMatrix R) × Dict String (ShapedMatrix R)) :=
  collectionContext first firstLayers fun c =>
    collectionContext second secondLayers fun c' => do
      forEach (fun _ prompt => runPrompt [first, second] encode prompt) 0 prompts
      let firstActs ← getStacked c
      let secondActs ← getStacked c'
      pure (firstActs, secondActs)

/-- The activations of the modules of one model. -/
def collectOne (model : TorchModel ι R Input) (targetModules : List String)
    (encode : String → Except PyError Input) (prompts : List String) :
    WorldM ι R (Dict String (ShapedMatrix R)) :=
  collectionContext model targetModules fun c => do
    forEach (fun _ prompt => runPrompt [model] encode prompt) 0 prompts
    getStacked c

/-! ### What is registered -/

/-- How often a hook of the owner is on a module. -/
def World.firings (w : World ι R) (owner : ℕ × String) (m : ι) : ℕ :=
  (w.hooks m).countP fun hook => hook.owner = some owner

/-- What registering a collector on some modules does. -/
structure Registered (c : ℕ) (entries : List (String × ι)) (w w' : World ι R) : Prop where
  added : ∀ m, ∃ new, w'.hooks m = w.hooks m ++ new ∧
    ∀ hook ∈ new, w.nextId ≤ hook.id ∧ (m, hook.id) ∈ (w'.collectors c).hooks
  handles : ∀ handle ∈ (w'.collectors c).hooks,
    handle ∈ (w.collectors c).hooks ∨ w.nextId ≤ handle.2
  handles_kept : ∀ handle ∈ (w.collectors c).hooks, handle ∈ (w'.collectors c).hooks
  nextId_le : w.nextId ≤ w'.nextId
  nextCollector : w'.nextCollector = w.nextCollector
  others : ∀ c', c' ≠ c → w'.collectors c' = w.collectors c'
  targetModules : (w'.collectors c).targetModules = (w.collectors c).targetModules
  activations : (w'.collectors c).activations = (w.collectors c).activations
  firings : ∀ m owner, w'.firings owner m = w.firings owner m +
    if owner.1 = c ∧ owner.2 ∈ (w.collectors c).targetModules then entries.count (owner.2, m) else 0

namespace Registered

variable {c : ℕ} {w w' w'' : World ι R}

theorem nil (c : ℕ) (w : World ι R) : Registered c [] w w where
  added m := ⟨[], (List.append_nil _).symm, fun _ h => absurd h List.not_mem_nil⟩
  handles _ h := .inl h
  handles_kept _ h := h
  nextId_le := le_rfl
  nextCollector := rfl
  others _ _ := rfl
  targetModules := rfl
  activations := rfl
  firings m owner := by
    rw [List.count_nil, ite_self, Nat.add_zero]

/-- One module and then others. -/
theorem append {entries entries' : List (String × ι)} (h : Registered c entries w w')
    (h' : Registered c entries' w' w'') : Registered c (entries ++ entries') w w'' where
  added m := by
    obtain ⟨new, hnew, hids⟩ := h.added m
    obtain ⟨new', hnew', hids'⟩ := h'.added m
    refine ⟨new ++ new', by rw [hnew', hnew, List.append_assoc], fun hook hmem => ?_⟩
    rcases List.mem_append.mp hmem with hfirst | hlater
    · exact ⟨(hids hook hfirst).1, h'.handles_kept _ (hids hook hfirst).2⟩
    · exact ⟨h.nextId_le.trans (hids' hook hlater).1, (hids' hook hlater).2⟩
  handles handle hmem := by
    rcases h'.handles handle hmem with hold | hnew
    · exact h.handles handle hold
    · exact .inr (h.nextId_le.trans hnew)
  handles_kept handle hmem := h'.handles_kept _ (h.handles_kept _ hmem)
  nextId_le := h.nextId_le.trans h'.nextId_le
  nextCollector := h'.nextCollector.trans h.nextCollector
  others c' hc := (h'.others c' hc).trans (h.others c' hc)
  targetModules := h'.targetModules.trans h.targetModules
  activations := h'.activations.trans h.activations
  firings m owner := by
    rw [h'.firings, h.firings, h.targetModules, List.count_append]
    split_ifs
    · rw [Nat.add_assoc]
    · rfl

end Registered

theorem firings_addHook {w : World ι R} {c : ℕ} {name : String} (m : ι)
    (h : c < w.nextCollector ∧ name ∈ (w.collectors c).targetModules) (m' : ι)
    (owner : ℕ × String) : (w.addHook m h).firings owner m' =
      w.firings owner m' + if owner = (c, name) ∧ m' = m then 1 else 0 := by
  show (Function.update w.hooks m _ m').countP _ = (w.hooks m').countP _ + _
  by_cases hm : m' = m
  · subst hm
    rw [Function.update_self, List.countP_append, List.countP_singleton]
    have howner : some (c, name) = some owner ↔ owner = (c, name) :=
      ⟨fun h => (Option.some.inj h).symm, fun h => congrArg some h.symm⟩
    simp only [howner, decide_eq_true_eq, and_true]
  · rw [Function.update_of_ne hm, if_neg fun hand => hm hand.2, Nat.add_zero]

/-- One round registers one module, if it is listed. -/
theorem registered_module {w : World ι R} {c : ℕ} (hc : c < w.nextCollector)
    (entry : String × ι) : Registered c [entry] w (registerModule c w entry) := by
  obtain ⟨name, m⟩ := entry
  unfold registerModule
  by_cases hname : name ∈ (w.collectors c).targetModules
  · rw [dif_pos ⟨hc, hname⟩]
    have hhandles : ((w.addHook m ⟨hc, hname⟩).collectors c).hooks =
        (w.collectors c).hooks ++ [(m, w.nextId)] := by
      show (Function.update w.collectors c _ c).hooks = _
      rw [Function.update_self]
    refine ⟨fun m' => ?_, fun handle hmem => ?_, fun handle hmem => ?_, Nat.le_succ _, rfl,
      fun c' hne => Function.update_of_ne hne _ _, ?_, ?_, fun m' owner => ?_⟩
    · by_cases hm : m' = m
      · subst hm
        refine ⟨[⟨w.nextId, some (c, name)⟩], Function.update_self _ _ _, fun hook hmem => ?_⟩
        rw [List.mem_singleton.mp hmem, hhandles]
        exact ⟨le_rfl, List.mem_append_right _ (List.mem_singleton_self _)⟩
      · refine ⟨[], ?_, fun _ h => absurd h List.not_mem_nil⟩
        rw [List.append_nil]
        exact Function.update_of_ne hm _ _
    · rw [hhandles] at hmem
      rcases List.mem_append.mp hmem with hold | hnew
      · exact .inl hold
      · rw [List.mem_singleton.mp hnew]
        exact .inr le_rfl
    · rw [hhandles]
      exact List.mem_append_left _ hmem
    · show (Function.update w.collectors c _ c).targetModules = _
      rw [Function.update_self]
    · show (Function.update w.collectors c _ c).activations = _
      rw [Function.update_self]
    · rw [firings_addHook, List.count_singleton]
      obtain ⟨c', name'⟩ := owner
      simp only [Prod.mk.injEq, beq_iff_eq]
      by_cases howner : c' = c ∧ name' = name ∧ m' = m
      · obtain ⟨rfl, rfl, rfl⟩ := howner
        rw [if_pos ⟨⟨rfl, rfl⟩, rfl⟩, if_pos ⟨rfl, hname⟩, if_pos ⟨rfl, rfl⟩]
      · rw [if_neg fun h => howner ⟨h.1.1, h.1.2, h.2⟩]
        split_ifs with hlisted hsame
        · exact absurd ⟨hlisted.1, hsame.1.symm, hsame.2.symm⟩ howner
        · rfl
        · rfl
  · rw [dif_neg fun h => hname h.2]
    refine { Registered.nil c w with firings := fun m' owner => ?_ }
    split_ifs with hlisted
    · rw [List.count_singleton, if_neg, Nat.add_zero]
      intro hsame
      obtain ⟨rfl, -⟩ := Prod.mk.inj (eq_of_beq hsame)
      exact hname hlisted.2
    · rfl

theorem registered_modules {c : ℕ} : ∀ {entries : List (String × ι)} {w : World ι R},
    c < w.nextCollector → Registered c entries w (entries.foldl (registerModule c) w) := by
  intro entries
  induction entries with
  | nil => exact fun _ => Registered.nil c _
  | cons entry entries ih =>
    intro w hc
    have hfirst := registered_module hc entry
    exact hfirst.append (ih (hfirst.nextCollector.symm ▸ hc))

/-- Removing hooks leaves those without a handle. -/
theorem hooks_removeHooks : ∀ {handles : List (ι × ℕ)} {w : World ι R} (m : ι),
    (handles.foldl World.removeHook w).hooks m =
      (w.hooks m).filter fun hook => (m, hook.id) ∉ handles := by
  intro handles
  induction handles with
  | nil =>
    intro w m
    simp
  | cons handle handles ih =>
    intro w m
    rw [List.foldl_cons, ih]
    show List.filter _ (Function.update w.hooks handle.1 _ m) = _
    by_cases hm : m = handle.1
    · rw [hm, Function.update_self, List.filter_filter]
      refine List.filter_congr fun hook _ => ?_
      have hpair : (handle.1, hook.id) = handle ↔ hook.id = handle.2 :=
        ⟨fun h => congrArg Prod.snd h, fun h => Prod.ext rfl h⟩
      simp only [List.mem_cons, hpair, not_or, Bool.decide_and, ne_eq, Bool.and_comm]
    · rw [Function.update_of_ne hm]
      refine List.filter_congr fun hook _ => ?_
      have hpair : (m, hook.id) ≠ handle := fun h => hm (congrArg Prod.fst h)
      simp only [List.mem_cons, hpair, false_or]

theorem same_removeHooks (handles : List (ι × ℕ)) (w : World ι R) :
    (handles.foldl World.removeHook w).collectors = w.collectors ∧
      (handles.foldl World.removeHook w).nextId = w.nextId ∧
      (handles.foldl World.removeHook w).nextCollector = w.nextCollector := by
  induction handles generalizing w with
  | nil => exact ⟨rfl, rfl, rfl⟩
  | cons handle handles ih => exact ih (w.removeHook handle)

/-! ### Contexts -/

/-- The world in which a context starts its body. -/
def World.opened (w : World ι R) (model : TorchModel ι R Input) (targetModules : List String) :
    World ι R :=
  model.namedModules.foldl (registerModule w.nextCollector) (w.create targetModules)

/-- The world once a collector has removed its hooks. -/
def World.closed (w : World ι R) (c : ℕ) : World ι R :=
  ((w.collectors c).hooks.foldl World.removeHook w).setCollector c
    { ((w.collectors c).hooks.foldl World.removeHook w).collectors c with hooks := [] } rfl

/-- A context is its body between opening and closing. -/
theorem wp_collectionContext {model : TorchModel ι R Input} {targetModules : List String}
    {body : ℕ → WorldM ι R α} {w : World ι R} {Q : α → World ι R → Prop}
    {E : PyError → World ι R → Prop} :
    wp (collectionContext model targetModules body) Q E w ↔
      wp (body w.nextCollector) (fun a w' => Q a (w'.closed w.nextCollector))
        (fun e w' => E e (w'.closed w.nextCollector)) (w.opened model targetModules) := by
  unfold collectionContext register remove
  simp only [wp_bind, wp_get, wp_set, wp_modify, wp_attempt]
  exact Iff.rfl

/-- What opening a context does to the hooks. -/
theorem registered_opened (w : World ι R) (model : TorchModel ι R Input)
    (targetModules : List String) : Registered w.nextCollector model.namedModules
      (w.create targetModules) (w.opened model targetModules) :=
  registered_modules (Nat.lt_succ_self _)

/-- A context whose body leaves the hooks alone leaves them as they were. -/
theorem tidy_closed {w w' : World ι R} {model : TorchModel ι R Input}
    {targetModules : List String} (h : Tidy (w.opened model targetModules) w') :
    Tidy w (w'.closed w.nextCollector) := by
  set c := w.nextCollector with hc
  have hopened := registered_opened w model targetModules
  have hlt : c < (w.opened model targetModules).nextCollector := by
    rw [hopened.nextCollector]
    exact Nat.lt_succ_self c
  have hhandles := h.handles c hlt
  obtain ⟨hcollectors, hnextId, hnextCollector⟩ := same_removeHooks (w'.collectors c).hooks w'
  refine ⟨funext fun m => ?_, ?_, ?_, fun c' hc' => ?_⟩
  · -- old hooks are older than every handle; new ones have one
    show ((w'.collectors c).hooks.foldl World.removeHook w').hooks m = w.hooks m
    obtain ⟨new, hnew, hids⟩ := hopened.added m
    rw [hooks_removeHooks, h.hooks, hnew, List.filter_append]
    have hold : (w.hooks m).filter (fun hook => (m, hook.id) ∉ (w'.collectors c).hooks) =
        w.hooks m := by
      refine List.filter_eq_self.mpr fun hook hmem => decide_eq_true fun hhandle => ?_
      rw [hhandles] at hhandle
      rcases hopened.handles _ hhandle with hnone | hle
      · rw [collectors_create_self] at hnone
        exact absurd hnone List.not_mem_nil
      · exact absurd (w.fresh m hook hmem) (not_lt.mpr hle)
    have hgone : new.filter (fun hook => (m, hook.id) ∉ (w'.collectors c).hooks) = [] := by
      refine List.filter_eq_nil_iff.mpr fun hook hmem => ?_
      rw [decide_eq_true_eq, not_not, hhandles]
      exact (hids hook hmem).2
    have hcreate : (w.create targetModules).hooks m = w.hooks m := rfl
    rw [hcreate, hold, hgone, List.append_nil]
  · show w.nextId ≤ ((w'.collectors c).hooks.foldl World.removeHook w').nextId
    rw [hnextId]
    exact hopened.nextId_le.trans h.nextId_le
  · show c ≤ ((w'.collectors c).hooks.foldl World.removeHook w').nextCollector
    rw [hnextCollector]
    exact hlt.le.trans h.nextCollector_le
  · show (Function.update ((w'.collectors c).hooks.foldl World.removeHook w').collectors c _
      c').hooks = _
    rw [Function.update_of_ne hc'.ne, hcollectors, h.handles c' (hc'.trans hlt),
      hopened.others c' hc'.ne, collectors_create_of_ne hc'.ne]

theorem tidy_collectionContext {model : TorchModel ι R Input} {targetModules : List String}
    {body : ℕ → WorldM ι R α} (hbody : ∀ c, Keeps Tidy (body c)) :
    Keeps Tidy (collectionContext model targetModules body) := by
  intro w
  rw [wp_collectionContext]
  exact (hbody _ _).mono (fun _ _ h => tidy_closed h) fun _ _ h => tidy_closed h

/-- **Hooks are always taken back**, whatever the models, the tokeniser and the
stacking do. -/
theorem tidy_collectBoth (first second : TorchModel ι R Input)
    (firstLayers secondLayers : List String) (encode : String → Except PyError Input)
    (prompts : List String) :
    Keeps Tidy (collectBoth first second firstLayers secondLayers encode prompts) :=
  tidy_collectionContext fun _ => tidy_collectionContext fun _ =>
    .bind (.forEach (fun _ => tidy_runPrompt _ encode) _ _) fun _ =>
      .bind (tidy_getStacked _) fun _ => .bind (tidy_getStacked _) fun _ => .pure _

theorem tidy_collectOne (model : TorchModel ι R Input) (targetModules : List String)
    (encode : String → Except PyError Input) (prompts : List String) :
    Keeps Tidy (collectOne model targetModules encode prompts) :=
  tidy_collectionContext fun _ =>
    .bind (.forEach (fun _ => tidy_runPrompt _ encode) _ _) fun _ => tidy_getStacked _

/-! ### What is collected -/

omit [DecidableEq ι] in
/-- A collector still to be made has no hook. -/
theorem firings_of_le {w : World ι R} {c : ℕ} (hc : w.nextCollector ≤ c) (name : String) (m : ι) :
    w.firings (c, name) m = 0 :=
  List.countP_eq_zero.mpr fun hook hmem howner =>
    absurd (w.owned m hook hmem c name (of_decide_eq_true howner)).1 (not_lt.mpr hc)

/-- An opened context watches the listed modules of its model once each, and no
other module. -/
theorem firings_opened (w : World ι R) (model : TorchModel ι R Input) (layers : List String)
    (owner : ℕ × String) (m : ι) : (w.opened model layers).firings owner m =
      w.firings owner m + if owner.1 = w.nextCollector ∧ owner.2 ∈ layers ∧
        (owner.2, m) ∈ model.namedModules then 1 else 0 := by
  have hnodup : model.namedModules.Nodup := .of_map Prod.fst model.names_nodup
  rw [(registered_opened w model layers).firings, collectors_create_self]
  show w.firings owner m + (if owner.1 = w.nextCollector ∧ owner.2 ∈ layers then _ else 0) = _
  by_cases hmem : (owner.2, m) ∈ model.namedModules
  · simp only [List.count_eq_one_of_mem hnodup hmem, hmem, and_true]
  · simp only [List.count_eq_zero_of_not_mem hmem, hmem, and_false, ite_self, if_false]

/-- Opening a context changes what no other collector has. -/
theorem activations_opened {w : World ι R} (model : TorchModel ι R Input) (layers : List String)
    (c : ℕ) (name : String) : (w.opened model layers).activations c name =
      if c = w.nextCollector then [] else w.activations c name := by
  have hopened := registered_opened w model layers
  by_cases hc : c = w.nextCollector
  · rw [if_pos hc, hc]
    show (((w.opened model layers).collectors w.nextCollector).activations.get? name).getD [] = []
    rw [hopened.activations, collectors_create_self]
    cases hget : ((Collector.new ι layers : Collector ι R).activations).get? name with
    | none => rfl
    | some acts =>
      obtain ⟨_, -, hnil⟩ := List.mem_map.mp (Dict.mem_of_get?_ofWrites hget)
      exact (Prod.mk.inj hnil).2.symm
  · rw [if_neg hc]
    show (((w.opened model layers).collectors c).activations.get? name).getD [] = _
    rw [hopened.others c hc, collectors_create_of_ne hc]
    rfl

/-- The rows of a layer of a model in a row of calls. -/
def rowsOfLayer (model : TorchModel ι R Input) (name : String) (call : ι × HookInput R) :
    List (ShapedMatrix R) :=
  if (name, call.1) ∈ model.namedModules then call.2.rows else []

/-- What is kept of a layer; of one that is not listed nothing. -/
def collected (model : TorchModel ι R Input) (layers : List String)
    (calls : List (ι × HookInput R)) (name : String) : List (ShapedMatrix R) :=
  if name ∈ layers then calls.flatMap (rowsOfLayer model name) else []

omit [Zero R] [DecidableEq ι] in
theorem flatMap_ite_eq (p : Hook → Prop) [DecidablePred p] (rows : List α) :
    ∀ hooks : List Hook, (hooks.flatMap fun hook => if p hook then rows else []) =
      (List.replicate (hooks.countP fun hook => p hook) rows).flatten := by
  intro hooks
  induction hooks with
  | nil => rfl
  | cons hook hooks ih =>
    rw [List.flatMap_cons, ih, List.countP_cons]
    by_cases h : p hook
    · simp only [h, if_true, decide_true, List.replicate_succ, List.flatten_cons]
    · simp [h]

omit [DecidableEq ι] in
theorem rowsOfCall_eq (w : World ι R) (owner : ℕ × String) (call : ι × HookInput R) :
    rowsOfCall w.hooks owner call =
      (List.replicate (w.firings owner call.1) call.2.rows).flatten :=
  flatMap_ite_eq (fun hook => hook.owner = some owner) call.2.rows (w.hooks call.1)

/-- With one more context open, a collector is given the rows of the layers it
watches. -/
theorem flatMap_rowsOfCall {w : World ι R} {model : TorchModel ι R Input} {layers : List String}
    {c : ℕ} {name : String} (h : ∀ m, w.firings (c, name) m =
      if name ∈ layers ∧ (name, m) ∈ model.namedModules then 1 else 0)
    (calls : List (ι × HookInput R)) :
    calls.flatMap (rowsOfCall w.hooks (c, name)) = collected model layers calls name := by
  unfold collected
  split_ifs with hname
  · refine List.flatMap_congr fun call _ => ?_
    rw [rowsOfCall_eq, h, rowsOfLayer]
    simp only [hname, true_and]
    split_ifs
    · exact List.append_nil _
    · rfl
  · refine List.flatMap_eq_nil_iff.mpr fun call _ => ?_
    rw [rowsOfCall_eq, h, if_neg fun hand => hname hand.1]
    rfl

/-- Rows of one width on top of each other, if there are any. -/
structure Stacks (rows : List (ShapedMatrix R)) (acts : Option (ShapedMatrix R)) : Prop where
  sameCols : ShapedMatrix.SameCols rows
  eq : acts = if rows = [] then none else some (.stack rows)

omit [DecidableEq ι] in
theorem stacks_of_stackModule {name : String} {rows : List (ShapedMatrix R)}
    {acts : Option (ShapedMatrix R)} (h : stackModule name rows = .ok acts) : Stacks rows acts := by
  unfold stackModule at h
  by_cases hnil : rows = []
  · subst hnil
    cases h
    exact ⟨fun _ h => absurd h List.not_mem_nil, (if_pos rfl).symm⟩
  · have hempty : rows.isEmpty = false := Bool.eq_false_iff.mpr fun h =>
      hnil (List.isEmpty_iff.mp h)
    rw [hempty] at h
    cases hcat : ShapedMatrix.catRows rows with
    | error e =>
      rw [hcat] at h
      cases h
    | ok F =>
      rw [hcat] at h
      cases h
      obtain ⟨-, hsame, rfl⟩ := ShapedMatrix.catRows_eq_ok.mp hcat
      exact ⟨hsame, (if_neg hnil).symm⟩

omit [DecidableEq ι] in
/-- What a collector stacks of a module: rows of one width. -/
theorem getStacked_eq_ok {c : ℕ} {w w' : World ι R} {acts : Dict String (ShapedMatrix R)}
    (h : getStacked c w = .ok acts w') :
    w' = w ∧ ∀ name, Stacks (w.activations c name) (acts.get? name) := by
  obtain ⟨_, _, hget, h⟩ := run_bind_eq_ok.mp h
  cases hget
  obtain ⟨hfill, rfl⟩ := ofExcept_eq_ok.mp h
  refine ⟨rfl, fun name => ?_⟩
  have hread : ∀ F, acts.get? name = some F ↔ ∃ rows,
      (w.collectors c).activations.get? name = some rows ∧ stackModule name rows = .ok (some F) :=
    fun F => Dict.get?_fill hfill
  show Stacks (((w.collectors c).activations.get? name).getD []) _
  rcases hrows : (w.collectors c).activations.get? name with _ | rows
  · refine ⟨fun _ h => absurd h List.not_mem_nil, Option.eq_none_iff_forall_not_mem.mpr ?_⟩
    intro F hF
    obtain ⟨rows, hsome, -⟩ := (hread F).mp hF
    rw [hrows] at hsome
    cases hsome
  show Stacks rows (acts.get? name)
  obtain ⟨o, ho⟩ := Dict.fill_ok_iff.mp ⟨acts, hfill⟩ name rows (Dict.mem_entries_iff.mpr hrows)
  have hiff : ∀ F, acts.get? name = some F ↔ o = some F := by
    intro F
    rw [hread]
    constructor
    · rintro ⟨rows', hsome, hstack⟩
      obtain rfl : rows = rows' := Option.some.inj (hrows.symm.trans hsome)
      exact Except.ok.inj (ho.symm.trans hstack)
    · rintro rfl
      exact ⟨rows, hrows, ho⟩
  obtain rfl : acts.get? name = o := Option.ext fun F => hiff F
  exact stacks_of_stackModule ho

/-- A collector with one hook on each module of its layers, that has recorded
nothing. -/
structure Watches (w : World ι R) (c : ℕ) (model : TorchModel ι R Input) (layers : List String) :
    Prop where
  firings : ∀ name m, w.firings (c, name) m =
    if name ∈ layers ∧ (name, m) ∈ model.namedModules then 1 else 0
  empty : ∀ name, w.activations c name = []

theorem watches_opened (w : World ι R) (model : TorchModel ι R Input) (layers : List String) :
    Watches (w.opened model layers) w.nextCollector model layers where
  firings name m := by
    rw [firings_opened, firings_of_le le_rfl]
    simp only [true_and]
    rw [Nat.zero_add]
  empty name := by rw [activations_opened, if_pos rfl]

/-- Opening one more context leaves the collectors there are alone. -/
theorem Watches.opened {w : World ι R} {c : ℕ} {model : TorchModel ι R Input}
    {layers : List String} (h : Watches w c model layers) (hc : c ≠ w.nextCollector)
    (model' : TorchModel ι R Input) (layers' : List String) :
    Watches (w.opened model' layers') c model layers where
  firings name m := by
    rw [firings_opened, h.firings, if_neg fun hand : c = w.nextCollector ∧ _ => hc hand.1,
      Nat.add_zero]
  empty name := by rw [activations_opened, if_neg hc, h.empty]

/-- While models run it records what its layers are called with. -/
theorem Watches.activations {w w' : World ι R} {c : ℕ} {model : TorchModel ι R Input}
    {layers : List String} (h : Watches w c model layers) {calls : List (ι × HookInput R)}
    (hgains : ∀ owner, Gains owner (calls.flatMap (rowsOfCall w.hooks owner)) w w')
    (name : String) : w'.activations c name = collected model layers calls name := by
  rw [(hgains (c, name)).activations, flatMap_rowsOfCall (h.firings name)]
  show w.activations c name ++ _ = _
  rw [h.empty, List.nil_append]

/-- What is collected of the modules of one model. -/
theorem collectOne_eq_ok {model : TorchModel ι R Input} {targetModules : List String}
    {encode : String → Except PyError Input} {prompts : List String} {w w' : World ι R}
    {acts : Dict String (ShapedMatrix R)}
    (h : collectOne model targetModules encode prompts w = .ok acts w') (name : String) :
    Stacks (collected model targetModules (prompts.flatMap (promptCalls [model] encode)) name)
      (acts.get? name) := by
  have hspec : wp (collectOne model targetModules encode prompts)
      (fun acts _ => Stacks (collected model targetModules
        (prompts.flatMap (promptCalls [model] encode)) name) (acts.get? name))
      (fun _ _ => True) w := by
    unfold collectOne
    rw [wp_collectionContext, wp_bind]
    refine (activations_run [model] encode prompts _).mono (fun _ w₂ hgains => ?_) fun _ _ _ =>
      trivial
    unfold wp
    cases hacts : getStacked w.nextCollector w₂ with
    | error e w₃ => trivial
    | ok acts w₃ =>
      have hstacks := (getStacked_eq_ok hacts).2 name
      rwa [(watches_opened w model targetModules).activations hgains] at hstacks
  unfold wp at hspec
  rw [h] at hspec
  exact hspec

/-- What is collected of two models is what their layers were called with, in
the order of the prompts; a module of both is called by both. -/
theorem collectBoth_eq_ok {first second : TorchModel ι R Input} {firstLayers secondLayers :
    List String} {encode : String → Except PyError Input} {prompts : List String}
    {w w' : World ι R} {firstActs secondActs : Dict String (ShapedMatrix R)}
    (h : collectBoth first second firstLayers secondLayers encode prompts w =
      .ok (firstActs, secondActs) w') :
    let calls := prompts.flatMap (promptCalls [first, second] encode)
    (∀ name, Stacks (collected first firstLayers calls name) (firstActs.get? name)) ∧
      ∀ name, Stacks (collected second secondLayers calls name) (secondActs.get? name) := by
  intro calls
  set w₁ := w.opened first firstLayers with hw₁
  have hnext : w₁.nextCollector = w.nextCollector + 1 :=
    (registered_opened w first firstLayers).nextCollector
  have hother : w.nextCollector ≠ w₁.nextCollector := by
    rw [hnext]
    exact (Nat.lt_succ_self _).ne
  have hfirst : Watches (w₁.opened second secondLayers) w.nextCollector first firstLayers :=
    (watches_opened w first firstLayers).opened hother second secondLayers
  have hspec : wp (collectBoth first second firstLayers secondLayers encode prompts)
      (fun acts _ => (∀ name, Stacks (collected first firstLayers calls name) (acts.1.get? name)) ∧
        ∀ name, Stacks (collected second secondLayers calls name) (acts.2.get? name))
      (fun _ _ => True) w := by
    unfold collectBoth
    rw [wp_collectionContext, wp_collectionContext, ← hw₁, wp_bind]
    have hrun := activations_run [first, second] encode prompts (w₁.opened second secondLayers)
    refine hrun.mono (fun _ w₃ hgains => ?_) fun _ _ _ => trivial
    rw [wp_bind]
    unfold wp
    cases hacts : getStacked w.nextCollector w₃ with
    | error e w₄ => trivial
    | ok acts w₄ =>
      obtain ⟨rfl, hstacks⟩ := getStacked_eq_ok hacts
      show wp (getStacked w₁.nextCollector >>= _) _ _ w₄
      rw [wp_bind]
      unfold wp
      cases hacts' : getStacked w₁.nextCollector w₄ with
      | error e w₅ => trivial
      | ok acts' w₅ =>
        obtain ⟨rfl, hstacks'⟩ := getStacked_eq_ok hacts'
        refine ⟨fun name => ?_, fun name => ?_⟩
        · rw [← hfirst.activations hgains]
          exact hstacks name
        · rw [← (watches_opened w₁ second secondLayers).activations hgains]
          exact hstacks' name
  unfold wp at hspec
  rw [h] at hspec
  exact hspec

/-- What the hooks on a layer of a model are given while models run. -/
def layerRows (models : List (TorchModel ι R Input)) (model : TorchModel ι R Input)
    (encode : String → Except PyError Input) (prompts : List String) (layer : String) :
    List (ShapedMatrix R) :=
  (prompts.flatMap (promptCalls models encode)).flatMap (rowsOfLayer model layer)

/-- What was stacked of a layer are its rows. -/
theorem eq_stack_of_collected {models : List (TorchModel ι R Input)} {model : TorchModel ι R Input}
    {encode : String → Except PyError Input} {prompts layers : List String} {layer : String}
    {acts : Option (ShapedMatrix R)} {F : ShapedMatrix R}
    (h : Stacks (collected model layers (prompts.flatMap (promptCalls models encode)) layer) acts)
    (hF : acts = some F) :
    layerRows models model encode prompts layer ≠ [] ∧
      ShapedMatrix.SameCols (layerRows models model encode prompts layer) ∧
      F = .stack (layerRows models model encode prompts layer) := by
  have heq := h.eq.symm.trans hF
  have hsame := h.sameCols
  rw [collected] at heq hsame
  by_cases hlayer : layer ∈ layers
  · rw [if_pos hlayer] at heq hsame
    split_ifs at heq with hnil
    exact ⟨hnil, hsame, (Option.some.inj heq).symm⟩
  · rw [if_neg hlayer, if_pos rfl] at heq
    cases heq

/-- On a prompt, the layer is called once, with one sample. -/
def RowOn (models : List (TorchModel ι R Input)) (model : TorchModel ι R Input)
    (encode : String → Except PyError Input) (layer prompt : String) (row : ShapedMatrix R) :
    Prop :=
  (promptCalls models encode prompt).flatMap (rowsOfLayer model layer) = [row] ∧ row.rows = 1

/-- A layer called once on every prompt gives one row for each. -/
theorem layerRows_eq_map {prompts : List String} {models : List (TorchModel ι R Input)}
    {model : TorchModel ι R Input} {encode : String → Except PyError Input} {layer : String}
    {row : String → ShapedMatrix R}
    (h : ∀ prompt ∈ prompts, RowOn models model encode layer prompt (row prompt)) :
    layerRows models model encode prompts layer = prompts.map row := by
  rw [layerRows, List.flatMap_assoc, List.map_eq_flatMap]
  exact List.flatMap_congr fun prompt hmem => (h prompt hmem).1

/-- The row of a prompt is found below those of the prompts before it. -/
theorem rowBlock_map {row : String → ShapedMatrix R} {before after : List String} {prompt : String}
    (hcols : ShapedMatrix.SameCols ((before ++ prompt :: after).map row))
    (hone : ∀ p ∈ before ++ prompt :: after, (row p).rows = 1) :
    (ShapedMatrix.stack ((before ++ prompt :: after).map row)).rows =
        (before ++ prompt :: after).length ∧
      (ShapedMatrix.stack ((before ++ prompt :: after).map row)).rowBlock before.length 1 =
        row prompt := by
  have hsum : ∀ l : List String, (∀ p ∈ l, (row p).rows = 1) →
      ((l.map row).map ShapedMatrix.rows).sum = l.length := by
    intro l hl
    rw [List.map_map, List.map_congr_left (f := ShapedMatrix.rows ∘ row) (g := fun _ => 1) hl,
      List.map_const', List.sum_replicate, smul_eq_mul, mul_one]
  refine ⟨(ShapedMatrix.rows_stack _).trans (hsum _ hone), ?_⟩
  rw [List.map_append, List.map_cons] at hcols ⊢
  have hblock := ShapedMatrix.rowBlock_stack hcols
  rw [hsum before fun p hp => hone p (List.mem_append_left _ hp),
    hone prompt (List.mem_append_right _ List.mem_cons_self)] at hblock
  exact hblock

end HookCollector
