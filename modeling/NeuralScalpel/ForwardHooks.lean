/-
Modules watched by hooks.

A collector puts a hook on every module it is asked for and keeps, each time
the module is called, the last token of its input.  Module objects, hooks and
collectors are known by numbers; models may share module objects, and any
number of collectors may watch one module.

* `tidy_runPrompt` — running models leaves the hooks where they are;
* `activations_run` — a collector keeps, in order, the inputs of the calls of
  its modules, by whichever model they are made.
-/
import NeuralScalpel.DictFill
import NeuralScalpel.Effect
import NeuralScalpel.Stacking
import Mathlib.Logic.Function.Basic

open Effect

namespace HookCollector

variable {ι R Input : Type} [Zero R]

/-! ### What a hook keeps -/

/-- A tensor of two dimensions, or of three: samples, tokens, features. -/
inductive Activation (R : Type) [Zero R]
  | matrix (m : ShapedMatrix R)
  | batch (size seq dim : ℕ) (entry : ℕ → ℕ → ℕ → R)

/-- What a module was called with, as its hooks get it. -/
inductive HookInput (R : Type) [Zero R]
  | tuple (inputs : List (Activation R))
  | bare (input : Activation R)

/-- `data[:, -1, :]` of three dimensions, and two as they are. -/
def Activation.lastToken : Activation R → Except PyError (ShapedMatrix R)
  | .matrix m => .ok m
  | .batch size seq dim entry =>
    if seq = 0 then
      .error (.external "IndexError: index -1 is out of bounds for dimension 1 with size 0")
    else .ok (.ofFn size dim fun sample j => entry sample (seq - 1) j)

def HookInput.data : HookInput R → Except PyError (ShapedMatrix R)
  | .tuple [] => .error (.external "IndexError: tuple index out of range")
  | .tuple (input :: _) => input.lastToken
  | .bare input => input.lastToken

/-- The rows an input gives, if it gives any. -/
def HookInput.rows (input : HookInput R) : List (ShapedMatrix R) := input.data.toOption.toList

/-! ### Models and what watches them -/

/-- A model. `named_modules` walks to every module object once, under one name;
a forward pass calls modules, and may raise after some of the calls. -/
structure TorchModel (ι R Input : Type) [Zero R] where
  namedModules : List (String × ι)
  names_nodup : (namedModules.map Prod.fst).Nodup
  forward : Input → List (ι × HookInput R) × Option PyError
  nameOrPath : Option String

/-- A hook on a module: that of a collector under a name, or another. -/
structure Hook where
  id : ℕ
  owner : Option (ℕ × String)
  deriving DecidableEq

/-- `HookCollector`, with a list of activations for each of its modules. -/
structure Collector (ι R : Type) [Zero R] where
  targetModules : List String
  activations : Dict String (List (ShapedMatrix R))
  hooks : List (ι × ℕ)
  listed : ∀ name, activations.contains name = true ↔ name ∈ targetModules

namespace Collector

def new (ι : Type) (targetModules : List String) : Collector ι R where
  targetModules := targetModules
  activations := .ofWrites (targetModules.map (·, []))
  hooks := []
  listed name := by
    have hkeys : (targetModules.map fun m => (m, ([] : List (ShapedMatrix R)))).map Prod.fst =
        targetModules := by
      rw [List.map_map]
      exact List.map_id _
    rw [Dict.contains_iff]
    constructor
    · rintro ⟨acts, hget⟩
      by_contra hname
      rw [Dict.get?_ofWrites_of_not_mem (hkeys.symm ▸ hname)] at hget
      cases hget
    · exact fun hname =>
        Option.ne_none_iff_exists'.mp (Dict.get?_ofWrites_ne_none (hkeys.symm ▸ hname))

/-- `self.activations[name].append(data)`. -/
def append (collector : Collector ι R) {name : String} (data : ShapedMatrix R)
    (h : collector.activations.contains name = true) : Collector ι R where
  targetModules := collector.targetModules
  activations := collector.activations.set name
    ((collector.activations.get? name).getD [] ++ [data])
  hooks := collector.hooks
  listed name' := by
    rw [Dict.contains_set, ← collector.listed]
    exact ⟨fun hor => hor.elim (fun heq => heq ▸ h) id, .inr⟩

end Collector

/-- The hooks on the modules, and the collectors made so far.  Hooks are
numbered in the order they are registered, and a hook of a collector is under a
name it lists. -/
structure World (ι R : Type) [Zero R] where
  hooks : ι → List Hook
  nextId : ℕ
  collectors : ℕ → Collector ι R
  nextCollector : ℕ
  fresh : ∀ m, ∀ hook ∈ hooks m, hook.id < nextId
  owned : ∀ m, ∀ hook ∈ hooks m, ∀ c name, hook.owner = some (c, name) →
    c < nextCollector ∧ name ∈ (collectors c).targetModules

namespace World

/-- `HookCollector(model, target_modules)`. -/
def create (w : World ι R) (targetModules : List String) : World ι R :=
  { w with
    collectors := Function.update w.collectors w.nextCollector (.new ι targetModules)
    nextCollector := w.nextCollector + 1
    owned := fun m hook hmem c name howner => by
      obtain ⟨hlt, hname⟩ := w.owned m hook hmem c name howner
      rw [Function.update_of_ne hlt.ne]
      exact ⟨hlt.trans (Nat.lt_succ_self _), hname⟩ }

/-- Give a collector what it has become, if it still lists the same modules. -/
def setCollector (w : World ι R) (c : ℕ) (collector : Collector ι R)
    (h : collector.targetModules = (w.collectors c).targetModules) : World ι R :=
  { w with
    collectors := Function.update w.collectors c collector
    owned := fun m hook hmem c' name howner => by
      obtain ⟨hlt, hname⟩ := w.owned m hook hmem c' name howner
      refine ⟨hlt, ?_⟩
      by_cases hc : c' = c
      · subst hc
        rw [Function.update_self, h]
        exact hname
      · rw [Function.update_of_ne hc]
        exact hname }

/-- The hook of a collector under a name is called. -/
def record (w : World ι R) {c : ℕ} {name : String} (data : ShapedMatrix R)
    (h : (w.collectors c).activations.contains name = true) : World ι R :=
  w.setCollector c ((w.collectors c).append data h) rfl

/-- The activations a collector has under a name. -/
def activations (w : World ι R) (c : ℕ) (name : String) : List (ShapedMatrix R) :=
  ((w.collectors c).activations.get? name).getD []

end World

/-! ### The collector at work -/

abbrev WorldM (ι R : Type) [Zero R] := EStateM PyError (World ι R)

/-- A hook is called after its module. -/
def runHook (input : HookInput R) (hook : Hook) : WorldM ι R Unit :=
  match hook.owner with
  | none => pure ()
  | some (c, name) => do
    let data ← Effect.ofExcept input.data
    let w ← get
    if h : (w.collectors c).activations.contains name = true then set (w.record data h)
    else throw (.keyError name)

/-- The hooks on a module are called in the order they were put there. -/
def runCall (call : ι × HookInput R) : WorldM ι R Unit := do
  let w ← get
  forEach (fun _ hook => runHook call.2 hook) 0 (w.hooks call.1)

/-- `model(**inputs)`. -/
def runForward (model : TorchModel ι R Input) (inputs : Input) : WorldM ι R Unit := do
  forEach (fun _ call => runCall call) 0 (model.forward inputs).1
  match (model.forward inputs).2 with
  | none => pure ()
  | some e => throw e

/-- The activations of one module, stacked if there are any. -/
def stackModule (_name : String) (acts : List (ShapedMatrix R)) :
    Except PyError (Option (ShapedMatrix R)) :=
  if acts.isEmpty then .ok none else some <$> ShapedMatrix.catRows acts

def getStacked (c : ℕ) : WorldM ι R (Dict String (ShapedMatrix R)) := do
  let w ← get
  Effect.ofExcept (Dict.fill stackModule (w.collectors c).activations.entries .empty)

/-- The body of the loop on the prompts: format, tokenise, run every model. -/
def runPrompt (models : List (TorchModel ι R Input)) (encode : String → Except PyError Input)
    (prompt : String) : WorldM ι R Unit := do
  let inputs ← Effect.ofExcept (encode prompt)
  forEach (fun _ model => runForward model inputs) 0 models

/-! ### Hooks stay -/

@[simp] theorem collectors_create_self (w : World ι R) (targetModules : List String) :
    (w.create targetModules).collectors w.nextCollector = .new ι targetModules :=
  Function.update_self _ _ _

theorem collectors_create_of_ne {w : World ι R} {c : ℕ} (hc : c ≠ w.nextCollector)
    (targetModules : List String) : (w.create targetModules).collectors c = w.collectors c :=
  Function.update_of_ne hc _ _

/-- Every hook is where it was, and no earlier collector has lost or gained one. -/
structure Tidy (w w' : World ι R) : Prop where
  hooks : w'.hooks = w.hooks
  nextId_le : w.nextId ≤ w'.nextId
  nextCollector_le : w.nextCollector ≤ w'.nextCollector
  handles : ∀ c < w.nextCollector, (w'.collectors c).hooks = (w.collectors c).hooks

instance : IsPreorder (World ι R) Tidy where
  refl _ := ⟨rfl, le_rfl, le_rfl, fun _ _ => rfl⟩
  trans _ _ _ h h' := ⟨h'.hooks.trans h.hooks, h.nextId_le.trans h'.nextId_le,
    h.nextCollector_le.trans h'.nextCollector_le, fun c hc =>
      (h'.handles c (hc.trans_le h.nextCollector_le)).trans (h.handles c hc)⟩

theorem tidy_record {w : World ι R} {c : ℕ} {name : String} {data : ShapedMatrix R}
    (h : (w.collectors c).activations.contains name = true) : Tidy w (w.record data h) := by
  refine ⟨rfl, le_rfl, le_rfl, fun c' _ => ?_⟩
  show (Function.update w.collectors c _ c').hooks = _
  by_cases hc : c' = c
  · rw [hc, Function.update_self]
    rfl
  · rw [Function.update_of_ne hc]

/-- A hook does nothing, or records what it kept, or raises. -/
theorem runHook_cases (input : HookInput R) (hook : Hook) (w : World ι R) :
    (hook.owner = none ∧ runHook input hook w = .ok () w) ∨
    (∃ c name data, ∃ h : (w.collectors c).activations.contains name = true,
      hook.owner = some (c, name) ∧ input.data = .ok data ∧
        runHook input hook w = .ok () (w.record data h)) ∨
    ∃ e, runHook input hook w = .error e w := by
  unfold runHook
  rcases hook.owner with _ | ⟨c, name⟩
  · exact .inl ⟨rfl, rfl⟩
  · right
    cases hdata : input.data with
    | error e => exact .inr ⟨e, rfl⟩
    | ok data =>
      by_cases h : (w.collectors c).activations.contains name = true
      · exact .inl ⟨c, name, data, h, rfl, rfl, by
          show (if h : _ then _ else _ : WorldM ι R Unit) w = _
          rw [dif_pos h]
          rfl⟩
      · exact .inr ⟨.keyError name, by
          show (if h : _ then _ else _ : WorldM ι R Unit) w = _
          rw [dif_neg h]
          rfl⟩

theorem tidy_runHook (input : HookInput R) (hook : Hook) :
    Keeps (Tidy (ι := ι)) (runHook input hook) := by
  intro w
  unfold wp
  obtain ⟨-, hrun⟩ | ⟨c, name, data, h, -, -, hrun⟩ | ⟨e, hrun⟩ := runHook_cases input hook w
  · rw [hrun]
    exact refl_of Tidy w
  · rw [hrun]
    exact tidy_record h
  · rw [hrun]
    exact refl_of Tidy w

theorem tidy_runCall (call : ι × HookInput R) : Keeps Tidy (runCall call) :=
  .bind .get fun _ => .forEach (fun _ => tidy_runHook call.2) _ _

theorem tidy_runForward (model : TorchModel ι R Input) (inputs : Input) :
    Keeps Tidy (runForward model inputs) := by
  refine .bind (.forEach (fun _ => tidy_runCall) _ _) fun _ => ?_
  split
  · exact .pure ()
  · exact .throw _

theorem tidy_runPrompt (models : List (TorchModel ι R Input))
    (encode : String → Except PyError Input) (prompt : String) :
    Keeps Tidy (runPrompt models encode prompt) :=
  .bind (.ofExcept _) fun inputs => .forEach (fun _ model => tidy_runForward model inputs) _ _

theorem tidy_getStacked (c : ℕ) : Keeps (Tidy (ι := ι) (R := R)) (getStacked c) :=
  .bind .get fun _ => .ofExcept _

/-! ### What is kept -/

/-- The rows a call gives an owner with these hooks in place. -/
def rowsOfCall (hooks : ι → List Hook) (owner : ℕ × String) (call : ι × HookInput R) :
    List (ShapedMatrix R) :=
  (hooks call.1).flatMap fun hook => if hook.owner = some owner then call.2.rows else []

/-- The hooks are the same, and the owner has these rows more. -/
structure Gains (owner : ℕ × String) (rows : List (ShapedMatrix R)) (w w' : World ι R) : Prop where
  hooks : w'.hooks = w.hooks
  activations : w'.activations owner.1 owner.2 = w.activations owner.1 owner.2 ++ rows

namespace Gains

variable {owner : ℕ × String} {rows rows' : List (ShapedMatrix R)} {w w' w'' : World ι R}

theorem nil (owner : ℕ × String) (w : World ι R) : Gains owner [] w w :=
  ⟨rfl, (List.append_nil _).symm⟩

theorem append (h : Gains owner rows w w') (h' : Gains owner rows' w' w'') :
    Gains owner (rows ++ rows') w w'' :=
  ⟨h'.hooks.trans h.hooks, by rw [h'.activations, h.activations, List.append_assoc]⟩

/-- A loop gains what its rounds gain. -/
theorem forEach {β : Type} {body : ℕ → β → WorldM ι R Unit}
    (rows : (ι → List Hook) → β → List (ShapedMatrix R))
    (hbody : ∀ i x w, wp (body i x) (fun _ w' => Gains owner (rows w.hooks x) w w')
      (fun _ _ => True) w) :
    ∀ {xs : List β} {i : ℕ} {w : World ι R}, wp (forEach body i xs)
      (fun _ w' => Gains owner (xs.flatMap (rows w.hooks)) w w') (fun _ _ => True) w := by
  intro xs
  induction xs with
  | nil => exact fun {_ w} => nil owner w
  | cons x xs ih =>
    intro i w
    rw [Effect.forEach, wp_bind]
    refine (hbody i x w).mono (fun _ w' h => ?_) fun _ _ _ => trivial
    refine (ih (w := w')).mono (fun _ w'' h' => ?_) fun _ _ _ => trivial
    rw [List.flatMap_cons]
    exact h.append (h.hooks ▸ h')

end Gains

theorem gains_record {w : World ι R} {c : ℕ} {name : String} {data : ShapedMatrix R}
    (h : (w.collectors c).activations.contains name = true) (owner : ℕ × String) :
    Gains owner (if some (c, name) = some owner then [data] else []) w (w.record data h) := by
  refine ⟨rfl, ?_⟩
  obtain ⟨c', name'⟩ := owner
  show (((Function.update w.collectors c _) c').activations.get? name').getD [] = _
  by_cases hc : c' = c
  · subst hc
    rw [Function.update_self]
    show ((Dict.set _ name _).get? name').getD [] = _
    rw [Dict.get?_set]
    by_cases hname : name' = name
    · rw [if_pos hname, hname, if_pos rfl]
      rfl
    · rw [if_neg hname, if_neg fun h => hname (Prod.mk.inj (Option.some.inj h)).2.symm,
        List.append_nil]
      rfl
  · rw [Function.update_of_ne hc, if_neg fun h => hc (Prod.mk.inj (Option.some.inj h)).1.symm,
      List.append_nil]
    rfl

theorem gains_runHook (owner : ℕ × String) (input : HookInput R) (hook : Hook) (w : World ι R) :
    wp (runHook input hook)
      (fun _ w' => Gains owner (if hook.owner = some owner then input.rows else []) w w')
      (fun _ _ => True) w := by
  unfold wp
  obtain ⟨hnone, hrun⟩ | ⟨c, name, data, h, howner, hdata, hrun⟩ | ⟨e, hrun⟩ :=
    runHook_cases input hook w
  · rw [hrun, hnone, if_neg (Option.some_ne_none owner).symm]
    exact .nil owner w
  · have hrows : input.rows = [data] := by
      rw [HookInput.rows, hdata]
      rfl
    rw [hrun, howner, hrows]
    exact gains_record h owner
  · rw [hrun]
    trivial

theorem gains_runCall (owner : ℕ × String) (call : ι × HookInput R) (w : World ι R) :
    wp (runCall call) (fun _ w' => Gains owner (rowsOfCall w.hooks owner call) w w')
      (fun _ _ => True) w := by
  rw [runCall, wp_bind, wp_get]
  exact Gains.forEach (fun _ hook => if hook.owner = some owner then call.2.rows else [])
    fun _ hook w => gains_runHook owner call.2 hook w

theorem gains_runForward (owner : ℕ × String) (model : TorchModel ι R Input) (inputs : Input)
    (w : World ι R) : wp (runForward model inputs)
      (fun _ w' => Gains owner ((model.forward inputs).1.flatMap (rowsOfCall w.hooks owner)) w w')
      (fun _ _ => True) w := by
  rw [runForward, wp_bind]
  refine (Gains.forEach (rowsOfCall · owner) fun _ call w => gains_runCall owner call w).mono
    (fun _ w' h => ?_) fun _ _ _ => trivial
  split
  · exact h
  · trivial

/-- The calls of modules on one prompt. -/
def promptCalls (models : List (TorchModel ι R Input)) (encode : String → Except PyError Input)
    (prompt : String) : List (ι × HookInput R) :=
  match encode prompt with
  | .ok inputs => models.flatMap fun model => (model.forward inputs).1
  | .error _ => []

theorem gains_runPrompt (owner : ℕ × String) (models : List (TorchModel ι R Input))
    (encode : String → Except PyError Input) (prompt : String) (w : World ι R) :
    wp (runPrompt models encode prompt) (fun _ w' => Gains owner
      ((promptCalls models encode prompt).flatMap (rowsOfCall w.hooks owner)) w w')
      (fun _ _ => True) w := by
  rw [runPrompt, wp_bind, promptCalls]
  cases encode prompt with
  | error e => exact trivial
  | ok inputs =>
    refine (Gains.forEach (fun hooks model => (model.forward inputs).1.flatMap
      (rowsOfCall hooks owner)) fun _ model w => gains_runForward owner model inputs w).mono
        (fun _ w' h => ?_) fun _ _ _ => trivial
    rw [List.flatMap_assoc]
    exact h

theorem gains_runPrompts (owner : ℕ × String) (models : List (TorchModel ι R Input))
    (encode : String → Except PyError Input) (prompts : List String) (w : World ι R) :
    wp (forEach (fun _ prompt => runPrompt models encode prompt) 0 prompts)
      (fun _ w' => Gains owner
        ((prompts.flatMap (promptCalls models encode)).flatMap (rowsOfCall w.hooks owner)) w w')
      (fun _ _ => True) w := by
  rw [List.flatMap_assoc]
  exact Gains.forEach (fun hooks prompt => (promptCalls models encode prompt).flatMap
    (rowsOfCall hooks owner)) fun _ prompt w => gains_runPrompt owner models encode prompt w

/-- Every collector keeps the inputs of the calls of its modules, in order,
whichever model makes them. -/
theorem activations_run (models : List (TorchModel ι R Input))
    (encode : String → Except PyError Input) (prompts : List String) (w : World ι R) :
    wp (forEach (fun _ prompt => runPrompt models encode prompt) 0 prompts)
      (fun _ w' => ∀ owner, Gains owner
        ((prompts.flatMap (promptCalls models encode)).flatMap (rowsOfCall w.hooks owner)) w w')
      (fun _ _ => True) w := by
  have hgains := fun owner => gains_runPrompts owner models encode prompts w
  unfold wp at hgains ⊢
  cases hrun : forEach (fun _ prompt => runPrompt models encode prompt) 0 prompts w with
  | ok u w' =>
    rw [hrun] at hgains
    exact hgains
  | error e w' => trivial

end HookCollector
