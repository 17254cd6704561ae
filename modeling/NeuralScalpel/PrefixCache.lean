/-
Prefix-cache isolation between routes.

The plugin patches two functions of vLLM: the hash of a block gets the route in
`route_context` of the calling thread as an extra key, and a request is to put
its route there before its blocks are hashed.  It puts it into a new
`threading.local` object instead, which nobody reads.

* `patchedHashBlockTokens`, `patchedUpdateBlockHashes` — the two patches;
* `blockHashes_run` — the hashes of a request after any run of updates;
* `isolated_iff_firstBlocksDiffer` — two routes share no hash exactly when their
  requests already start with different blocks, or on threads with different
  contexts;
* `isolated_of_context` — with the route in the context they never share one.
-/
import NeuralScalpel.HashChain
import NeuralScalpel.Runs
import NeuralScalpel.Runtime

open HashChain

namespace KvCache

/-! ### Thread-local objects -/

/-- The attribute `active_route_id` of the `threading.local` objects, for each
object and thread, and the next object to be created.  The module's own object
exists. -/
structure ThreadLocals where
  activeRouteId : ℕ → ℕ → Option String
  next : ℕ
  exists_routeContext : 0 < next

namespace ThreadLocals

/-- The module's `route_context`. -/
def routeContext : ℕ := 0

/-- `threading.local()`. -/
def create (locals : ThreadLocals) : ℕ × ThreadLocals :=
  (locals.next, {
    activeRouteId := Function.update locals.activeRouteId locals.next fun _ => none
    next := locals.next + 1
    exists_routeContext := Nat.succ_pos _ })

def setattr (locals : ThreadLocals) (object thread : ℕ) (value : String) : ThreadLocals :=
  { locals with
    activeRouteId := Function.update locals.activeRouteId object
      (Function.update (locals.activeRouteId object) thread (some value)) }

def getattr (locals : ThreadLocals) (object thread : ℕ) (default : String) : String :=
  (locals.activeRouteId object thread).getD default

/-- What the patched hash reads on a thread. -/
def contextRoute (locals : ThreadLocals) (thread : ℕ) : String :=
  locals.getattr routeContext thread baseRoute

@[simp] theorem activeRouteId_setattr_of_ne {object object' : ℕ} (h : object' ≠ object)
    (locals : ThreadLocals) (thread : ℕ) (value : String) :
    (locals.setattr object thread value).activeRouteId object' = locals.activeRouteId object' :=
  Function.update_of_ne h _ _

/-- A value set in a new object is not seen through `route_context`. -/
theorem contextRoute_setattr_create (locals : ThreadLocals) (thread : ℕ) (value : String) :
    (locals.create.2.setattr locals.create.1 thread value).contextRoute = locals.contextRoute := by
  have hne : routeContext ≠ locals.next := Nat.ne_of_lt locals.exists_routeContext
  funext thread'
  have hset : (locals.create.2.setattr locals.create.1 thread value).activeRouteId routeContext =
      locals.create.2.activeRouteId routeContext := activeRouteId_setattr_of_ne hne ..
  have hcreate : locals.create.2.activeRouteId routeContext = locals.activeRouteId routeContext :=
    Function.update_of_ne hne _ _
  rw [contextRoute, getattr, hset, hcreate]
  rfl

end ThreadLocals

/-! ### vLLM -/

/-- An extra key of a block: a pair of strings, or something else. -/
inductive ExtraKey (κ : Type) where
  | pair (name value : String)
  | other (key : κ)
  deriving DecidableEq

structure Block (κ : Type) where
  tokenIds : List ℕ
  extraKeys : Option (List (ExtraKey κ))

variable {φ η κ : Type}

/-- A request, with the attribute `route_id` if it has one. -/
structure Request (η : Type) where
  routeId : Option String
  blockHashes : List η

/-- The request with the hashes of more blocks, each with the hash before it as
the parent. -/
def Request.extend {β : Type} (request : Request η) (hash : Option η → β → η) (blocks : List β) :
    Request η :=
  { request with
    blockHashes := request.blockHashes ++ chain hash request.blockHashes.getLast? blocks }

/-- `hash_function`, `parent_block_hash`, `curr_block_token_ids` and
`extra_keys` to the hash of the block. -/
abbrev HashBlockTokens (φ η κ : Type) :=
  φ → Option η → List ℕ → Option (List (ExtraKey κ)) → η

/-- The two functions before they are patched.  The update of a request calls the
hash that is installed on its new full blocks. -/
structure Vllm (φ η κ : Type) where
  hashBlockTokens : HashBlockTokens φ η κ
  updateBlockHashes : HashBlockTokens φ η κ → List (Block κ) → Request η → Request η

/-- What the plugin relies on: the hash is injective, and the update appends the
hashes of the new blocks, each with the hash before it as the parent. -/
structure Vllm.Documented (vllm : Vllm φ η κ) : Prop where
  injective : ∀ f p ts ks p' ts' ks',
    vllm.hashBlockTokens f p ts ks = vllm.hashBlockTokens f p' ts' ks' →
      p = p' ∧ ts = ts' ∧ ks = ks'
  chained : ∃ f, ∀ hash blocks request, vllm.updateBlockHashes hash blocks request =
    request.extend (fun p block => hash f p block.tokenIds block.extraKeys) blocks

/-! ### The patches -/

def patchedHashBlockTokens (original : HashBlockTokens φ η κ) (locals : ThreadLocals)
    (thread : ℕ) : HashBlockTokens φ η κ :=
  fun hashFunction parentBlockHash currBlockTokenIds extraKeys =>
    let activeRoute := locals.getattr ThreadLocals.routeContext thread baseRoute
    original hashFunction parentBlockHash currBlockTokenIds
      (some (extraKeys.getD [] ++ [.pair "scalpel_route" activeRoute]))

/-- The local name `thread_local` is a new object, not the module's. -/
def patchedUpdateBlockHashes (vllm : Vllm φ η κ) (thread : ℕ) (blocks : List (Block κ))
    (self : Request η) (locals : ThreadLocals) : Request η × ThreadLocals :=
  let (threadLocal, locals) := locals.create
  -- not `routeContext`: the hash below reads what was there before
  let locals := locals.setattr threadLocal thread (self.routeId.getD baseRoute)
  (vllm.updateBlockHashes (patchedHashBlockTokens vllm.hashBlockTokens locals thread) blocks self,
    locals)

/-! ### Runs of updates -/

/-- An update of a request on a thread, with its full blocks that are new. -/
structure Update (κ : Type) where
  thread : ℕ
  request : ℕ
  blocks : List (Block κ)

/-- The thread-local objects and the requests. -/
structure Engine (η : Type) where
  locals : ThreadLocals
  requests : ℕ → Request η

namespace Engine

/-- The requests have arrived, and none of their blocks is hashed. -/
def arrived (locals : ThreadLocals) (routes : ℕ → Option String) : Engine η :=
  ⟨locals, fun i => ⟨routes i, []⟩⟩

def afterUpdate (vllm : Vllm φ η κ) (engine : Engine η) (update : Update κ) : Engine η :=
  let after := patchedUpdateBlockHashes vllm update.thread update.blocks
    (engine.requests update.request) engine.locals
  ⟨after.2, Function.update engine.requests update.request after.1⟩

/-- No hash of a request is a hash of a request with another route. -/
def Isolated (engine : Engine η) : Prop :=
  ∀ i j, (engine.requests i).routeId.getD baseRoute ≠ (engine.requests j).routeId.getD baseRoute →
    (engine.requests i).blockHashes.Disjoint (engine.requests j).blockHashes

end Engine

/-- The blocks of a request in the order they are hashed, each with its
thread. -/
def blocksOf (updates : List (Update κ)) (request : ℕ) : List (ℕ × Block κ) :=
  (updates.filter (·.request = request)).flatMap fun u => u.blocks.map fun b => (u.thread, b)

/-- What of a block enters its hash beside the parent. -/
def hashed (locals : ThreadLocals) (b : ℕ × Block κ) : List ℕ × List (ExtraKey κ) :=
  (b.2.tokenIds, b.2.extraKeys.getD [] ++ [.pair "scalpel_route" (locals.contextRoute b.1)])

theorem hashed_eq_iff {locals : ThreadLocals} {b b' : ℕ × Block κ} :
    hashed locals b = hashed locals b' ↔ b.2.tokenIds = b'.2.tokenIds ∧
      b.2.extraKeys.getD [] = b'.2.extraKeys.getD [] ∧
      locals.contextRoute b.1 = locals.contextRoute b'.1 := by
  simp [hashed, ← List.concat_eq_append, List.concat_inj]

theorem blocksOf_concat (updates : List (Update κ)) (u : Update κ) (i : ℕ) :
    blocksOf (updates ++ [u]) i = blocksOf updates i ++
      (if u.request = i then u.blocks.map fun b => (u.thread, b) else []) := by
  by_cases h : u.request = i <;> simp [blocksOf, h]

/-- The hash as a function of the parent and of what enters it beside. -/
def hashOf (vllm : Vllm φ η κ) (f : φ) (p : Option η) (b : List ℕ × List (ExtraKey κ)) : η :=
  vllm.hashBlockTokens f p b.1 (some b.2)

/-- The engine after some updates: each request has the chain of its blocks, with
the routes in the contexts of the start. -/
structure Chained (vllm : Vllm φ η κ) (f : φ) (locals : ThreadLocals) (routes : ℕ → Option String)
    (updates : List (Update κ)) (engine : Engine η) : Prop where
  context : engine.locals.contextRoute = locals.contextRoute
  requests : ∀ i, engine.requests i =
    ⟨routes i, chain (hashOf vllm f) none ((blocksOf updates i).map (hashed locals))⟩

section Runs

variable {vllm : Vllm φ η κ} {f : φ}
  (hchained : ∀ hash blocks request, vllm.updateBlockHashes hash blocks request =
    request.extend (fun p block => hash f p block.tokenIds block.extraKeys) blocks)

include hchained in
/-- The new hashes have the route of the context, whatever the route of the
request is. -/
theorem patchedUpdateBlockHashes_fst (thread : ℕ) (blocks : List (Block κ)) (self : Request η)
    (locals : ThreadLocals) :
    (patchedUpdateBlockHashes vllm thread blocks self locals).1 =
      self.extend (hashOf vllm f) ((blocks.map fun b => (thread, b)).map (hashed locals)) := by
  have hcontext : (locals.create.2.setattr locals.create.1 thread
      (self.routeId.getD baseRoute)).contextRoute thread = locals.contextRoute thread :=
    congrFun (locals.contextRoute_setattr_create ..) thread
  refine (hchained ..).trans ?_
  rw [Request.extend, Request.extend, List.map_map, chain_map]
  simp only [hashOf, patchedHashBlockTokens, hashed, Function.comp_apply, ← hcontext]
  rfl

include hchained in
/-- One update adds its blocks to the chain of its request. -/
theorem afterUpdate_chained {locals : ThreadLocals} {routes : ℕ → Option String}
    {updates : List (Update κ)} {engine : Engine η}
    (h : Chained vllm f locals routes updates engine) (u : Update κ) :
    Chained vllm f locals routes (updates ++ [u]) (engine.afterUpdate vllm u) := by
  constructor
  · have hcontext := engine.locals.contextRoute_setattr_create u.thread
      ((engine.requests u.request).routeId.getD baseRoute)
    exact hcontext.trans h.context
  · intro i
    have hhashed : hashed (κ := κ) engine.locals = hashed locals := by
      funext b
      rw [hashed, hashed, h.context]
    rw [blocksOf_concat]
    -- only the updated request changes, by the chain of its new blocks
    by_cases hi : u.request = i
    · subst hi
      rw [if_pos rfl, List.map_append, chain_append]
      refine (Function.update_self ..).trans ((patchedUpdateBlockHashes_fst hchained ..).trans ?_)
      rw [hhashed, h.requests, Request.extend, getLast?_chain]
    · rw [if_neg hi, List.append_nil, ← h.requests i]
      exact Function.update_of_ne (Ne.symm hi) _ _

include hchained in
/-- The hashes after any run of updates. -/
theorem run_chained (locals : ThreadLocals) (routes : ℕ → Option String)
    (updates : List (Update κ)) :
    Chained vllm f locals routes updates
      (Runs.run (Engine.afterUpdate vllm) (.arrived locals routes) updates) := by
  induction updates using List.reverseRecOn with
  | nil => exact ⟨rfl, fun _ => rfl⟩
  | append_singleton updates u ih =>
    rw [Runs.run_append]
    exact afterUpdate_chained hchained ih u

end Runs

/-! ### Isolation -/

/-- Two requests with different routes have first blocks that differ in their
tokens, in their own extra keys or in the contexts of their threads. -/
def FirstBlocksDiffer (locals : ThreadLocals) (routes : ℕ → Option String)
    (updates : List (Update κ)) : Prop :=
  ∀ i j, (routes i).getD baseRoute ≠ (routes j).getD baseRoute →
    ∀ b ∈ (blocksOf updates i).head?, ∀ b' ∈ (blocksOf updates j).head?,
      ¬(b.2.tokenIds = b'.2.tokenIds ∧ b.2.extraKeys.getD [] = b'.2.extraKeys.getD [] ∧
        locals.contextRoute b.1 = locals.contextRoute b'.1)

/-- **Requests with different routes share no block hash exactly when their first
blocks differ.** -/
theorem isolated_iff_firstBlocksDiffer {vllm : Vllm φ η κ} (h : vllm.Documented)
    (locals : ThreadLocals) (routes : ℕ → Option String) (updates : List (Update κ)) :
    (Runs.run (Engine.afterUpdate vllm) (.arrived locals routes) updates).Isolated ↔
      FirstBlocksDiffer locals routes updates := by
  obtain ⟨f, hchained⟩ := h.chained
  have hrequests := (run_chained hchained locals routes updates).requests
  have hinj : ∀ p b p' b', hashOf vllm f p b = hashOf vllm f p' b' → p = p' ∧ b = b' := by
    intro p b p' b' heq
    obtain ⟨hp, htokens, hkeys⟩ := h.injective _ _ _ _ _ _ _ heq
    exact ⟨hp, Prod.ext htokens (Option.some.inj hkeys)⟩
  unfold Engine.Isolated FirstBlocksDiffer
  simp only [hrequests, chain_disjoint_iff hinj, List.head?_map, Option.mem_def,
    Option.map_eq_some_iff, forall_exists_index, and_imp, forall_apply_eq_imp_iff₂, ne_eq,
    hashed_eq_iff]

/-- With the route of the request in the context of every thread that hashes
its blocks, no hash is shared. -/
theorem isolated_of_context {vllm : Vllm φ η κ} (h : vllm.Documented) {locals : ThreadLocals}
    {routes : ℕ → Option String} {updates : List (Update κ)}
    (hcontext : ∀ u ∈ updates, locals.contextRoute u.thread = (routes u.request).getD baseRoute) :
    (Runs.run (Engine.afterUpdate vllm) (.arrived locals routes) updates).Isolated := by
  obtain ⟨f, hchained⟩ := h.chained
  have hrequests := (run_chained hchained locals routes updates).requests
  have hblock : ∀ {i x}, x ∈ ((blocksOf updates i).map (hashed locals)).head? → ∃ b,
      hashed locals b = x ∧ locals.contextRoute b.1 = (routes i).getD baseRoute := by
    intro i x hx
    obtain ⟨b, hb, rfl⟩ := List.mem_map.mp (List.mem_of_mem_head? hx)
    simp only [blocksOf, List.mem_flatMap, List.mem_filter, decide_eq_true_eq, List.mem_map] at hb
    obtain ⟨u, ⟨hu, rfl⟩, _, _, rfl⟩ := hb
    exact ⟨_, rfl, hcontext u hu⟩
  intro i j hne
  rw [hrequests, hrequests] at hne ⊢
  refine (chain_disjoint_iff fun p b p' b' heq => ?_).mpr fun x hx x' hx' hxx' => hne ?_
  · obtain ⟨hp, htokens, hkeys⟩ := h.injective _ _ _ _ _ _ _ heq
    exact ⟨hp, Prod.ext htokens (Option.some.inj hkeys)⟩
  · obtain ⟨b, rfl, hb⟩ := hblock hx
    obtain ⟨b', rfl, hb'⟩ := hblock hx'
    exact hb.symm.trans ((hashed_eq_iff.mp hxx').2.2.trans hb')

/-! ### Two requests with one prompt -/

namespace Demo

/-- A hash that keeps what it is given. -/
inductive Digest where
  | block (parent : Option Digest) (tokens : List ℕ) (keys : Option (List (ExtraKey Unit)))

def vllm : Vllm Unit Digest Unit where
  hashBlockTokens _ := .block
  updateBlockHashes hash blocks request :=
    request.extend (fun p b => hash () p b.tokenIds b.extraKeys) blocks

theorem documented_vllm : vllm.Documented :=
  ⟨fun _ _ _ _ _ _ _ heq => Digest.block.inj heq, (), fun _ _ _ => rfl⟩

/-- Nothing is set on any thread. -/
def unset : ThreadLocals := ⟨fun _ _ => none, 1, Nat.one_pos⟩

/-- The routes of the requests: `a` for request 0 and `b` for the others. -/
def routes (i : ℕ) : Option String := some (if i = 0 then "a" else "b")

end Demo

/-- Two requests for different routes with different prompts share no hash. -/
theorem isolated_iff_firstBlocksDiffer_two :
    (Runs.run (Engine.afterUpdate Demo.vllm) (.arrived Demo.unset Demo.routes)
      [⟨0, 0, [⟨[1, 2], none⟩]⟩, ⟨0, 1, [⟨[3, 4], none⟩]⟩]).Isolated := by
  refine (isolated_iff_firstBlocksDiffer Demo.documented_vllm _ _ _).mpr ?_
  rintro i j hne b hb b' hb' ⟨htokens, -, -⟩
  rcases i with _ | _ | i <;> rcases j with _ | _ | j <;>
    simp [blocksOf, Demo.routes] at hne hb hb' <;> subst hb hb' <;> simp at htokens

/-- Two requests for different routes with the same prompt share a block hash. -/
theorem not_isolated_same_prompt :
    Demo.vllm.Documented ∧
      ¬(Runs.run (Engine.afterUpdate Demo.vllm) (.arrived Demo.unset Demo.routes)
        [⟨0, 0, [⟨[1, 2], none⟩]⟩, ⟨0, 1, [⟨[1, 2], none⟩]⟩]).Isolated := by
  refine ⟨Demo.documented_vllm, fun h => ?_⟩
  exact h 0 1 (by decide) List.mem_cons_self List.mem_cons_self

end KvCache
