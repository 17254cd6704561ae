/-
The bridge that keeps KV cache blocks apart.

`validateKvCacheAllocation` refuses a block that is tagged with another route
and tags the blocks it accepts; `interceptModelRunner` drops the tags of the
route that is swapped out.  Requests without a route are accepted unseen and
leave no tag.

* `lastContext` — who was last allowed to write a block, from the log of what
  was accepted and evicted;
* `tagged_run` — the tags are the routes of the last routed allocations;
* `along_routesApart` — a routed allocation is accepted exactly when no block is
  under another route;
* `not_contextsApart_base` — but base requests cross both ways.
-/
import NeuralScalpel.Dict
import NeuralScalpel.Runs
import Mathlib.Data.Int.Notation
import Mathlib.Data.List.Dedup

namespace VllmBridge

/-! ### The bridge -/

structure CacheBlockTag where
  blockId : ℤ
  routeId : Option String
  sequenceId : Option String
  deriving DecidableEq

/-- `VLLMBridgePrototype`. -/
structure Bridge where
  currentVramRoute : Option String
  cacheTags : Dict ℤ CacheBlockTag
  rejectedBatches : ℕ
  swapCount : ℕ
  cacheEvictions : ℕ

def Bridge.init : Bridge := ⟨none, .empty, 0, 0, 0⟩

/-- The different routes of a batch. -/
structure MixedRoutes where
  routeIds : List String
  deriving DecidableEq

/-- `printed` is how the set of routes is printed. -/
def MixedRoutes.message (printed : List String → String) (m : MixedRoutes) : String :=
  "FATAL SECURITY VIOLATION: vLLM attempted to mix " ++ toString m.routeIds.length ++
    " different routes in a single forward pass. Routes: " ++ printed m.routeIds ++
    ". KV Cache contamination inevitable. Batch REJECTED."

/-- A block under another route. -/
structure Contamination where
  blockId : ℤ
  owner : String
  routeId : String
  requestId : String
  deriving DecidableEq

def Contamination.message (c : Contamination) : String :=
  "KV CACHE CONTAMINATION: Block " ++ toString c.blockId ++ " was generated by route '" ++
    c.owner ++ "' but is now being assigned to route '" ++ c.routeId ++ "'. Sequence '" ++
    c.requestId ++ "' REJECTED."

/-- What the model runner has to do before the forward pass: `proceed`, with
`swap_required` false, or `swap_and_proceed`, with `swap_required` true. -/
inductive Directive
  | proceed
  | swapAndProceed (fromRoute toRoute : Option String) (evictedCacheBlocks : List ℤ)
      (note : String)
  deriving DecidableEq

def Directive.evicted : Directive → List ℤ
  | .proceed => []
  | .swapAndProceed _ _ evictedCacheBlocks _ => evictedCacheBlocks

namespace Bridge

/-- The route the block is tagged with. -/
def cacheBlockRoute (b : Bridge) (blockId : ℤ) : Option String :=
  (b.cacheTags.get? blockId).bind CacheBlockTag.routeId

/-- The route of the block, when it is another one. -/
def conflict (b : Bridge) (routeId : String) (blockId : ℤ) : Option (ℤ × String) :=
  match b.cacheBlockRoute blockId with
  | some owner => if owner ≠ routeId then some (blockId, owner) else none
  | none => none

def tagBlocks (tags : Dict ℤ CacheBlockTag) (routeId requestId : String) (blockIds : List ℤ) :
    Dict ℤ CacheBlockTag :=
  blockIds.foldl (fun tags blockId => tags.set blockId ⟨blockId, some routeId, some requestId⟩)
    tags

def validateKvCacheAllocation (b : Bridge) (requestId : String) (routeId : Option String)
    (blockIds : List ℤ) : Except Contamination Bool × Bridge :=
  match routeId with
  | none => (.ok true, b)
  | some routeId =>
    -- the empty string is no route either
    if routeId = "" then (.ok true, b)
    else
      match blockIds.findSome? (b.conflict routeId) with
      | some (blockId, owner) =>
        (.error ⟨blockId, owner, routeId, requestId⟩,
          { b with rejectedBatches := b.rejectedBatches + 1 })
      | none =>
        (.ok true, { b with cacheTags := tagBlocks b.cacheTags routeId requestId blockIds })

def interceptModelRunner (b : Bridge) (currentVramRoute targetBatchRoute : Option String) :
    Directive × Bridge :=
  if currentVramRoute = targetBatchRoute then (.proceed, b)
  else
    let evictedBlocks :=
      (b.cacheTags.entries.filter fun e => e.2.routeId = currentVramRoute).map Prod.fst
    (.swapAndProceed currentVramRoute targetBatchRoute evictedBlocks
        ("CUDA stream MUST be fully blocked until swap completes. " ++
          "PagedAttention kernels will read torn weight states otherwise."),
      { b with
        cacheTags := evictedBlocks.foldl Dict.erase b.cacheTags
        currentVramRoute := targetBatchRoute
        swapCount := b.swapCount + 1
        cacheEvictions := b.cacheEvictions + evictedBlocks.length })

end Bridge

/-! ### Runs -/

inductive Operation
  | allocate (requestId : String) (routeId : Option String) (blockIds : List ℤ)
  | intercept (currentVramRoute targetBatchRoute : Option String)

/-- The context of a request: its route, or the base. -/
def context (routeId : Option String) : Option String :=
  if routeId = some "" then none else routeId

/-- An accepted allocation, or an eviction. -/
inductive Entry
  | accepted (context : Option String) (blockIds : List ℤ)
  | evicted (blockIds : List ℤ)

/-- The context of the last accepted allocation of a block among those that
count, unless the block has been evicted since.  The log is the latest first. -/
def lastContext (counts : Option String → Bool) (blockId : ℤ) : List Entry →
    Option (Option String)
  | [] => none
  | .accepted context blockIds :: log =>
    if blockId ∈ blockIds ∧ counts context = true then some context
    else lastContext counts blockId log
  | .evicted blockIds :: log =>
    if blockId ∈ blockIds then none else lastContext counts blockId log

/-- The bridge, and the log of what it has accepted and evicted. -/
structure History where
  bridge : Bridge
  log : List Entry

namespace History

def start : History := ⟨.init, []⟩

def perform (h : History) : Operation → History
  | .allocate requestId routeId blockIds =>
    let outcome := h.bridge.validateKvCacheAllocation requestId routeId blockIds
    match outcome.1 with
    | .ok _ => ⟨outcome.2, .accepted (context routeId) blockIds :: h.log⟩
    | .error _ => ⟨outcome.2, h.log⟩
  | .intercept currentVramRoute targetBatchRoute =>
    let outcome := h.bridge.interceptModelRunner currentVramRoute targetBatchRoute
    ⟨outcome.2, .evicted outcome.1.evicted :: h.log⟩

end History

/-- An accepted block was last in the same context. -/
def ContextsApart (h : History) : Operation → Prop
  | .allocate requestId routeId blockIds =>
    (h.bridge.validateKvCacheAllocation requestId routeId blockIds).1 = .ok true →
      ∀ blockId ∈ blockIds, ∀ other,
        lastContext (fun _ => true) blockId h.log = some other → other = context routeId
  | .intercept .. => True

/-- A routed allocation is accepted exactly when no block was last allocated to
another route; a base allocation always is, and leaves no trace. -/
def RoutesApart (h : History) : Operation → Prop
  | .allocate requestId routeId blockIds =>
    let outcome := h.bridge.validateKvCacheAllocation requestId routeId blockIds
    match context routeId with
    | some route => outcome.1 = .ok true ↔
        ∀ blockId ∈ blockIds, ∀ other,
          lastContext Option.isSome blockId h.log = some other → other = some route
    | none => outcome = (.ok true, h.bridge)
  | .intercept .. => True

/-! ### The tags -/

theorem context_of_ne {routeId : String} (h : routeId ≠ "") :
    context (some routeId) = some routeId := if_neg fun heq => h (Option.some.inj heq)

theorem get?_tagBlocks {tags : Dict ℤ CacheBlockTag} {routeId requestId : String} {blockId : ℤ} :
    ∀ {blockIds : List ℤ}, (Bridge.tagBlocks tags routeId requestId blockIds).get? blockId =
      if blockId ∈ blockIds then some ⟨blockId, some routeId, some requestId⟩
      else tags.get? blockId := by
  intro blockIds
  induction blockIds generalizing tags with
  | nil => rfl
  | cons b blockIds ih =>
    rw [Bridge.tagBlocks, List.foldl_cons]
    refine ih.trans ?_
    by_cases hmem : blockId ∈ blockIds
    · rw [if_pos hmem, if_pos (List.mem_cons_of_mem b hmem)]
    · rw [if_neg hmem, Dict.get?_set]
      by_cases hb : blockId = b
      · subst hb
        rw [if_pos rfl, if_pos List.mem_cons_self]
      · have hnot : blockId ∉ b :: blockIds := fun h => (List.mem_cons.mp h).elim hb hmem
        rw [if_neg hb, if_neg hnot]

theorem get?_foldl_erase {blockId : ℤ} : ∀ {evicted : List ℤ} {tags : Dict ℤ CacheBlockTag},
    (evicted.foldl Dict.erase tags).get? blockId =
      if blockId ∈ evicted then none else tags.get? blockId := by
  intro evicted
  induction evicted with
  | nil => exact fun {_} => rfl
  | cons b evicted ih =>
    intro tags
    rw [List.foldl_cons, ih, Dict.get?_erase]
    by_cases hmem : blockId ∈ evicted
    · rw [if_pos hmem, if_pos (List.mem_cons_of_mem b hmem)]
    · rw [if_neg hmem]
      by_cases hb : blockId = b
      · rw [if_pos hb, if_pos (by rw [hb]; exact List.mem_cons_self)]
      · have hnot : blockId ∉ b :: evicted := fun h => (List.mem_cons.mp h).elim hb hmem
        rw [if_neg hb, if_neg hnot]

/-- An allocation is accepted when no block conflicts. -/
theorem findSome?_conflict_eq_none {b : Bridge} {routeId : String} {blockIds : List ℤ} :
    blockIds.findSome? (b.conflict routeId) = none ↔
      ∀ blockId ∈ blockIds, ∀ owner, b.cacheBlockRoute blockId = some owner → owner = routeId := by
  rw [List.findSome?_eq_none_iff]
  refine forall₂_congr fun blockId _ => ?_
  unfold Bridge.conflict
  rcases b.cacheBlockRoute blockId with _ | owner
  · simp
  · by_cases h : owner = routeId <;> simp [h]

/-- The outcomes of an allocation. -/
theorem validate_cases (b : Bridge) (requestId : String) (routeId : Option String)
    (blockIds : List ℤ) :
    context routeId = none ∧
        b.validateKvCacheAllocation requestId routeId blockIds = (.ok true, b) ∨
      ∃ route, context routeId = some route ∧
        ((∀ blockId ∈ blockIds, ∀ owner, b.cacheBlockRoute blockId = some owner → owner = route) ∧
            b.validateKvCacheAllocation requestId routeId blockIds = (.ok true,
              { b with cacheTags := Bridge.tagBlocks b.cacheTags route requestId blockIds }) ∨
          ¬(∀ blockId ∈ blockIds, ∀ owner,
              b.cacheBlockRoute blockId = some owner → owner = route) ∧
            ∃ contamination, b.validateKvCacheAllocation requestId routeId blockIds =
              (.error contamination, { b with rejectedBatches := b.rejectedBatches + 1 })) := by
  rcases routeId with _ | route
  · exact Or.inl ⟨rfl, rfl⟩
  · by_cases hempty : route = ""
    · subst hempty
      exact Or.inl ⟨rfl, rfl⟩
    · refine Or.inr ⟨route, context_of_ne hempty, ?_⟩
      rw [← findSome?_conflict_eq_none]
      simp only [Bridge.validateKvCacheAllocation, if_neg hempty]
      rcases hconflict : blockIds.findSome? (b.conflict route) with _ | ⟨blockId, owner⟩
      · exact Or.inl ⟨rfl, rfl⟩
      · exact Or.inr ⟨by simp, _, rfl⟩

/-- The tags are the routes of the last routed allocations. -/
def Tagged (h : History) : Prop :=
  ∀ blockId, (h.bridge.cacheBlockRoute blockId).map some = lastContext Option.isSome blockId h.log

theorem tagged_allocate {h : History} (ht : Tagged h) (requestId : String)
    (routeId : Option String) (blockIds : List ℤ) :
    Tagged (h.perform (.allocate requestId routeId blockIds)) := by
  intro blockId
  rcases validate_cases h.bridge requestId routeId blockIds with
    ⟨hcontext, heq⟩ | ⟨route, hcontext, ⟨_, heq⟩ | ⟨_, contamination, heq⟩⟩
  · simp only [History.perform, heq, hcontext, lastContext, Option.isSome_none,
      Bool.false_eq_true, and_false, if_false]
    exact ht blockId
  · simp only [History.perform, heq, hcontext, lastContext, Option.isSome_some, and_true]
    simp only [Bridge.cacheBlockRoute, get?_tagBlocks]
    by_cases hmem : blockId ∈ blockIds
    · rw [if_pos hmem, if_pos hmem]
      rfl
    · rw [if_neg hmem, if_neg hmem]
      exact ht blockId
  · simp only [History.perform, heq]
    exact ht blockId

/-- A swap drops the tags of the blocks it reports as evicted. -/
theorem get?_interceptModelRunner (b : Bridge) (currentVramRoute targetBatchRoute : Option String)
    (blockId : ℤ) :
    (b.interceptModelRunner currentVramRoute targetBatchRoute).2.cacheTags.get? blockId =
      if blockId ∈ (b.interceptModelRunner currentVramRoute targetBatchRoute).1.evicted then none
      else b.cacheTags.get? blockId := by
  unfold Bridge.interceptModelRunner
  by_cases hsame : currentVramRoute = targetBatchRoute
  · rw [if_pos hsame]
    exact (if_neg List.not_mem_nil).symm
  · rw [if_neg hsame]
    exact get?_foldl_erase

theorem tagged_intercept {h : History} (ht : Tagged h)
    (currentVramRoute targetBatchRoute : Option String) :
    Tagged (h.perform (.intercept currentVramRoute targetBatchRoute)) := by
  intro blockId
  simp only [History.perform, lastContext, Bridge.cacheBlockRoute, get?_interceptModelRunner]
  by_cases hmem : blockId ∈
      (h.bridge.interceptModelRunner currentVramRoute targetBatchRoute).1.evicted
  · rw [if_pos hmem, if_pos hmem]
    rfl
  · rw [if_neg hmem, if_neg hmem]
    exact ht blockId

theorem tagged_perform {h : History} (ht : Tagged h) (op : Operation) : Tagged (h.perform op) := by
  cases op with
  | allocate requestId routeId blockIds => exact tagged_allocate ht requestId routeId blockIds
  | intercept currentVramRoute targetBatchRoute =>
    exact tagged_intercept ht currentVramRoute targetBatchRoute

theorem routesApart_of_tagged {h : History} (ht : Tagged h) (op : Operation) :
    RoutesApart h op := by
  cases op with
  | intercept currentVramRoute targetBatchRoute => trivial
  | allocate requestId routeId blockIds =>
    unfold RoutesApart
    -- a block is under another route when its tag says so
    have hlast : ∀ route, (∀ blockId ∈ blockIds, ∀ other,
        lastContext Option.isSome blockId h.log = some other → other = some route) ↔
        ∀ blockId ∈ blockIds, ∀ owner,
          h.bridge.cacheBlockRoute blockId = some owner → owner = route := by
      intro route
      refine forall₂_congr fun blockId _ => ?_
      rw [← ht blockId]
      rcases h.bridge.cacheBlockRoute blockId with _ | owner <;> simp
    rcases validate_cases h.bridge requestId routeId blockIds with
      ⟨hcontext, heq⟩ | ⟨route, hcontext, ⟨hfree, heq⟩ | ⟨hnot, contamination, heq⟩⟩
    · simp only [hcontext]
      exact heq
    · simp only [hcontext, heq]
      exact iff_of_true trivial ((hlast route).mpr hfree)
    · simp only [hcontext, heq]
      exact iff_of_false (by simp) fun h => hnot ((hlast route).mp h)

/-- **Routes keep to their own blocks.** -/
theorem along_routesApart (ops : List Operation) :
    Runs.Along History.perform RoutesApart History.start ops := by
  have hstart : Tagged History.start := fun _ => rfl
  exact Runs.Along.of_invariant (fun h op ht _ => tagged_perform ht op)
    (fun h op ht _ => routesApart_of_tagged ht op) hstart (Runs.along_true _ ops)

/-- A base request takes a block of a route, and is not seen when the route
takes it back. -/
theorem not_contextsApart_base :
    ¬Runs.Along History.perform ContextsApart History.start
      [.allocate "seq-1" (some "route-A") [0], .allocate "seq-2" none [0]] := by
  intro h
  have hcross := h.2.1 rfl 0 (List.mem_singleton.mpr rfl) (some "route-A") (by decide +kernel)
  exact absurd hcross (by decide)

end VllmBridge
