/-
The mock pipeline is safe in every run.

The scheduler makes batches of one route, every block goes to one request and
gets its tag, and the weights are put back after every pass.  So the checks of
the components on each other never fail, and only running out of blocks is
raised.

* `schedule_spec` — a batch is the front of the requests of its route;
* `Owned` — who holds the blocks;
* `wp_forwardRequest`, `wp_executeForwardPass` — a pass keeps that, also when it
  runs out of blocks part-way;
* `sound_run`, `route_safe` — and so does every run.
-/
import NeuralScalpel.KeyedFifo
import NeuralScalpel.MockPipeline

namespace MockPipeline

open Effect

/-! ### The scheduler -/

theorem get?_routeGroups (route : Option String) (requests : List MockRequest) :
    ((routeGroups requests).get? route).getD [] =
      KeyedFifo.ofKey MockRequest.routeId route requests := by
  suffices h : ∀ groups : Dict (Option String) (List MockRequest),
      ((requests.foldl (fun groups req =>
        groups.set req.routeId ((groups.get? req.routeId).getD [] ++ [req])) groups).get?
          route).getD [] =
        (groups.get? route).getD [] ++ KeyedFifo.ofKey MockRequest.routeId route requests by
    exact h .empty
  induction requests with
  | nil => exact fun groups => (List.append_nil _).symm
  | cons req requests ih =>
    intro groups
    rw [List.foldl_cons, ih, Dict.get?_set, KeyedFifo.ofKey_cons]
    by_cases hroute : req.routeId = route
    · rw [if_pos hroute.symm, if_pos hroute, hroute, Option.getD_some, List.append_assoc,
        List.singleton_append]
    · rw [if_neg (Ne.symm hroute), if_neg hroute]

/-- Taking requests out one by one keeps what is asked of the others. -/
theorem ofKey_foldl_erase (route : Option String) (batch requests : List MockRequest) :
    KeyedFifo.ofKey MockRequest.routeId route (batch.foldl List.erase requests) =
      batch.foldl List.erase (KeyedFifo.ofKey MockRequest.routeId route requests) := by
  induction batch generalizing requests with
  | nil => rfl
  | cons req batch ih =>
    rw [List.foldl_cons, ih, List.foldl_cons, KeyedFifo.ofKey, KeyedFifo.ofKey, List.erase_filter]

theorem foldl_erase_append (batch rest : List MockRequest) :
    batch.foldl List.erase (batch ++ rest) = rest := by
  induction batch with
  | nil => rfl
  | cons req batch ih => rw [List.foldl_cons, List.cons_append, List.erase_cons_head, ih]

theorem foldl_erase_of_not_mem {batch requests : List MockRequest}
    (h : ∀ req ∈ batch, req ∉ requests) : batch.foldl List.erase requests = requests := by
  induction batch with
  | nil => rfl
  | cons req batch ih =>
    rw [List.foldl_cons, List.erase_of_not_mem (h req List.mem_cons_self)]
    exact ih fun r hr => h r (List.mem_cons_of_mem req hr)

/-- A batch is the front of the pending requests of one route, and nothing else
leaves the queue. -/
theorem schedule_spec (s : State) : ∃ route : Option String, ∃ rest : List MockRequest,
    (scheduleNextBatch s).2 = { s with pendingRequests := rest } ∧
      (∀ req ∈ (scheduleNextBatch s).1, req.routeId = route) ∧
      (scheduleNextBatch s).1.length ≤ s.maxBatchSize ∧
      KeyedFifo.ofKey MockRequest.routeId route s.pendingRequests =
        (scheduleNextBatch s).1 ++ KeyedFifo.ofKey MockRequest.routeId route rest ∧
      ∀ route', route' ≠ route → KeyedFifo.ofKey MockRequest.routeId route' rest =
        KeyedFifo.ofKey MockRequest.routeId route' s.pendingRequests := by
  rcases hpending : s.pendingRequests with _ | ⟨first, others⟩
  · refine ⟨none, [], ?_, ?_, ?_, ?_, fun _ _ => rfl⟩
    · rw [scheduleNextBatch, hpending]
      exact congrArg (fun pending => { s with pendingRequests := pending }) hpending
    all_goals simp [scheduleNextBatch, hpending]
  · have hschedule : scheduleNextBatch s =
        let batch := (KeyedFifo.ofKey MockRequest.routeId first.routeId s.pendingRequests).take
          s.maxBatchSize
        (batch, { s with pendingRequests := batch.foldl List.erase s.pendingRequests }) := by
      unfold scheduleNextBatch
      rw [← get?_routeGroups]
      simp only [hpending]
    rw [hschedule, ← hpending]
    set group := KeyedFifo.ofKey MockRequest.routeId first.routeId s.pendingRequests with hgroup
    have hrouted : ∀ req ∈ group.take s.maxBatchSize, req.routeId = first.routeId := fun req hreq =>
      (KeyedFifo.mem_ofKey.mp (List.mem_of_mem_take hreq)).2
    refine ⟨first.routeId, _, rfl, hrouted, List.length_take_le .., ?_, fun route' hne => ?_⟩
    · have hrest := foldl_erase_append (group.take s.maxBatchSize) (group.drop s.maxBatchSize)
      rw [List.take_append_drop] at hrest
      rw [ofKey_foldl_erase, ← hgroup, hrest]
      exact (List.take_append_drop ..).symm
    · rw [ofKey_foldl_erase]
      refine foldl_erase_of_not_mem fun req hreq hmem => ?_
      exact hne ((KeyedFifo.mem_ofKey.mp hmem).2.symm.trans (hrouted req hreq))

/-! ### Who holds the blocks -/

/-- The blocks of a request object. -/
def State.held (s : State) (object : ℕ) : List ℕ := (s.progress object).kvBlocks

/-- Every held block is known, is not free, is held once and by one request, and
is tagged with the route of that request. -/
structure Owned (s : State) : Prop where
  freeOnce : s.allocator.freeBlocks.Nodup
  freeKnown : ∀ b ∈ s.allocator.freeBlocks, ∃ block, s.allocator.blocks.get? b = some block
  notFree : ∀ n, ∀ b ∈ s.held n, b ∉ s.allocator.freeBlocks
  once : ∀ n, (s.held n).Nodup
  apart : ∀ n m, ∀ b ∈ s.held n, b ∈ s.held m → n = m
  tagged : ∀ n, ∀ b ∈ s.held n, ∃ req block, s.created[n]? = some req ∧
    s.allocator.blocks.get? b = some block ∧ block.routeId = req.routeId

theorem owned_init (maxBatchSize numBlocks : ℕ) : Owned (.init maxBatchSize numBlocks) where
  freeOnce := List.nodup_range
  freeKnown b hb := by
    refine ⟨⟨b, none, 0⟩, Dict.mem_entries_iff.mp ?_⟩
    exact List.mem_map.mpr ⟨b, hb, rfl⟩
  notFree _ _ h := absurd h List.not_mem_nil
  once _ := List.nodup_nil
  apart _ _ _ h := absurd h List.not_mem_nil
  tagged _ _ h := absurd h List.not_mem_nil

/-- Who holds the blocks does not depend on the rest of the state. -/
theorem Owned.congr {s s' : State} (h : Owned s) (hallocator : s'.allocator = s.allocator)
    (hprogress : s'.progress = s.progress) (hcreated : s'.created = s.created) : Owned s' := by
  cases s
  cases s'
  subst hallocator hprogress hcreated
  exact ⟨h.freeOnce, h.freeKnown, h.notFree, h.once, h.apart, h.tagged⟩

/-- What a pass leaves alone. -/
def State.frame (s : State) : List MockRequest × List MockRequest × ℕ × Bool :=
  (s.created, s.pendingRequests, s.maxBatchSize, s.isQuarantined)

/-- The state with the first free block handed out to a request. -/
def State.handOut (s : State) (req : MockRequest) (b : ℕ) (free : List ℕ)
    (block : RouteTaggedKVBlock) : State :=
  { s with
    allocator := ⟨s.allocator.blocks.set b { block with
      routeId := req.routeId
      refCount := 1 }, free⟩
    progress := Function.update s.progress req.object ⟨"COMPLETED", s.held req.object ++ [b]⟩ }

theorem held_handOut (s : State) (req : MockRequest) (b : ℕ) (free : List ℕ)
    (block : RouteTaggedKVBlock) (n : ℕ) : (s.handOut req b free block).held n =
      if n = req.object then s.held req.object ++ [b] else s.held n := by
  show (Function.update s.progress req.object
    ⟨"COMPLETED", s.held req.object ++ [b]⟩ n).kvBlocks = _
  rw [Function.update_apply]
  by_cases hn : n = req.object
  · rw [if_pos hn, if_pos hn]
  · rw [if_neg hn, if_neg hn]
    rfl

/-- Who holds a block after it was handed out, if nobody held it before. -/
theorem mem_held_handOut {s : State} {req : MockRequest} {b : ℕ} {free : List ℕ}
    {block : RouteTaggedKVBlock} (hunheld : ∀ n, b ∉ s.held n) {n b' : ℕ}
    (hmem : b' ∈ (s.handOut req b free block).held n) :
    b' ∈ s.held n ∧ b' ≠ b ∨ b' = b ∧ n = req.object := by
  rw [held_handOut] at hmem
  by_cases hn : n = req.object
  · rw [if_pos hn] at hmem
    rcases List.mem_append.mp hmem with hmem | hmem
    · rw [← hn] at hmem
      exact Or.inl ⟨hmem, fun heq => hunheld n (heq ▸ hmem)⟩
    · exact Or.inr ⟨List.mem_singleton.mp hmem, hn⟩
  · rw [if_neg hn] at hmem
    exact Or.inl ⟨hmem, fun heq => hunheld n (heq ▸ hmem)⟩

theorem owned_handOut {s : State} (h : Owned s) {req : MockRequest} {b : ℕ} {free : List ℕ}
    {block : RouteTaggedKVBlock} (hfree : s.allocator.freeBlocks = b :: free)
    (hreq : s.created[req.object]? = some req) : Owned (s.handOut req b free block) := by
  have hnodup := h.freeOnce
  rw [hfree] at hnodup
  obtain ⟨hnew, hnodup⟩ := List.nodup_cons.mp hnodup
  -- the block was free, so nobody held it
  have hunheld : ∀ n, b ∉ s.held n := fun n hmem => by
    refine h.notFree n b hmem ?_
    rw [hfree]
    exact List.mem_cons_self
  have hcases : ∀ {n b'}, b' ∈ (s.handOut req b free block).held n →
      b' ∈ s.held n ∧ b' ≠ b ∨ b' = b ∧ n = req.object := mem_held_handOut hunheld
  have hget : ∀ b', (s.handOut req b free block).allocator.blocks.get? b' =
      if b' = b then some { block with
        routeId := req.routeId
        refCount := 1 }
      else s.allocator.blocks.get? b' := fun b' => Dict.get?_set ..
  refine ⟨hnodup, ?_, ?_, ?_, ?_, ?_⟩
  · intro b' hb'
    rw [hget]
    by_cases hb : b' = b
    · exact ⟨_, if_pos hb⟩
    · rw [if_neg hb]
      exact h.freeKnown b' (by rw [hfree]; exact List.mem_cons_of_mem b hb')
  · intro n b' hmem hb'
    rcases hcases hmem with ⟨hmem, _⟩ | ⟨rfl, _⟩
    · exact h.notFree n b' hmem (by rw [hfree]; exact List.mem_cons_of_mem b hb')
    · exact hnew hb'
  · intro n
    rw [held_handOut]
    by_cases hn : n = req.object
    · rw [if_pos hn]
      refine List.nodup_append.mpr ⟨h.once _, List.nodup_singleton b, fun b' hb' b'' hb'' => ?_⟩
      rintro rfl
      exact hunheld _ (List.mem_singleton.mp hb'' ▸ hb')
    · rw [if_neg hn]
      exact h.once n
  · intro n m b' hmem hmem'
    rcases hcases hmem with ⟨hmem, hne⟩ | ⟨rfl, hn⟩
    · rcases hcases hmem' with ⟨hmem', _⟩ | ⟨heq, _⟩
      · exact h.apart n m b' hmem hmem'
      · exact absurd heq hne
    · rcases hcases hmem' with ⟨_, hne⟩ | ⟨_, hm⟩
      · exact absurd rfl hne
      · exact hn.trans hm.symm
  · intro n b' hmem
    rw [hget]
    rcases hcases hmem with ⟨hmem, hne⟩ | ⟨rfl, rfl⟩
    · rw [if_neg hne]
      exact h.tagged n b' hmem
    · exact ⟨req, _, hreq, if_pos rfl, rfl⟩

/-! ### One pass -/

/-- A block with the route of the request may be read. -/
theorem wp_verifyCounted {s : State} {b : ℕ} {routeId : Option String}
    {block : RouteTaggedKVBlock} (hget : s.allocator.blocks.get? b = some block)
    (hroute : block.routeId = routeId) :
    wp (verifyCounted b routeId) (fun _ s' => s' = s) (fun _ _ => False) s := by
  rw [verifyCounted, wp_bind, wp_attempt, verifyAccess, wp_bind, wp_get]
  simp only [hget, hroute, ne_eq, not_true_eq_false, if_false]
  exact rfl

/-- A request holds blocks with its own route, gets a new one, or there is
none. -/
theorem wp_forwardRequest {s : State} (h : Owned s) {req : MockRequest}
    (hreq : s.created[req.object]? = some req) :
    wp (forwardRequest req) (fun _ s' => Owned s' ∧ s'.frame = s.frame)
      (fun e s' => e = .outOfBlocks ∧ Owned s' ∧ s'.frame = s.frame) s := by
  rw [forwardRequest, wp_bind, wp_get, wp_bind]
  have hverify : wp (forEach (fun _ blockId => verifyCounted blockId req.routeId) 0
      (s.progress req.object).kvBlocks)
      (fun _ s' => s' = s ∧ ∀ b ∈ ([] : List ℕ), b ∈ s.held req.object) (fun _ _ => False) s := by
    refine wp_forEach (I := fun blockIds s' => s' = s ∧ ∀ b ∈ blockIds, b ∈ s.held req.object)
      (fun i b blockIds s' hI => ?_) (And.intro rfl fun b hb => hb)
    obtain ⟨rfl, hheld⟩ := hI
    obtain ⟨req', block, hreq', hget, hroute⟩ := h.tagged _ b (hheld b List.mem_cons_self)
    obtain rfl := Option.some.inj (hreq.symm.trans hreq')
    exact (wp_verifyCounted hget hroute).mono
      (fun _ _ heq => And.intro heq fun b' hb' => hheld b' (List.mem_cons_of_mem b hb'))
      fun _ _ h => h
  refine hverify.mono (fun _ s' hsame => ?_) fun _ _ h => h.elim
  obtain ⟨rfl, _⟩ := hsame
  rw [wp_bind, allocate, wp_bind, wp_get]
  rcases hfree : s'.allocator.freeBlocks with _ | ⟨b, free⟩
  · exact ⟨rfl, h, rfl⟩
  · obtain ⟨block, hget⟩ := h.freeKnown b (by rw [hfree]; exact List.mem_cons_self)
    simp only [hget, wp_bind, wp_modify, wp_pure]
    exact ⟨owned_handOut h hfree hreq, rfl⟩

/-- The requests of a batch exist. -/
def Created (s : State) (batch : List MockRequest) : Prop :=
  ∀ req ∈ batch, s.created[req.object]? = some req

theorem Created.of_frame {s s' : State} {batch : List MockRequest} (h : Created s batch)
    (hframe : s'.frame = s.frame) : Created s' batch := by
  have hcreated : s'.created = s.created := congrArg Prod.fst hframe
  intro req hreq
  rw [hcreated]
  exact h req hreq

theorem wp_forwardRequests {s : State} (h : Owned s) {batch : List MockRequest}
    (hbatch : Created s batch) :
    wp (forEach (fun _ => forwardRequest) 0 batch) (fun _ s' => Owned s' ∧ s'.frame = s.frame)
      (fun e s' => e = .outOfBlocks ∧ Owned s' ∧ s'.frame = s.frame) s := by
  have hloop : wp (forEach (fun _ => forwardRequest) 0 batch)
      (fun _ s' => Owned s' ∧ s'.frame = s.frame ∧ Created s [])
      (fun e s' => e = .outOfBlocks ∧ Owned s' ∧ s'.frame = s.frame) s := by
    refine wp_forEach (I := fun batch s' => Owned s' ∧ s'.frame = s.frame ∧ Created s batch)
      (fun i req batch s' hI => ?_) (And.intro h (And.intro rfl hbatch))
    obtain ⟨howned, hframe, hcreated⟩ := hI
    have hreq := (hcreated.of_frame hframe) req List.mem_cons_self
    refine (wp_forwardRequest howned hreq).mono (fun _ s'' hok => ?_) fun e s'' herror => ?_
    · exact ⟨hok.1, hok.2.trans hframe, fun r hr => hcreated r (List.mem_cons_of_mem req hr)⟩
    · exact ⟨herror.1, herror.2.1, herror.2.2.trans hframe⟩
  exact hloop.mono (fun _ _ h => And.intro h.1 h.2.1) fun _ _ h => h

/-- A batch of one route passes the check. -/
theorem checkHomogeneous_eq_ok {route : Option String} {batch : List MockRequest}
    (h : ∀ req ∈ batch, req.routeId = route) : checkHomogeneous route batch = .ok () := by
  have hnone : batch.find? (fun req => req.routeId ≠ route) = none :=
    List.find?_eq_none.mpr fun req hreq => by simp [h req hreq]
  rw [checkHomogeneous, hnone]

/-- The blocks are as they should be, and the weights are the base weights. -/
structure Resting (s : State) : Prop where
  owned : Owned s
  base : s.activeWeightsRoute = none
  notQuarantined : s.isQuarantined = false

/-- **A pass** over a batch of one route puts everything back, and raises only
when there are no blocks left. -/
theorem wp_executeForwardPass {s : State} (h : Resting s) {route : Option String}
    {batch : List MockRequest} (hbatch : Created s batch)
    (hroute : ∀ req ∈ batch, req.routeId = route) :
    wp (executeForwardPass batch) (fun _ s' => Resting s' ∧ s'.frame = s.frame)
      (fun e s' => e = .outOfBlocks ∧ Resting s' ∧ s'.frame = s.frame) s := by
  unfold executeForwardPass
  rw [wp_bind, wp_get, h.notQuarantined]
  rcases batch with _ | ⟨first, rest⟩
  · exact ⟨h, rfl⟩
  · have hfirst : first.routeId = route := hroute first List.mem_cons_self
    have hcheck := checkHomogeneous_eq_ok (fun req hreq => (hroute req hreq).trans hfirst.symm)
    simp only [Bool.false_eq_true, if_false, hcheck, Effect.ofExcept, wp_bind, wp_pure, swapWeights,
      wp_modify, wp_attempt]
    -- the swap changes the weights, and what counts the swaps
    generalize hs' : (if s.activeWeightsRoute = first.routeId then s else _) = s'
    have hswapped : Owned s' ∧ s'.frame = s.frame := by
      rw [← hs']
      split
      · exact ⟨h.owned, rfl⟩
      · exact ⟨h.owned.congr rfl rfl rfl, rfl⟩
    have hopen : ∀ {s'' : State}, s''.frame = s.frame → s''.isQuarantined = false :=
      fun hframe => (congrArg (fun f => f.2.2.2) hframe).trans h.notQuarantined
    have hback : ∀ {s'' : State}, Owned s'' → s''.frame = s.frame →
        Resting { s'' with activeWeightsRoute := none } := fun howned hframe =>
      ⟨howned.congr rfl rfl rfl, rfl, hopen hframe⟩
    refine (wp_forwardRequests hswapped.1 (hbatch.of_frame hswapped.2)).mono
      (fun _ s'' hok => ?_) fun e s'' herror => ?_
    · have hframe := hok.2.trans hswapped.2
      exact ⟨hback hok.1 hframe, hframe⟩
    · obtain ⟨he, howned, hframe⟩ := herror
      have hframe := hframe.trans hswapped.2
      rw [wp_bind, rollbackOrQuarantine, wp_bind, wp_attempt, rollbackWeights, wp_modify]
      exact ⟨he, hback howned hframe, hframe⟩

/-! ### Runs -/

/-- What holds after every operation. -/
structure Sound (maxBatchSize : ℕ) (h : History) : Prop where
  limit : h.state.maxBatchSize = maxBatchSize
  resting : Resting h.state
  pending : Created h.state h.state.pendingRequests
  numbered : KeyedFifo.Numbered MockRequest.object h.state.created
  accounts : KeyedFifo.Accounts MockRequest.routeId h.added h.batches.flatten fun route =>
    KeyedFifo.ofKey MockRequest.routeId route h.state.pendingRequests
  batches : ∀ batch ∈ h.batches,
    (∃ route, ∀ req ∈ batch, req.routeId = route) ∧ batch.length ≤ maxBatchSize
  raised : ∀ e ∈ h.raised, e = .outOfBlocks

theorem sound_start (maxBatchSize numBlocks : ℕ) :
    Sound maxBatchSize (.start maxBatchSize numBlocks) where
  limit := rfl
  resting := ⟨owned_init maxBatchSize numBlocks, rfl, rfl⟩
  pending _ h := absurd h List.not_mem_nil
  numbered := KeyedFifo.Numbered.nil
  accounts := KeyedFifo.Accounts.start
  batches _ h := absurd h List.not_mem_nil
  raised _ h := absurd h List.not_mem_nil

variable {maxBatchSize : ℕ} {h : History}

/-- A request that exists is added. -/
theorem sound_add (hs : Sound maxBatchSize h) {req : MockRequest}
    (hreq : h.state.created[req.object]? = some req) :
    Sound maxBatchSize { h with
      state := addRequest h.state req
      added := h.added ++ [req] } where
  limit := hs.limit
  resting := ⟨hs.resting.owned.congr rfl rfl rfl, hs.resting.base, hs.resting.notQuarantined⟩
  pending := by
    intro r hr
    rcases List.mem_append.mp hr with hr | hr
    · exact hs.pending r hr
    · rw [List.mem_singleton.mp hr]
      exact hreq
  numbered := hs.numbered
  accounts := by
    refine hs.accounts.submit ?_ fun route hne => ?_
    · rw [addRequest, KeyedFifo.ofKey_append, KeyedFifo.ofKey_cons, if_pos rfl,
        KeyedFifo.ofKey_nil]
    · rw [addRequest, KeyedFifo.ofKey_append, KeyedFifo.ofKey_cons, if_neg (Ne.symm hne),
        KeyedFifo.ofKey_nil, List.append_nil]
  batches := hs.batches
  raised := hs.raised

/-- A request object is made. -/
theorem sound_create (hs : Sound maxBatchSize h) (req : MockRequest)
    (hobject : req.object = h.state.created.length) :
    Sound maxBatchSize { h with
      state := { h.state with created := h.state.created ++ [req] } } := by
  have hold : ∀ {n : ℕ} {r : MockRequest}, h.state.created[n]? = some r →
      (h.state.created ++ [req])[n]? = some r := fun {n r} hn => by
    rw [List.getElem?_append_left (List.getElem?_eq_some_iff.mp hn).1, hn]
  refine ⟨hs.limit, ⟨⟨hs.resting.owned.freeOnce, hs.resting.owned.freeKnown,
    hs.resting.owned.notFree, hs.resting.owned.once, hs.resting.owned.apart, fun n b hb => ?_⟩,
    hs.resting.base, hs.resting.notQuarantined⟩, fun r hr => hold (hs.pending r hr),
    hs.numbered.concat hobject, hs.accounts, hs.batches, hs.raised⟩
  obtain ⟨r, block, hr, hget, hroute⟩ := hs.resting.owned.tagged n b hb
  exact ⟨r, block, hold hr, hget, hroute⟩

/-- What a scheduling step leaves or takes was pending. -/
theorem mem_pending_of_scheduled {pending rest batch : List MockRequest} {route : Option String}
    (hroute : ∀ req ∈ batch, req.routeId = route)
    (hfront : KeyedFifo.ofKey MockRequest.routeId route pending =
      batch ++ KeyedFifo.ofKey MockRequest.routeId route rest)
    (hothers : ∀ route', route' ≠ route → KeyedFifo.ofKey MockRequest.routeId route' rest =
      KeyedFifo.ofKey MockRequest.routeId route' pending)
    {req : MockRequest} (hreq : req ∈ rest ∨ req ∈ batch) : req ∈ pending := by
  by_cases hr : req.routeId = route
  · have hmem : req ∈ KeyedFifo.ofKey MockRequest.routeId route pending := by
      rw [hfront]
      refine List.mem_append.mpr ?_
      rcases hreq with hreq | hreq
      · exact Or.inr (KeyedFifo.mem_ofKey.mpr ⟨hreq, hr⟩)
      · exact Or.inl hreq
    exact (KeyedFifo.mem_ofKey.mp hmem).1
  · rcases hreq with hreq | hreq
    · have hmem := KeyedFifo.mem_ofKey.mpr (And.intro hreq (rfl : req.routeId = req.routeId))
      rw [hothers _ hr] at hmem
      exact (KeyedFifo.mem_ofKey.mp hmem).1
    · exact absurd (hroute req hreq) hr

/-- A batch is scheduled and a pass executed on it. -/
theorem sound_forward (hs : Sound maxBatchSize h) : Sound maxBatchSize (h.perform .forward) := by
  obtain ⟨route, rest, hstate, hroute, hlength, hfront, hothers⟩ := schedule_spec h.state
  set batch := (scheduleNextBatch h.state).1 with hbatch
  have hschedule : scheduleNextBatch h.state =
      (batch, { h.state with pendingRequests := rest }) := by
    rw [← hstate]
  -- what is left, and what is taken, was pending
  have hsub : ∀ req, req ∈ rest ∨ req ∈ batch → req ∈ h.state.pendingRequests :=
    fun _ => mem_pending_of_scheduled hroute hfront hothers
  have hresting : Resting { h.state with pendingRequests := rest } :=
    ⟨hs.resting.owned.congr rfl rfl rfl, hs.resting.base, hs.resting.notQuarantined⟩
  have hcreated : Created { h.state with pendingRequests := rest } batch :=
    fun req hreq => hs.pending req (hsub req (Or.inr hreq))
  have hpass := wp_executeForwardPass hresting hcreated hroute
  have haccounts : KeyedFifo.Accounts MockRequest.routeId h.added
      (h.batches ++ [batch]).flatten fun route =>
        KeyedFifo.ofKey MockRequest.routeId route rest := by
    rw [List.flatten_append, List.flatten_singleton]
    exact hs.accounts.take hroute hfront hothers
  have hbatches : ∀ batch' ∈ h.batches ++ [batch],
      (∃ route, ∀ req ∈ batch', req.routeId = route) ∧ batch'.length ≤ maxBatchSize := by
    intro batch' hmem
    rcases List.mem_append.mp hmem with hmem | hmem
    · exact hs.batches batch' hmem
    · rw [List.mem_singleton.mp hmem]
      exact ⟨⟨route, hroute⟩, hs.limit ▸ hlength⟩
  -- whatever the pass did, the frame is as it was
  have hsound : ∀ {s' : State} {raised : List PipelineError}, Resting s' →
      s'.frame = (h.state.created, rest, h.state.maxBatchSize, h.state.isQuarantined) →
      (∀ e ∈ raised, e = .outOfBlocks) →
      Sound maxBatchSize ⟨s', h.added, h.batches ++ [batch], raised⟩ := by
    intro s' raised hresting' hframe hraised
    have hcreated' : s'.created = h.state.created := congrArg Prod.fst hframe
    have hpending' : s'.pendingRequests = rest := congrArg (fun f => f.2.1) hframe
    refine ⟨(congrArg (fun f => f.2.2.1) hframe).trans hs.limit, hresting', fun req hreq => ?_,
      fun n req hn => hs.numbered n req (hcreated' ▸ hn), ?_, hbatches, hraised⟩
    · rw [hcreated']
      exact hs.pending req (hsub req (Or.inl (hpending' ▸ hreq)))
    · rw [hpending']
      exact haccounts
  unfold wp at hpass
  simp only [History.perform, hschedule]
  rcases hrun : executeForwardPass batch { h.state with pendingRequests := rest } with
    ⟨_, s'⟩ | ⟨e, s'⟩
  · rw [hrun] at hpass
    exact hsound hpass.1 hpass.2 hs.raised
  · rw [hrun] at hpass
    refine hsound hpass.2.1 hpass.2.2 fun e' he' => ?_
    rcases List.mem_append.mp he' with he' | he'
    · exact hs.raised e' he'
    · rw [List.mem_singleton.mp he']
      exact hpass.1

theorem sound_perform (hs : Sound maxBatchSize h) (op : Operation) :
    Sound maxBatchSize (h.perform op) := by
  cases op with
  | addNew requestId prompt routeId =>
    refine sound_add (sound_create hs ⟨_, requestId, prompt, routeId⟩ rfl) ?_
    exact List.getElem?_concat_length
  | addAgain object =>
    rw [History.perform]
    rcases hget : h.state.created[object]? with _ | req
    · exact hs
    · exact sound_add hs (by rw [hs.numbered object req hget, hget])
  | forward => exact sound_forward hs

theorem sound_run (maxBatchSize numBlocks : ℕ) (ops : List Operation) :
    Sound maxBatchSize (Runs.run History.perform (.start maxBatchSize numBlocks) ops) :=
  Runs.invariant_run_of_step (I := Sound maxBatchSize) (fun _ op hs => sound_perform hs op)
    (sound_start maxBatchSize numBlocks)

/-- What the mock promises of a run. -/
structure RouteSafe (maxBatchSize : ℕ) (h : History) : Prop where
  oneRoute : ∀ batch ∈ h.batches, ∃ route, ∀ req ∈ batch, req.routeId = route
  bounded : ∀ batch ∈ h.batches, batch.length ≤ maxBatchSize
  /-- Each addition is scheduled at most once, the others are pending. -/
  atMostOnce : (h.batches.flatten ++ h.state.pendingRequests).Perm h.added
  inOrder : ∀ route, KeyedFifo.ofKey MockRequest.routeId route h.batches.flatten <+:
    KeyedFifo.ofKey MockRequest.routeId route h.added
  exactlyOnce : h.state.pendingRequests = [] → h.batches.flatten.Perm h.added
  notShared : ∀ n m, ∀ b ∈ h.state.held n, b ∈ h.state.held m → n = m
  notTwice : ∀ n, (h.state.held n).Nodup
  notFree : ∀ n, ∀ b ∈ h.state.held n, b ∉ h.state.allocator.freeBlocks
  tagged : ∀ n, ∀ b ∈ h.state.held n, ∃ req block, h.state.created[n]? = some req ∧
    h.state.allocator.blocks.get? b = some block ∧ block.routeId = req.routeId
  /-- Neither a leak nor a mixed batch, nor anything else. -/
  onlyOutOfBlocks : ∀ e ∈ h.raised, e = .outOfBlocks
  baseWeights : h.state.activeWeightsRoute = none

/-- **The mock pipeline is route-safe in every run.** -/
theorem route_safe (maxBatchSize numBlocks : ℕ) (ops : List Operation) :
    RouteSafe maxBatchSize (Runs.run History.perform (.start maxBatchSize numBlocks) ops) := by
  have hs := sound_run maxBatchSize numBlocks ops
  set h := Runs.run History.perform (.start maxBatchSize numBlocks) ops
  have hperm : (h.batches.flatten ++ h.state.pendingRequests).Perm h.added := hs.accounts.perm
  refine ⟨fun batch hb => (hs.batches batch hb).1, fun batch hb => (hs.batches batch hb).2, hperm,
    hs.accounts.order, fun hempty => ?_, hs.resting.owned.apart, hs.resting.owned.once,
    hs.resting.owned.notFree, hs.resting.owned.tagged, hs.raised, hs.resting.base⟩
  rw [hempty, List.append_nil] at hperm
  exact hperm

end MockPipeline
