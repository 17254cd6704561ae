/-
The gauge of the active route.

A batch task that swaps to its route sets the gauge of that route to 1.  Nothing
ever sets the gauge of a route back.

* `gauged_run` — so the routes whose gauge is 1 are those of the requests taken
  so far;
* `namesActiveRoute_iff` — and the gauge names the active route alone exactly as
  long as all batches were of one route.
-/
import NeuralScalpel.ProxyInvariant

namespace VllmProxy

variable {J : Type} {backend : Backend J} {s s' : State J}

namespace State

/-- The gauge of a label; it starts at 0. -/
def gaugeValue (s : State J) (label : String) : ℕ := (s.activeRouteGauge.get? label).getD 0

/-- The gauge is 1 for the active route and for no other label. -/
def NamesActiveRoute (s : State J) : Prop :=
  ∃ route, s.currentActiveRoute = some route ∧ s.gaugeValue route = 1 ∧
    ∀ label, label ≠ route → s.gaugeValue label ≠ 1

/-- The requests that were taken from their queue. -/
def taken (s : State J) : List Call := s.forwarded ++ s.swapping

end State

/-- The gauge is 1 for the routes of the requests taken, the active one among
them. -/
structure Gauged (s : State J) : Prop where
  labels : ∀ label value, s.activeRouteGauge.get? label = some value →
    value = 1 ∧ ∃ c ∈ s.taken, c.route = label
  routes : ∀ c ∈ s.taken, s.activeRouteGauge.get? c.route = some 1
  active : ∀ route, s.currentActiveRoute = some route → s.activeRouteGauge.get? route = some 1
  started : s.taken ≠ [] → ∃ route, s.currentActiveRoute = some route

theorem gauged_init : Gauged (State.init : State J) where
  labels _ _ h := absurd h (by simp [State.init])
  routes _ h := absurd h (by simp [State.taken, State.init, State.swapping, State.holder])
  active _ h := absurd h (by simp [State.init])
  started h := absurd rfl h

/-- What takes nothing and leaves the gauge alone. -/
theorem Gauged.congr (h : Gauged s) (htaken : s'.taken = s.taken)
    (hgauge : s'.activeRouteGauge = s.activeRouteGauge)
    (hactive : s'.currentActiveRoute = s.currentActiveRoute) : Gauged s' := by
  obtain ⟨hlabels, hroutes, hroute, hstarted⟩ := h
  refine ⟨?_, ?_, ?_, ?_⟩
  · rw [hgauge, htaken]
    exact hlabels
  · rw [hgauge, htaken]
    exact hroutes
  · rw [hgauge, hactive]
    exact hroute
  · rw [htaken, hactive]
    exact hstarted

/-- Requests of one more route are taken, and the gauge of that route is 1. -/
theorem Gauged.take (h : Gauged s) {routeId : String} {requests : List Call}
    (hne : requests ≠ []) (hrouted : ∀ c ∈ requests, c.route = routeId)
    (htaken : s'.taken = s.taken ++ requests)
    (hgauge : ∀ label, s'.activeRouteGauge.get? label =
      if label = routeId then some 1 else s.activeRouteGauge.get? label)
    (hactive : s'.currentActiveRoute = some routeId) : Gauged s' := by
  obtain ⟨c₀, hc₀⟩ := List.exists_mem_of_ne_nil _ hne
  refine ⟨fun label value hget => ?_, fun c hc => ?_, fun route hroute => ?_,
    fun _ => ⟨routeId, hactive⟩⟩
  · rw [hgauge] at hget
    rw [htaken]
    by_cases hlabel : label = routeId
    · rw [if_pos hlabel] at hget
      refine ⟨(Option.some.inj hget).symm, c₀, List.mem_append_right _ hc₀, ?_⟩
      rw [hrouted c₀ hc₀, hlabel]
    · rw [if_neg hlabel] at hget
      obtain ⟨hvalue, c, hc, hroute⟩ := h.labels label value hget
      exact ⟨hvalue, c, List.mem_append_left _ hc, hroute⟩
  · rw [htaken, List.mem_append] at hc
    rw [hgauge]
    by_cases hlabel : c.route = routeId
    · rw [if_pos hlabel]
    · rw [if_neg hlabel]
      rcases hc with hc | hc
      · exact h.routes c hc
      · exact absurd (hrouted c hc) hlabel
  · rw [hactive] at hroute
    rw [hgauge, if_pos (Option.some.inj hroute).symm]

/-! ### One step -/

theorem taken_of_unlocked (hlock : s.lock = none) : s.taken = s.forwarded := by
  rw [State.taken, State.swapping, holder_of_unlocked hlock]
  exact List.append_nil _

theorem taken_of_swapping {t : ℕ} {routeId : String} {batch : Batch} (hlock : s.lock = some t)
    (ht : s.tasks[t]? = some ⟨routeId, .swapping batch⟩) :
    s.taken = s.forwarded ++ batch.requests := by
  rw [State.taken, State.swapping, holder_of_lock hlock ht]

theorem taken_of_forwarding {t : ℕ} {routeId : String} {batch : Batch}
    {answers : List (Option (Except String (Completion J)))} (hlock : s.lock = some t)
    (ht : s.tasks[t]? = some ⟨routeId, .forwarding batch answers⟩) : s.taken = s.forwarded := by
  rw [State.taken, State.swapping, holder_of_lock hlock ht]
  exact List.append_nil _

/-- A task that gets the lock takes the first requests of its queue, if any. -/
theorem gauged_drain (hs : Sound backend s) (h : Gauged s) {t : ℕ} {routeId : String}
    (hlock : s.lock = none) (ht : s.tasks[t]? = some ⟨routeId, .waiting⟩) :
    Gauged (s.drain t routeId) := by
  have hlt : t < s.tasks.length := (List.getElem?_eq_some_iff.mp ht).1
  rcases drain_cases s t routeId with
    ⟨_, heq⟩ | ⟨queue, hget, hne, ⟨hactive, heq⟩ | heq⟩
  · rw [heq]
    refine h.congr ?_ rfl rfl
    rw [taken_of_unlocked hlock]
    exact taken_of_unlocked hlock
  all_goals
    have hself : s.pending routeId = queue.requests := by
      rw [State.pending, hget]
      rfl
    have hrouted : ∀ c ∈ queue.front.requests, c.route = routeId := fun c hc =>
      hs.route_of_pending (by rw [hself]; exact List.mem_of_mem_take hc)
    have hfront : queue.front.requests ≠ [] := by
      simp [RouteQueue.front, maxBatchSize, hne]
    rw [heq]
  · -- the route is active, and its gauge is 1 already
    refine h.take hfront hrouted ?_ (fun label => ?_) hactive
    · have hlt' : t < (s.take t routeId queue).tasks.length := by simpa [State.take] using hlt
      rw [taken_of_unlocked hlock]
      exact taken_of_forwarding (t := t) rfl (List.getElem?_set_self hlt')
    · by_cases hlabel : label = routeId
      · rw [if_pos hlabel, hlabel]
        exact h.active routeId hactive
      · rw [if_neg hlabel]
        rfl
  · refine h.take hfront hrouted ?_ (fun label => Dict.get?_set ..) rfl
    rw [taken_of_unlocked hlock]
    exact taken_of_swapping (t := t) rfl (List.getElem?_set_self hlt)

theorem gauged_step (hs : Sound backend s) (h : Gauged s) {e : Event}
    (hstep : step backend s e = some s') : Gauged s' := by
  cases e with
  | infer request tenantId granted =>
    obtain rfl := Option.some.inj hstep
    cases granted with
    | false => exact h
    | true =>
      refine h.congr ?_ rfl rfl
      show s.forwarded ++ (s.enqueue request tenantId).swapping = _
      rw [State.swapping, holder_enqueue request tenantId hs]
      rfl
  | drain t =>
    obtain ⟨routeId, hlock, ht, rfl⟩ := step_drain hstep
    exact gauged_drain hs h hlock ht
  | swapped t =>
    obtain ⟨routeId, batch, ht, rfl⟩ := step_swapped hstep
    have hlock : s.lock = some t := (hs.locked t).mpr ⟨_, ht, rfl⟩
    refine h.congr ?_ rfl rfl
    -- what was swapped for is forwarded now
    rw [taken_of_swapping hlock ht]
    exact taken_of_forwarding (t := t) hlock (List.getElem?_set_self (hs.lock_lt hlock))
  | answer t i =>
    obtain ⟨routeId, batch, answers, ht, hanswer⟩ := step_answer hstep
    obtain ⟨c, -, -, rfl⟩ := answer_eq_some hanswer
    have hlock : s.lock = some t := (hs.locked t).mpr ⟨_, ht, rfl⟩
    refine h.congr ?_ rfl rfl
    rw [taken_of_forwarding hlock ht]
    exact taken_of_forwarding (t := t) hlock (List.getElem?_set_self (hs.lock_lt hlock))
  | gathered t =>
    obtain ⟨routeId, batch, answers, outcome, ht, hgather, rfl⟩ := step_gathered hstep
    have hlock : s.lock = some t := (hs.locked t).mpr ⟨_, ht, rfl⟩
    refine h.congr ?_ rfl rfl
    rw [taken_of_unlocked rfl, taken_of_forwarding hlock ht]
    rfl
  | respond n =>
    obtain ⟨c, outcome, hc, hlookup, hnew, rfl⟩ := step_respond hstep
    exact h.congr rfl rfl rfl

/-! ### Runs -/

theorem gauged_run (backend : Backend J) (events : List Event) :
    Gauged (Runs.run (next backend) State.init events) := by
  suffices hinvariant : Sound backend (Runs.run (next backend) State.init events) ∧
      Gauged (Runs.run (next backend) State.init events) from hinvariant.2
  refine Runs.invariant_run_of_step (I := fun s => Sound backend s ∧ Gauged s)
    (fun s e hinvariant => ?_) ⟨sound_init, gauged_init⟩
  obtain ⟨hs, h⟩ := hinvariant
  refine ⟨sound_next hs e, ?_⟩
  · unfold next
    rcases hstep : step backend s e with _ | s'
    · exact h
    · exact gauged_step hs h hstep

/-- **The gauge names the active route alone** as long as all batches were of one
route. -/
theorem namesActiveRoute_iff (backend : Backend J) (events : List Event)
    (hfree : (Runs.run (next backend) State.init events).lock = none)
    (hbatch : (Runs.run (next backend) State.init events).forwarded ≠ []) :
    (Runs.run (next backend) State.init events).NamesActiveRoute ↔
      ∀ c ∈ (Runs.run (next backend) State.init events).forwarded,
        ∀ c' ∈ (Runs.run (next backend) State.init events).forwarded, c.route = c'.route := by
  have hgauged := gauged_run backend events
  revert hfree hbatch hgauged
  generalize (Runs.run (next backend) State.init events : State J) = s
  intro hfree hbatch hgauged
  have htaken := taken_of_unlocked hfree
  obtain ⟨route, hactive⟩ := hgauged.started (by rw [htaken]; exact hbatch)
  have hvalue : s.gaugeValue route = 1 := by
    rw [State.gaugeValue, hgauged.active route hactive]
    rfl
  constructor
  · rintro ⟨route', hactive', _, hothers⟩
    obtain rfl := Option.some.inj (hactive.symm.trans hactive')
    -- the gauge of every route that was forwarded is still 1
    have hroute : ∀ c ∈ s.forwarded, c.route = route := by
      intro c hc
      by_contra hne
      refine hothers c.route hne ?_
      rw [State.gaugeValue, hgauged.routes c (by rw [htaken]; exact hc)]
      rfl
    intro c hc c' hc'
    rw [hroute c hc, hroute c' hc']
  · intro hone
    obtain ⟨_, c, hc, hcroute⟩ := hgauged.labels route 1 (hgauged.active route hactive)
    rw [htaken] at hc
    refine ⟨route, hactive, hvalue, fun label hne hlabel => ?_⟩
    rcases hget : s.activeRouteGauge.get? label with _ | value
    · rw [State.gaugeValue, hget] at hlabel
      exact absurd hlabel (by simp)
    · obtain ⟨_, c', hc', hclabel⟩ := hgauged.labels label value hget
      rw [htaken] at hc'
      exact hne (by rw [← hclabel, ← hcroute, hone c hc c' hc'])

/-- One batch of one route. -/
theorem namesActiveRoute_one :
    let backend : Backend Unit := ⟨true, fun _ _ _ => .error ""⟩
    let events : List Event :=
      [.infer ⟨"a", "Hello", 50⟩ "tenant" true, .drain 0, .swapped 0, .answer 0 0, .gathered 0]
    (Runs.run (next backend) State.init events).NamesActiveRoute ↔
      ∀ c ∈ (Runs.run (next backend) State.init events).forwarded,
        ∀ c' ∈ (Runs.run (next backend) State.init events).forwarded, c.route = c'.route :=
  namesActiveRoute_iff _ _ (by decide +kernel) (by decide +kernel)

/-- After a batch of a second route the gauge still names the first. -/
theorem not_namesActiveRoute_second :
    let backend : Backend Unit := ⟨true, fun _ _ _ => .error ""⟩
    let s := Runs.run (next backend) State.init [
      .infer ⟨"a", "Hello", 50⟩ "tenant" true, .drain 0, .swapped 0, .answer 0 0, .gathered 0,
      .infer ⟨"b", "Hello", 50⟩ "tenant" true, .drain 1, .swapped 1, .answer 1 0, .gathered 1]
    s.lock = none ∧ s.forwarded ≠ [] ∧ ¬s.NamesActiveRoute := by
  intro backend s
  refine ⟨by decide +kernel, by decide +kernel, ?_⟩
  rintro ⟨route, hactive, _, hothers⟩
  have hroute : s.currentActiveRoute = some "b" := by decide +kernel
  rw [hroute] at hactive
  refine hothers "a" ?_ (by decide +kernel)
  rw [← Option.some.inj hactive]
  decide

end VllmProxy
