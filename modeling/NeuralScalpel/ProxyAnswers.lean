/-
The proxy answers every request exactly once, with its own result.

* `calls_run` — the requests of a run are its granted endpoint calls, numbered;
* `settled_of_quiescent` — when nothing can go on, no task has the lock and no
  request waits;
* `answers_once` — the promises of the proxy about every run;
* `work_lt`, `exists_quiescent` — and every run can come to rest, as each step
  but a new call leaves less to do.
-/
import NeuralScalpel.ProxyInvariant
import Mathlib.Algebra.GroupWithZero.Nat
import Mathlib.Data.Finset.Card

namespace VllmProxy

variable {J : Type} {backend : Backend J} {s s' : State J}

/-! ### The requests of a run -/

/-- The request of an endpoint call that the rate limiter grants. -/
def Event.granted? : Event → Option (InferRequest × String)
  | .infer request tenantId true => some (request, tenantId)
  | _ => none

/-- The endpoint calls of a run that were granted, in order, with their numbers. -/
def requests (events : List Event) : List Call :=
  (events.filterMap Event.granted?).mapIdx fun n r => ⟨n, r.1, r.2⟩

theorem length_requests (events : List Event) :
    (requests events).length = (events.filterMap Event.granted?).length := List.length_mapIdx

/-- A granted call queues the next request, and no other step queues one. -/
theorem calls_next (backend : Backend J) (s : State J) (e : Event) :
    (next backend s e).calls = s.calls ++
      e.granted?.toList.map fun r => ⟨s.calls.length, r.1, r.2⟩ := by
  unfold next
  rcases hstep : step backend s e with _ | s'
  · cases e with
    | infer request tenantId granted => cases hstep
    | _ => exact (List.append_nil _).symm
  · rw [Option.getD_some]
    cases e with
    | infer request tenantId granted =>
      obtain rfl := Option.some.inj hstep
      cases granted with
      | true => exact rfl
      | false => exact (List.append_nil _).symm
    | drain t =>
      obtain ⟨routeId, -, -, rfl⟩ := step_drain hstep
      refine .trans ?_ (List.append_nil _).symm
      rcases drain_cases s t routeId with ⟨-, heq⟩ | ⟨queue, -, -, ⟨-, heq⟩ | heq⟩
      all_goals rw [heq]; rfl
    | swapped t =>
      obtain ⟨routeId, batch, -, rfl⟩ := step_swapped hstep
      exact (List.append_nil _).symm
    | answer t i =>
      obtain ⟨routeId, batch, answers, -, hanswer⟩ := step_answer hstep
      obtain ⟨c, -, -, rfl⟩ := answer_eq_some hanswer
      exact (List.append_nil _).symm
    | gathered t =>
      obtain ⟨routeId, batch, answers, outcome, -, -, rfl⟩ := step_gathered hstep
      exact (List.append_nil _).symm
    | respond n =>
      obtain ⟨c, outcome, -, -, -, rfl⟩ := step_respond hstep
      exact (List.append_nil _).symm

/-- **The calls of a run** are the granted ones. -/
theorem calls_run (backend : Backend J) (events : List Event) :
    (Runs.run (next backend) State.init events).calls = requests events := by
  induction events using List.reverseRecOn with
  | nil => rfl
  | append_singleton events e ih =>
    rw [Runs.run_append, Runs.run_cons, Runs.run_nil, calls_next, ih, length_requests, requests,
      requests, List.filterMap_append, List.mapIdx_append]
    refine congrArg (_ ++ ·) ?_
    rcases hgranted : e.granted? with _ | r
    · simp [hgranted]
    · simp [hgranted]

/-! ### At rest -/

/-- When nothing can go on, no task has the lock and no request waits. -/
theorem settled_of_quiescent (h : Sound backend s) (hq : Quiescent backend s) :
    s.lock = none ∧ ∀ routeId, s.pending routeId = [] := by
  have hlock : s.lock = none := by
    by_contra hne
    obtain ⟨t, hlock⟩ := Option.ne_none_iff_exists'.mp hne
    obtain ⟨⟨routeId, stage⟩, ht, hholding⟩ := (h.locked t).mp hlock
    cases stage with
    | waiting => exact Bool.noConfusion hholding
    | finished => exact Bool.noConfusion hholding
    | swapping batch =>
      have hstuck := hq (.swapped t) rfl
      simp only [step, ht] at hstuck
      cases hstuck
    | forwarding batch answers =>
      obtain ⟨_, hanswers⟩ := h.stages _ (List.mem_of_getElem? ht)
      by_cases hall : ∀ i : ℕ, answers[i]? ≠ some none
      · obtain ⟨outcome, hgather⟩ := exists_gather hanswers hall
        have hstuck := hq (.gathered t) rfl
        simp only [step, ht, hgather] at hstuck
        cases hstuck
      · -- some answer is still to come
        obtain ⟨i, hi⟩ := not_forall.mp hall
        have hi := not_not.mp hi
        have hlt : i < batch.requests.length := by
          rw [hanswers.length_eq]
          exact (List.getElem?_eq_some_iff.mp hi).1
        have hstuck := hq (.answer t i) rfl
        simp only [step, ht, State.answer, List.getElem?_eq_getElem hlt, hi] at hstuck
        cases hstuck
  refine ⟨hlock, fun routeId => ?_⟩
  by_contra hne
  -- a waiting request has a task to take it
  have hpos : 0 < s.undrained routeId :=
    Nat.lt_of_lt_of_le (List.length_pos_of_ne_nil hne) (h.covered routeId)
  obtain ⟨⟨routeId', stage⟩, hmem, hundrained⟩ := List.countP_pos_iff.mp hpos
  obtain ⟨t, ht⟩ := List.mem_iff_getElem?.mp hmem
  cases stage with
  | waiting =>
    have hstuck := hq (.drain t) rfl
    simp only [step, hlock, ht] at hstuck
    cases hstuck
  | swapping batch | forwarding batch answers | finished => exact Bool.noConfusion hundrained

/-- Then every request was forwarded, and its future is resolved. -/
theorem forwarded_of_quiescent (h : Sound backend s) (hq : Quiescent backend s) :
    s.forwarded.Perm s.calls ∧ s.resolutions = s.forwarded.map (Call.own backend) := by
  obtain ⟨hlock, hpending⟩ := settled_of_quiescent h hq
  have hholder := holder_of_unlocked hlock
  constructor
  · have haccounts := h.accounts
    rw [State.swapping, hholder] at haccounts
    have hnone : KeyedFifo.Accounts Call.route s.calls (s.forwarded ++ [])
        fun routeId => KeyedFifo.ofKey Call.route routeId [] := fun routeId => by
      have heq := haccounts routeId
      rw [hpending] at heq
      exact heq
    have hperm := hnone.perm
    rwa [List.append_nil, List.append_nil] at hperm
  · have hresolved := h.resolved
    rw [State.inFlight, hholder] at hresolved
    exact (List.append_nil _).symm.trans hresolved.symm

/-- Of entries with different numbers, one has the number of an entry. -/
theorem filter_fst {β : Type} {l : List (ℕ × β)} (hnodup : (l.map Prod.fst).Nodup) {r : ℕ × β}
    (hr : r ∈ l) : l.filter (fun r' => r'.1 = r.1) = [r] := by
  induction l with
  | nil => exact absurd hr List.not_mem_nil
  | cons r' l ih =>
    obtain ⟨hnot, hnodup⟩ := List.nodup_cons.mp hnodup
    rcases List.mem_cons.mp hr with rfl | hr
    · have hnone : l.filter (fun r' => r'.1 = r.1) = [] :=
        List.filter_eq_nil_iff.mpr fun r' hr' heq =>
          hnot (of_decide_eq_true heq ▸ List.mem_map_of_mem hr')
      rw [List.filter_cons_of_pos (by simp), hnone]
    · have hne : r'.1 ≠ r.1 := fun heq => hnot (heq ▸ List.mem_map_of_mem hr)
      rw [List.filter_cons_of_neg (by simpa using hne), ih hnodup hr]

/-- The promises of the proxy after a run that was granted these requests. -/
structure AnswersOnce (backend : Backend J) (granted : List Call) (s : State J) : Prop where
  /-- No route has more requests waiting than tasks to come. -/
  covered : ∀ routeId, (s.pending routeId).length ≤ s.undrained routeId
  /-- One batch at a time, of one route. -/
  exclusive : ∀ (t t' : ℕ) (task task' : Task J), s.tasks[t]? = some task →
    s.tasks[t']? = some task' → task.holding = true → task'.holding = true → t = t'
  oneRoute : ∀ task ∈ s.tasks, ∀ batch, task.stage.batch? = some batch →
    ∀ c ∈ batch.requests, c.route = task.routeId
  /-- One audit entry for each request forwarded; only granted requests are
  forwarded, no request twice, and at rest all of them. -/
  audited : s.auditLog = s.forwarded.map Call.auditEntry
  forwardedOnce : s.forwarded.Nodup
  forwardedOnly : ∀ c ∈ s.forwarded, c ∈ granted
  forwardedAll : Quiescent backend s → s.forwarded.Perm granted
  /-- At rest every future has been resolved once, with what the backend made of
  the request, and every endpoint call has returned it. -/
  resolved : Quiescent backend s → ∀ c ∈ granted,
    s.resolutions.filter (fun r => r.1 = c.id) = [(c.id, forwardToBackend backend c c.route)]
  returned : Quiescent backend s → ∀ c ∈ granted, s.responses.filter (fun r => r.1 = c.id) =
    [(c.id, respond c.tenantId (forwardToBackend backend c c.route))]

theorem oneRoute_of_sound (h : Sound backend s) {task : Task J} (htask : task ∈ s.tasks)
    {batch : Batch} (hbatch : task.stage.batch? = some batch) :
    ∀ c ∈ batch.requests, c.route = task.routeId := by
  have hstage := h.stages task htask
  rcases hs : task.stage with _ | batch' | ⟨batch', answers⟩ | _
  · rw [hs] at hbatch
    cases hbatch
  · rw [hs] at hbatch hstage
    obtain rfl := Option.some.inj hbatch
    exact hstage.routed
  · rw [hs] at hbatch hstage
    obtain rfl := Option.some.inj hbatch
    exact hstage.1.routed
  · rw [hs] at hbatch
    cases hbatch

/-- At rest the future of every call is resolved. -/
theorem own_mem_of_quiescent (h : Sound backend s) (hq : Quiescent backend s) {c : Call}
    (hc : c ∈ s.calls) : c.own backend ∈ s.resolutions := by
  obtain ⟨hperm, hresolutions⟩ := forwarded_of_quiescent h hq
  rw [hresolutions]
  exact List.mem_map_of_mem (hperm.mem_iff.mpr hc)

theorem resolved_of_quiescent (h : Sound backend s) (hq : Quiescent backend s) {c : Call}
    (hc : c ∈ s.calls) : s.resolutions.filter (fun r => r.1 = c.id) = [c.own backend] := by
  obtain ⟨hperm, hresolutions⟩ := forwarded_of_quiescent h hq
  have hnodup : (s.resolutions.map Prod.fst).Nodup := by
    rw [hresolutions, List.map_map]
    exact (hperm.map Call.id).nodup_iff.mpr h.numbered.nodup
  exact filter_fst hnodup (own_mem_of_quiescent h hq hc)

/-- At rest every endpoint call has returned. -/
theorem returned_of_quiescent (h : Sound backend s) (hq : Quiescent backend s) {c : Call}
    (hc : c ∈ s.calls) : s.responses.filter (fun r => r.1 = c.id) =
      [(c.id, respond c.tenantId (c.own backend).2)] := by
  obtain ⟨n, hn⟩ := List.mem_iff_getElem?.mp hc
  have hid := h.numbered n c hn
  have hlookup : s.resolutions.lookup n ≠ none := fun hnone => by
    have hne := List.lookup_eq_none_iff.mp hnone _ (own_mem_of_quiescent h hq hc)
    simp [Call.own, hid] at hne
  obtain ⟨outcome, hlookup⟩ := Option.ne_none_iff_exists'.mp hlookup
  have hresponse : n ∈ s.responses.map Prod.fst := by
    by_contra hnew
    have hstuck := hq (.respond n) rfl
    simp only [step, hn, hlookup, if_neg hnew] at hstuck
    cases hstuck
  obtain ⟨r, hr, hrn⟩ := List.mem_map.mp hresponse
  obtain ⟨c', hc', rfl⟩ := h.responses r hr
  obtain rfl := h.numbered.inj hc' hc (hrn.trans hid.symm)
  exact filter_fst h.responded hr

/-- **The proxy answers every request exactly once with its own result.** -/
theorem answers_once (backend : Backend J) (events : List Event) :
    AnswersOnce backend (requests events) (Runs.run (next backend) State.init events) := by
  have h := sound_run backend events
  rw [← calls_run backend events]
  refine ⟨h.covered, fun t t' task task' ht ht' hholding hholding' => ?_,
    fun task htask batch hbatch => oneRoute_of_sound h htask hbatch, h.audited, ?_,
    fun c hc => h.mem_calls_of_forwarded hc, fun hq => (forwarded_of_quiescent h hq).1,
    fun hq c hc => resolved_of_quiescent h hq hc, fun hq c hc => returned_of_quiescent h hq hc⟩
  · have hlock := (h.locked t).mpr ⟨task, ht, hholding⟩
    have hlock' := (h.locked t').mpr ⟨task', ht', hholding'⟩
    exact Option.some.inj (hlock.symm.trans hlock')
  · have hnodup := h.nodup_taken
    rw [List.map_append] at hnodup
    exact (List.nodup_append.mp hnodup).1.of_map _

/-! ### Every run comes to rest -/

/-- How many steps a batch task has at most before it. -/
def Stage.rank : Stage J → ℕ
  | .waiting => maxBatchSize + 3
  | .swapping batch => batch.requests.length + 2
  | .forwarding _ answers => answers.countP Option.isNone + 1
  | .finished => 0

/-- The endpoint calls that have not returned. -/
def State.unreturned (s : State J) : Finset ℕ :=
  (Finset.range s.calls.length).filter fun n => n ∉ s.responses.map Prod.fst

def State.work (s : State J) : ℕ :=
  (s.tasks.map fun task => task.stage.rank).sum + s.unreturned.card

theorem sum_set_lt {l : List ℕ} {i a b : ℕ} (h : l[i]? = some a) (hlt : b < a) :
    (l.set i b).sum < l.sum := by
  induction l generalizing i with
  | nil => cases h
  | cons x l ih =>
    cases i with
    | zero =>
      obtain rfl := Option.some.inj h
      simpa using hlt
    | succ i => simpa using ih h

/-- A task that moves on has less before it. -/
theorem work_set {t : ℕ} {old : Task J} (new : Task J) (hold : s.tasks[t]? = some old)
    (htasks : s'.tasks = s.tasks.set t new) (hcalls : s'.calls = s.calls)
    (hresponses : s'.responses = s.responses) (hlt : new.stage.rank < old.stage.rank) :
    s'.work < s.work := by
  have hsum : (s'.tasks.map fun task => task.stage.rank).sum <
      (s.tasks.map fun task => task.stage.rank).sum := by
    rw [htasks, List.map_set]
    exact sum_set_lt (by rw [List.getElem?_map, hold]; rfl) hlt
  rw [State.work, State.work, State.unreturned, State.unreturned, hcalls, hresponses]
  omega

theorem countP_none (l : List Call) :
    (l.map fun _ => (none : Option (Except String (Completion J)))).countP Option.isNone =
      l.length := by
  rw [List.countP_map]
  exact List.countP_eq_length.mpr fun _ _ => rfl

/-- A response leaves fewer calls without one. -/
theorem unreturned_respond {n : ℕ} (response : Response J) (hlt : n < s.calls.length)
    (hnew : n ∉ s.responses.map Prod.fst) :
    ({ s with responses := s.responses ++ [(n, response)] } : State J).unreturned.card <
      s.unreturned.card := by
  refine Finset.card_lt_card (Finset.ssubset_iff_of_subset (fun n' hn' => ?_) |>.mpr
    ⟨n, Finset.mem_filter.mpr ⟨Finset.mem_range.mpr hlt, hnew⟩, fun hmem => ?_⟩)
  · obtain ⟨hrange, hnot⟩ := Finset.mem_filter.mp hn'
    refine Finset.mem_filter.mpr ⟨hrange, fun hmem => hnot ?_⟩
    rw [List.map_append]
    exact List.mem_append_left _ hmem
  · refine (Finset.mem_filter.mp hmem).2 ?_
    rw [List.map_append]
    exact List.mem_append_right _ List.mem_cons_self

/-- An answer leaves one completion fewer outstanding. -/
theorem work_answer {t i : ℕ} {routeId : String} {batch : Batch}
    {answers : List (Option (Except String (Completion J)))}
    (ht : s.tasks[t]? = some ⟨routeId, .forwarding batch answers⟩)
    (hanswer : s.answer backend t routeId batch answers i = some s') : s'.work < s.work := by
  obtain ⟨c, -, ha, rfl⟩ := answer_eq_some hanswer
  refine work_set ⟨_, _⟩ ht rfl rfl rfl ?_
  obtain ⟨hlt, hget⟩ := List.getElem?_eq_some_iff.mp ha
  have hpos : 0 < answers.countP Option.isNone :=
    List.countP_pos_iff.mpr ⟨none, List.mem_of_getElem? ha, rfl⟩
  rw [Stage.rank, Stage.rank, List.countP_set hlt, hget]
  simp only [Option.isNone_none, if_true, Option.isNone_some, Bool.false_eq_true, if_false]
  omega

/-- **Every step but a new call lowers the work.** -/
theorem work_lt {e : Event} (he : e.isInfer = false) (hstep : step backend s e = some s') :
    s'.work < s.work := by
  cases e with
  | infer request tenantId granted => cases he
  | drain t =>
    obtain ⟨routeId, -, ht, rfl⟩ := step_drain hstep
    rcases drain_cases s t routeId with ⟨_, heq⟩ | ⟨queue, _, _, ⟨_, heq⟩ | heq⟩
    · rw [heq]
      exact work_set ⟨_, _⟩ ht rfl rfl rfl (Nat.succ_pos _)
    · rw [heq]
      refine work_set ⟨routeId, _⟩ ht (List.set_set ..) rfl rfl ?_
      rw [Stage.rank, Stage.rank, countP_none, RouteQueue.front, List.length_take]
      omega
    · rw [heq]
      refine work_set ⟨routeId, .swapping queue.front⟩ ht rfl rfl rfl ?_
      rw [Stage.rank, Stage.rank, RouteQueue.front, List.length_take]
      omega
  | swapped t =>
    obtain ⟨routeId, batch, ht, rfl⟩ := step_swapped hstep
    refine work_set ⟨_, _⟩ ht rfl rfl rfl ?_
    rw [Stage.rank, Stage.rank, countP_none]
    omega
  | answer t i =>
    obtain ⟨routeId, batch, answers, ht, hanswer⟩ := step_answer hstep
    exact work_answer ht hanswer
  | gathered t =>
    obtain ⟨routeId, batch, answers, outcome, ht, -, rfl⟩ := step_gathered hstep
    exact work_set ⟨_, _⟩ ht rfl rfl rfl (Nat.succ_pos _)
  | respond n =>
    obtain ⟨c, outcome, hc, -, hnew, rfl⟩ := step_respond hstep
    have hlt : n < s.calls.length := (List.getElem?_eq_some_iff.mp hc).1
    exact Nat.add_lt_add_left (unreturned_respond _ hlt hnew) _

/-- Without new calls the proxy can always be run to rest. -/
theorem exists_quiescent (s : State J) :
    ∃ events : List Event, (∀ e ∈ events, e.isInfer = false) ∧
      Quiescent backend (Runs.run (next backend) s events) := by
  induction hn : s.work using Nat.strong_induction_on generalizing s with
  | _ n ih =>
    by_cases hq : Quiescent backend s
    · exact ⟨[], fun e he => absurd he List.not_mem_nil, hq⟩
    · obtain ⟨e, he⟩ := not_forall.mp hq
      obtain ⟨hinfer, hne⟩ := Classical.not_imp.mp he
      obtain ⟨s', hstep⟩ := Option.ne_none_iff_exists'.mp hne
      have hnext : next backend s e = s' := by rw [next, hstep, Option.getD_some]
      obtain ⟨events, hevents, hrest⟩ := ih s'.work (hn ▸ work_lt hinfer hstep) s' rfl
      refine ⟨e :: events, List.forall_mem_cons.mpr ⟨hinfer, hevents⟩, ?_⟩
      rw [Runs.run_cons, hnext]
      exact hrest

end VllmProxy
