/-
Which route the serving scheduler serves first.

The scheduler takes from the queue that was created first.  A queue that is cut
in two keeps the time it was created at, so what is left of it goes before the
requests of other routes that have waited longer.

* `Ordered` — the queues are in order and created at different times, as long as
  requests come one after the other;
* `LeavesYounger` — the next fetch cuts the queue created first, and what it
  leaves behind is younger than a request of another route;
* `fair_perform` — apart from that, a queue starts with the request that created
  it, or is served before all others;
* `servesOldest_iff` — so the scheduler serves the oldest request at every point
  of a run exactly if no fetch of the run leaves younger requests behind.
-/
import NeuralScalpel.ServingScheduler

namespace Serving

variable {π φ τ : Type} [LinearOrder τ] {maxBatchSize : ℕ}

/-! ### The times of submission -/

/-- The clock of each submission is the time at which its future was made. -/
def Stamped (submittedAt : φ → τ) (ops : List (Operation π φ τ)) : Prop :=
  ∀ request future now, Operation.submit request future now ∈ ops → submittedAt future = now

/-- A batch that is fetched starts with the oldest of the pending requests. -/
def ServesOldest (submittedAt : φ → τ) (h : History π φ τ) : Prop :=
  ∀ now batch, (h.scheduler.fetchNextSafeBatch now).1 = some batch →
    ∃ first, batch.pairs.head? = some first ∧
      ∀ waiting ∈ h.pending, submittedAt first.2 ≤ submittedAt waiting.2

/-- The queue created first holds more than a batch, and the first request beyond
the batch is younger than a request that waits for another route. -/
def LeavesYounger (submittedAt : φ → τ) (h : History π φ τ) : Prop :=
  ∃ route source, h.scheduler.queues.get? route = some source ∧
    (∀ route' batch, h.scheduler.queues.get? route' = some batch →
      source.createdAt ≤ batch.createdAt) ∧
    ∃ left, source.pairs[h.scheduler.maxBatchSize]? = some left ∧
      ∃ waiting ∈ h.pending, waiting.1.routeId ≠ route ∧
        submittedAt waiting.2 < submittedAt left.2

/-- A submission comes after all those before it. -/
def Later (submittedAt : φ → τ) (h : History π φ τ) : Operation π φ τ → Prop
  | .submit _ future now =>
    submittedAt future = now ∧ ∀ p ∈ h.submitted, submittedAt p.2 < now
  | .fetch _ => True

theorem along_later (maxBatchSize : ℕ) {submittedAt : φ → τ} {ops : List (Operation π φ τ)}
    (hstamped : Stamped submittedAt ops)
    (htimes : (submissions ops).Pairwise fun p q => submittedAt p.2 < submittedAt q.2) :
    Runs.Along History.perform (Later submittedAt) (.start maxBatchSize) ops := by
  refine Runs.along_iff.mpr fun before op later heq => ?_
  cases op with
  | fetch now => trivial
  | submit request future now =>
    have hfuture : submittedAt future = now :=
      hstamped request future now (by rw [heq]; simp)
    refine ⟨hfuture, fun p hp => ?_⟩
    rw [submitted_run, show (History.start maxBatchSize : History π φ τ).submitted = [] from rfl,
      List.nil_append] at hp
    -- the submissions before this one stand before it in the run
    have hsplit : submissions ops =
        submissions before ++ (request, future) :: submissions later := by
      simp [heq, submissions, Operation.submission]
    rw [hsplit] at htimes
    rw [← hfuture]
    exact (List.pairwise_append.mp htimes).2.2 p hp _ List.mem_cons_self

/-! ### The queues are in order -/

namespace History

variable {submittedAt : φ → τ} {h : History π φ τ}

/-- Each queue was created by a submission, before or with its requests, which
are in order; no two queues were created by the same one. -/
structure Ordered (submittedAt : φ → τ) (h : History π φ τ) : Prop where
  created : ∀ route batch, h.scheduler.queues.get? route = some batch →
    ∀ p ∈ batch.pairs, batch.createdAt ≤ submittedAt p.2
  ordered : ∀ route batch, h.scheduler.queues.get? route = some batch →
    batch.pairs.Pairwise fun p q => submittedAt p.2 < submittedAt q.2
  past : ∀ route batch, h.scheduler.queues.get? route = some batch →
    ∃ p ∈ h.submitted, submittedAt p.2 = batch.createdAt
  distinct : ∀ route batch route' batch', h.scheduler.queues.get? route = some batch →
    h.scheduler.queues.get? route' = some batch' → batch.createdAt = batch'.createdAt →
    route = route'

theorem ordered_start : (start maxBatchSize : History π φ τ).Ordered submittedAt where
  created _ _ hget := absurd hget (by simp [start, RouteAwareScheduler.init])
  ordered _ _ hget := absurd hget (by simp [start, RouteAwareScheduler.init])
  past _ _ hget := absurd hget (by simp [start, RouteAwareScheduler.init])
  distinct _ _ _ _ hget := absurd hget (by simp [start, RouteAwareScheduler.init])

omit [LinearOrder τ] in
/-- A queue after a submission is as before, longer by the request, or new. -/
theorem queue_of_submit (hs : h.Sound maxBatchSize) {request : Request π} {future : φ} {now : τ}
    {route : String} {batch' : ScheduledBatch π φ τ}
    (hget : (h.scheduler.submit request future now).queues.get? route = some batch') :
    h.scheduler.queues.get? route = some batch' ∨ route = request.routeId ∧
      ((∃ batch, h.scheduler.queues.get? route = some batch ∧
          batch'.createdAt = batch.createdAt ∧
          batch'.pairs = batch.pairs ++ [(request, future)]) ∨
        h.scheduler.queues.get? route = none ∧ batch'.createdAt = now ∧
          batch'.pairs = [(request, future)]) := by
  by_cases hroute : route = request.routeId
  · refine Or.inr ⟨hroute, ?_⟩
    subst hroute
    rcases submit_cases h.scheduler request future now with ⟨batch, hold, hq⟩ | ⟨hnone, hq⟩
    · have heq : batch.push request future = batch' := by
        rw [hq, if_pos rfl] at hget
        exact Option.some.inj hget
      subst heq
      exact Or.inl ⟨batch, hold, rfl,
        ScheduledBatch.pairs_push (hs.queues _ _ hold).2.paired request future⟩
    · rw [hq, if_pos rfl] at hget
      obtain rfl := Option.some.inj hget
      exact Or.inr ⟨hnone, rfl, rfl⟩
  · refine Or.inl ?_
    rcases submit_cases h.scheduler request future now with ⟨batch, hold, hq⟩ | ⟨hnone, hq⟩ <;>
      rwa [hq, if_neg hroute] at hget

/-- A queue after a fetch is what is left of one. -/
theorem queue_of_fetch {now : τ} {route : String} {batch' : ScheduledBatch π φ τ}
    (hget : (h.scheduler.fetchNextSafeBatch now).2.queues.get? route = some batch') :
    ∃ batch, h.scheduler.queues.get? route = some batch ∧ batch'.createdAt = batch.createdAt ∧
      batch'.pairs <:+ batch.pairs := by
  rcases fetch_cases h.scheduler now with ⟨hnone, _⟩ | ⟨route₀, source, hsource, _, _, _, hq⟩
  · rw [hnone] at hget
    exact ⟨batch', hget, rfl, List.suffix_rfl⟩
  · rw [hq] at hget
    by_cases hroute : route = route₀
    · subst hroute
      rw [if_pos rfl] at hget
      split_ifs at hget with hempty
      obtain rfl := Option.some.inj hget
      refine ⟨source, hsource, rfl, ?_⟩
      rw [ScheduledBatch.pairs_trimmed]
      exact List.drop_suffix _ _
    · rw [if_neg hroute] at hget
      exact ⟨batch', hget, rfl, List.suffix_rfl⟩

/-- The queues there are at a submission are older than it, and so are their
requests. -/
theorem older_of_later (hs : h.Sound maxBatchSize) (ho : h.Ordered submittedAt)
    {request : Request π} {future : φ} {now : τ}
    (hlater : Later submittedAt h (.submit request future now)) {route : String}
    {batch : ScheduledBatch π φ τ} (hget : h.scheduler.queues.get? route = some batch) :
    batch.createdAt < now ∧ ∀ p ∈ batch.pairs, submittedAt p.2 < now := by
  obtain ⟨p, hp, heq⟩ := ho.past route batch hget
  refine ⟨?_, fun p hp => hlater.2 p (hs.mem_submitted hget hp)⟩
  rw [← heq]
  exact hlater.2 p hp

theorem ordered_submit (hs : h.Sound maxBatchSize) (ho : h.Ordered submittedAt)
    {request : Request π} {future : φ} {now : τ}
    (hlater : Later submittedAt h (.submit request future now)) :
    (h.perform (.submit request future now)).Ordered submittedAt := by
  have hfuture : submittedAt future = now := hlater.1
  have holder : ∀ {route batch}, h.scheduler.queues.get? route = some batch →
      batch.createdAt < now ∧ ∀ p ∈ batch.pairs, submittedAt p.2 < now :=
    fun hget => older_of_later hs ho hlater hget
  refine ⟨fun route batch' hget => ?_, fun route batch' hget => ?_, fun route batch' hget => ?_,
    fun route batch route' batch' hget hget' heq => ?_⟩
  · rcases queue_of_submit hs hget with
      hold | ⟨_, ⟨batch, hold, hat, hpairs⟩ | ⟨_, hat, hpairs⟩⟩
    · exact ho.created route batch' hold
    · intro p hp
      rw [hpairs, List.mem_append, List.mem_singleton] at hp
      rw [hat]
      rcases hp with hp | rfl
      · exact ho.created route batch hold p hp
      · show batch.createdAt ≤ submittedAt future
        rw [hfuture]
        exact (holder hold).1.le
    · intro p hp
      rw [hpairs, List.mem_singleton] at hp
      rw [hat, hp]
      exact hfuture.ge
  · rcases queue_of_submit hs hget with hold | ⟨_, ⟨batch, hold, _, hpairs⟩ | ⟨_, _, hpairs⟩⟩
    · exact ho.ordered route batch' hold
    · rw [hpairs]
      refine List.pairwise_append.mpr
        ⟨ho.ordered route batch hold, List.pairwise_singleton _ _, fun p hp q hq => ?_⟩
      rw [List.mem_singleton.mp hq]
      show submittedAt p.2 < submittedAt future
      rw [hfuture]
      exact (holder hold).2 p hp
    · rw [hpairs]
      exact List.pairwise_singleton _ _
  · show ∃ p ∈ h.submitted ++ [(request, future)], submittedAt p.2 = batch'.createdAt
    -- an old queue was created by an old request
    have hkeep : ∀ batch, h.scheduler.queues.get? route = some batch →
        ∃ p ∈ h.submitted ++ [(request, future)], submittedAt p.2 = batch.createdAt := by
      intro batch hold
      obtain ⟨p, hp, heq⟩ := ho.past route batch hold
      exact ⟨p, List.mem_append_left _ hp, heq⟩
    rcases queue_of_submit hs hget with hold | ⟨_, ⟨batch, hold, hat, _⟩ | ⟨_, hat, _⟩⟩
    · exact hkeep batch' hold
    · rw [hat]
      exact hkeep batch hold
    · rw [hat]
      exact ⟨_, List.mem_append_right _ (List.mem_singleton.mpr rfl), hfuture⟩
  · -- a queue was there before with the same time, or it is the one created now
    have hcases : ∀ r b, (h.scheduler.submit request future now).queues.get? r = some b →
        (∃ b₀, h.scheduler.queues.get? r = some b₀ ∧ b.createdAt = b₀.createdAt) ∨
          r = request.routeId ∧ b.createdAt = now := by
      intro r b hr
      rcases queue_of_submit hs hr with hold | ⟨hroute, ⟨b₀, hold, hat, _⟩ | ⟨_, hat, _⟩⟩
      · exact Or.inl ⟨b, hold, rfl⟩
      · exact Or.inl ⟨b₀, hold, hat⟩
      · exact Or.inr ⟨hroute, hat⟩
    rcases hcases _ _ hget with ⟨b, hb, hat⟩ | ⟨hroute, hat⟩ <;>
      rcases hcases _ _ hget' with ⟨b', hb', hat'⟩ | ⟨hroute', hat'⟩
    · exact ho.distinct _ _ _ _ hb hb' (by rw [← hat, heq, hat'])
    · exact absurd (holder hb).1 (by rw [← hat, heq, hat']; exact lt_irrefl now)
    · exact absurd (holder hb').1 (by rw [← hat', ← heq, hat]; exact lt_irrefl now)
    · rw [hroute, hroute']

theorem ordered_fetch (ho : h.Ordered submittedAt) (now : τ) :
    (h.perform (.fetch now)).Ordered submittedAt := by
  refine ⟨fun route batch' hget => ?_, fun route batch' hget => ?_, fun route batch' hget => ?_,
    fun route batch route' batch' hget hget' heq => ?_⟩
  · obtain ⟨batch, hold, hat, hsuffix⟩ := queue_of_fetch hget
    rw [hat]
    exact fun p hp => ho.created route batch hold p (hsuffix.subset hp)
  · obtain ⟨batch, hold, _, hsuffix⟩ := queue_of_fetch hget
    exact (ho.ordered route batch hold).sublist hsuffix.sublist
  · obtain ⟨batch, hold, hat, _⟩ := queue_of_fetch hget
    rw [hat]
    exact ho.past route batch hold
  · obtain ⟨b, hold, hat, _⟩ := queue_of_fetch hget
    obtain ⟨b', hold', hat', _⟩ := queue_of_fetch hget'
    exact ho.distinct route b route' b' hold hold' (by rw [← hat, heq, hat'])

/-! ### Who is served first -/

/-- A queue that was not created first starts with the request that created it,
and the one created before it starts with an older request. -/
def Fair (submittedAt : φ → τ) (h : History π φ τ) : Prop :=
  ∀ route batch route' batch', h.scheduler.queues.get? route = some batch →
    h.scheduler.queues.get? route' = some batch' → batch.createdAt < batch'.createdAt →
    (∀ p ∈ batch.pairs.head?, submittedAt p.2 ≤ batch'.createdAt) ∧
      ∀ p ∈ batch'.pairs.head?, submittedAt p.2 = batch'.createdAt

theorem fair_start : (start maxBatchSize : History π φ τ).Fair submittedAt :=
  fun _ _ _ _ hget => absurd hget (by simp [start, RouteAwareScheduler.init])

theorem fair_submit (hs : h.Sound maxBatchSize) (ho : h.Ordered submittedAt)
    (hf : h.Fair submittedAt) {request : Request π} {future : φ} {now : τ}
    (hlater : Later submittedAt h (.submit request future now)) :
    (h.perform (.submit request future now)).Fair submittedAt := by
  have hfuture : submittedAt future = now := hlater.1
  -- an old queue keeps its first request
  have hcases : ∀ r b, (h.scheduler.submit request future now).queues.get? r = some b →
      (∃ b₀, h.scheduler.queues.get? r = some b₀ ∧ b.createdAt = b₀.createdAt ∧
        b.pairs.head? = b₀.pairs.head?) ∨
      b.createdAt = now ∧ b.pairs = [(request, future)] := by
    intro r b hr
    rcases queue_of_submit hs hr with hb | ⟨_, ⟨b₀, hb, hat, hpairs⟩ | ⟨_, hat, hpairs⟩⟩
    · exact Or.inl ⟨b, hb, rfl, rfl⟩
    · refine Or.inl ⟨b₀, hb, hat, ?_⟩
      obtain ⟨first, rest, hfirst⟩ := (hs.queues r b₀ hb).2.exists_head
      rw [hpairs, hfirst]
      rfl
    · exact Or.inr ⟨hat, hpairs⟩
  intro route batch route' batch' hget hget' hlt
  rcases hcases route batch hget with ⟨b, hb, hat, hhead⟩ | ⟨hat, hpairs⟩
  · rw [hat] at hlt
    rw [hhead]
    rcases hcases route' batch' hget' with ⟨b', hb', hat', hhead'⟩ | ⟨hat', hpairs'⟩
    · rw [hat'] at hlt ⊢
      rw [hhead']
      exact hf route b route' b' hb hb' hlt
    · rw [hat', hpairs']
      refine ⟨fun p hp => ?_, fun p hp => ?_⟩
      · exact ((older_of_later hs ho hlater hb).2 p (List.mem_of_mem_head? hp)).le
      · rw [← Option.some.inj hp]
        exact hfuture
  · -- no queue is created after the one created now
    rcases hcases route' batch' hget' with ⟨b', hb', hat', _⟩ | ⟨hat', _⟩
    · rw [hat, hat'] at hlt
      exact absurd hlt (older_of_later hs ho hlater hb').1.not_gt
    · rw [hat, hat'] at hlt
      exact absurd hlt (lt_irrefl now)

theorem fair_fetch (hs : h.Sound maxBatchSize) (hf : h.Fair submittedAt)
    (hkeep : ¬LeavesYounger submittedAt h) (now : τ) :
    (h.perform (.fetch now)).Fair submittedAt := by
  rcases fetch_cases h.scheduler now with
    ⟨hnone, _⟩ | ⟨route₀, source, hsource, hfirst, _, _, hq⟩
  · have hsame : h.perform (.fetch now) = h := by
      simp [perform, hnone]
    rw [hsame]
    exact hf
  · intro route batch route' batch' hget hget' hlt
    -- the later of the two queues is not the one fetched from
    have hne : route' ≠ route₀ := by
      rintro rfl
      obtain ⟨b, hb, hat, _⟩ := queue_of_fetch hget
      obtain ⟨b', hb', hat', _⟩ := queue_of_fetch hget'
      rw [hsource] at hb'
      rw [hat, hat', ← Option.some.inj hb'] at hlt
      exact absurd hlt (hfirst route b hb).not_gt
    have hold' : h.scheduler.queues.get? route' = some batch' := by
      have hget' := (hq route').symm.trans hget'
      rwa [if_neg hne] at hget'
    by_cases hroute : route = route₀
    · subst hroute
      have hget := (hq route).symm.trans hget
      rw [if_pos rfl] at hget
      split_ifs at hget with hempty
      obtain rfl := Option.some.inj hget
      obtain ⟨_, hcreator⟩ := hf route source route' batch' hsource hold' hlt
      refine ⟨fun left hleft => ?_, hcreator⟩
      rw [ScheduledBatch.pairs_trimmed, List.head?_drop] at hleft
      -- what is left is not younger than the first request of the other queue
      obtain ⟨waiting, rest, hpairs⟩ := (hs.queues route' batch' hold').2.exists_head
      have hwaiting : waiting ∈ batch'.pairs := by
        rw [hpairs]
        exact List.mem_cons_self
      have hother : waiting.1.routeId ≠ route := by
        have heq : waiting.1.routeId = route' := hs.routeOf_of_mem hold' hwaiting
        rw [heq]
        exact hne
      have htime : submittedAt waiting.2 = batch'.createdAt := hcreator waiting (by simp [hpairs])
      rw [← htime]
      by_contra hyounger
      exact hkeep ⟨route, source, hsource, hfirst, left, hleft, waiting,
        mem_pending_iff.mpr ⟨route', batch', hold', hwaiting⟩, hother, not_le.mp hyounger⟩
    · have hold : h.scheduler.queues.get? route = some batch := by
        have hget := (hq route).symm.trans hget
        rwa [if_neg hroute] at hget
      exact hf route batch route' batch' hold hold' hlt

/-- A fair scheduler serves the oldest request. -/
theorem servesOldest_of_fair (hmax : 1 ≤ maxBatchSize) (hs : h.Sound maxBatchSize)
    (ho : h.Ordered submittedAt) (hf : h.Fair submittedAt) : ServesOldest submittedAt h := by
  intro now batch hbatch
  rcases fetch_cases h.scheduler now with
    ⟨hnone, _⟩ | ⟨route, source, hsource, hfirst, htaken, _, _⟩
  · rw [hnone] at hbatch
    exact absurd hbatch (by simp)
  · obtain ⟨first, rest, hpairs⟩ := (hs.queues route source hsource).2.exists_head
    have hordered := ho.ordered route source hsource
    rw [hpairs, List.pairwise_cons] at hordered
    rw [htaken] at hbatch
    obtain rfl := Option.some.inj hbatch
    refine ⟨first, ?_, fun waiting hwaiting => ?_⟩
    · rw [ScheduledBatch.pairs_front, hpairs, List.head?_take, hs.limit, if_neg (by omega)]
      rfl
    · obtain ⟨route', batch', hget', hmem⟩ := mem_pending_iff.mp hwaiting
      rcases (hfirst route' batch' hget').eq_or_lt with heq | hlt
      · obtain rfl := ho.distinct route source route' batch' hsource hget' heq
        rw [hsource] at hget'
        rw [← Option.some.inj hget', hpairs] at hmem
        rcases List.mem_cons.mp hmem with rfl | hmem
        · exact le_rfl
        · exact (hordered.1 waiting hmem).le
      · obtain ⟨hbefore, _⟩ := hf route source route' batch' hsource hget' hlt
        exact (hbefore first (by simp [hpairs])).trans (ho.created route' batch' hget' waiting hmem)

/-- A fetch takes from the queue created first. -/
theorem fetch_of_first (ho : h.Ordered submittedAt) {route : String}
    {source : ScheduledBatch π φ τ} (hsource : h.scheduler.queues.get? route = some source)
    (hfirst : ∀ route' batch, h.scheduler.queues.get? route' = some batch →
      source.createdAt ≤ batch.createdAt) (now : τ) :
    (h.scheduler.fetchNextSafeBatch now).1 =
        some (source.front h.scheduler.maxBatchSize now) ∧
      ∀ route', (h.perform (.fetch now)).scheduler.queues.get? route' =
        if route' = route then
          if (source.trimmed h.scheduler.maxBatchSize).requests.isEmpty then none
          else some (source.trimmed h.scheduler.maxBatchSize)
        else h.scheduler.queues.get? route' := by
  rcases fetch_cases h.scheduler now with
    ⟨_, hempty⟩ | ⟨route₀, source₀, hsource₀, hfirst₀, htaken, _, hq⟩
  · have hmem := Dict.mem_entries_iff.mpr hsource
    rw [hempty] at hmem
    exact absurd hmem List.not_mem_nil
  · have hsame : source₀.createdAt = source.createdAt :=
      le_antisymm (hfirst₀ route source hsource) (hfirst route₀ source₀ hsource₀)
    obtain rfl := ho.distinct route₀ source₀ route source hsource₀ hsource hsame
    obtain rfl := Option.some.inj (hsource₀.symm.trans hsource)
    exact ⟨htaken, hq⟩

/-- What is left behind goes first at the next fetch, before the request that has
waited longer. -/
theorem not_servesOldest_of_leavesYounger (hmax : 1 ≤ maxBatchSize) (hs : h.Sound maxBatchSize)
    (ho : h.Ordered submittedAt) (hleaves : LeavesYounger submittedAt h) (now : τ) :
    ¬ServesOldest submittedAt (h.perform (.fetch now)) := by
  obtain ⟨route, source, hsource, hfirst, left, hleft, waiting, hwaiting, hother, hyounger⟩ :=
    hleaves
  obtain ⟨_, hq⟩ := fetch_of_first ho hsource hfirst now
  have hlong : h.scheduler.maxBatchSize < source.pairs.length :=
    (List.getElem?_eq_some_iff.mp hleft).1
  have hkept : (source.trimmed h.scheduler.maxBatchSize).requests.isEmpty = false := by
    have hpaired := (hs.queues route source hsource).2.paired
    simp only [ScheduledBatch.pairs, List.length_zip] at hlong
    simp only [ScheduledBatch.trimmed, List.isEmpty_eq_false_iff, ne_eq, List.drop_eq_nil_iff]
    omega
  have hrest : (h.perform (.fetch now)).scheduler.queues.get? route =
      some (source.trimmed h.scheduler.maxBatchSize) := by
    rw [hq, if_pos rfl, hkept]
    rfl
  -- so the next fetch takes what was left there
  have hfirst' : ∀ route' batch,
      (h.perform (.fetch now)).scheduler.queues.get? route' = some batch →
      (source.trimmed h.scheduler.maxBatchSize).createdAt ≤ batch.createdAt := by
    intro route' batch hget
    obtain ⟨b, hb, hat, _⟩ := queue_of_fetch hget
    rw [hat]
    exact hfirst route' b hb
  obtain ⟨htaken, _⟩ := fetch_of_first (ordered_fetch ho now) hrest hfirst' now
  intro hserves
  obtain ⟨first, hhead, holdest⟩ := hserves now _ htaken
  have hfirstLeft : first = left := by
    rw [ScheduledBatch.pairs_front, ScheduledBatch.pairs_trimmed, List.head?_take,
      (sound_fetch hmax hs now).limit, if_neg (by omega), List.head?_drop, hleft] at hhead
    exact (Option.some.inj hhead).symm
  obtain ⟨route', batch', hget', hmem⟩ := mem_pending_iff.mp hwaiting
  have hne : route' ≠ route := by
    rintro rfl
    exact hother (hs.routeOf_of_mem hget' hmem)
  have hwaits : waiting ∈ (h.perform (.fetch now)).pending := by
    refine mem_pending_iff.mpr ⟨route', batch', ?_, hmem⟩
    rw [hq, if_neg hne]
    exact hget'
  have hle := holdest waiting hwaits
  rw [hfirstLeft] at hle
  exact absurd hyounger hle.not_gt

end History

/-- The fetches of a run leave no younger requests behind. -/
def NeverLeavesYounger (submittedAt : φ → τ) (maxBatchSize : ℕ) (ops : List (Operation π φ τ)) :
    Prop :=
  Runs.Along History.perform (fun h op => ∀ now, op = .fetch now → ¬LeavesYounger submittedAt h)
    (.start maxBatchSize) ops

section Runs

variable {submittedAt : φ → τ} {ops : List (Operation π φ τ)}

theorem History.ordered_run (hmax : 1 ≤ maxBatchSize)
    (hlater : Runs.Along History.perform (Later submittedAt) (.start maxBatchSize) ops) :
    (Runs.run History.perform (.start maxBatchSize) ops).Sound maxBatchSize ∧
      (Runs.run History.perform (.start maxBatchSize) ops).Ordered submittedAt := by
  refine Runs.invariant_run (I := fun h => h.Sound maxBatchSize ∧ h.Ordered submittedAt)
    (fun h op ⟨hs, ho⟩ hop => ?_) ⟨History.sound_start maxBatchSize, History.ordered_start⟩ hlater
  cases op with
  | submit request future now =>
    exact ⟨History.sound_submit hs request future now, History.ordered_submit hs ho hop⟩
  | fetch now => exact ⟨History.sound_fetch hmax hs now, History.ordered_fetch ho now⟩

/-- A run that leaves no younger requests behind stays fair. -/
theorem History.fair_run (hmax : 1 ≤ maxBatchSize)
    (hlater : Runs.Along History.perform (Later submittedAt) (.start maxBatchSize) ops)
    (hkeep : NeverLeavesYounger submittedAt maxBatchSize ops) :
    (Runs.run History.perform (.start maxBatchSize) ops).Fair submittedAt := by
  refine (Runs.invariant_run
    (I := fun h => h.Sound maxBatchSize ∧ h.Ordered submittedAt ∧ h.Fair submittedAt)
    (fun h op ⟨hs, ho, hf⟩ ⟨hop, hleaves⟩ => ?_)
    ⟨History.sound_start maxBatchSize, History.ordered_start, History.fair_start⟩
    (hlater.and hkeep)).2.2
  cases op with
  | submit request future now =>
    exact ⟨History.sound_submit hs request future now, History.ordered_submit hs ho hop,
      History.fair_submit hs ho hf hop⟩
  | fetch now =>
    exact ⟨History.sound_fetch hmax hs now, History.ordered_fetch ho now,
      History.fair_fetch hs hf (hleaves now rfl) now⟩

/-- **The oldest request is served first as long as no queue is cut so that
younger requests stay at its head.** -/
theorem servesOldest_iff (hmax : 1 ≤ maxBatchSize) (hstamped : Stamped submittedAt ops)
    (htimes : (submissions ops).Pairwise fun p q => submittedAt p.2 < submittedAt q.2) :
    (∀ before later, ops = before ++ later →
        ServesOldest submittedAt (Runs.run History.perform (.start maxBatchSize) before)) ↔
      NeverLeavesYounger submittedAt maxBatchSize ops := by
  have hlater := along_later maxBatchSize hstamped htimes
  constructor
  · intro hserves
    refine Runs.along_iff.mpr fun before op later heq now hop hleaves => ?_
    subst hop
    -- the next fetch would take what this one leaves behind
    have hbefore := (Runs.along_append.mp (heq ▸ hlater)).1
    obtain ⟨hs, ho⟩ := History.ordered_run hmax hbefore
    refine History.not_servesOldest_of_leavesYounger hmax hs ho hleaves now ?_
    have hnext := hserves (before ++ [.fetch now]) later (by simp [heq])
    rwa [Runs.run_append] at hnext
  · intro hkeep before later heq
    subst heq
    have hbefore := (Runs.along_append.mp hlater).1
    obtain ⟨hs, ho⟩ := History.ordered_run hmax hbefore
    exact History.servesOldest_of_fair hmax hs ho
      (History.fair_run hmax hbefore (Runs.along_append.mp hkeep).1)

end Runs

/-- Two requests for one route and one for another, served one by one in the
order of the second route's. -/
theorem servesOldest_two :
    let request (id route : String) : Request Unit := ⟨id, "tenant", route, ()⟩
    let ops : List (Operation Unit ℕ ℕ) := [
      .submit (request "1" "a") 1 1, .submit (request "2" "b") 2 2, .fetch 3]
    (∀ before later, ops = before ++ later →
        ServesOldest id (Runs.run History.perform (.start 1) before)) ↔
      NeverLeavesYounger id 1 ops :=
  servesOldest_iff (by decide)
    (by
      intro request future now hmem
      simp only [List.mem_cons, Operation.submit.injEq, reduceCtorEq, or_false,
        List.not_mem_nil] at hmem
      rcases hmem with ⟨_, rfl, rfl⟩ | ⟨_, rfl, rfl⟩ <;> rfl)
    (by decide)

/-- A busy route goes on being served before one that has waited longer. -/
theorem not_servesOldest_busy :
    let request (id route : String) : Request Unit := ⟨id, "tenant", route, ()⟩
    ¬ServesOldest id (Runs.run History.perform (.start 1 : History Unit ℕ ℕ) [
      .submit (request "1" "a") 1 1, .submit (request "2" "b") 2 2, .submit (request "3" "a") 3 3,
      .fetch 4]) := by
  intro request hserves
  obtain ⟨first, hhead, holdest⟩ := hserves 5 _ rfl
  obtain rfl := Option.some.inj hhead
  have hle := holdest (request "2" "b", 2) (by decide)
  exact absurd hle (by decide)

end Serving
