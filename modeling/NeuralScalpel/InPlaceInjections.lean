/-
In-place injections from many threads.

`inject_concept` and `remove_concept` look for the layer, and then change its
tensor in place while they hold the lock.  A state dict shares its storage with
the model, so a change in place reaches a module as well as a dictionary.  No two
layers share a tensor here, and a sum is exact and has the shape of the layer.

* `perform_alone` — the four steps of a thread that runs alone are its call;
* `inPlace_run` — in any schedule each layer holds its initial tensor and what
  the calls that have changed it by then add and take away, at most one thread
  is in the locked section, and all calls can still finish.
-/
import NeuralScalpel.Interleaving
import NeuralScalpel.ShadowInjection

open Interleaving

namespace InPlaceInjections

variable {ι T : Type}

/-! ### Calls -/

inductive Kind
  | inject
  | remove
  deriving DecidableEq

/-- A call of `inject_concept` or of `remove_concept`. -/
structure Call (T : Type) where
  kind : Kind
  taskVector : T
  layerName : String

/-- `state[layer_name].add_(...)` and `sub_`. -/
def Call.on [Add T] [Sub T] (call : Call T) (live : T) : T :=
  match call.kind with
  | .inject => live + call.taskVector
  | .remove => live - call.taskVector

/-- A tensor of the state dict, which no other name shares, has changed in place. -/
def setInPlace (layerName : String) (tensor : T) : TargetModel T → TargetModel T
  | .absent => .absent
  | .mapping tensors => .mapping (tensors.set layerName tensor)
  | .module tensors => .module (tensors.set layerName tensor)

/-- `inject_concept` and `remove_concept`. -/
def perform [Add T] [Sub T] (call : Call T) (api : VRAMHotSwapAPI T) : VRAMHotSwapAPI T :=
  match api.liveTensor call.layerName with
  | none => api
  | some live => { api with model := setInPlace call.layerName (call.on live) api.model }

/-! ### Threads -/

/-- Where a call has got to. -/
inductive Stage
  | checking
  | acquiring
  | holding
  | releasing
  | finished
  deriving DecidableEq

structure Shared (T : Type) where
  api : VRAMHotSwapAPI T
  locked : Bool

/-- A thread looks for the layer, waits for the lock, changes the tensor, and
gives the lock back. -/
def act [Add T] [Sub T] (calls : ι → Call T) (i : ι) : Stage → Shared T → Stage × Shared T
  | .checking, s =>
    if (s.api.liveTensor (calls i).layerName).isSome then (.acquiring, s) else (.finished, s)
  | .acquiring, s => if s.locked then (.acquiring, s) else (.holding, { s with locked := true })
  | .holding, s => (.releasing, { s with api := perform (calls i) s.api })
  | .releasing, s => (.finished, { s with locked := false })
  | .finished, s => (.finished, s)

def start (api : VRAMHotSwapAPI T) : Config ι (Shared T) Stage := ⟨⟨api, false⟩, fun _ => .checking⟩

namespace Stage

/-- In the locked section. -/
def inside : Stage → Bool
  | .holding | .releasing => true
  | _ => false

/-- The tensor has been changed, or there is none. -/
def changed : Stage → Bool
  | .releasing | .finished => true
  | _ => false

def rank : Stage → ℕ
  | .checking => 4
  | .acquiring => 3
  | .holding => 2
  | .releasing => 1
  | .finished => 0

end Stage

/-- A thread that runs alone does what its call does. -/
theorem perform_alone [DecidableEq ι] [Add T] [Sub T] (calls : ι → Call T) (i : ι)
    (api : VRAMHotSwapAPI T) :
    Runs.run (step (act calls)) (start api) [i, i, i, i] =
      ⟨⟨perform (calls i) api, false⟩, Function.update (fun _ => .checking) i .finished⟩ := by
  have hstep : ∀ (s : Shared T) (stage : Stage),
      step (act calls) ⟨s, Function.update (fun _ => Stage.checking) i stage⟩ i =
        ⟨(act calls i stage s).2,
          Function.update (fun _ => .checking) i (act calls i stage s).1⟩ := by
    intro s stage
    simp only [step, Function.update_self, Function.update_idem]
  have hstart : (start api : Config ι (Shared T) Stage) =
      ⟨⟨api, false⟩, Function.update (fun _ => .checking) i .checking⟩ := by
    rw [Function.update_eq_self]
    rfl
  rw [hstart]
  simp only [Runs.run_cons, Runs.run_nil, hstep]
  cases hlive : api.liveTensor (calls i).layerName with
  | none => simp [act, hlive, perform]
  | some live => simp [act, hlive]

/-! ### What the layers hold -/

section Group

variable [AddCommGroup T]

/-- What a call adds to its layer. -/
def Call.change (call : Call T) : T :=
  match call.kind with
  | .inject => call.taskVector
  | .remove => -call.taskVector

theorem Call.on_eq (call : Call T) (live : T) : call.on live = live + call.change := by
  unfold on change
  cases call.kind with
  | inject => rfl
  | remove => exact sub_eq_add_neg _ _

theorem liveTensor_perform (call : Call T) (api : VRAMHotSwapAPI T) (layerName : String) :
    (perform call api).liveTensor layerName = (api.liveTensor layerName).map fun live =>
      if call.layerName = layerName then live + call.change else live := by
  unfold perform
  cases hlive : api.liveTensor call.layerName with
  | none =>
    by_cases hname : call.layerName = layerName
    · rw [← hname, hlive]
      rfl
    · simp only [if_neg hname, Option.map_id']
  | some live =>
    rcases api with ⟨model, buffers⟩
    have hset : ∀ tensors : Dict String T, tensors.get? call.layerName = some live →
        (tensors.set call.layerName (call.on live)).get? layerName =
          (tensors.get? layerName).map fun live =>
            if call.layerName = layerName then live + call.change else live := by
      intro tensors hget
      rw [Dict.get?_set]
      by_cases hname : layerName = call.layerName
      · rw [if_pos hname, hname, hget, Call.on_eq]
        simp
      · simp only [if_neg hname, if_neg (Ne.symm hname), Option.map_id']
    cases model with
    | absent => cases hlive
    | mapping tensors => exact hset tensors hlive
    | module tensors => exact hset tensors hlive

variable [Fintype ι]

/-- What the calls that are done with a layer have added to it. -/
def total (calls : ι → Call T) (stage : ι → Stage) (layerName : String) : T :=
  ∑ i ∈ Finset.univ.filter fun i => (stage i).changed = true ∧ (calls i).layerName = layerName,
    (calls i).change

variable [DecidableEq ι] {calls : ι → Call T} {api : VRAMHotSwapAPI T}
variable {c : Config ι (Shared T) Stage} {i : ι}

/-- A step that changes no tensor changes no total. -/
theorem total_update_of_eq {stage : ι → Stage} {s : Stage} (h : s.changed = (stage i).changed)
    (layerName : String) :
    total calls (Function.update stage i s) layerName = total calls stage layerName := by
  unfold total
  congr 1
  ext j
  by_cases hj : j = i
  · subst hj
    simp only [Finset.mem_filter, Function.update_self, h]
  · simp only [Finset.mem_filter, Function.update_of_ne hj]

/-- A thread that gets past its change is counted for its layer. -/
theorem total_update {stage : ι → Stage} {s : Stage} (hbefore : (stage i).changed = false)
    (hafter : s.changed = true) (layerName : String) :
    total calls (Function.update stage i s) layerName = total calls stage layerName +
      if (calls i).layerName = layerName then (calls i).change else 0 := by
  unfold total
  by_cases hname : (calls i).layerName = layerName
  · have hset : (Finset.univ.filter fun j => (Function.update stage i s j).changed = true ∧
        (calls j).layerName = layerName) = insert i (Finset.univ.filter fun j =>
          (stage j).changed = true ∧ (calls j).layerName = layerName) := by
      ext j
      by_cases hj : j = i
      · subst hj
        simp [hafter, hname]
      · simp [hj]
    have hnot : i ∉ Finset.univ.filter fun j =>
        (stage j).changed = true ∧ (calls j).layerName = layerName := by
      simp [hbefore]
    rw [hset, Finset.sum_insert hnot, if_pos hname, add_comm]
  · rw [if_neg hname, add_zero]
    congr 1
    ext j
    by_cases hj : j = i
    · subst hj
      simp [hname]
    · simp [hj]

/-! ### Any schedule -/

/-- What holds whatever the schedule. -/
structure Kept (calls : ι → Call T) (api : VRAMHotSwapAPI T) (c : Config ι (Shared T) Stage) :
    Prop where
  /-- The lock is taken for exactly one thread in the locked section. -/
  mutex : ∀ i, (c.stage i).inside = true →
    c.shared.locked = true ∧ ∀ j, (c.stage j).inside = true → j = i
  taken : c.shared.locked = true → ∃ i, (c.stage i).inside = true
  tensors : ∀ layerName, c.shared.api.liveTensor layerName =
    (api.liveTensor layerName).map (· + total calls c.stage layerName)

omit [DecidableEq ι] in
theorem kept_start : Kept calls api (start api) where
  mutex _ h := absurd h Bool.false_ne_true
  taken h := absurd h Bool.false_ne_true
  tensors layerName := by
    have hnone : total calls (fun _ => Stage.checking) layerName = 0 := by
      unfold total
      rw [Finset.filter_false_of_mem fun _ _ h => Bool.false_ne_true h.1, Finset.sum_empty]
    show _ = (api.liveTensor layerName).map (· + total calls (fun _ => Stage.checking) layerName)
    rw [hnone]
    simp only [add_zero, Option.map_id']
    rfl

/-- A step that neither enters nor leaves the locked section and changes no
tensor. -/
theorem Kept.pass (h : Kept calls api c) {s : Stage} (hinside : s.inside = (c.stage i).inside)
    (htotal : ∀ layerName, api.liveTensor layerName = none ∨
      total calls (Function.update c.stage i s) layerName = total calls c.stage layerName) :
    Kept calls api ⟨c.shared, Function.update c.stage i s⟩ := by
  have hsame : ∀ j, (Function.update c.stage i s j).inside = (c.stage j).inside := by
    intro j
    by_cases hj : j = i
    · rw [hj, Function.update_self, hinside]
    · rw [Function.update_of_ne hj]
  refine ⟨fun j hj => ?_, fun htaken => ?_, fun layerName => ?_⟩
  · rw [hsame] at hj
    exact ⟨(h.mutex j hj).1, fun k hk => (h.mutex j hj).2 k (hsame k ▸ hk)⟩
  · obtain ⟨j, hj⟩ := h.taken htaken
    exact ⟨j, (hsame j).trans hj⟩
  · rw [h.tensors]
    rcases htotal layerName with hnone | htotal
    · rw [hnone]
      rfl
    · rw [htotal]

/-- A call that finds no layer changes nothing. -/
theorem Kept.skip (h : Kept calls api c) (hstage : c.stage i = .checking)
    (hmissing : (c.shared.api.liveTensor (calls i).layerName).isSome = false) :
    Kept calls api ⟨c.shared, Function.update c.stage i .finished⟩ := by
  refine h.pass (by rw [hstage]; rfl) fun layerName => ?_
  have hbefore : (c.stage i).changed = false := by rw [hstage]; rfl
  rw [total_update hbefore rfl]
  by_cases hname : (calls i).layerName = layerName
  · rw [hname, h.tensors, Option.isSome_map] at hmissing
    exact .inl (Option.isNone_iff_eq_none.mp (Option.isSome_eq_false_iff.mp hmissing))
  · rw [if_neg hname, add_zero]
    exact .inr rfl

/-- Taking the lock. -/
theorem Kept.enter (h : Kept calls api c) (hstage : c.stage i = .acquiring)
    (hfree : c.shared.locked = false) :
    Kept calls api ⟨{ c.shared with locked := true }, Function.update c.stage i .holding⟩ := by
  -- nobody is inside while the lock is free
  have hnobody : ∀ j, (c.stage j).inside = false := fun j =>
    Bool.eq_false_iff.mpr fun hj => Bool.false_ne_true (hfree.symm.trans (h.mutex j hj).1)
  have honly : ∀ j, (Function.update c.stage i Stage.holding j).inside = true → j = i := by
    intro j hj
    by_contra hne
    rw [Function.update_of_ne hne, hnobody] at hj
    cases hj
  refine ⟨fun j hj => ⟨rfl, fun k hk => (honly k hk).trans (honly j hj).symm⟩, fun _ => ⟨i, ?_⟩,
    fun layerName => ?_⟩
  · show (Function.update c.stage i Stage.holding i).inside = true
    rw [Function.update_self]
    rfl
  · show c.shared.api.liveTensor layerName = _
    rw [h.tensors, total_update_of_eq (by rw [hstage]; rfl)]

/-- Changing the tensor with the lock held. -/
theorem Kept.change (h : Kept calls api c) (hstage : c.stage i = .holding) :
    Kept calls api ⟨{ c.shared with api := perform (calls i) c.shared.api },
      Function.update c.stage i .releasing⟩ := by
  have hsame : ∀ j, (Function.update c.stage i Stage.releasing j).inside = (c.stage j).inside := by
    intro j
    by_cases hj : j = i
    · rw [hj, Function.update_self, hstage]
      rfl
    · rw [Function.update_of_ne hj]
  refine ⟨fun j hj => ?_, fun htaken => ?_, fun layerName => ?_⟩
  · obtain ⟨hlocked, honly⟩ := h.mutex j ((hsame j).symm.trans hj)
    exact ⟨hlocked, fun k hk => honly k ((hsame k).symm.trans hk)⟩
  · obtain ⟨j, hj⟩ := h.taken htaken
    exact ⟨j, (hsame j).trans hj⟩
  · have hbefore : (c.stage i).changed = false := by rw [hstage]; rfl
    show (perform (calls i) c.shared.api).liveTensor layerName = _
    rw [liveTensor_perform, h.tensors, total_update hbefore rfl, Option.map_map]
    congr 1
    funext live
    show (if _ then live + _ + _ else live + _) = live + (_ + _)
    split_ifs
    · exact add_assoc _ _ _
    · rw [add_zero]

/-- Giving the lock back. -/
theorem Kept.leave (h : Kept calls api c) (hstage : c.stage i = .releasing) :
    Kept calls api ⟨{ c.shared with locked := false }, Function.update c.stage i .finished⟩ := by
  have hinside : (c.stage i).inside = true := by rw [hstage]; rfl
  have hnobody : ∀ j, (Function.update c.stage i Stage.finished j).inside = false := by
    intro j
    by_cases hj : j = i
    · rw [hj, Function.update_self]
      rfl
    · rw [Function.update_of_ne hj]
      exact Bool.eq_false_iff.mpr fun hjn => hj ((h.mutex i hinside).2 j hjn)
  refine ⟨fun j hj => absurd ((hnobody j).symm.trans hj) Bool.false_ne_true,
    fun htaken => absurd htaken Bool.false_ne_true, fun layerName => ?_⟩
  show c.shared.api.liveTensor layerName = _
  rw [h.tensors, total_update_of_eq (by rw [hstage]; rfl)]

theorem kept_step (h : Kept calls api c) (i : ι) : Kept calls api (step (act calls) c i) := by
  rw [step]
  cases hstage : c.stage i with
  | checking =>
    cases hlive : (c.shared.api.liveTensor (calls i).layerName).isSome with
    | true =>
      simp only [act, hlive, if_true]
      exact h.pass (by rw [hstage]; rfl) fun layerName =>
        .inr (total_update_of_eq (by rw [hstage]; rfl) layerName)
    | false =>
      simp only [act, hlive, Bool.false_eq_true, if_false]
      exact h.skip hstage hlive
  | acquiring =>
    cases hlocked : c.shared.locked with
    | true =>
      simp only [act, hlocked, if_true]
      exact h.pass (by rw [hstage]) fun layerName =>
        .inr (total_update_of_eq (by rw [hstage]) layerName)
    | false =>
      simp only [act, hlocked, Bool.false_eq_true, if_false]
      exact h.enter hstage hlocked
  | holding => exact h.change hstage
  | releasing => exact h.leave hstage
  | finished =>
    simp only [act]
    exact h.pass (by rw [hstage]) fun layerName =>
      .inr (total_update_of_eq (by rw [hstage]) layerName)

theorem kept_run (calls : ι → Call T) (api : VRAMHotSwapAPI T) (schedule : List ι) :
    Kept calls api (Runs.run (step (act calls)) (start api) schedule) :=
  Runs.invariant_run_of_step (I := Kept calls api) (fun _ i h => kept_step h i) kept_start

/-! ### Coming to rest -/

omit [Fintype ι] [DecidableEq ι] in
/-- A step that changes something brings its thread on. -/
theorem act_rank (calls : ι → Call T) (i : ι) (stage : Stage) (s : Shared T) :
    act calls i stage s = (stage, s) ∨ (act calls i stage s).1.rank < stage.rank := by
  cases stage with
  | checking =>
    right
    simp only [act]
    split_ifs
    · exact (by decide : Stage.acquiring.rank < Stage.checking.rank)
    · exact (by decide : Stage.finished.rank < Stage.checking.rank)
  | acquiring =>
    simp only [act]
    split_ifs
    · exact .inl rfl
    · exact .inr (by decide : Stage.holding.rank < Stage.acquiring.rank)
  | holding => exact .inr (by decide : Stage.releasing.rank < Stage.holding.rank)
  | releasing => exact .inr (by decide : Stage.finished.rank < Stage.releasing.rank)
  | finished => exact .inl rfl

/-- Threads that cannot move have finished: whoever waits for the lock waits for
a thread that can. -/
theorem finished_of_quiescent (h : Kept calls api c) (hrest : Quiescent (act calls) c) (i : ι) :
    c.stage i = .finished := by
  have hstay := stage_of_quiescent hrest
  have hinside : ∀ j, (c.stage j).inside = false := by
    intro j
    have hj := hstay j
    cases hstage : c.stage j <;> rw [hstage] at hj <;> first | rfl | cases hj
  have hfree : c.shared.locked = false := Bool.eq_false_iff.mpr fun htaken => by
    obtain ⟨j, hj⟩ := h.taken htaken
    exact Bool.false_ne_true ((hinside j).symm.trans hj)
  have hi := hstay i
  cases hstage : c.stage i with
  | checking =>
    rw [hstage, act] at hi
    split_ifs at hi
  | acquiring =>
    rw [hstage, act, hfree] at hi
    cases hi
  | holding =>
    rw [hstage] at hi
    cases hi
  | releasing =>
    rw [hstage] at hi
    cases hi
  | finished => rfl

/-- **No change in place is lost.**  In any schedule of any calls every layer
holds its initial tensor and what the calls that are done with it add and take
away; at most one thread is in the locked section; and from there all calls can
finish. -/
theorem inPlace_run (calls : ι → Call T) (api : VRAMHotSwapAPI T) (schedule : List ι) :
    let c := Runs.run (step (act calls)) (start api) schedule
    (∀ layerName, c.shared.api.liveTensor layerName =
      (api.liveTensor layerName).map (· + total calls c.stage layerName)) ∧
    (∀ i j, (c.stage i).inside = true → (c.stage j).inside = true → i = j) ∧
    ∃ later, (∀ i, (Runs.run (step (act calls)) (start api) (schedule ++ later)).stage i =
        .finished) ∧
      ∀ layerName, (Runs.run (step (act calls)) (start api)
          (schedule ++ later)).shared.api.liveTensor layerName =
        (api.liveTensor layerName).map
          (· + ∑ i ∈ Finset.univ.filter fun i => (calls i).layerName = layerName,
            (calls i).change) := by
  intro c
  have hkept := kept_run calls api schedule
  refine ⟨hkept.tensors, fun i j hi hj => (hkept.mutex j hj).2 i hi, ?_⟩
  obtain ⟨later, hrest⟩ := exists_quiescent Stage.rank (act_rank calls) c
  have hend := kept_run calls api (schedule ++ later)
  have hrun : Runs.run (step (act calls)) (start api) (schedule ++ later) =
      Runs.run (step (act calls)) c later := Runs.run_append _ _ _
  rw [← hrun] at hrest
  have hdone := finished_of_quiescent hend hrest
  refine ⟨later, hdone, fun layerName => ?_⟩
  rw [hend.tensors]
  simp only [total, hdone, Stage.changed, true_and]

end Group

end InPlaceInjections
