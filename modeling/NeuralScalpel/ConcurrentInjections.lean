/-
Concurrent shadow injections.

Callers inject into one layer.  An injection has two steps: it reads the live
tensor, buffers it and computes the sum; then it swaps the sum in.  Only the
second is locked, so a swap can overwrite others that came after the read.

* `injectConceptShadow_eq` — the two steps of a caller that runs alone are the
  injection;
* `applied` — the callers whose vectors are in the layer, which the schedule
  decides;
* `liveTensor_run` — the layer holds the initial tensor and their vectors;
* `applied_eq_univ_iff` — nobody's injection is lost exactly when no swap comes
  between the read and the swap of another caller;
* `all_applied_iff` — exactly when the layer holds the sum of all vectors.
-/
import NeuralScalpel.Interleaving
import NeuralScalpel.ShadowInjection

open Interleaving

namespace ConcurrentInjections

variable {ι T : Type}

/-! ### Callers -/

/-- Where a call of `inject_concept_shadow` has got to. -/
inductive Stage (T : Type)
  | reading
  | swapping (shadow : T)
  | finished
  deriving DecidableEq

/-- A caller reads the live tensor and computes the sum, or takes the lock and
swaps it in. -/
def act [Add T] (layerName : String) (taskVector : ι → T) (i : ι) :
    Stage T → VRAMHotSwapAPI T → Stage T × VRAMHotSwapAPI T
  | .reading, api =>
    match api.liveTensor layerName with
    | none => (.finished, api)
    | some live => (.swapping (live + taskVector i), api.buffer layerName live)
  | .swapping shadow, api => (.finished, api.swapIn layerName shadow)
  | .finished, api => (.finished, api)

/-- The two steps of a caller that runs alone are the injection. -/
theorem injectConceptShadow_eq [Add T] (layerName : String) (taskVector : ι → T) (i : ι)
    (api : VRAMHotSwapAPI T) :
    api.injectConceptShadow (fun t v => .ok (t + v)) (taskVector i) layerName =
      (.ok (), (act layerName taskVector i (act layerName taskVector i .reading api).1
        (act layerName taskVector i .reading api).2).2) := by
  unfold VRAMHotSwapAPI.injectConceptShadow
  rcases hlive : api.liveTensor layerName with _ | live
  · simp only [act, hlive]
  · simp only [act, hlive]

/-! ### Whose vectors are in the layer -/

/-- Where a call has got to, and whose vectors were in the layer when it read. -/
inductive Progress (ι : Type)
  | reading
  | swapping (seen : Finset ι)
  | finished
  deriving DecidableEq

variable [DecidableEq ι]

/-- The swap of a caller leaves its own vector and those it saw; on a module it
leaves nothing. -/
def track (detached : Bool) (i : ι) : Progress ι → Finset ι → Progress ι × Finset ι
  | .reading, applied => (.swapping applied, applied)
  | .swapping seen, applied => (.finished, if detached then applied else insert i seen)
  | .finished, applied => (.finished, applied)

/-- All callers before their first step. -/
def waiting : Config ι (Finset ι) (Progress ι) := ⟨∅, fun _ => .reading⟩

/-- The callers whose vectors a schedule leaves in the layer. -/
def applied (detached : Bool) (schedule : List ι) : Finset ι :=
  (Runs.run (step (track detached)) waiting schedule).shared

/-- What callers see comes from calls that have finished. -/
structure Finished (a : Config ι (Finset ι) (Progress ι)) : Prop where
  shared : ∀ i ∈ a.shared, a.stage i = .finished
  seen : ∀ k seen, a.stage k = .swapping seen → ∀ i ∈ seen, a.stage i = .finished

omit [DecidableEq ι] in
theorem finished_waiting : Finished (waiting : Config ι (Finset ι) (Progress ι)) := by
  refine ⟨fun i hi => absurd hi (Finset.notMem_empty i), fun k seen hk => ?_⟩
  cases hk

omit [DecidableEq ι] in
/-- A caller is not among those it saw. -/
theorem Finished.not_mem_seen {a : Config ι (Finset ι) (Progress ι)} (h : Finished a) {i : ι}
    {seen : Finset ι} (hi : a.stage i = .swapping seen) : i ∉ seen := by
  intro hmem
  have hfinished := h.seen i seen hi i hmem
  rw [hi] at hfinished
  cases hfinished

/-- A finished call stays finished. -/
theorem stage_step_of_finished (detached : Bool) {a : Config ι (Finset ι) (Progress ι)} {i j : ι}
    (h : a.stage j = .finished) : (step (track detached) a i).stage j = .finished := by
  by_cases hj : j = i
  · subst hj
    rw [stage_step_self, h]
    rfl
  · rw [stage_step_of_ne a hj, h]

theorem finished_step (detached : Bool) {a : Config ι (Finset ι) (Progress ι)} (h : Finished a)
    (i : ι) : Finished (step (track detached) a i) := by
  have hkeep := fun {j} => stage_step_of_finished (i := i) (j := j) detached (a := a)
  constructor
  · intro j hj
    rw [shared_step] at hj
    cases hstage : a.stage i with
    | reading =>
      rw [hstage] at hj
      exact hkeep (h.shared j hj)
    | finished =>
      rw [hstage] at hj
      exact hkeep (h.shared j hj)
    | swapping seen =>
      have hown : (step (track detached) a i).stage i = .finished := by
        rw [stage_step_self, hstage]
        rfl
      rw [hstage] at hj
      cases detached with
      | true => exact hkeep (h.shared j hj)
      | false =>
        rcases Finset.mem_insert.mp hj with rfl | hj
        · exact hown
        · exact hkeep (h.seen i seen hstage j hj)
  · intro k seen hk j hj
    by_cases hki : k = i
    · subst hki
      rw [stage_step_self] at hk
      cases hstage : a.stage k with
      | reading =>
        rw [hstage] at hk
        cases hk
        exact hkeep (h.shared j hj)
      | finished =>
        rw [hstage] at hk
        cases hk
      | swapping seen' =>
        rw [hstage] at hk
        cases hk
    · rw [stage_step_of_ne a hki] at hk
      exact hkeep (h.seen k seen hk j hj)

theorem finished_run (detached : Bool) (schedule : List ι) :
    Finished (Runs.run (step (track detached)) waiting schedule) := by
  induction schedule using List.reverseRecOn with
  | nil => exact finished_waiting
  | append_singleton schedule i ih =>
    rw [Runs.run_append]
    exact finished_step detached ih i

/-! ### What the layer holds -/

section

variable [AddCommGroup T]

/-- A caller has got as far as its progress says, and has computed the sum of
what it saw and its own vector. -/
def Stage.Matches (initial : T) (taskVector : ι → T) (i : ι) : Stage T → Progress ι → Prop
  | .reading, .reading => True
  | .swapping shadow, .swapping seen => shadow = initial + ∑ j ∈ seen, taskVector j + taskVector i
  | .finished, .finished => True
  | _, _ => False

omit [DecidableEq ι] in
theorem Stage.Matches.finished_iff {initial : T} {taskVector : ι → T} {i : ι} {stage : Stage T}
    {progress : Progress ι} (h : stage.Matches initial taskVector i progress) :
    stage = .finished ↔ progress = .finished := by
  cases stage with
  | reading =>
    cases progress with
    | reading => exact iff_of_false nofun nofun
    | swapping seen => cases h
    | finished => cases h
  | swapping shadow =>
    cases progress with
    | reading => cases h
    | swapping seen => exact iff_of_false nofun nofun
    | finished => cases h
  | finished =>
    cases progress with
    | reading => cases h
    | swapping seen => cases h
    | finished => exact iff_of_true rfl rfl

/-- The layer holds the initial tensor and the vectors of the callers tracked. -/
structure Simulates (layerName : String) (initial : T) (taskVector : ι → T) (detached : Bool)
    (c : Config ι (VRAMHotSwapAPI T) (Stage T)) (a : Config ι (Finset ι) (Progress ι)) : Prop where
  live : c.shared.liveTensor layerName = some (initial + ∑ i ∈ a.shared, taskVector i)
  kind : c.shared.model.isDetached = detached
  stages : ∀ i, (c.stage i).Matches initial taskVector i (a.stage i)

variable {layerName : String} {initial : T} {taskVector : ι → T} {detached : Bool}

theorem act_track {i : ι} {stage : Stage T} {progress : Progress ι} {api : VRAMHotSwapAPI T}
    {seenNow : Finset ι} (hmatches : stage.Matches initial taskVector i progress)
    (hnot : ∀ seen, progress = .swapping seen → i ∉ seen)
    (hlive : api.liveTensor layerName = some (initial + ∑ j ∈ seenNow, taskVector j))
    (hkind : api.model.isDetached = detached) :
    (act layerName taskVector i stage api).2.liveTensor layerName =
        some (initial + ∑ j ∈ (track detached i progress seenNow).2, taskVector j) ∧
      (act layerName taskVector i stage api).2.model.isDetached = detached ∧
      (act layerName taskVector i stage api).1.Matches initial taskVector i
        (track detached i progress seenNow).1 := by
  cases stage with
  | reading =>
    cases progress with
    | reading =>
      simp only [act, hlive]
      exact ⟨hlive, hkind, rfl⟩
    | swapping seen => cases hmatches
    | finished => cases hmatches
  | finished =>
    cases progress with
    | reading => cases hmatches
    | swapping seen => cases hmatches
    | finished => exact ⟨hlive, hkind, trivial⟩
  | swapping shadow =>
    cases progress with
    | reading => cases hmatches
    | finished => cases hmatches
    | swapping seen =>
      have hshadow : shadow = initial + ∑ j ∈ seen, taskVector j + taskVector i := hmatches
      refine ⟨?_, (VRAMHotSwapAPI.isDetached_swapIn api layerName shadow).trans hkind, trivial⟩
      show (api.swapIn layerName shadow).liveTensor layerName =
        some (initial + ∑ j ∈ if detached then seenNow else insert i seen, taskVector j)
      rw [VRAMHotSwapAPI.liveTensor_swapIn hlive, hkind]
      cases detached with
      | true => rfl
      | false =>
        rw [if_neg Bool.false_ne_true, if_neg Bool.false_ne_true, hshadow,
          Finset.sum_insert (hnot seen rfl), add_comm (taskVector i), add_assoc]

/-- A step of a caller is tracked. -/
theorem simulates_step {c : Config ι (VRAMHotSwapAPI T) (Stage T)}
    {a : Config ι (Finset ι) (Progress ι)} (ha : Finished a)
    (h : Simulates layerName initial taskVector detached c a) (i : ι) :
    Simulates layerName initial taskVector detached (step (act layerName taskVector) c i)
      (step (track detached) a i) := by
  obtain ⟨hlive, hkind, hown⟩ := act_track (h.stages i) (fun seen => ha.not_mem_seen) h.live h.kind
  refine ⟨hlive, hkind, fun j => ?_⟩
  by_cases hj : j = i
  · subst hj
    rw [stage_step_self, stage_step_self]
    exact hown
  · rw [stage_step_of_ne c hj, stage_step_of_ne a hj]
    exact h.stages j

theorem simulates_run (taskVector : ι → T) {api : VRAMHotSwapAPI T}
    (hlive : api.liveTensor layerName = some initial) (schedule : List ι) :
    Simulates layerName initial taskVector api.model.isDetached
      (Runs.run (step (act layerName taskVector)) ⟨api, fun _ => .reading⟩ schedule)
      (Runs.run (step (track api.model.isDetached)) waiting schedule) := by
  induction schedule using List.reverseRecOn with
  | nil =>
    refine ⟨?_, rfl, fun i => trivial⟩
    show api.liveTensor layerName = some (initial + ∑ i ∈ ∅, taskVector i)
    rw [Finset.sum_empty, add_zero, hlive]
  | append_singleton schedule i ih =>
    rw [Runs.run_append, Runs.run_append]
    exact simulates_step (finished_run _ schedule) ih i

/-- The layer holds the initial tensor and the vectors of the callers applied. -/
theorem liveTensor_run {api : VRAMHotSwapAPI T} (hlive : api.liveTensor layerName = some initial)
    (schedule : List ι) :
    (Runs.run (step (act layerName taskVector)) ⟨api, fun _ => .reading⟩
      schedule).shared.liveTensor layerName =
        some (initial + ∑ i ∈ applied api.model.isDetached schedule, taskVector i) :=
  (simulates_run taskVector hlive schedule).live

/-- A caller has finished when its progress says so. -/
theorem stage_run_finished_iff {api : VRAMHotSwapAPI T}
    (hlive : api.liveTensor layerName = some initial) (schedule : List ι) (i : ι) :
    (Runs.run (step (act layerName taskVector)) ⟨api, fun _ => .reading⟩ schedule).stage i =
        .finished ↔
      (Runs.run (step (track api.model.isDetached)) waiting schedule).stage i = .finished :=
  ((simulates_run taskVector hlive schedule).stages i).finished_iff

end

/-! ### Lost injections -/

/-- Whenever a caller swaps, the layer holds what it read: no swap came between. -/
def Undisturbed (schedule : List ι) : Prop :=
  Runs.Along (step (track false)) (fun a i => ∀ seen, a.stage i = .swapping seen → seen = a.shared)
    waiting schedule

/-- The set has all callers that have finished. -/
def HasFinished (a : Config ι (Finset ι) (Progress ι)) (callers : Finset ι) : Prop :=
  ∀ i, a.stage i = .finished → i ∈ callers

/-- Neither the layer nor what a caller read has all that have finished, so one
of them is lost for good. -/
structure Broken (a : Config ι (Finset ι) (Progress ι)) : Prop where
  shared : ¬HasFinished a a.shared
  seen : ∀ k seen, a.stage k = .swapping seen → ¬HasFinished a seen

theorem not_hasFinished_step {a : Config ι (Finset ι) (Progress ι)} {callers : Finset ι}
    (h : ¬HasFinished a callers) (i : ι) : ¬HasFinished (step (track false) a i) callers :=
  fun hall => h fun j hj => hall j (stage_step_of_finished false hj)

theorem stage_step_of_swapping {a : Config ι (Finset ι) (Progress ι)} {i : ι} {seen : Finset ι}
    (h : a.stage i = .swapping seen) : (step (track false) a i).stage i = .finished := by
  rw [stage_step_self, h]
  rfl

theorem shared_step_of_swapping {a : Config ι (Finset ι) (Progress ι)} {i : ι} {seen : Finset ι}
    (h : a.stage i = .swapping seen) : (step (track false) a i).shared = insert i seen := by
  rw [shared_step, h]
  rfl

theorem step_of_finished {a : Config ι (Finset ι) (Progress ι)} {i : ι}
    (h : a.stage i = .finished) : step (track false) a i = a := by
  rw [step, h]
  show Config.mk a.shared (Function.update a.stage i .finished) = a
  rw [← h, Function.update_eq_self]

/-- What others read does not have a caller that swaps now. -/
theorem not_hasFinished_of_swapping {a : Config ι (Finset ι) (Progress ι)} (ha : Finished a)
    {i k : ι} {seen seen' : Finset ι} (hi : a.stage i = .swapping seen)
    (hk : a.stage k = .swapping seen') : ¬HasFinished (step (track false) a i) seen' := by
  intro hall
  have hmem := hall i (stage_step_of_swapping hi)
  have hfinished := ha.seen k seen' hk i hmem
  rw [hi] at hfinished
  cases hfinished

/-- A swap of a caller that saw less than all that have finished breaks the run. -/
theorem broken_of_swapping {a : Config ι (Finset ι) (Progress ι)} (ha : Finished a) {i : ι}
    {seen : Finset ι} (hi : a.stage i = .swapping seen) (hseen : ¬HasFinished a seen) :
    Broken (step (track false) a i) := by
  constructor
  · rw [shared_step_of_swapping hi]
    refine fun hall => hseen fun j hj => ?_
    rcases Finset.mem_insert.mp (hall j (stage_step_of_finished false hj)) with rfl | hmem
    · rw [hi] at hj
      cases hj
    · exact hmem
  · intro k seen' hk
    by_cases hki : k = i
    · subst hki
      rw [stage_step_of_swapping hi] at hk
      cases hk
    · rw [stage_step_of_ne a hki] at hk
      exact not_hasFinished_of_swapping ha hi hk

theorem broken_step {a : Config ι (Finset ι) (Progress ι)} (ha : Finished a) (h : Broken a)
    (i : ι) : Broken (step (track false) a i) := by
  cases hi : a.stage i with
  | swapping seen => exact broken_of_swapping ha hi (h.seen i seen hi)
  | reading =>
    have hshared : (step (track false) a i).shared = a.shared := by
      rw [shared_step, hi]
      rfl
    refine ⟨hshared ▸ not_hasFinished_step h.shared i, fun k seen hk => ?_⟩
    by_cases hki : k = i
    · subst hki
      rw [stage_step_self, hi] at hk
      cases hk
      exact not_hasFinished_step h.shared k
    · rw [stage_step_of_ne a hki] at hk
      exact not_hasFinished_step (h.seen k seen hk) i
  | finished =>
    rw [step_of_finished hi]
    exact h

/-- A step that no swap came before keeps what has finished in the layer. -/
theorem hasFinished_step {a : Config ι (Finset ι) (Progress ι)} (h : HasFinished a a.shared) {i : ι}
    (hi : ∀ seen, a.stage i = .swapping seen → seen = a.shared) :
    HasFinished (step (track false) a i) (step (track false) a i).shared := by
  intro j hj
  cases hstage : a.stage i with
  | reading =>
    rw [shared_step, hstage]
    by_cases hji : j = i
    · subst hji
      rw [stage_step_self, hstage] at hj
      cases hj
    · rw [stage_step_of_ne a hji] at hj
      exact h j hj
  | swapping seen =>
    rw [shared_step_of_swapping hstage, hi seen hstage]
    by_cases hji : j = i
    · rw [hji]
      exact Finset.mem_insert_self i a.shared
    · rw [stage_step_of_ne a hji] at hj
      exact Finset.mem_insert_of_mem (h j hj)
  | finished =>
    rw [step_of_finished hstage] at hj ⊢
    exact h j hj

omit [DecidableEq ι] in
/-- A caller that saw less than the layer, where all that have finished are, saw
less than those. -/
theorem not_hasFinished_of_ne {a : Config ι (Finset ι) (Progress ι)} (ha : Finished a)
    (h : HasFinished a a.shared) {i : ι} {seen : Finset ι} (hi : a.stage i = .swapping seen)
    (hne : seen ≠ a.shared) : ¬HasFinished a seen := by
  intro hall
  refine hne (Finset.Subset.antisymm (fun j hj => ?_) fun j hj => ?_)
  · exact h j (ha.seen i seen hi j hj)
  · exact hall j (ha.shared j hj)

theorem undisturbed_append {schedule : List ι} {i : ι} :
    Undisturbed (schedule ++ [i]) ↔
      Undisturbed schedule ∧ ∀ seen,
        (Runs.run (step (track false)) waiting schedule).stage i = .swapping seen →
          seen = (Runs.run (step (track false)) waiting schedule).shared := by
  rw [Undisturbed, Runs.along_append, Runs.Along, Runs.Along, and_true, Undisturbed]

/-- Along a run what has finished is in the layer, or some of it is lost. -/
theorem undisturbed_or_broken (schedule : List ι) :
    (Undisturbed schedule ∧ HasFinished (Runs.run (step (track false)) waiting schedule)
        (Runs.run (step (track false)) waiting schedule).shared) ∨
      (¬Undisturbed schedule ∧ Broken (Runs.run (step (track false)) waiting schedule)) := by
  induction schedule using List.reverseRecOn with
  | nil =>
    refine Or.inl ⟨trivial, fun i hi => ?_⟩
    cases hi
  | append_singleton schedule i ih =>
    have ha := finished_run false schedule
    rw [undisturbed_append, Runs.run_append]
    rcases ih with ⟨hquiet, hall⟩ | ⟨hnot, hbroken⟩
    · by_cases hi : ∀ seen, (Runs.run (step (track false)) waiting schedule).stage i =
          .swapping seen → seen = (Runs.run (step (track false)) waiting schedule).shared
      · exact Or.inl ⟨⟨hquiet, hi⟩, hasFinished_step hall hi⟩
      · obtain ⟨seen, hseen⟩ := not_forall.mp hi
        obtain ⟨hstage, hne⟩ := Classical.not_imp.mp hseen
        exact Or.inr ⟨fun h => hi h.2,
          broken_of_swapping ha hstage (not_hasFinished_of_ne ha hall hstage hne)⟩
    · exact Or.inr ⟨fun h => hnot h.1, broken_step ha hbroken i⟩

/-- When all have finished, all are applied exactly when the schedule is
undisturbed. -/
theorem applied_eq_univ_iff [Fintype ι] {schedule : List ι}
    (hdone : ∀ i, (Runs.run (step (track false)) waiting schedule).stage i = .finished) :
    applied false schedule = Finset.univ ↔ Undisturbed schedule := by
  rcases undisturbed_or_broken schedule with ⟨hquiet, hall⟩ | ⟨hnot, hbroken⟩
  · exact iff_of_true (Finset.eq_univ_of_forall fun i => hall i (hdone i)) hquiet
  · refine iff_of_false (fun huniv => hbroken.shared fun i _ => ?_) hnot
    rw [applied] at huniv
    rw [huniv]
    exact Finset.mem_univ i

/-- On a module no injection is applied. -/
theorem applied_of_detached (schedule : List ι) : applied true schedule = ∅ := by
  unfold applied
  induction schedule using List.reverseRecOn with
  | nil => rfl
  | append_singleton schedule i ih =>
    rw [Runs.run_append, Runs.run_cons, Runs.run_nil, shared_step]
    cases (Runs.run (step (track true)) waiting schedule).stage i with
    | reading => exact ih
    | swapping seen => exact ih
    | finished => exact ih

/-! ### The sum of all vectors -/

/-- When all have finished, the layer holds the sum of all vectors exactly when
those of the callers that are lost add to zero, and on a dictionary none is lost
exactly when no swap came between the read and the swap of another. -/
theorem all_applied_iff [Fintype ι] [AddCommGroup T] {api : VRAMHotSwapAPI T}
    {layerName : String} {initial : T} (taskVector : ι → T)
    (hlive : api.liveTensor layerName = some initial) {schedule : List ι}
    (hdone : ∀ i, (Runs.run (step (act layerName taskVector)) ⟨api, fun _ => .reading⟩
      schedule).stage i = .finished) :
    ((Runs.run (step (act layerName taskVector)) ⟨api, fun _ => .reading⟩
          schedule).shared.liveTensor layerName = some (initial + ∑ i, taskVector i) ↔
        ∑ i ∈ (applied api.model.isDetached schedule)ᶜ, taskVector i = 0) ∧
      (api.model.isDetached = false →
        (applied api.model.isDetached schedule = Finset.univ ↔ Undisturbed schedule)) ∧
      (api.model.isDetached = true → applied api.model.isDetached schedule = ∅) := by
  refine ⟨?_, fun hkind => ?_, fun hkind => ?_⟩
  · rw [liveTensor_run hlive, Option.some_inj, add_right_inj,
      ← Finset.sum_add_sum_compl (applied api.model.isDetached schedule) taskVector,
      left_eq_add]
  · have htracked := fun i => (stage_run_finished_iff hlive schedule i).mp (hdone i)
    rw [hkind] at htracked ⊢
    exact applied_eq_univ_iff htracked
  · rw [hkind]
    exact applied_of_detached schedule

/-- A model with one layer, which is zero. -/
def zeroModel : VRAMHotSwapAPI ℚ := ⟨.mapping (Dict.empty.set "l" 0), .empty⟩

/-- Two callers that add one each. -/
def ones : Fin 2 → ℚ := fun _ => 1

theorem all_applied_in_turn :
    ((Runs.run (step (act "l" ones)) ⟨zeroModel, fun _ => .reading⟩
          [0, 0, 1, 1]).shared.liveTensor "l" = some (0 + ∑ i, ones i) ↔
        ∑ i ∈ (applied false [0, 0, 1, 1])ᶜ, ones i = 0) ∧
      (zeroModel.model.isDetached = false →
        (applied (ι := Fin 2) false [0, 0, 1, 1] = Finset.univ ↔
          Undisturbed (ι := Fin 2) [0, 0, 1, 1])) ∧
      (zeroModel.model.isDetached = true → applied (ι := Fin 2) false [0, 0, 1, 1] = ∅) := by
  have hlive : zeroModel.liveTensor "l" = some 0 := rfl
  exact all_applied_iff ones hlive (by decide)

/-- Two callers that both read before they swap: the second overwrites the
first. -/
theorem not_all_applied :
    (∀ i, (Runs.run (step (act "l" ones)) ⟨zeroModel, fun _ => .reading⟩ [0, 1, 0, 1]).stage i =
        .finished) ∧
      (Runs.run (step (act "l" ones)) ⟨zeroModel, fun _ => .reading⟩
        [0, 1, 0, 1]).shared.liveTensor "l" = some 1 ∧
      (0 + ∑ i, ones i : ℚ) = 2 := by
  decide +kernel

end ConcurrentInjections
