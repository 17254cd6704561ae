/-
Interleaved threads.

Threads of a family `ι` share a state.  Each thread is at a stage of its
program, and a step of a thread takes its stage and the shared state to the
next.  A schedule is a list of threads: any list is one, and a thread that
cannot move is scheduled in vain.

* `holds_step` — assertions about the stage of each thread and the shared state
  hold after a step that establishes its thread's own and disturbs no other;
* `Quiescent` — no thread can move;
* `exists_quiescent` — finitely many threads whose steps lower a rank come to
  rest.
-/
import NeuralScalpel.Runs
import Mathlib.Algebra.BigOperators.Group.Finset.Basic
import Mathlib.Algebra.Order.BigOperators.Group.Finset
import Mathlib.Logic.Function.Basic

namespace Interleaving

/-- A shared state, and the stage each thread is at. -/
structure Config (ι σ S : Type) where
  shared : σ
  stage : ι → S

variable {ι σ S : Type} [DecidableEq ι] {act : ι → S → σ → S × σ}

/-- Thread `i` takes a step. -/
def step (act : ι → S → σ → S × σ) (c : Config ι σ S) (i : ι) : Config ι σ S where
  shared := (act i (c.stage i) c.shared).2
  stage := Function.update c.stage i (act i (c.stage i) c.shared).1

theorem shared_step (c : Config ι σ S) (i : ι) :
    (step act c i).shared = (act i (c.stage i) c.shared).2 := rfl

theorem stage_step_self (c : Config ι σ S) (i : ι) :
    (step act c i).stage i = (act i (c.stage i) c.shared).1 := Function.update_self ..

theorem stage_step_of_ne (c : Config ι σ S) {i j : ι} (h : j ≠ i) :
    (step act c i).stage j = c.stage j := Function.update_of_ne h ..

/-! ### Assertions -/

/-- Each thread's assertion holds of its stage. -/
def Holds (P : ι → S → σ → Prop) (c : Config ι σ S) : Prop := ∀ i, P i (c.stage i) c.shared

/-- A step keeps all assertions if it establishes that of its thread and
disturbs none of the others. -/
theorem holds_step {P : ι → S → σ → Prop} {c : Config ι σ S} {i : ι}
    (hown : P i (act i (c.stage i) c.shared).1 (act i (c.stage i) c.shared).2)
    (hother : ∀ j, j ≠ i → P j (c.stage j) (act i (c.stage i) c.shared).2) :
    Holds P (step act c i) := by
  intro j
  rw [shared_step]
  by_cases hj : j = i
  · subst hj
    rw [stage_step_self]
    exact hown
  · rw [stage_step_of_ne c hj]
    exact hother j hj

/-! ### Coming to rest -/

/-- No thread can move. -/
def Quiescent (act : ι → S → σ → S × σ) (c : Config ι σ S) : Prop := ∀ i, step act c i = c

/-- A thread whose step changes its stage can move. -/
theorem stage_of_quiescent {c : Config ι σ S} (h : Quiescent act c) (i : ι) :
    (act i (c.stage i) c.shared).1 = c.stage i := by
  have hstage := congrArg (fun c => c.stage i) (h i)
  simpa only [stage_step_self] using hstage

/-- If every step that changes something lowers the rank of its thread, some
schedule brings the threads to rest. -/
theorem exists_quiescent [Fintype ι] (rank : S → ℕ)
    (hrank : ∀ i s shared, act i s shared = (s, shared) ∨ rank (act i s shared).1 < rank s)
    (c : Config ι σ S) : ∃ schedule, Quiescent act (Runs.run (step act) c schedule) := by
  induction hn : ∑ i, rank (c.stage i) using Nat.strong_induction_on generalizing c with
  | _ n ih =>
    by_cases hq : Quiescent act c
    · exact ⟨[], hq⟩
    · obtain ⟨i, hi⟩ := not_forall.mp hq
      have hlt : rank (act i (c.stage i) c.shared).1 < rank (c.stage i) := by
        rcases hrank i (c.stage i) c.shared with hsame | hlt
        · refine absurd ?_ hi
          rw [step, hsame, Function.update_eq_self]
        · exact hlt
      have hsum : ∑ j, rank ((step act c i).stage j) < ∑ j, rank (c.stage j) := by
        refine Finset.sum_lt_sum (fun j _ => ?_) ⟨i, Finset.mem_univ i, ?_⟩
        · by_cases hj : j = i
          · subst hj
            rw [stage_step_self]
            exact hlt.le
          · rw [stage_step_of_ne c hj]
        · rw [stage_step_self]
          exact hlt
      obtain ⟨schedule, hs⟩ := ih _ (hn ▸ hsum) (step act c i) rfl
      exact ⟨i :: schedule, hs⟩

end Interleaving
