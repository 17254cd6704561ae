/-
Runs of a machine.

A machine is a function `next : σ → ι → σ` that takes a state and an input to
the next state.  A run folds it over a list of inputs.  `Along C s is` says
that a condition on a state and the input it is about to receive holds at
every step of the run of `is` from `s`:

* `invariant_run` — an invariant preserved by every step that meets a
  condition holds at the end of every run whose steps meet it;
* `invariant_run_of_step` — of every run, when every step preserves it;
* `Along.of_invariant` — and what the invariant and the condition give of a
  single step holds along the whole run;
* `along_invariant_iff` — a run stays in an invariant exactly when each step
  meets the condition under which a step keeps it;
* `along_congr` — a property of single steps that is equivalent to a condition
  is equivalent to it along every run.
-/
import Mathlib.Data.List.Basic

namespace Runs

variable {σ ι : Type} {next : σ → ι → σ}

def run (next : σ → ι → σ) (s : σ) (is : List ι) : σ := is.foldl next s

@[simp] theorem run_nil (s : σ) : run next s [] = s := rfl

@[simp] theorem run_cons (s : σ) (i : ι) (is : List ι) :
    run next s (i :: is) = run next (next s i) is := rfl

theorem run_append (s : σ) (is is' : List ι) :
    run next s (is ++ is') = run next (run next s is) is' := by
  simp [run]

/-- Every step of the run of the inputs from `s` meets `C`. -/
def Along (next : σ → ι → σ) (C : σ → ι → Prop) : σ → List ι → Prop
  | _, [] => True
  | s, i :: is => C s i ∧ Along next C (next s i) is

instance Along.decidable (C : σ → ι → Prop) [∀ s i, Decidable (C s i)] :
    ∀ (s : σ) (is : List ι), Decidable (Along next C s is)
  | _, [] => isTrue trivial
  | s, i :: is =>
    have := Along.decidable C (next s i) is
    inferInstanceAs (Decidable (C s i ∧ Along next C (next s i) is))

/-- `C` holds at the step after any prefix of the run. -/
theorem along_iff {C : σ → ι → Prop} : ∀ {is : List ι} {s : σ},
    Along next C s is ↔
      ∀ before i later, is = before ++ i :: later → C (run next s before) i := by
  intro is
  induction is with
  | nil => simp [Along]
  | cons i is ih =>
    intro s
    rw [Along, ih]
    constructor
    · rintro ⟨hi, his⟩ before j later heq
      rcases before with _ | ⟨k, before⟩
      · obtain ⟨rfl, rfl⟩ := List.cons.inj heq
        exact hi
      · obtain ⟨rfl, rfl⟩ := List.cons.inj heq
        exact his before j later rfl
    · intro h
      refine ⟨h [] i is rfl, fun before j later heq => ?_⟩
      exact h (i :: before) j later (by rw [heq, List.cons_append])

theorem along_append {C : σ → ι → Prop} : ∀ {is is' : List ι} {s : σ},
    Along next C s (is ++ is') ↔ Along next C s is ∧ Along next C (run next s is) is' := by
  intro is is'
  induction is with
  | nil => simp [Along]
  | cons i is ih =>
    intro s
    rw [List.cons_append, Along, Along, ih, run_cons, and_assoc]

theorem Along.mono {C D : σ → ι → Prop} (h : ∀ s i, C s i → D s i) :
    ∀ {is : List ι} {s : σ}, Along next C s is → Along next D s is := by
  intro is
  induction is with
  | nil => exact fun _ => trivial
  | cons i is ih => exact fun ⟨hi, his⟩ => ⟨h _ i hi, ih his⟩

theorem Along.and {C D : σ → ι → Prop} : ∀ {is : List ι} {s : σ},
    Along next C s is → Along next D s is → Along next (fun s i => C s i ∧ D s i) s is := by
  intro is
  induction is with
  | nil => exact fun _ _ => trivial
  | cons i is ih => exact fun ⟨hC, hCs⟩ ⟨hD, hDs⟩ => ⟨⟨hC, hD⟩, ih hCs hDs⟩

theorem along_congr {C D : σ → ι → Prop} (h : ∀ s i, C s i ↔ D s i) {is : List ι} {s : σ} :
    Along next C s is ↔ Along next D s is :=
  ⟨Along.mono fun s i => (h s i).mp, Along.mono fun s i => (h s i).mpr⟩

/-- An invariant preserved by the steps that meet `C` holds at the end of every
run whose steps meet it. -/
theorem invariant_run {I : σ → Prop} {C : σ → ι → Prop}
    (hstep : ∀ s i, I s → C s i → I (next s i)) :
    ∀ {is : List ι} {s : σ}, I s → Along next C s is → I (run next s is) := by
  intro is
  induction is with
  | nil => exact fun h _ => h
  | cons i is ih => exact fun h ⟨hi, his⟩ => ih (hstep _ i h hi) his

theorem along_true (s : σ) (is : List ι) : Along next (fun _ _ => True) s is :=
  along_iff.mpr fun _ _ _ _ => trivial

/-- An invariant preserved by every step holds at the end of every run. -/
theorem invariant_run_of_step {I : σ → Prop} (hstep : ∀ s i, I s → I (next s i)) {is : List ι}
    {s : σ} (h : I s) : I (run next s is) :=
  invariant_run (fun s i hi _ => hstep s i hi) h (along_true s is)

/-- What an invariant and the condition of a step give of that step holds
along the whole run. -/
theorem Along.of_invariant {I : σ → Prop} {C P : σ → ι → Prop}
    (hstep : ∀ s i, I s → C s i → I (next s i)) (hP : ∀ s i, I s → C s i → P s i) :
    ∀ {is : List ι} {s : σ}, I s → Along next C s is → Along next P s is := by
  intro is
  induction is with
  | nil => exact fun _ _ => trivial
  | cons i is ih => exact fun h ⟨hi, his⟩ => ⟨hP _ i h hi, ih (hstep _ i h hi) his⟩

/-- If a step keeps an invariant exactly when it meets a condition, a run stays
in the invariant exactly when all its steps meet it. -/
theorem along_invariant_iff {I : σ → Prop} {C : σ → ι → Prop}
    (hstep : ∀ s i, I s → (I (next s i) ↔ C s i)) : ∀ {is : List ι} {s : σ}, I s →
      (Along next (fun s i => I (next s i)) s is ↔ Along next C s is) := by
  intro is
  induction is with
  | nil => exact fun _ => Iff.rfl
  | cons i is ih =>
    intro s h
    rw [Along, Along]
    constructor
    · exact fun ⟨hi, his⟩ => ⟨(hstep s i h).mp hi, (ih hi).mp his⟩
    · intro ⟨hi, his⟩
      have hnext : I (next s i) := (hstep s i h).mpr hi
      exact ⟨hnext, (ih hnext).mpr his⟩

end Runs
