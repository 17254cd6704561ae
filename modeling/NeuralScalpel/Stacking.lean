/-
Matrices on top of each other.

* `catRows` — stacking matrices with equally many columns;
* `rowBlock_stack` — a stacked matrix is found again below those before it.
-/
import NeuralScalpel.FailurePolicy
import NeuralScalpel.ShapedMatrix

namespace ShapedMatrix

variable {R : Type} [Zero R]

/-- One matrix above another, as wide as the first. -/
def above (M N : ShapedMatrix R) : ShapedMatrix R :=
  .ofFn (M.rows + N.rows) M.cols fun i j =>
    if i < M.rows then M.entry i j else N.entry (i - M.rows) j

def stack : List (ShapedMatrix R) → ShapedMatrix R
  | [] => .ofFn 0 0 fun _ _ => 0
  | M :: rest => M.above (stack rest)

/-- `torch.cat(tensors, dim=0)`, for matrices. -/
def catRows : List (ShapedMatrix R) → Except PyError (ShapedMatrix R)
  | [] => .error (.runtimeError "torch.cat(): expected a non-empty list of Tensors")
  | M :: rest =>
    if rest.all fun N => decide (N.cols = M.cols) then .ok (stack (M :: rest))
    else .error (.runtimeError "Sizes of tensors must match except in dimension 0.")

/-- `n` rows from a row on. -/
def rowBlock (M : ShapedMatrix R) (start n : ℕ) : ShapedMatrix R :=
  .ofFn n M.cols fun i j => M.entry (start + i) j

/-- All matrices have equally many columns. -/
def SameCols (l : List (ShapedMatrix R)) : Prop := ∀ M ∈ l, ∀ N ∈ l, M.cols = N.cols

theorem catRows_eq_ok {l : List (ShapedMatrix R)} {F : ShapedMatrix R} :
    catRows l = .ok F ↔ l ≠ [] ∧ SameCols l ∧ F = stack l := by
  rcases l with _ | ⟨M, rest⟩
  · rw [catRows]
    exact ⟨fun h => absurd h (by simp), fun h => absurd rfl h.1⟩
  · have hcols : rest.all (fun N => decide (N.cols = M.cols)) = true ↔ SameCols (M :: rest) := by
      rw [List.all_eq_true]
      constructor
      · intro h
        have hhead : ∀ N ∈ M :: rest, N.cols = M.cols := by
          intro N hN
          rcases List.mem_cons.mp hN with rfl | hN
          · rfl
          · exact of_decide_eq_true (h N hN)
        exact fun N hN N' hN' => (hhead N hN).trans (hhead N' hN').symm
      · exact fun h N hN => decide_eq_true
          (h N (List.mem_cons_of_mem M hN) M List.mem_cons_self)
    rw [catRows]
    constructor
    · intro h
      split_ifs at h with hall
      cases h
      exact ⟨List.cons_ne_nil M rest, hcols.mp hall, rfl⟩
    · rintro ⟨-, hsame, rfl⟩
      rw [if_pos (hcols.mpr hsame)]

@[simp] theorem rows_above (M N : ShapedMatrix R) : (M.above N).rows = M.rows + N.rows := rfl

@[simp] theorem cols_above (M N : ShapedMatrix R) : (M.above N).cols = M.cols := rfl

theorem entry_above (M N : ShapedMatrix R) (i j : ℕ) : (M.above N).entry i j =
    if i < M.rows + N.rows ∧ j < M.cols then
      if i < M.rows then M.entry i j else N.entry (i - M.rows) j
    else 0 := rfl

theorem entry_rowBlock (M : ShapedMatrix R) (start n i j : ℕ) : (M.rowBlock start n).entry i j =
    if i < n ∧ j < M.cols then M.entry (start + i) j else 0 := rfl

/-- The first rows are those of the upper matrix. -/
theorem rowBlock_above_zero (M N : ShapedMatrix R) : (M.above N).rowBlock 0 M.rows = M := by
  refine ext rfl rfl fun i j => ?_
  rw [entry_rowBlock, cols_above, entry_above]
  by_cases hin : i < M.rows ∧ j < M.cols
  · have hrows : 0 + i < M.rows + N.rows ∧ j < M.cols := ⟨by omega, hin.2⟩
    rw [if_pos hin, if_pos hrows, if_pos (by omega), Nat.zero_add]
  · rw [if_neg hin, M.support i j hin]

/-- Further rows are those of the lower matrix. -/
theorem rowBlock_above_add {M N : ShapedMatrix R} (hcols : N.cols = M.cols) {start n : ℕ}
    (hrows : start + n ≤ N.rows) :
    (M.above N).rowBlock (M.rows + start) n = N.rowBlock start n := by
  refine ext rfl hcols.symm fun i j => ?_
  rw [entry_rowBlock, entry_rowBlock, entry_above, cols_above, hcols]
  by_cases hin : i < n ∧ j < M.cols
  · have habove : M.rows + start + i < M.rows + N.rows ∧ j < M.cols := ⟨by omega, hin.2⟩
    have hlower : M.rows + start + i - M.rows = start + i := by omega
    rw [if_pos hin, if_pos hin, if_pos habove, if_neg (by omega), hlower]
  · rw [if_neg hin, if_neg hin]

theorem rows_stack : ∀ l : List (ShapedMatrix R), (stack l).rows = (l.map rows).sum := by
  intro l
  induction l with
  | nil => rfl
  | cons M rest ih => rw [stack, rows_above, ih, List.map_cons, List.sum_cons]

/-- A matrix is found again below those stacked before it. -/
theorem rowBlock_stack {before after : List (ShapedMatrix R)} {M : ShapedMatrix R}
    (hcols : SameCols (before ++ M :: after)) :
    (stack (before ++ M :: after)).rowBlock (before.map rows).sum M.rows = M := by
  induction before with
  | nil => exact rowBlock_above_zero M (stack after)
  | cons N before ih =>
    have hrest : SameCols (before ++ M :: after) := fun P hP P' hP' =>
      hcols P (List.mem_cons_of_mem N hP) P' (List.mem_cons_of_mem N hP')
    have hwidth : (stack (before ++ M :: after)).cols = N.cols := by
      rcases before with _ | ⟨P, before⟩
      · exact hcols M (by simp) N List.mem_cons_self
      · exact hcols P (by simp) N List.mem_cons_self
    have hheight : (before.map rows).sum + M.rows ≤ (stack (before ++ M :: after)).rows := by
      rw [rows_stack, List.map_append, List.sum_append, List.map_cons, List.sum_cons]
      omega
    rw [List.map_cons, List.sum_cons, List.cons_append, stack,
      rowBlock_above_add hwidth hheight, ih hrest]

end ShapedMatrix
