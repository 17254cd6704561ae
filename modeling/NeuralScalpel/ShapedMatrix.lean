/-
Matrices whose shape is data.

A `ShapedMatrix R` carries its numbers of rows and columns and its entries as
a function on pairs of naturals; the structure carries the proof that entries
outside the shape are zero.  Cutting a matrix and padding it with zeros then
agree with its entries on the nose:

* `ext` — shape and entries determine a matrix;
* `entry_takeRows`, `entry_padRows` and their column twins — cutting keeps the
  entries it keeps, padding keeps all;
* `resize` — cutting and padding to a shape at once;
* `entry_mul_resize` — the product of two resized matrices;
* `scale_mul_scale` — scaling both factors scales the product by both scalars.
-/
import Mathlib.Algebra.Algebra.Basic
import Mathlib.Algebra.BigOperators.GroupWithZero.Action
import Mathlib.Algebra.BigOperators.Intervals

/-- A matrix of a shape given by data, zero outside its shape. -/
structure ShapedMatrix (R : Type) [Zero R] where
  rows : ℕ
  cols : ℕ
  entry : ℕ → ℕ → R
  support : ∀ i j, ¬(i < rows ∧ j < cols) → entry i j = 0

namespace ShapedMatrix

variable {R : Type}

section Zero

variable [Zero R]

theorem ext {M N : ShapedMatrix R} (hrows : M.rows = N.rows) (hcols : M.cols = N.cols)
    (hentry : ∀ i j, M.entry i j = N.entry i j) : M = N := by
  cases M
  cases N
  obtain rfl : _ = _ := hrows
  obtain rfl : _ = _ := hcols
  congr 1
  funext i j
  exact hentry i j

/-- The matrix of a shape with the given entries. -/
def ofFn (rows cols : ℕ) (f : ℕ → ℕ → R) : ShapedMatrix R where
  rows := rows
  cols := cols
  entry i j := if i < rows ∧ j < cols then f i j else 0
  support _ _ h := if_neg h

/-- The first `n` rows. -/
def takeRows (M : ShapedMatrix R) (n : ℕ) : ShapedMatrix R where
  rows := min n M.rows
  cols := M.cols
  entry i j := if i < n then M.entry i j else 0
  support i j h := by
    by_cases hi : i < n
    · rw [if_pos hi]
      exact M.support i j fun hM => h ⟨lt_min hi hM.1, hM.2⟩
    · rw [if_neg hi]

/-- The first `n` columns. -/
def takeCols (M : ShapedMatrix R) (n : ℕ) : ShapedMatrix R where
  rows := M.rows
  cols := min n M.cols
  entry i j := if j < n then M.entry i j else 0
  support i j h := by
    by_cases hj : j < n
    · rw [if_pos hj]
      exact M.support i j fun hM => h ⟨hM.1, lt_min hj hM.2⟩
    · rw [if_neg hj]

/-- `n` more rows of zeros. -/
def padRows (M : ShapedMatrix R) (n : ℕ) : ShapedMatrix R where
  rows := M.rows + n
  cols := M.cols
  entry := M.entry
  support i j h := M.support i j fun hM => h ⟨Nat.lt_add_right n hM.1, hM.2⟩

/-- `n` more columns of zeros. -/
def padCols (M : ShapedMatrix R) (n : ℕ) : ShapedMatrix R where
  rows := M.rows
  cols := M.cols + n
  entry := M.entry
  support i j h := M.support i j fun hM => h ⟨hM.1, Nat.lt_add_right n hM.2⟩

theorem entry_eq_zero {M : ShapedMatrix R} {i j : ℕ} (h : M.rows ≤ i ∨ M.cols ≤ j) :
    M.entry i j = 0 := by
  refine M.support i j fun hM => ?_
  rcases h with h | h
  · exact absurd hM.1 (Nat.not_lt.mpr h)
  · exact absurd hM.2 (Nat.not_lt.mpr h)

@[simp] theorem rows_takeRows (M : ShapedMatrix R) (n : ℕ) :
    (M.takeRows n).rows = min n M.rows := rfl

@[simp] theorem cols_takeRows (M : ShapedMatrix R) (n : ℕ) : (M.takeRows n).cols = M.cols := rfl

@[simp] theorem entry_takeRows (M : ShapedMatrix R) (n i j : ℕ) :
    (M.takeRows n).entry i j = if i < n then M.entry i j else 0 := rfl

@[simp] theorem rows_takeCols (M : ShapedMatrix R) (n : ℕ) : (M.takeCols n).rows = M.rows := rfl

@[simp] theorem cols_takeCols (M : ShapedMatrix R) (n : ℕ) :
    (M.takeCols n).cols = min n M.cols := rfl

@[simp] theorem entry_takeCols (M : ShapedMatrix R) (n i j : ℕ) :
    (M.takeCols n).entry i j = if j < n then M.entry i j else 0 := rfl

@[simp] theorem rows_padRows (M : ShapedMatrix R) (n : ℕ) : (M.padRows n).rows = M.rows + n := rfl

@[simp] theorem cols_padRows (M : ShapedMatrix R) (n : ℕ) : (M.padRows n).cols = M.cols := rfl

@[simp] theorem entry_padRows (M : ShapedMatrix R) (n i j : ℕ) :
    (M.padRows n).entry i j = M.entry i j := rfl

@[simp] theorem rows_padCols (M : ShapedMatrix R) (n : ℕ) : (M.padCols n).rows = M.rows := rfl

@[simp] theorem cols_padCols (M : ShapedMatrix R) (n : ℕ) : (M.padCols n).cols = M.cols + n := rfl

@[simp] theorem entry_padCols (M : ShapedMatrix R) (n i j : ℕ) :
    (M.padCols n).entry i j = M.entry i j := rfl

end Zero

/-! ### Resizing -/

/-- The matrix of a shape that agrees with `M` where both have entries, zero
elsewhere. -/
def resize [Zero R] (M : ShapedMatrix R) (rows cols : ℕ) : ShapedMatrix R :=
  ofFn rows cols M.entry

section Resize

variable [Zero R]

@[simp] theorem rows_resize (M : ShapedMatrix R) (rows cols : ℕ) :
    (M.resize rows cols).rows = rows := rfl

@[simp] theorem cols_resize (M : ShapedMatrix R) (rows cols : ℕ) :
    (M.resize rows cols).cols = cols := rfl

theorem entry_resize (M : ShapedMatrix R) (rows cols i j : ℕ) :
    (M.resize rows cols).entry i j = if i < rows ∧ j < cols then M.entry i j else 0 := rfl

/-- Resizing to a shape no smaller leaves the entries alone. -/
theorem entry_resize_of_le {M : ShapedMatrix R} {rows cols : ℕ} (hrows : M.rows ≤ rows)
    (hcols : M.cols ≤ cols) (i j : ℕ) : (M.resize rows cols).entry i j = M.entry i j := by
  rw [entry_resize]
  by_cases h : i < rows ∧ j < cols
  · rw [if_pos h]
  · rw [if_neg h]
    refine (M.support i j fun hM => h ?_).symm
    exact ⟨lt_of_lt_of_le hM.1 hrows, lt_of_lt_of_le hM.2 hcols⟩

theorem resize_self (M : ShapedMatrix R) : M.resize M.rows M.cols = M :=
  ext rfl rfl fun i j => entry_resize_of_le le_rfl le_rfl i j

theorem resize_resize_cols (M : ShapedMatrix R) (rows cols : ℕ) :
    (M.resize M.rows cols).resize rows cols = M.resize rows cols := by
  refine ext rfl rfl fun i j => ?_
  rw [entry_resize, entry_resize, entry_resize]
  by_cases hi : i < M.rows
  · by_cases hj : j < cols <;> simp [hi, hj]
  · simp [hi, entry_eq_zero (Or.inl (Nat.not_lt.mp hi))]

theorem resize_resize_rows (M : ShapedMatrix R) (rows cols : ℕ) :
    (M.resize rows M.cols).resize rows cols = M.resize rows cols := by
  refine ext rfl rfl fun i j => ?_
  rw [entry_resize, entry_resize, entry_resize]
  by_cases hj : j < M.cols
  · by_cases hi : i < rows <;> simp [hi, hj]
  · simp [hj, entry_eq_zero (Or.inr (Nat.not_lt.mp hj))]

/-- Cutting rows is resizing, when there are enough of them. -/
theorem takeRows_eq_resize {M : ShapedMatrix R} {n : ℕ} (h : n ≤ M.rows) :
    M.takeRows n = M.resize n M.cols := by
  refine ext (min_eq_left h) rfl fun i j => ?_
  rw [entry_takeRows, entry_resize]
  by_cases hj : j < M.cols
  · simp [hj]
  · simp [hj, entry_eq_zero (Or.inr (Nat.not_lt.mp hj))]

theorem takeCols_eq_resize {M : ShapedMatrix R} {n : ℕ} (h : n ≤ M.cols) :
    M.takeCols n = M.resize M.rows n := by
  refine ext rfl (min_eq_left h) fun i j => ?_
  rw [entry_takeCols, entry_resize]
  by_cases hi : i < M.rows
  · simp [hi]
  · simp [hi, entry_eq_zero (Or.inl (Nat.not_lt.mp hi))]

theorem padRows_eq_resize (M : ShapedMatrix R) (n : ℕ) :
    M.padRows n = M.resize (M.rows + n) M.cols := by
  refine ext rfl rfl fun i j => ?_
  rw [entry_padRows, entry_resize_of_le (Nat.le_add_right _ _) le_rfl]

theorem padCols_eq_resize (M : ShapedMatrix R) (n : ℕ) :
    M.padCols n = M.resize M.rows (M.cols + n) := by
  refine ext rfl rfl fun i j => ?_
  rw [entry_padCols, entry_resize_of_le le_rfl (Nat.le_add_right _ _)]

end Resize

/-! ### Scaling -/

/-- Every entry times `c`. -/
def scale {S : Type} [Zero R] [SMulZeroClass S R] (c : S) (M : ShapedMatrix R) :
    ShapedMatrix R where
  rows := M.rows
  cols := M.cols
  entry i j := c • M.entry i j
  support i j h := by rw [M.support i j h, smul_zero]

section Scale

variable {S : Type} [Zero R] [SMulZeroClass S R]

@[simp] theorem rows_scale (c : S) (M : ShapedMatrix R) : (M.scale c).rows = M.rows := rfl

@[simp] theorem cols_scale (c : S) (M : ShapedMatrix R) : (M.scale c).cols = M.cols := rfl

@[simp] theorem entry_scale (c : S) (M : ShapedMatrix R) (i j : ℕ) :
    (M.scale c).entry i j = c • M.entry i j := rfl

end Scale

@[simp] theorem scale_one {S : Type} [MonoidWithZero S] [Zero R] [MulActionWithZero S R]
    (M : ShapedMatrix R) : M.scale (1 : S) = M :=
  ext rfl rfl fun i j => one_smul S (M.entry i j)

/-! ### Products -/

section Product

variable [CommRing R]

/-- The product over the columns of the first factor. -/
def mul (M N : ShapedMatrix R) : ShapedMatrix R where
  rows := M.rows
  cols := N.cols
  entry i j := ∑ k ∈ Finset.range M.cols, M.entry i k * N.entry k j
  support i j h := by
    refine Finset.sum_eq_zero fun k _ => ?_
    rcases not_and_or.mp h with hi | hj
    · rw [entry_eq_zero (Or.inl (Nat.not_lt.mp hi)), zero_mul]
    · rw [entry_eq_zero (Or.inr (Nat.not_lt.mp hj)), mul_zero]

@[simp] theorem rows_mul (M N : ShapedMatrix R) : (M.mul N).rows = M.rows := rfl

@[simp] theorem cols_mul (M N : ShapedMatrix R) : (M.mul N).cols = N.cols := rfl

@[simp] theorem entry_mul (M N : ShapedMatrix R) (i j : ℕ) :
    (M.mul N).entry i j = ∑ k ∈ Finset.range M.cols, M.entry i k * N.entry k j := rfl

/-- Terms beyond the columns of the first factor add nothing. -/
theorem sum_range_min (M N : ShapedMatrix R) (n i j : ℕ) :
    ∑ k ∈ Finset.range n, M.entry i k * N.entry k j =
      ∑ k ∈ Finset.range (min M.cols n), M.entry i k * N.entry k j := by
  refine (Finset.sum_subset (Finset.range_mono (min_le_right _ _)) fun k hk hmin => ?_).symm
  have hcols : M.cols ≤ k := by
    rw [Finset.mem_range] at hk hmin
    omega
  rw [entry_eq_zero (Or.inr hcols), zero_mul]

/-- The product of two resized matrices, where the inner dimension is resized
too: a sum over the indices both had. -/
theorem entry_mul_resize (M N : ShapedMatrix R) (rows inner cols i j : ℕ) :
    ((M.resize rows inner).mul (N.resize inner cols)).entry i j =
      if i < min M.rows rows ∧ j < min N.cols cols then
        ∑ k ∈ Finset.range (min M.cols inner), M.entry i k * N.entry k j
      else 0 := by
  have hterm : ∀ k ∈ Finset.range inner,
      (M.resize rows inner).entry i k * (N.resize inner cols).entry k j =
        if i < rows ∧ j < cols then M.entry i k * N.entry k j else 0 := by
    intro k hk
    have hk' : k < inner := Finset.mem_range.mp hk
    rw [entry_resize, entry_resize]
    by_cases hi : i < rows
    · by_cases hj : j < cols <;> simp [hi, hj, hk']
    · simp [hi]
  rw [entry_mul, cols_resize, Finset.sum_congr rfl hterm]
  by_cases hin : i < rows ∧ j < cols
  · simp only [if_pos hin]
    rw [sum_range_min]
    by_cases hM : i < M.rows ∧ j < N.cols
    · rw [if_pos ⟨lt_min hM.1 hin.1, lt_min hM.2 hin.2⟩]
    · rw [if_neg fun h => hM ⟨lt_of_lt_of_le h.1 (min_le_left _ _),
        lt_of_lt_of_le h.2 (min_le_left _ _)⟩]
      refine Finset.sum_eq_zero fun k _ => ?_
      rcases not_and_or.mp hM with hi | hj
      · rw [entry_eq_zero (Or.inl (Nat.not_lt.mp hi)), zero_mul]
      · rw [entry_eq_zero (Or.inr (Nat.not_lt.mp hj)), mul_zero]
  · simp only [if_neg hin, Finset.sum_const_zero]
    rw [if_neg fun h => hin ⟨lt_of_lt_of_le h.1 (min_le_right _ _),
      lt_of_lt_of_le h.2 (min_le_right _ _)⟩]

/-- Scaling both factors scales the product by both scalars. -/
theorem scale_mul_scale {S : Type} [CommSemiring S] [Algebra S R] (c d : S)
    (M N : ShapedMatrix R) : (M.scale c).mul (N.scale d) = (M.mul N).scale (c * d) := by
  refine ext rfl rfl fun i j => ?_
  rw [entry_mul, entry_scale, entry_mul, Finset.smul_sum]
  refine Finset.sum_congr rfl fun k _ => ?_
  rw [entry_scale, entry_scale, smul_mul_smul_comm]

end Product

end ShapedMatrix
