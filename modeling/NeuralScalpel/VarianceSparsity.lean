/-
Sparsity that preserves variance.

Of the difference of two tensors the entries of least magnitude are dropped, as
many as leave the wanted part of its squared sum: the squares are sorted, the
first prefix sum that reaches the part is searched, and the entry found there is
the threshold.

* `sparsify` — the entries below the threshold set to zero;
* `threshold_spec` — the square of the threshold cuts the sorted squares;
* `keepsEnough` — what is kept is enough, and no more than is needed.

Tensors are contiguous, and the conversion to a sparse tensor is a parameter.
-/
import NeuralScalpel.DescendingSums
import NeuralScalpel.GgufBridge
import NeuralScalpel.Tensor
import Mathlib.Algebra.Order.Ring.Abs
import Mathlib.Data.List.Sort
import Mathlib.Order.Bounds.Basic
import Mathlib.Tactic.NormNum
import Mathlib.Tactic.Positivity

namespace VarianceSparsity

open DescendingSums

/-! ### Differences -/

section

variable {K : Type} [Zero K]

/-- The elements of `a` stretched to `shape`. -/
def stretch (a : NdArray K) (shape : List ℕ) : List K :=
  (List.range shape.prod).map fun k =>
    a.data.getD (sourceIndexRev a.shape.reverse shape.reverse k) 0

theorem length_stretch (a : NdArray K) (shape : List ℕ) :
    (stretch a shape).length = shape.prod := by
  rw [stretch, List.length_map, List.length_range]

/-- `a - b`. -/
def subtract [Sub K] (a b : NdArray K) : Except PyError (NdArray K) :=
  match broadcastRev a.shape.reverse b.shape.reverse with
  | none => .error (.runtimeError "The size of tensor a must match the size of tensor b")
  | some rev => .ok ⟨rev.reverse,
      List.zipWith (· - ·) (stretch a rev.reverse) (stretch b rev.reverse),
      by rw [List.length_zipWith, length_stretch, length_stretch, min_self]⟩

end

/-! ### The threshold -/

section

variable {K : Type} [Field K] [LinearOrder K]

def tauAbs (tau : List K) : List K := tau.map fun x => |x|

/-- `tau_abs ** 2`. -/
def energy (tau : List K) : List K := (tauAbs tau).map fun x => x ^ 2

/-- `torch.sort(energy, descending=True)`: values and indices. -/
def sortDescending (values : List K) : List (K × ℕ) :=
  values.zipIdx.insertionSort fun p q => q.1 ≤ p.1

/-- `threshold_idx`, kept inside the list. -/
def thresholdIdx (tau : List K) (variancePreservation : K) : ℕ :=
  let sortedEnergy := (sortDescending (energy tau)).map Prod.fst
  let idx := firstReaching ((energy tau).sum * variancePreservation) (cumsum 0 sortedEnergy)
  if sortedEnergy.length ≤ idx then sortedEnergy.length - 1 else idx

/-- `tau_abs[sorted_indices[threshold_idx]]`; none for an empty tensor. -/
def threshold (tau : List K) (variancePreservation : K) : Option K := do
  let entry ← (sortDescending (energy tau))[thresholdIdx tau variancePreservation]?
  (tauAbs tau)[entry.2]?

/-- `tau * mask`. -/
def masked (tau : NdArray K) (thresholdValue : K) : NdArray K where
  shape := tau.shape
  data := tau.data.map fun x => x * if thresholdValue ≤ |x| then 1 else 0
  wf := by rw [List.length_map, tau.wf]

/-- The difference with its small entries set to zero. -/
def sparsify (tau : NdArray K) (variancePreservation : K) : Except PyError (NdArray K) :=
  match threshold tau.data variancePreservation with
  | none => .error (.external "IndexError: index is out of bounds for dimension 0 with size 0")
  | some thresholdValue => .ok (masked tau thresholdValue)

/-- `adaptive_variance_preserving_sparsity`; `toSparseCsr` is the conversion of the
tensor it returns. -/
def adaptiveVariancePreservingSparsity {σ : Type} (toSparseCsr : NdArray K → Except PyError σ)
    (wTuned wBase : NdArray K) (variancePreservation : K := 0.99) : Except PyError σ := do
  let tau ← subtract wTuned wBase
  let sparse ← sparsify tau variancePreservation
  toSparseCsr sparse

end

/-! ### What is kept -/

/-- The squared sum. -/
def sqSum {K : Type} [Field K] (l : List K) : K := (l.map fun x => x ^ 2).sum

/-- Of `tau` are kept the entries no smaller than `smallest`, unchanged: enough
for the part `v` of the squared sum, and fewer would not do. -/
structure KeepsEnough {K : Type} [Field K] [LinearOrder K] (v : K) (tau sparse : List K)
    (smallest : K) : Prop where
  least : IsLeast {m | ∃ x ∈ sparse, x ≠ 0 ∧ |x| = m} smallest
  unchanged : sparse = tau.map fun x => if smallest ≤ |x| then x else 0
  enough : v * sqSum tau ≤ sqSum sparse
  no_more : sqSum (tau.filter (smallest < |·|)) < v * sqSum tau

section

variable {K : Type} [LinearOrder K]

theorem perm_sortDescending (values : List K) :
    ((sortDescending values).map Prod.fst).Perm values := by
  have h := (List.perm_insertionSort (fun p q : K × ℕ => q.1 ≤ p.1) values.zipIdx).map Prod.fst
  rwa [List.zipIdx_map_fst] at h

theorem pairwise_sortDescending (values : List K) :
    ((sortDescending values).map Prod.fst).Pairwise (· ≥ ·) := by
  have _ : Std.Total fun p q : K × ℕ => q.1 ≤ p.1 := ⟨fun p q => le_total q.1 p.1⟩
  have _ : IsTrans (K × ℕ) fun p q => q.1 ≤ p.1 := ⟨fun _ _ _ hpq hqr => le_trans hqr hpq⟩
  exact List.pairwise_map.mpr (List.pairwise_insertionSort _ _)

end

section

variable {K : Type} [Field K]

theorem sum_map_filter (l : List K) (p : K → Bool) (f : K → K) :
    ((l.filter p).map f).sum = (l.map fun x => if p x then f x else 0).sum := by
  induction l with
  | nil => rfl
  | cons x l ih =>
    by_cases h : p x = true
    · rw [List.filter_cons_of_pos h, List.map_cons, List.sum_cons, List.map_cons, List.sum_cons,
        if_pos h, ih]
    · rw [List.filter_cons_of_neg h, List.map_cons, List.sum_cons, if_neg h, zero_add, ih]

variable [LinearOrder K]

/-- Setting entries to zero leaves the squared sum of the others. -/
theorem sqSum_map_ite (tau : List K) (a : K) :
    sqSum (tau.map fun x => if a ≤ |x| then x else 0) = sqSum (tau.filter (a ≤ |·|)) := by
  rw [sqSum, sqSum, sum_map_filter, List.map_map]
  refine congrArg List.sum (List.map_congr_left fun x _ => ?_)
  by_cases h : a ≤ |x| <;> simp [h]

theorem energy_eq (tau : List K) : energy tau = tau.map fun x => x ^ 2 := by
  rw [energy, tauAbs, List.map_map]
  exact List.map_congr_left fun x _ => sq_abs x

theorem masked_data (tau : NdArray K) (a : K) :
    (masked tau a).data = tau.data.map fun x => if a ≤ |x| then x else 0 := by
  refine List.map_congr_left fun x _ => ?_
  rw [mul_ite, mul_one, mul_zero]

variable [IsStrictOrderedRing K] {tau : List K} {v a : K}

theorem sqSum_pos (h : ∃ x ∈ tau, x ≠ 0) : 0 < sqSum tau := by
  obtain ⟨x, hx, hne⟩ := h
  have hle : x ^ 2 ≤ sqSum tau := List.single_le_sum (fun y hy => by
    obtain ⟨z, -, rfl⟩ := List.mem_map.mp hy
    exact sq_nonneg z) _ (List.mem_map_of_mem hx)
  have hpos : 0 < x ^ 2 := by positivity
  exact hpos.trans_le hle

/-- Squares at least, or larger than, the square of a magnitude are those of the
entries of at least, or larger, magnitude. -/
theorem sum_filter_energy (tau : List K) (ha : 0 ≤ a) :
    ((energy tau).filter (a ^ 2 ≤ ·)).sum = sqSum (tau.filter (a ≤ |·|)) ∧
      ((energy tau).filter (a ^ 2 < ·)).sum = sqSum (tau.filter (a < |·|)) := by
  have hle : ∀ x : K, a ^ 2 ≤ x ^ 2 ↔ a ≤ |x| := fun x => by
    rw [← sq_abs x, pow_le_pow_iff_left₀ ha (abs_nonneg x) two_ne_zero]
  have hlt : ∀ x : K, a ^ 2 < x ^ 2 ↔ a < |x| := fun x => by
    rw [← sq_abs x, pow_lt_pow_iff_left₀ ha (abs_nonneg x) two_ne_zero]
  rw [energy_eq, List.filter_map, List.filter_map, sqSum, sqSum]
  simp only [Function.comp_def, hle, hlt, and_self]

/-- The square of the threshold cuts the squares where the part is reached. -/
theorem threshold_spec (hne : ∃ x ∈ tau, x ≠ 0) (hv : 0 < v) (hv1 : v ≤ 1) :
    ∃ a, threshold tau v = some a ∧ 0 < a ∧ (∃ x ∈ tau, |x| = a) ∧
      v * sqSum tau ≤ sqSum (tau.filter (a ≤ |·|)) ∧
        sqSum (tau.filter (a < |·|)) < v * sqSum tau := by
  have hperm := perm_sortDescending (energy tau)
  have htotal : (energy tau).sum = sqSum tau := by rw [energy_eq, sqSum]
  have hpos := sqSum_pos hne
  have hnonneg : ∀ e ∈ (sortDescending (energy tau)).map Prod.fst, 0 ≤ e := by
    intro e he
    rw [hperm.mem_iff, energy_eq] at he
    obtain ⟨x, -, rfl⟩ := List.mem_map.mp he
    exact sq_nonneg x
  have htarget : (energy tau).sum * v = v * sqSum tau := by rw [htotal, mul_comm]
  have hreach : (energy tau).sum * v ≤ ((sortDescending (energy tau)).map Prod.fst).sum := by
    rw [hperm.sum_eq, htotal]
    exact mul_le_of_le_one_right hpos.le hv1
  obtain ⟨e, hget, he, henough, hshort⟩ := cuts_at_firstReaching
    (pairwise_sortDescending (energy tau)) hnonneg (htarget ▸ mul_pos hv hpos) hreach
  -- the search ends inside the list
  have hidx : thresholdIdx tau v = firstReaching ((energy tau).sum * v)
      (cumsum 0 ((sortDescending (energy tau)).map Prod.fst)) := by
    obtain ⟨hlt, -⟩ := List.getElem?_eq_some_iff.mp hget
    exact if_neg (not_le.mpr hlt)
  rw [← hidx, List.getElem?_map, Option.map_eq_some_iff] at hget
  obtain ⟨⟨e', i⟩, hentry, rfl⟩ := hget
  -- the index leads back to an entry of this energy
  have hmem : (e', i) ∈ (energy tau).zipIdx :=
    (List.perm_insertionSort _ _).mem_iff.mp (List.mem_of_getElem? hentry)
  have hat : (energy tau)[i]? = some e' := List.mem_zipIdx_iff_getElem?.mp hmem
  rw [energy, List.getElem?_map, Option.map_eq_some_iff] at hat
  obtain ⟨a, hvalue, rfl⟩ := hat
  obtain ⟨x, hx, rfl⟩ := List.mem_map.mp (List.mem_of_getElem? hvalue)
  obtain ⟨hle, hlt⟩ := sum_filter_energy tau (abs_nonneg x)
  have hcut : ∀ p : K → Bool, (((sortDescending (energy tau)).map Prod.fst).filter p).sum =
      ((energy tau).filter p).sum := fun p => (hperm.filter p).sum_eq
  rw [hcut, hle, htarget] at henough
  rw [hcut, hlt, htarget] at hshort
  refine ⟨|x|, ?_, ?_, ⟨x, hx, rfl⟩, henough, hshort⟩
  · rw [threshold, hentry]
    exact hvalue
  · exact abs_pos.mpr fun hzero => by simp [hzero] at he

theorem keepsEnough_masked {tau : NdArray K} (ha : 0 < a) (hattained : ∃ x ∈ tau.data, |x| = a)
    (henough : v * sqSum tau.data ≤ sqSum (tau.data.filter (a ≤ |·|)))
    (hshort : sqSum (tau.data.filter (a < |·|)) < v * sqSum tau.data) :
    KeepsEnough v tau.data (masked tau a).data a := by
  refine ⟨⟨?_, ?_⟩, masked_data tau a, ?_, hshort⟩
  · obtain ⟨x, hx, rfl⟩ := hattained
    refine ⟨x, ?_, abs_pos.mp ha, rfl⟩
    rw [masked_data]
    exact List.mem_map.mpr ⟨x, hx, if_pos le_rfl⟩
  · rintro m ⟨y, hy, hne, rfl⟩
    rw [masked_data] at hy
    obtain ⟨x, -, rfl⟩ := List.mem_map.mp hy
    by_cases hkept : a ≤ |x|
    · rw [if_pos hkept]
      exact hkept
    · exact absurd (if_neg hkept) hne
  · rw [masked_data, sqSum_map_ite]
    exact henough

/-- Of every difference that is not zero, the entries kept are enough for every
part of its squared sum, and no more than are needed. -/
theorem keepsEnough {σ : Type} (toSparseCsr : NdArray K → Except PyError σ)
    {wTuned wBase tau : NdArray K} (htau : subtract wTuned wBase = .ok tau)
    (hne : ∃ x ∈ tau.data, x ≠ 0) (hv : 0 < v) (hv1 : v ≤ 1) :
    ∃ sparse smallest, adaptiveVariancePreservingSparsity toSparseCsr wTuned wBase v =
        toSparseCsr sparse ∧
      sparse.shape = tau.shape ∧ KeepsEnough v tau.data sparse.data smallest := by
  obtain ⟨a, hthreshold, ha, hattained, henough, hshort⟩ := threshold_spec hne hv hv1
  have hsparse : sparsify tau v = .ok (masked tau a) := by rw [sparsify, hthreshold]
  refine ⟨masked tau a, a, ?_, rfl, keepsEnough_masked ha hattained henough hshort⟩
  rw [adaptiveVariancePreservingSparsity, htau]
  show (sparsify tau v >>= toSparseCsr) = toSparseCsr (masked tau a)
  rw [hsparse]
  rfl

/-- The entries of two by two tensors. -/
def ties : NdArray ℚ := ⟨[2, 2], [3, -2, 2, 0], rfl⟩

/-- Nine tenths of a squared sum of seventeen need both entries of magnitude two. -/
theorem keepsEnough_ties : ∃ sparse smallest,
    adaptiveVariancePreservingSparsity (.ok : NdArray ℚ → Except PyError (NdArray ℚ)) ties
        (.zeros 0 [2, 2]) 0.9 = .ok sparse ∧
      sparse.shape = ties.shape ∧ KeepsEnough 0.9 ties.data sparse.data smallest := by
  have hdata : [(3 : ℚ) - 0, -2 - 0, 2 - 0, 0 - 0] = [3, -2, 2, 0] := by norm_num
  have htau : subtract ties (.zeros 0 [2, 2]) = .ok ties := by
    show Except.ok (NdArray.mk [2, 2] [(3 : ℚ) - 0, -2 - 0, 2 - 0, 0 - 0] rfl) = .ok ties
    simp only [hdata]
    rfl
  exact keepsEnough .ok htau ⟨3, by decide, by decide⟩ (by norm_num) (by norm_num)

end

end VarianceSparsity
