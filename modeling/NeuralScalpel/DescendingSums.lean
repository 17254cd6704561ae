/-
Prefix sums of a descending list.

The first place where the prefix sums of a descending list reach a target cuts
the list at a value: what is at least that value reaches the target, and what
is larger does not.

* `getElem?_cumsum` — the prefix sums;
* `sum_filter_lt_le` — what is larger than a value stands before it;
* `sum_take_succ_le` — what stands up to a value is at least as large;
* `cuts_at_firstReaching` — both sides of the cut.
-/
import Mathlib.Algebra.Order.BigOperators.Group.List
import Mathlib.Algebra.Order.Group.Unbundled.Basic
import Mathlib.Algebra.BigOperators.Group.List.Basic
import Mathlib.Data.List.TakeDrop

namespace DescendingSums

variable {K : Type} [AddCommMonoid K]

/-- The sums of the prefixes that are not empty, with `acc` added. -/
def cumsum (acc : K) : List K → List K
  | [] => []
  | x :: l => (acc + x) :: cumsum (acc + x) l

theorem length_cumsum : ∀ (l : List K) (acc : K), (cumsum acc l).length = l.length := by
  intro l
  induction l with
  | nil => exact fun _ => rfl
  | cons x l ih => exact fun acc => congrArg (· + 1) (ih (acc + x))

/-- Place `k` of the prefix sums is the sum of the first `k + 1`. -/
theorem getElem?_cumsum : ∀ (l : List K) (acc : K) {k : ℕ}, k < l.length →
    (cumsum acc l)[k]? = some (acc + (l.take (k + 1)).sum) := by
  intro l
  induction l with
  | nil => exact fun _ k hk => absurd hk (Nat.not_lt_zero k)
  | cons x l ih =>
    intro acc k hk
    cases k with
    | zero => simp [cumsum]
    | succ k =>
      rw [cumsum, List.getElem?_cons_succ, ih (acc + x) (Nat.lt_of_succ_lt_succ hk),
        List.take_succ_cons, List.sum_cons, add_assoc]

variable [LinearOrder K]

/-- `searchsorted`: the first place of an ascending list that reaches the target, or
its length. -/
def firstReaching (target : K) (l : List K) : ℕ := l.findIdx fun x => target ≤ x

variable [IsOrderedAddMonoid K] {l : List K} {k : ℕ} {e target : K}

/-- Leaving some of a list of numbers out makes its sum no larger. -/
theorem sum_filter_le (h : ∀ x ∈ l, 0 ≤ x) (p : K → Bool) : (l.filter p).sum ≤ l.sum := by
  induction l with
  | nil => exact le_rfl
  | cons x l ih =>
    have hrest := ih fun y hy => h y (List.mem_cons_of_mem x hy)
    by_cases hp : p x = true
    · rw [List.filter_cons_of_pos hp, List.sum_cons, List.sum_cons]
      exact add_le_add_right hrest x
    · rw [List.filter_cons_of_neg hp, List.sum_cons]
      exact hrest.trans (le_add_of_nonneg_left (h x List.mem_cons_self))

/-- What is larger than the value at a place of a descending list stands before it. -/
theorem sum_filter_lt_le (hsorted : l.Pairwise (· ≥ ·)) (hnonneg : ∀ x ∈ l, 0 ≤ x)
    (hk : l[k]? = some e) : (l.filter (e < ·)).sum ≤ (l.take k).sum := by
  obtain ⟨hlen, he⟩ := List.getElem?_eq_some_iff.mp hk
  have hafter : (l.drop k).filter (e < ·) = [] := by
    refine List.filter_eq_nil_iff.mpr fun x hx => ?_
    obtain ⟨i, hi, rfl⟩ := List.mem_iff_getElem.mp hx
    rw [List.getElem_drop, decide_eq_true_eq, not_lt, ← he]
    rcases Nat.eq_zero_or_pos i with rfl | hpos
    · exact le_rfl
    · exact List.pairwise_iff_getElem.mp hsorted k (k + i) hlen _ (by omega)
  have hsplit : l.filter (e < ·) = (l.take k).filter (e < ·) := by
    conv_lhs => rw [← List.take_append_drop k l]
    rw [List.filter_append, hafter, List.append_nil]
  rw [hsplit]
  exact sum_filter_le (fun x hx => hnonneg x (List.mem_of_mem_take hx)) _

/-- What stands up to a place of a descending list is at least the value there. -/
theorem sum_take_succ_le (hsorted : l.Pairwise (· ≥ ·)) (hnonneg : ∀ x ∈ l, 0 ≤ x)
    (hk : l[k]? = some e) : (l.take (k + 1)).sum ≤ (l.filter (e ≤ ·)).sum := by
  obtain ⟨hlen, he⟩ := List.getElem?_eq_some_iff.mp hk
  have hbefore : (l.take (k + 1)).filter (e ≤ ·) = l.take (k + 1) := by
    refine List.filter_eq_self.mpr fun x hx => ?_
    obtain ⟨i, hi, rfl⟩ := List.mem_iff_getElem.mp hx
    rw [List.length_take] at hi
    have hik : i ≤ k := Nat.le_of_lt_succ (lt_of_lt_of_le hi (min_le_left _ _))
    rw [List.getElem_take, decide_eq_true_eq, ← he]
    rcases hik.eq_or_lt with rfl | hlt
    · exact le_rfl
    · exact List.pairwise_iff_getElem.mp hsorted i k _ hlen hlt
  conv_rhs => rw [← List.take_append_drop (k + 1) l]
  rw [List.filter_append, hbefore, List.sum_append]
  refine le_add_of_nonneg_right (List.sum_nonneg fun x hx => ?_)
  exact hnonneg x (List.mem_of_mem_drop (List.mem_of_mem_filter hx))

/-! ### The cut -/

omit [IsOrderedAddMonoid K] in
/-- The first prefix that reaches the target, and the one before it. -/
theorem take_firstReaching (htarget : 0 < target) (hsum : target ≤ l.sum) :
    firstReaching target (cumsum 0 l) < l.length ∧
      target ≤ (l.take (firstReaching target (cumsum 0 l) + 1)).sum ∧
      (l.take (firstReaching target (cumsum 0 l))).sum < target := by
  have hlast : 0 < l.length := by
    refine List.length_pos_iff.mpr ?_
    rintro rfl
    exact absurd hsum (not_le.mpr htarget)
  -- the last prefix is the whole list
  have hreached : ∃ x ∈ cumsum 0 l, decide (target ≤ x) = true := by
    have hwhole := getElem?_cumsum l 0 (Nat.sub_lt hlast one_pos)
    rw [show l.length - 1 + 1 = l.length by omega, List.take_length, zero_add] at hwhole
    exact ⟨l.sum, List.mem_of_getElem? hwhole, decide_eq_true hsum⟩
  have hlt : firstReaching target (cumsum 0 l) < (cumsum 0 l).length :=
    List.findIdx_lt_length_of_exists hreached
  have hplace : firstReaching target (cumsum 0 l) < l.length := length_cumsum l 0 ▸ hlt
  refine ⟨hplace, ?_, ?_⟩
  · have hat : decide (target ≤ (cumsum 0 l)[firstReaching target (cumsum 0 l)]) = true :=
      @List.findIdx_getElem K (fun x => decide (target ≤ x)) (cumsum 0 l) hlt
    have hget := getElem?_cumsum l 0 hplace
    rw [List.getElem?_eq_getElem hlt, Option.some_inj, zero_add] at hget
    rw [hget] at hat
    exact of_decide_eq_true hat
  · cases hk : firstReaching target (cumsum 0 l) with
    | zero => simpa using htarget
    | succ k =>
      have hbefore : k < firstReaching target (cumsum 0 l) := by omega
      have hnot : decide (target ≤ (cumsum 0 l)[k]) = false := by
        simpa using List.not_of_lt_findIdx hbefore
      have hget := getElem?_cumsum l 0 (hbefore.trans hplace)
      rw [List.getElem?_eq_getElem (hbefore.trans hlt), Option.some_inj, zero_add] at hget
      rw [hget] at hnot
      exact not_le.mp (of_decide_eq_false hnot)

/-- The value where the prefix sums of a descending list first reach a target is
positive; what is at least that value reaches the target, and what is larger
does not. -/
theorem cuts_at_firstReaching (hsorted : l.Pairwise (· ≥ ·)) (hnonneg : ∀ x ∈ l, 0 ≤ x)
    (htarget : 0 < target) (hsum : target ≤ l.sum) :
    ∃ e, l[firstReaching target (cumsum 0 l)]? = some e ∧ 0 < e ∧
      target ≤ (l.filter (e ≤ ·)).sum ∧ (l.filter (e < ·)).sum < target := by
  obtain ⟨hplace, hreach, hshort⟩ := take_firstReaching htarget hsum
  have hget := List.getElem?_eq_getElem hplace
  refine ⟨_, hget, ?_, hreach.trans (sum_take_succ_le hsorted hnonneg hget),
    (sum_filter_lt_le hsorted hnonneg hget).trans_lt hshort⟩
  refine lt_of_le_of_ne (hnonneg _ (List.getElem_mem hplace)) fun hzero => ?_
  rw [List.take_succ_eq_append_getElem hplace, List.sum_append, List.sum_singleton, ← hzero,
    add_zero] at hreach
  exact absurd hreach (not_le.mpr hshort)

end DescendingSums
