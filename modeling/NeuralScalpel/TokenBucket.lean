/-
Token buckets.

A bucket holds at most `capacity` tokens and gains `rate` of them in a unit of
time.  It starts full at the first call; a call takes `cost` tokens if there are
as many.

* `tokens_take` — the tokens stay between nothing and the capacity;
* `spent_le` — what the calls up to a time take is paid by the tokens there are
  and those gained until then, the potential of the bucket;
* `window_le` — so what is taken in any window of time is at most the capacity
  and what is gained in the window.
-/
import Mathlib.Algebra.Order.Ring.Cast
import Mathlib.Tactic.Ring
import Mathlib.Tactic.Linarith

namespace TokenBucket

variable {K : Type} [CommRing K] [LinearOrder K]

structure Bucket (K : Type) where
  tokens : K
  lastRefill : K
  deriving DecidableEq

/-- The tokens in the bucket at a later time. -/
def refilled (capacity rate : K) (b : Bucket K) (now : K) : K :=
  min capacity (b.tokens + (now - b.lastRefill) * rate)

/-- A call; without a bucket there is a full one. -/
def take (capacity rate cost : K) (b : Option (Bucket K)) (now : K) : Bool × Bucket K :=
  let tokens := refilled capacity rate (b.getD ⟨capacity, now⟩) now
  if cost ≤ tokens then (true, ⟨tokens - cost, now⟩) else (false, ⟨tokens, now⟩)

/-- The times of the calls with their answers. -/
def trace (capacity rate cost : K) : Option (Bucket K) → List K → List (K × Bool)
  | _, [] => []
  | b, now :: times =>
    let answer := take capacity rate cost b now
    (now, answer.1) :: trace capacity rate cost (some answer.2) times

/-- How many calls of a trace succeed from `s` to `t`. -/
def granted (s t : K) (l : List (K × Bool)) : ℕ :=
  l.countP fun e => e.2 ∧ s ≤ e.1 ∧ e.1 ≤ t

variable {capacity rate cost s t : K}

omit [CommRing K] in
theorem granted_cons (e : K × Bool) (l : List (K × Bool)) :
    granted s t (e :: l) = granted s t l + if e.2 ∧ s ≤ e.1 ∧ e.1 ≤ t then 1 else 0 := by
  simp [granted, List.countP_cons]

/-- Calls after the window do not count. -/
theorem granted_trace_of_lt {b : Option (Bucket K)} {times : List K}
    (h : ∀ now ∈ times, t < now) : granted s t (trace capacity rate cost b times) = 0 := by
  induction times generalizing b with
  | nil => rfl
  | cons now times ih =>
    have hnow := h now List.mem_cons_self
    rw [trace, granted_cons, ih fun now hmem => h now (List.mem_cons_of_mem _ hmem)]
    rw [if_neg fun hin => absurd hnow hin.2.2.not_gt]

/-- What a call takes and leaves is what there was. -/
theorem cost_add_tokens_take (capacity rate cost : K) (b : Option (Bucket K)) (now : K) :
    (if (take capacity rate cost b now).1 then cost else 0) +
        (take capacity rate cost b now).2.tokens =
      refilled capacity rate (b.getD ⟨capacity, now⟩) now := by
  unfold take
  by_cases hcosts : cost ≤ refilled capacity rate (b.getD ⟨capacity, now⟩) now
  · simp [if_pos hcosts]
  · simp [if_neg hcosts]

/-- A bucket within its bounds. -/
structure Bounded (capacity : K) (b : Bucket K) : Prop where
  nonneg : 0 ≤ b.tokens
  le : b.tokens ≤ capacity

theorem bounded_new (hcapacity : 0 ≤ capacity) (now : K) :
    Bounded capacity (⟨capacity, now⟩ : Bucket K) := ⟨hcapacity, le_rfl⟩

variable [IsStrictOrderedRing K]

theorem refilled_nonneg (hcapacity : 0 ≤ capacity) (hrate : 0 ≤ rate) {b : Bucket K}
    (hb : Bounded capacity b) {now : K} (hnow : b.lastRefill ≤ now) :
    0 ≤ refilled capacity rate b now := by
  have hgain : 0 ≤ (now - b.lastRefill) * rate := mul_nonneg (sub_nonneg.mpr hnow) hrate
  exact le_min hcapacity (add_nonneg hb.nonneg hgain)

/-- A call leaves the tokens between nothing and the capacity. -/
theorem tokens_take (hcapacity : 0 ≤ capacity) (hrate : 0 ≤ rate) (hcost : 0 ≤ cost)
    (b : Option (Bucket K)) (now : K)
    (hb : ∀ b' ∈ b, Bounded capacity b' ∧ b'.lastRefill ≤ now) :
    Bounded capacity (take capacity rate cost b now).2 ∧
      (take capacity rate cost b now).2.lastRefill = now := by
  have hbucket : Bounded capacity (b.getD ⟨capacity, now⟩) ∧
      (b.getD ⟨capacity, now⟩).lastRefill ≤ now := by
    rcases b with _ | b
    · exact ⟨bounded_new hcapacity now, le_rfl⟩
    · exact hb b rfl
  have hnonneg := refilled_nonneg hcapacity hrate hbucket.1 hbucket.2
  have hle : refilled capacity rate (b.getD ⟨capacity, now⟩) now ≤ capacity := min_le_left _ _
  unfold take
  by_cases hcosts : cost ≤ refilled capacity rate (b.getD ⟨capacity, now⟩) now
  · simp only [if_pos hcosts, and_true]
    exact ⟨sub_nonneg.mpr hcosts, by linarith⟩
  · simp only [if_neg hcosts, and_true]
    exact ⟨hnonneg, hle⟩

/-- The calls up to `t` are paid by the tokens in the bucket and those it gains. -/
theorem spent_le (hcapacity : 0 ≤ capacity) (hrate : 0 ≤ rate) (hcost : 0 ≤ cost) :
    ∀ {times : List K} {b : Bucket K}, Bounded capacity b → b.lastRefill ≤ t →
      (∀ now ∈ times, b.lastRefill ≤ now) → times.Pairwise (· ≤ ·) →
      (granted s t (trace capacity rate cost (some b) times) : K) * cost ≤
        b.tokens + (t - b.lastRefill) * rate := by
  intro times
  induction times with
  | nil =>
    intro b hb ht _ _
    have hgain : 0 ≤ (t - b.lastRefill) * rate := mul_nonneg (sub_nonneg.mpr ht) hrate
    simpa [trace, granted] using add_nonneg hb.nonneg hgain
  | cons now times ih =>
    intro b hb ht hlater hsorted
    obtain ⟨hnow, hsorted⟩ := List.pairwise_cons.mp hsorted
    have hfirst := hlater now List.mem_cons_self
    obtain ⟨hbounded, hlast⟩ := tokens_take hcapacity hrate hcost (some b) now
      (fun b' hb' => by obtain rfl := Option.some.inj hb'; exact ⟨hb, hfirst⟩)
    have hpaid := cost_add_tokens_take capacity rate cost (some b) now
    have hrefill : refilled capacity rate b now ≤ b.tokens + (now - b.lastRefill) * rate :=
      min_le_right _ _
    rcases lt_or_ge t now with hafter | hin
    · -- the window is over
      have hnone : granted s t (trace capacity rate cost (some b) (now :: times)) = 0 :=
        granted_trace_of_lt fun now' hmem => by
          rcases List.mem_cons.mp hmem with rfl | hmem
          · exact hafter
          · exact hafter.trans_le (hnow now' hmem)
      have hgain : 0 ≤ (t - b.lastRefill) * rate := mul_nonneg (sub_nonneg.mpr ht) hrate
      simpa [hnone] using add_nonneg hb.nonneg hgain
    · have hrest := ih hbounded (by rw [hlast]; exact hin) (by rw [hlast]; exact hnow) hsorted
      rw [hlast] at hrest
      rw [trace, granted_cons]
      push_cast
      have hcount : (if (take capacity rate cost (some b) now).1 = true ∧ s ≤ now ∧ now ≤ t
          then (1 : K) else 0) * cost ≤
          if (take capacity rate cost (some b) now).1 = true then cost else 0 := by
        by_cases hok : (take capacity rate cost (some b) now).1 = true
        · by_cases hs : s ≤ now <;> simp [hok, hs, hin, hcost]
        · simp [hok]
      have hsplit : (t - b.lastRefill) * rate =
          (now - b.lastRefill) * rate + (t - now) * rate := by ring
      have hdefault : (some b).getD ⟨capacity, now⟩ = b := rfl
      rw [hdefault] at hpaid
      rw [add_mul, hsplit]
      linarith

/-- **What is taken in a window** is at most the capacity and the gain. -/
theorem window_le (hcapacity : 0 ≤ capacity) (hrate : 0 ≤ rate) (hcost : 0 ≤ cost)
    (hwindow : s ≤ t) : ∀ {times : List K} {b : Option (Bucket K)},
      (∀ b' ∈ b, Bounded capacity b' ∧ ∀ now ∈ times, b'.lastRefill ≤ now) →
      times.Pairwise (· ≤ ·) →
      (granted s t (trace capacity rate cost b times) : K) * cost ≤
        capacity + (t - s) * rate := by
  have hgain : 0 ≤ (t - s) * rate := mul_nonneg (sub_nonneg.mpr hwindow) hrate
  intro times
  induction times with
  | nil => exact fun _ _ => by simpa [trace, granted] using add_nonneg hcapacity hgain
  | cons now times ih =>
    intro b hb hsorted
    obtain ⟨hnow, hsorted⟩ := List.pairwise_cons.mp hsorted
    obtain ⟨hbounded, hlast⟩ := tokens_take hcapacity hrate hcost b now
      (fun b' hb' => ⟨(hb b' hb').1, (hb b' hb').2 now List.mem_cons_self⟩)
    by_cases hin : s ≤ now ∧ now ≤ t
    · -- the first call of the window finds at most the capacity
      have hrest := spent_le (s := s) (t := t) hcapacity hrate hcost hbounded
        (by rw [hlast]; exact hin.2) (by rw [hlast]; exact hnow) hsorted
      rw [hlast] at hrest
      have hpaid := cost_add_tokens_take capacity rate cost b now
      have hfull : refilled capacity rate (b.getD ⟨capacity, now⟩) now ≤ capacity :=
        min_le_left _ _
      have hlate : (t - now) * rate ≤ (t - s) * rate :=
        mul_le_mul_of_nonneg_right (by linarith [hin.1]) hrate
      rw [trace, granted_cons]
      simp only [hin, and_true]
      push_cast
      rw [add_mul, ite_mul, one_mul, zero_mul]
      linarith
    · rw [trace, granted_cons, if_neg fun h => hin h.2, add_zero]
      refine ih (fun b' hb' => ?_) hsorted
      obtain rfl := Option.some.inj hb'
      exact ⟨hbounded, by rw [hlast]; exact hnow⟩

end TokenBucket
