/-
Perplexity.

The tokens are cut into windows of `stride` tokens; the model gives the mean
loss of the tokens of a window after its first, and the perplexity is the
exponential of the mean of these means.  The last window may be shorter.

* `calculatePerplexity` — the loop;
* `lossesLoop_eq` — it collects the mean loss of each window;
* `meanOfMeans_iff` — exactly when a mean of means is the mean of all;
* `perplexity_perToken_iff` — exactly when the perplexity is per token, and for
  which lengths and strides it is with every model.

`exp` and `log` are parameters, and the loss of a token after a context is one.
-/
import NeuralScalpel.FailurePolicy
import Mathlib.Algebra.BigOperators.Group.List.Basic
import Mathlib.Algebra.BigOperators.Fin
import Mathlib.Algebra.Field.Basic
import Mathlib.Analysis.SpecialFunctions.Log.Basic
import Mathlib.Tactic.FieldSimp
import Mathlib.Tactic.LinearCombination

namespace Perplexity

section

variable {S : Type} [Field S]

/-! ### The loss of a window -/

/-- `target_ids[:, :-trg_len] = -100`: tokens before the last `trgLen` are no labels. -/
def maskLabels (trgLen : ℕ) (inputIds : List ℕ) : List (Option ℕ) :=
  inputIds.mapIdx fun i token => if i < inputIds.length - trgLen then none else some token

/-- The losses of the labels after the first, each given the tokens before it. -/
def labelLosses (nll : List ℕ → ℕ → S) (inputIds : List ℕ) (labels : List (Option ℕ)) : List S :=
  (List.range (inputIds.length - 1)).filterMap fun i =>
    (labels[i + 1]?.join).map fun label => nll (inputIds.take (i + 1)) label

def mean (xs : List S) : S := xs.sum / (xs.length : S)

/-- `outputs.loss`: the mean over valid labels. -/
def modelLoss (nll : List ℕ → ℕ → S) (inputIds : List ℕ) (labels : List (Option ℕ)) : S :=
  mean (labelLosses nll inputIds labels)

/-! ### The loop -/

/-- `range(0, stop, step)`, for a positive step. -/
def pyRange (stop step : ℕ) : List ℕ := (List.range ((stop + step - 1) / step)).map (· * step)

/-- The loop over the windows; it ends with the window that reaches the end. -/
def lossesLoop (nll : List ℕ → ℕ → S) (tokens : List ℕ) (stride : ℕ) :
    List ℕ → ℕ → List S → List S
  | [], _, nlls => nlls
  | beginLoc :: rest, prevEndLoc, nlls =>
    let endLoc := min (beginLoc + stride) tokens.length
    let trgLen := endLoc - prevEndLoc
    let inputIds := (tokens.take endLoc).drop beginLoc
    let nlls := nlls ++ [modelLoss nll inputIds (maskLabels trgLen inputIds)]
    if endLoc = tokens.length then nlls else lossesLoop nll tokens stride rest endLoc nlls

/-- `calculate_perplexity`. -/
def calculatePerplexity (exp : S → S) (nll : List ℕ → ℕ → S) (tokens : List ℕ) (stride : ℕ) :
    Except PyError S :=
  if stride = 0 then .error (.valueError "range() arg 3 must not be zero")
  else
    match lossesLoop nll tokens stride (pyRange tokens.length stride) 0 [] with
    | [] => .error (.external "RuntimeError: stack expects a non-empty TensorList")
    | nlls => .ok (exp (mean nlls))

/-! ### What it should be -/

/-- The windows: `stride` tokens each, but for the last. -/
def window (tokens : List ℕ) (stride i : ℕ) : List ℕ := (tokens.drop (i * stride)).take stride

def windowCount (tokens : List ℕ) (stride : ℕ) : ℕ := (tokens.length + stride - 1) / stride

/-- The losses of the tokens of a window after its first. -/
def windowLosses (nll : List ℕ → ℕ → S) (tokens : List ℕ) (stride i : ℕ) : List S :=
  (List.range ((window tokens stride i).length - 1)).map fun j =>
    nll ((window tokens stride i).take (j + 1)) ((window tokens stride i).getD (j + 1) 0)

/-- The loss of all predicted tokens. -/
def totalLoss (nll : List ℕ → ℕ → S) (tokens : List ℕ) (stride : ℕ) : S :=
  ((List.range (windowCount tokens stride)).map fun i => (windowLosses nll tokens stride i).sum).sum

/-- How many tokens are predicted. -/
def totalPredicted (tokens : List ℕ) (stride : ℕ) : ℕ :=
  ((List.range (windowCount tokens stride)).map fun i => (window tokens stride i).length - 1).sum

/-! ### The loop collects the means of the windows -/

theorem maskLabels_of_le {trgLen : ℕ} {inputIds : List ℕ} (h : inputIds.length ≤ trgLen) :
    maskLabels trgLen inputIds = inputIds.map some := by
  unfold maskLabels
  rw [Nat.sub_eq_zero_of_le h]
  refine List.ext_getElem (by simp) fun i h₁ h₂ => ?_
  simp

omit [Field S] in
theorem labelLosses_map_some (nll : List ℕ → ℕ → S) (inputIds : List ℕ) :
    labelLosses nll inputIds (inputIds.map some) =
      (List.range (inputIds.length - 1)).map fun j =>
        nll (inputIds.take (j + 1)) (inputIds.getD (j + 1) 0) := by
  refine (List.filterMap_congr fun j hj => ?_).trans (congrFun List.filterMap_eq_map _)
  have hlt : j + 1 < inputIds.length := by
    have hj := List.mem_range.mp hj
    omega
  rw [Function.comp_apply, List.getElem?_map, List.getD_eq_getElem?_getD,
    List.getElem?_eq_getElem hlt]
  rfl

theorem length_window (tokens : List ℕ) (stride i : ℕ) :
    (window tokens stride i).length = min stride (tokens.length - i * stride) := by
  rw [window, List.length_take, List.length_drop]

/-- The slice of the loop is the window. -/
theorem slice_eq_window (tokens : List ℕ) (stride i : ℕ) :
    (tokens.take (min (i * stride + stride) tokens.length)).drop (i * stride) =
      window tokens stride i := by
  rw [window, ← List.take_eq_take_min, List.drop_take, Nat.add_sub_cancel_left]

theorem lt_windowCount_iff (tokens : List ℕ) {stride : ℕ} (hstride : 0 < stride) (i : ℕ) :
    i < windowCount tokens stride ↔ i * stride < tokens.length := by
  rw [windowCount, ← Nat.succ_le_iff, Nat.le_div_iff_mul_le hstride, Nat.succ_mul]
  omega

/-- The mean loss of a window. -/
def windowMean (nll : List ℕ → ℕ → S) (tokens : List ℕ) (stride i : ℕ) : S :=
  mean (windowLosses nll tokens stride i)

/-- The loop, from one window on, collects the mean losses of the windows left. -/
theorem lossesLoop_eq (nll : List ℕ → ℕ → S) (tokens : List ℕ) {stride : ℕ}
    (hstride : 0 < stride) : ∀ (left i : ℕ) (nlls : List S),
      i + left = windowCount tokens stride →
        lossesLoop nll tokens stride ((List.range' i left).map (· * stride)) (i * stride) nlls =
          nlls ++ (List.range' i left).map (windowMean nll tokens stride) := by
  intro left
  induction left with
  | zero =>
    intro i nlls _
    rw [List.range'_zero, List.map_nil, List.map_nil, List.append_nil]
    rfl
  | succ left ih =>
    intro i nlls hi
    rw [List.range'_succ, List.map_cons, List.map_cons, lossesLoop]
    have hloss : modelLoss nll (window tokens stride i)
        (maskLabels (min (i * stride + stride) tokens.length - i * stride)
          (window tokens stride i)) = windowMean nll tokens stride i := by
      rw [maskLabels_of_le (by rw [length_window]; omega), modelLoss, labelLosses_map_some]
      rfl
    simp only [slice_eq_window, hloss]
    split_ifs with hend
    · -- the window that reaches the end is the last
      have hlast : left = 0 := by
        by_contra hne
        have hlt := (lt_windowCount_iff tokens hstride (i + 1)).mp (by omega)
        rw [Nat.succ_mul] at hlt
        omega
      rw [hlast, List.range'_zero, List.map_nil]
    · have hnext : min (i * stride + stride) tokens.length = (i + 1) * stride := by
        rw [Nat.succ_mul]
        omega
      rw [hnext, ih (i + 1) _ (by omega), List.append_assoc, List.singleton_append]

theorem lossesLoop_all (nll : List ℕ → ℕ → S) (tokens : List ℕ) {stride : ℕ}
    (hstride : 0 < stride) :
    lossesLoop nll tokens stride (pyRange tokens.length stride) 0 [] =
      (List.range (windowCount tokens stride)).map (windowMean nll tokens stride) := by
  have hloop := lossesLoop_eq nll tokens hstride (windowCount tokens stride) 0 [] (Nat.zero_add _)
  rw [Nat.zero_mul, ← List.range_eq_range', List.nil_append] at hloop
  exact hloop

/-- The perplexity is the exponential of the mean of the means. -/
theorem calculatePerplexity_eq (exp : S → S) (nll : List ℕ → ℕ → S) {tokens : List ℕ}
    {stride : ℕ} (hlen : 0 < tokens.length) (hstride : 0 < stride) :
    calculatePerplexity exp nll tokens stride =
      .ok (exp (mean ((List.range (windowCount tokens stride)).map
        (windowMean nll tokens stride)))) := by
  have hcount : 0 < windowCount tokens stride :=
    (lt_windowCount_iff tokens hstride 0).mpr (by rwa [Nat.zero_mul])
  unfold calculatePerplexity
  rw [if_neg hstride.ne', lossesLoop_all nll tokens hstride]
  split
  case h_1 hnil =>
    have hlength := congrArg List.length hnil
    rw [List.length_map, List.length_range, List.length_nil] at hlength
    omega
  case h_2 => rfl

/-! ### Means of means -/

variable [CharZero S]

theorem sum_eq_mean_mul {xs : List S} (h : xs.length ≠ 0) : xs.sum = (xs.length : S) * mean xs := by
  rw [mean, mul_div_cancel₀ _ (Nat.cast_ne_zero.mpr h)]

/-- The mean of the means of `count` windows of `size` tokens and one of `lastSize`,
is that of all their tokens, when the sizes are the same or the last mean is the
mean of the others. -/
theorem meanOfMeans_iff {others last : S} {count size lastSize : ℕ} (hlast : 0 < lastSize) :
    (others + last) / ((count + 1 : ℕ) : S) =
        ((size : S) * others + (lastSize : S) * last) / ((count * size + lastSize : ℕ) : S) ↔
      size = lastSize ∨ (count : S) * last = others := by
  have hcount : ((count + 1 : ℕ) : S) ≠ 0 := Nat.cast_ne_zero.mpr (Nat.succ_ne_zero count)
  have htotal : ((count * size + lastSize : ℕ) : S) ≠ 0 := Nat.cast_ne_zero.mpr (by omega)
  rw [div_eq_div_iff hcount htotal, ← sub_eq_zero]
  have hfactor : (others + last) * ((count * size + lastSize : ℕ) : S) -
      ((size : S) * others + (lastSize : S) * last) * ((count + 1 : ℕ) : S) =
        ((size : S) - (lastSize : S)) * ((count : S) * last - others) := by
    push_cast
    ring
  rw [hfactor, mul_eq_zero, sub_eq_zero, sub_eq_zero, Nat.cast_inj]

/-- The mean loss of the last window is the mean of those of the others. -/
def LastIsAverage (nll : List ℕ → ℕ → S) (tokens : List ℕ) (stride : ℕ) : Prop :=
  ((windowCount tokens stride - 1 : ℕ) : S) *
      windowMean nll tokens stride (windowCount tokens stride - 1) =
    ((List.range (windowCount tokens stride - 1)).map (windowMean nll tokens stride)).sum

theorem length_window_of_lt {tokens : List ℕ} {stride i : ℕ} (hstride : 0 < stride)
    (hi : i + 1 < windowCount tokens stride) : (window tokens stride i).length = stride := by
  have hnext := (lt_windowCount_iff tokens hstride (i + 1)).mp hi
  rw [Nat.succ_mul] at hnext
  rw [length_window]
  omega

theorem length_le_of_windowCount {tokens : List ℕ} {stride last : ℕ} (hstride : 0 < stride)
    (hlast : windowCount tokens stride = last + 1) : tokens.length ≤ last * stride + stride := by
  have hnot := mt (lt_windowCount_iff tokens hstride (last + 1)).mpr (by omega)
  rw [Nat.succ_mul] at hnot
  omega

/-- The last window is full just if the stride divides the length. -/
theorem length_last_eq_iff {tokens : List ℕ} {stride last : ℕ} (hstride : 0 < stride)
    (hlast : windowCount tokens stride = last + 1) :
    (window tokens stride last).length = stride ↔ stride ∣ tokens.length := by
  have hbefore := (lt_windowCount_iff tokens hstride last).mp (by omega)
  have hafter := length_le_of_windowCount hstride hlast
  rw [length_window]
  constructor
  · intro h
    exact ⟨last + 1, by rw [Nat.mul_succ, Nat.mul_comm]; omega⟩
  · rintro ⟨c, hc⟩
    rw [Nat.mul_comm] at hc
    rw [hc] at hbefore hafter ⊢
    have hle : last + 1 ≤ c := Nat.lt_of_mul_lt_mul_right hbefore
    have hge : c ≤ last + 1 := by
      rw [← Nat.succ_mul] at hafter
      exact Nat.le_of_mul_le_mul_right hafter hstride
    obtain rfl : c = last + 1 := le_antisymm hge hle
    rw [Nat.succ_mul, Nat.add_sub_cancel_left, min_self]

theorem sum_windowLosses (nll : List ℕ → ℕ → S) {tokens : List ℕ} {stride i : ℕ}
    (hpredicts : 2 ≤ (window tokens stride i).length) :
    (windowLosses nll tokens stride i).sum =
      (((window tokens stride i).length - 1 : ℕ) : S) * windowMean nll tokens stride i := by
  have hlength : (windowLosses nll tokens stride i).length =
      (window tokens stride i).length - 1 := by
    rw [windowLosses, List.length_map, List.length_range]
  rw [sum_eq_mean_mul (by omega), hlength]
  rfl

/-- All but the last window have the same size. -/
theorem totalLoss_eq (nll : List ℕ → ℕ → S) {tokens : List ℕ} {stride last : ℕ}
    (hlast : windowCount tokens stride = last + 1) (hstride : 0 < stride)
    (hpredicts : ∀ i < windowCount tokens stride, 2 ≤ (window tokens stride i).length) :
    totalLoss nll tokens stride =
      ((stride - 1 : ℕ) : S) * ((List.range last).map (windowMean nll tokens stride)).sum +
        (((window tokens stride last).length - 1 : ℕ) : S) *
          windowMean nll tokens stride last := by
  unfold totalLoss
  rw [hlast, List.range_succ, List.map_append, List.sum_append, List.map_singleton,
    List.sum_singleton, sum_windowLosses nll (hpredicts last (by omega)), ← List.sum_map_mul_left]
  congr 2
  refine List.map_congr_left fun i hi => ?_
  have hi := List.mem_range.mp hi
  rw [sum_windowLosses nll (hpredicts i (by omega)), length_window_of_lt hstride (by omega)]

omit [CharZero S] [Field S] in
theorem totalPredicted_eq {tokens : List ℕ} {stride last : ℕ}
    (hlast : windowCount tokens stride = last + 1) (hstride : 0 < stride) :
    totalPredicted tokens stride =
      last * (stride - 1) + ((window tokens stride last).length - 1) := by
  unfold totalPredicted
  rw [hlast, List.range_succ, List.map_append, List.sum_append, List.map_singleton,
    List.sum_singleton]
  congr 1
  have hsame : (List.range last).map (fun i => (window tokens stride i).length - 1) =
      List.replicate last (stride - 1) := by
    rw [← List.length_range (n := last), ← List.map_const', List.length_range]
    refine List.map_congr_left fun i hi => ?_
    have hi := List.mem_range.mp hi
    rw [length_window_of_lt hstride (by omega)]
  rw [hsame, List.sum_replicate, smul_eq_mul]

/-- The logarithm of the perplexity is the mean loss of the predicted tokens. -/
def PerToken (exp log : S → S) (nll : List ℕ → ℕ → S) (tokens : List ℕ) (stride : ℕ) : Prop :=
  ∃ ppl, calculatePerplexity exp nll tokens stride = .ok ppl ∧
    log ppl = totalLoss nll tokens stride / (totalPredicted tokens stride : S)

/-- The perplexity is per token just if the last window is the only one, or full,
or its mean loss is that of the others. -/
theorem perToken_iff {exp log : S → S} (hlog : ∀ x, log (exp x) = x)
    (nll : List ℕ → ℕ → S) {tokens : List ℕ} {stride : ℕ} (hlen : 2 ≤ tokens.length)
    (hstride : 2 ≤ stride)
    (hpredicts : ∀ i < windowCount tokens stride, 2 ≤ (window tokens stride i).length) :
    PerToken exp log nll tokens stride ↔
      tokens.length ≤ stride ∨ stride ∣ tokens.length ∨ LastIsAverage nll tokens stride := by
  have hpos : 0 < stride := by omega
  obtain ⟨last, hlast⟩ : ∃ last, windowCount tokens stride = last + 1 :=
    Nat.exists_eq_add_one_of_ne_zero
      ((lt_windowCount_iff tokens hpos 0).mpr (by omega)).ne'
  have hsize := hpredicts last (by omega)
  have hmean : mean ((List.range (windowCount tokens stride)).map (windowMean nll tokens stride)) =
      (((List.range last).map (windowMean nll tokens stride)).sum +
        windowMean nll tokens stride last) / ((last + 1 : ℕ) : S) := by
    rw [mean, List.length_map, List.length_range, hlast, List.range_succ, List.map_append,
      List.sum_append, List.map_singleton, List.sum_singleton]
  rw [PerToken, calculatePerplexity_eq exp nll (by omega) hpos]
  simp only [Except.ok.injEq, exists_eq_left', hlog]
  rw [hmean, totalLoss_eq nll hlast hpos hpredicts, totalPredicted_eq hlast hpos,
    meanOfMeans_iff (by omega), ← length_last_eq_iff hpos hlast]
  have haverage : LastIsAverage nll tokens stride ↔
      (last : S) * windowMean nll tokens stride last =
        ((List.range last).map (windowMean nll tokens stride)).sum := by
    rw [LastIsAverage, hlast, Nat.add_sub_cancel]
  rw [haverage]
  constructor
  · rintro (hfull | h)
    · exact Or.inr (Or.inl (by omega))
    · exact Or.inr (Or.inr h)
  · rintro (honly | hfull | h)
    · -- there are no other windows
      have hnot := mt (lt_windowCount_iff tokens hpos 1).mp (by omega)
      obtain rfl : last = 0 := by omega
      right
      rw [Nat.cast_zero, zero_mul, List.range_zero, List.map_nil, List.sum_nil]
    · exact Or.inl (by rw [hfull])
    · exact Or.inr h

/-- A model that loses on the last token of a full window only. -/
def lastOfFull (stride : ℕ) (context : List ℕ) (_ : ℕ) : S :=
  if context.length + 1 = stride then 1 else 0

omit [CharZero S] in
theorem windowLosses_lastOfFull (tokens : List ℕ) (stride i : ℕ) :
    windowLosses (lastOfFull (S := S) stride) tokens stride i =
      (List.range ((window tokens stride i).length - 1)).map fun j =>
        if j + 2 = stride then 1 else 0 := by
  refine List.map_congr_left fun j hj => ?_
  have hj := List.mem_range.mp hj
  rw [lastOfFull, List.length_take, min_eq_left (by omega)]

omit [CharZero S] in
theorem windowMean_lastOfFull_of_short {tokens : List ℕ} {stride i : ℕ}
    (hshort : (window tokens stride i).length < stride) :
    windowMean (lastOfFull (S := S) stride) tokens stride i = 0 := by
  rw [windowMean, mean, windowLosses_lastOfFull, List.sum_eq_zero, zero_div]
  intro x hx
  obtain ⟨j, hj, rfl⟩ := List.mem_map.mp hx
  have hj := List.mem_range.mp hj
  exact if_neg (by omega)

omit [CharZero S] in
theorem windowMean_lastOfFull_of_full {tokens : List ℕ} {stride i : ℕ} (hstride : 2 ≤ stride)
    (hfull : (window tokens stride i).length = stride) :
    windowMean (lastOfFull (S := S) stride) tokens stride i = 1 / ((stride - 1 : ℕ) : S) := by
  obtain ⟨before, rfl⟩ : ∃ before, stride = before + 2 := Nat.exists_eq_add_of_le' hstride
  rw [windowMean, mean, windowLosses_lastOfFull, hfull, List.length_map, List.length_range]
  congr 1
  show ((List.range (before + 1)).map fun j => if j + 2 = before + 2 then (1 : S) else 0).sum = 1
  rw [List.range_succ, List.map_append, List.sum_append, List.map_singleton, List.sum_singleton,
    if_pos rfl, List.sum_eq_zero, zero_add]
  intro x hx
  obtain ⟨j, hj, rfl⟩ := List.mem_map.mp hx
  have hj := List.mem_range.mp hj
  exact if_neg (by omega)

/-- With several windows of which the last is short, that model is an exception. -/
theorem not_lastIsAverage {tokens : List ℕ} {stride : ℕ} (hstride : 2 ≤ stride)
    (hlong : stride < tokens.length) (hdvd : ¬stride ∣ tokens.length) :
    ¬LastIsAverage (lastOfFull (S := S) stride) tokens stride := by
  have hpos : 0 < stride := by omega
  have hcount : 1 < windowCount tokens stride := (lt_windowCount_iff tokens hpos 1).mpr (by omega)
  obtain ⟨last, hlast⟩ : ∃ last, windowCount tokens stride = last + 1 :=
    Nat.exists_eq_add_one_of_ne_zero (by omega)
  have hshort : (window tokens stride last).length < stride := by
    have hne := mt (length_last_eq_iff hpos hlast).mp hdvd
    have hle := length_window tokens stride last
    omega
  have hothers : (List.range last).map (windowMean (lastOfFull (S := S) stride) tokens stride) =
      List.replicate last (1 / ((stride - 1 : ℕ) : S)) := by
    rw [← List.length_range (n := last), ← List.map_const', List.length_range]
    refine List.map_congr_left fun i hi => ?_
    have hi := List.mem_range.mp hi
    exact windowMean_lastOfFull_of_full hstride (length_window_of_lt hpos (by omega))
  rw [LastIsAverage, hlast, Nat.add_sub_cancel, windowMean_lastOfFull_of_short hshort, mul_zero,
    hothers, List.sum_replicate, nsmul_eq_mul]
  have hne : (last : S) ≠ 0 := Nat.cast_ne_zero.mpr (by omega)
  have hsize : ((stride - 1 : ℕ) : S) ≠ 0 := Nat.cast_ne_zero.mpr (by omega)
  exact (mul_ne_zero hne (one_div_ne_zero hsize)).symm

/-- The perplexity is per token exactly when the last window is the only one, or
full, or its mean loss is that of the others; and with every model exactly when
the last window is the only one or full. -/
theorem perplexity_perToken_iff {exp log : S → S} (hlog : ∀ x, log (exp x) = x)
    (nll : List ℕ → ℕ → S) {tokens : List ℕ} {stride : ℕ} (hlen : 2 ≤ tokens.length)
    (hstride : 2 ≤ stride)
    (hpredicts : ∀ i < windowCount tokens stride, 2 ≤ (window tokens stride i).length) :
    (PerToken exp log nll tokens stride ↔
        tokens.length ≤ stride ∨ stride ∣ tokens.length ∨ LastIsAverage nll tokens stride) ∧
      ((∀ nll' : List ℕ → ℕ → S, PerToken exp log nll' tokens stride) ↔
        tokens.length ≤ stride ∨ stride ∣ tokens.length) := by
  refine ⟨perToken_iff hlog nll hlen hstride hpredicts, fun hall => ?_, fun h nll' => ?_⟩
  · by_contra hnot
    rw [not_or, not_le] at hnot
    rcases (perToken_iff hlog _ hlen hstride hpredicts).mp (hall (lastOfFull stride)) with
      honly | hfull | haverage
    · exact absurd honly (not_le.mpr hnot.1)
    · exact hnot.2 hfull
    · exact not_lastIsAverage hstride hnot.1 hnot.2 haverage
  · exact (perToken_iff hlog nll' hlen hstride hpredicts).mpr (h.imp_right Or.inl)

end

/-- A model that loses four on the token four, and one on others. -/
noncomputable def fourCostsFour (_ : List ℕ) (token : ℕ) : ℝ :=
  if token = 4 then ((4 : ℕ) : ℝ) else 1

theorem perplexity_perToken_four :
    (PerToken Real.exp Real.log fourCostsFour [0, 1, 2, 3] 2 ↔
        [0, 1, 2, 3].length ≤ 2 ∨ 2 ∣ [0, 1, 2, 3].length ∨
          LastIsAverage fourCostsFour [0, 1, 2, 3] 2) ∧
      ((∀ nll' : List ℕ → ℕ → ℝ, PerToken Real.exp Real.log nll' [0, 1, 2, 3] 2) ↔
        [0, 1, 2, 3].length ≤ 2 ∨ 2 ∣ [0, 1, 2, 3].length) :=
  perplexity_perToken_iff Real.log_exp fourCostsFour (by decide) (by decide) (by decide)

/-- Windows of three and of two tokens: the one token predicted in the second
weighs as much as the two of the first. -/
theorem not_perToken_five :
    calculatePerplexity Real.exp fourCostsFour [0, 1, 2, 3, 4] 3 = .ok (Real.exp (5 / 2)) ∧
      totalLoss fourCostsFour [0, 1, 2, 3, 4] 3 / (totalPredicted [0, 1, 2, 3, 4] 3 : ℝ) = 2 ∧
      ¬PerToken Real.exp Real.log fourCostsFour [0, 1, 2, 3, 4] 3 := by
  have hfirst : windowLosses fourCostsFour [0, 1, 2, 3, 4] 3 0 = [1, 1] := by
    show [fourCostsFour [0] 1, fourCostsFour [0, 1] 2] = [1, 1]
    simp [fourCostsFour]
  have hsecond : windowLosses fourCostsFour [0, 1, 2, 3, 4] 3 1 = [4] := by
    show [fourCostsFour [3] 4] = [4]
    simp [fourCostsFour]
  have hmeans : (List.range (windowCount [0, 1, 2, 3, 4] 3)).map
      (windowMean fourCostsFour [0, 1, 2, 3, 4] 3) = [1, 4] := by
    show [mean (windowLosses fourCostsFour [0, 1, 2, 3, 4] 3 0),
      mean (windowLosses fourCostsFour [0, 1, 2, 3, 4] 3 1)] = [1, 4]
    rw [hfirst, hsecond]
    norm_num [mean]
  have hppl : calculatePerplexity Real.exp fourCostsFour [0, 1, 2, 3, 4] 3 =
      .ok (Real.exp (5 / 2)) := by
    rw [calculatePerplexity_eq Real.exp fourCostsFour (by decide) (by decide), hmeans]
    norm_num [mean]
  have htotal : totalLoss fourCostsFour [0, 1, 2, 3, 4] 3 /
      (totalPredicted [0, 1, 2, 3, 4] 3 : ℝ) = 2 := by
    have hcount : totalPredicted [0, 1, 2, 3, 4] 3 = 3 := by decide
    have hloss : totalLoss fourCostsFour [0, 1, 2, 3, 4] 3 =
        [(windowLosses fourCostsFour [0, 1, 2, 3, 4] 3 0).sum,
          (windowLosses fourCostsFour [0, 1, 2, 3, 4] 3 1).sum].sum := rfl
    rw [hcount, hloss, hfirst, hsecond]
    norm_num
  refine ⟨hppl, htotal, ?_⟩
  rintro ⟨ppl, hok, hlog⟩
  rw [hppl] at hok
  cases hok
  rw [htotal, Real.log_exp] at hlog
  norm_num at hlog

end Perplexity
