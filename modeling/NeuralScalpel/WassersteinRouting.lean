/-
Routing source heads to target heads by optimal transport.

The cost of a pair of heads is their squared distance, scaled to at most one,
and the transport plan is the entropic one.  In hard mode every target head
takes the source head that the plan sends most of, and a source head that no
target head took is merged into the target head it is nearest to.

* `wassersteinDiscreteRouting` — the function, with its errors;
* `merging_merged` — merging keeps the winner of every column;
* `routes_hardRouting` — hard routing is normalised and drops no source head;
* `colSum_softRouting` — soft routing is normalised exactly.

`exp` and `log` are parameters.
-/
import NeuralScalpel.FailurePolicy
import Mathlib.Algebra.BigOperators.Field
import Mathlib.Algebra.Order.BigOperators.Group.Finset
import Mathlib.Algebra.Order.BigOperators.Ring.Finset
import Mathlib.Algebra.Order.Field.Basic
import Mathlib.Data.Fintype.BigOperators
import Mathlib.Data.List.MinMax
import Mathlib.Tactic.Linarith
import Mathlib.Tactic.NormNum
import Mathlib.Tactic.Positivity

/-- The functions on floats that are not arithmetic. -/
structure RoutingMath (K : Type) where
  exp : K → K
  log : K → K

/-- Activations of attention heads: samples, heads, coordinates. -/
structure AttentionHeads (K : Type) where
  batch : ℕ
  heads : ℕ
  dim : ℕ
  entry : ℕ → ℕ → ℕ → K

/-- A number for each source head and each target head. -/
abbrev HeadMatrix (K : Type) (S T : ℕ) := Fin S → Fin T → K

structure RoutingDiagnostics (K : Type) where
  sinkhornFallbackUsed : Bool
  epsilon : K
  mode : String

namespace WassersteinRouting

/-! ### Costs -/

section

variable {K : Type} [Field K]

/-- `transpose(0, 1).reshape(heads, -1)`: all coordinates of a head in all samples. -/
def flatHead (a : AttentionHeads K) (h p : ℕ) : K := a.entry (p / a.dim) h (p % a.dim)

def width (a : AttentionHeads K) : ℕ := a.batch * a.dim

def numel (a : AttentionHeads K) : ℕ := a.heads * width a

def dot (a b : AttentionHeads K) (h h' : ℕ) : K :=
  ∑ p ∈ Finset.range (width a), flatHead a h p * flatHead b h' p

variable [LinearOrder K]

/-- Squared distances of the heads. -/
def distances (source target : AttentionHeads K) :
    HeadMatrix K source.heads target.heads :=
  fun i j => max (dot source source i i + dot target target j j - 2.0 * dot source target i j) 0

variable {S T : ℕ}

def entries (M : HeadMatrix K S T) : List K :=
  (List.finRange S).flatMap fun i => (List.finRange T).map (M i)

/-- `C / (C.max() + 1e-12)`. -/
def costMatrix (source target : AttentionHeads K) :
    Except PyError (HeadMatrix K source.heads target.heads) :=
  if numel source = 0 ∨ numel target = 0 then
    .error (.runtimeError "cannot reshape tensor of 0 elements: -1 can be any value")
  else if width source ≠ width target then
    .error (.runtimeError "mat1 and mat2 shapes cannot be multiplied")
  else
    match (entries (distances source target)).max? with
    | none => .error (.runtimeError
        "max(): Expected reduction dim to be specified for input.numel() == 0.")
    | some top => .ok fun i j => distances source target i j / (top + 1e-12)

/-! ### Sinkhorn -/

/-- The dual variables, as logarithms. -/
structure Duals (K : Type) (S T : ℕ) where
  logU : Fin S → K
  logV : Fin T → K

def logSumExp (math : RoutingMath K) {n : ℕ} (x : Fin n → K) : K := math.log (∑ i, math.exp (x i))

/-- The greatest absolute value; zero if there is none. -/
def maxAbs {n : ℕ} (x : Fin n → K) : K := ((List.finRange n).map fun i => |x i|).max?.getD 0

/-- One round: both sets of duals. -/
def sinkhornRound (math : RoutingMath K) (kLog : HeadMatrix K S T) (duals : Duals K S T) :
    Duals K S T :=
  let logU := fun i => -math.log S - logSumExp math fun j => kLog i j + duals.logV j
  ⟨logU, fun j => -math.log T - logSumExp math fun i => kLog i j + logU i⟩

def logPlan (kLog : HeadMatrix K S T) (duals : Duals K S T) : HeadMatrix K S T :=
  fun i j => duals.logU i + kLog i j + duals.logV j

/-- How far the marginals of the plan are from uniform. -/
def residual (math : RoutingMath K) (kLog : HeadMatrix K S T) (duals : Duals K S T) : K :=
  max (maxAbs fun i => (logSumExp math fun j => logPlan kLog duals i j) - -math.log S)
    (maxAbs fun j => (logSumExp math fun i => logPlan kLog duals i j) - -math.log T)

/-- Round `i` and those after it; every tenth round may be the last. -/
def sinkhornLoop (math : RoutingMath K) (kLog : HeadMatrix K S T) (stopThr : K) :
    ℕ → ℕ → Duals K S T → Duals K S T
  | 0, _, duals => duals
  | remaining + 1, i, duals =>
    let next := sinkhornRound math kLog duals
    if i % 10 = 0 ∧ residual math kLog next < stopThr then next
    else sinkhornLoop math kLog stopThr remaining (i + 1) next

/-- `sinkhorn_knopp`. -/
def sinkhornKnopp (math : RoutingMath K) (C : HeadMatrix K S T) (epsilon : K)
    (nIter : ℕ := 100) (stopThr : K := 1e-9) : Except PyError (HeadMatrix K S T) :=
  if epsilon ≤ 0 then .error (.valueError "epsilon must be positive.")
  else
    let kLog : HeadMatrix K S T := fun i j => -C i j / epsilon
    let duals := sinkhornLoop math kLog stopThr nIter 0 ⟨fun _ => 0, fun _ => 0⟩
    .ok fun i j => math.exp (logPlan kLog duals i j)

/-! ### Routing -/

def colSum (M : HeadMatrix K S T) (j : Fin T) : K := ∑ i, M i j

/-- `torch.finfo(torch.float32).tiny`. -/
def tiny : K := 0.5 ^ 126

def fallbackUsed (P : HeadMatrix K S T) : Bool := decide (∃ j, colSum P j ≤ tiny)

/-- Soft mode: the plan with its columns normalised, or a softmax of the costs. -/
def softRouting (math : RoutingMath K) (C P : HeadMatrix K S T) (epsilon : K) :
    HeadMatrix K S T :=
  if fallbackUsed P then
    let logits : HeadMatrix K S T := fun i j => -C i j / max epsilon 1e-6
    let pCol : HeadMatrix K S T :=
      fun i j => math.exp (logits i j) / ∑ i', math.exp (logits i' j)
    fun i j => pCol i j / colSum pCol j
  else fun i j => P i j / max (colSum P j) tiny

/-- `torch.argmax(P_soft, dim=0)`: the source head that a target head takes. -/
def winner (P : HeadMatrix K S T) (j : Fin T) : Option (Fin S) :=
  (List.finRange S).argmax fun i => P i j

/-- `torch.argmin(C[i, :])`: the target head a source head is nearest to. -/
def nearest (C : HeadMatrix K S T) (i : Fin S) : Option (Fin T) :=
  (List.finRange T).argmin (C i)

/-- `P_hard` with its winners. -/
def winners (P : HeadMatrix K S T) : HeadMatrix K S T :=
  fun i j => if winner P j = some i then 1 else 0

/-- The source heads that no target head took; each is merged into a row of its
own, so that their order plays no part. -/
def remnants (P : HeadMatrix K S T) : List (Fin S) :=
  (List.finRange S).filter fun i => ∀ j, winner P j ≠ some i

/-- `P_hard[i, j] = alpha` for the target head `j` nearest to `i`. -/
def merge (C : HeadMatrix K S T) (alpha : K) (M : HeadMatrix K S T) (i : Fin S) :
    HeadMatrix K S T :=
  match nearest C i with
  | some j => fun i' j' => if i' = i ∧ j' = j then alpha else M i' j'
  | none => M

/-- `P_hard`. -/
def merged (C P : HeadMatrix K S T) (alpha : K) : HeadMatrix K S T :=
  if remnants P ≠ [] ∧ 0 < alpha then (remnants P).foldl (merge C alpha) (winners P) else winners P

/-- Hard mode. -/
def hardRouting (C P : HeadMatrix K S T) (alpha : K) : HeadMatrix K S T :=
  fun i j => merged C P alpha i j / (colSum (merged C P alpha) j + 1e-12)

/-- `wasserstein_discrete_routing`: the routing, and the diagnostics if they are asked for. -/
def wassersteinDiscreteRouting (math : RoutingMath K) (source target : AttentionHeads K)
    (epsilon : K := 0.01) (alpha : K := 0.1) (mode : String := "hard")
    (returnDiagnostics : Bool := false) :
    Except PyError (HeadMatrix K source.heads target.heads × Option (RoutingDiagnostics K)) :=
  if ¬(mode = "soft" ∨ mode = "hard") then .error (.valueError "mode must be 'soft' or 'hard'")
  else do
    let C ← costMatrix source target
    let P ← sinkhornKnopp math C epsilon
    if mode = "soft" then
      pure (softRouting math C P epsilon,
        if returnDiagnostics then some ⟨fallbackUsed P, epsilon, mode⟩ else none)
    else
      pure (hardRouting C P alpha,
        if returnDiagnostics then some ⟨false, epsilon, mode⟩ else none)

end

/-! ### Winners and nearest heads -/

theorem entries_ne_nil {K : Type} {S T : ℕ} (hS : 0 < S) (hT : 0 < T) (M : HeadMatrix K S T) :
    entries M ≠ [] := by
  have hmem : M ⟨0, hS⟩ ⟨0, hT⟩ ∈ entries M := List.mem_flatMap.mpr
    ⟨_, List.mem_finRange _, List.mem_map_of_mem (List.mem_finRange _)⟩
  exact List.ne_nil_of_mem hmem

section

variable {K : Type} [LinearOrder K] {S T : ℕ}

theorem exists_winner (hS : 0 < S) (P : HeadMatrix K S T) (j : Fin T) :
    ∃ i, winner P j = some i := by
  refine Option.ne_none_iff_exists'.mp fun hnone => ?_
  have hnil := List.argmax_eq_none.mp hnone
  rw [List.finRange_eq_nil_iff] at hnil
  omega

theorem exists_nearest (hT : 0 < T) (C : HeadMatrix K S T) (i : Fin S) :
    ∃ j, nearest C i = some j := by
  refine Option.ne_none_iff_exists'.mp fun hnone => ?_
  have hnil := List.argmin_eq_none.mp hnone
  rw [List.finRange_eq_nil_iff] at hnil
  omega

theorem mem_remnants {P : HeadMatrix K S T} {i : Fin S} :
    i ∈ remnants P ↔ ∀ j, winner P j ≠ some i := by
  simp [remnants]

end

/-! ### Merging -/

/-- The matrix after the rows `done` have been merged: the winners stand as they
were, and no merged row is lost. -/
structure Merging {K : Type} [Field K] [LinearOrder K] {S T : ℕ}
    (P : HeadMatrix K S T) (done : List (Fin S)) (M : HeadMatrix K S T) :
    Prop where
  nonneg : ∀ i j, 0 ≤ M i j
  keeps : ∀ i j, winner P j = some i → M i j = 1
  merged : ∀ i ∈ done, ∃ j, 0 < M i j

section

variable {K : Type} [Field K] [LinearOrder K] [IsStrictOrderedRing K] {S T : ℕ}
  {C P M : HeadMatrix K S T} {alpha : K} {done : List (Fin S)}

theorem merging_winners (P : HeadMatrix K S T) : Merging P [] (winners P) := by
  refine ⟨fun i j => ?_, fun i j h => if_pos h, fun i h => absurd h List.not_mem_nil⟩
  unfold winners
  split_ifs
  · exact zero_le_one
  · exact le_rfl

omit [IsStrictOrderedRing K] in
/-- Merging one more remnant. -/
theorem Merging.step (h : Merging P done M) (hT : 0 < T) (halpha : 0 < alpha) {i : Fin S}
    (hi : i ∈ remnants P) : Merging P (done ++ [i]) (merge C alpha M i) := by
  obtain ⟨j, hj⟩ := exists_nearest hT C i
  have hmerge : merge C alpha M i = fun i' j' => if i' = i ∧ j' = j then alpha else M i' j' := by
    rw [merge, hj]
  rw [hmerge]
  refine ⟨fun i' j' => ?_, fun i' j' hwins => ?_, fun i' hi' => ?_⟩
  · show 0 ≤ if i' = i ∧ j' = j then alpha else M i' j'
    split_ifs
    · exact halpha.le
    · exact h.nonneg i' j'
  · -- a winner is no remnant, so that its row is not written
    have hne : ¬(i' = i ∧ j' = j) := by
      rintro ⟨rfl, -⟩
      exact mem_remnants.mp hi j' hwins
    exact (if_neg hne).trans (h.keeps i' j' hwins)
  · by_cases hsame : i' = i
    · refine ⟨j, ?_⟩
      show 0 < if i' = i ∧ j = j then alpha else M i' j
      rw [if_pos ⟨hsame, rfl⟩]
      exact halpha
    · have hdone : i' ∈ done := by
        rcases List.mem_append.mp hi' with hdone | hlast
        · exact hdone
        · exact absurd (List.mem_singleton.mp hlast) hsame
      obtain ⟨j', hpos⟩ := h.merged i' hdone
      refine ⟨j', ?_⟩
      show 0 < if i' = i ∧ j' = j then alpha else M i' j'
      rw [if_neg fun hboth => hsame hboth.1]
      exact hpos

omit [IsStrictOrderedRing K] in
/-- Merging any number of remnants. -/
theorem Merging.run (hT : 0 < T) (halpha : 0 < alpha) {l : List (Fin S)}
    (hl : ∀ i ∈ l, i ∈ remnants P) : ∀ {done : List (Fin S)} {M : HeadMatrix K S T},
      Merging P done M → Merging P (done ++ l) (l.foldl (merge C alpha) M) := by
  induction l with
  | nil =>
    intro done M h
    rw [List.append_nil]
    exact h
  | cons i l ih =>
    intro done M h
    rw [List.append_cons, List.foldl_cons]
    exact ih (fun i' hi' => hl i' (List.mem_cons_of_mem i hi'))
      (h.step hT halpha (hl i List.mem_cons_self))

/-- Merging keeps the winner of every column, and merges every other row. -/
theorem merging_merged (C P : HeadMatrix K S T) (hT : 0 < T) (halpha : 0 < alpha) :
    Merging P (remnants P) (merged C P alpha) := by
  unfold merged
  by_cases hnil : remnants P = []
  · rw [if_neg fun h => h.1 hnil, hnil]
    exact merging_winners P
  · rw [if_pos ⟨hnil, halpha⟩]
    exact Merging.run hT halpha (fun i hi => hi) (merging_winners P)

end

/-! ### Normalised columns -/

/-- No entry is negative, every column sums to one up to `1e-12` and no more
than one, and no row is without a positive entry. -/
structure Routes {K : Type} [Field K] [LinearOrder K] {S T : ℕ} (R : HeadMatrix K S T) :
    Prop where
  nonneg : ∀ i j, 0 ≤ R i j
  lt_colSum : ∀ j, 1 - 1e-12 < colSum R j
  colSum_le : ∀ j, colSum R j ≤ 1
  kept : ∀ i, ∃ j, 0 < R i j

section

variable {K : Type} [Field K] [LinearOrder K] [IsStrictOrderedRing K] {S T : ℕ}
  {M P : HeadMatrix K S T} {done : List (Fin S)}

theorem one_le_colSum (h : Merging P done M) (hS : 0 < S) (j : Fin T) : 1 ≤ colSum M j := by
  obtain ⟨i, hi⟩ := exists_winner hS P j
  calc (1 : K) = M i j := (h.keeps i j hi).symm
    _ ≤ colSum M j := Finset.single_le_sum (fun i _ => h.nonneg i j) (Finset.mem_univ i)

/-- Every row is a winner's or has been merged. -/
theorem exists_pos_of_merging (h : Merging P (remnants P) M) (i : Fin S) : ∃ j, 0 < M i j := by
  by_cases hwins : ∃ j, winner P j = some i
  · obtain ⟨j, hj⟩ := hwins
    exact ⟨j, (h.keeps i j hj).symm ▸ one_pos⟩
  · exact h.merged i (mem_remnants.mpr (not_exists.mp hwins))

omit [LinearOrder K] [IsStrictOrderedRing K] in
theorem colSum_div {M : HeadMatrix K S T} {c : Fin T → K} (j : Fin T) :
    colSum (fun i j => M i j / c j) j = colSum M j / c j := (Finset.sum_div _ _ _).symm

/-- Dividing by a sum of at least one and a small number more. -/
theorem routes_of_one_le (hnonneg : ∀ i j, 0 ≤ M i j) (hsum : ∀ j, 1 ≤ colSum M j)
    (hkept : ∀ i, ∃ j, 0 < M i j) : Routes fun i j => M i j / (colSum M j + 1e-12) := by
  have htiny : (0 : K) < 1e-12 := by norm_num
  have hpos : ∀ j, 0 < colSum M j + 1e-12 := fun j =>
    add_pos (one_pos.trans_le (hsum j)) htiny
  have hcol : ∀ j, colSum (fun i j => M i j / (colSum M j + 1e-12)) j =
      colSum M j / (colSum M j + 1e-12) := colSum_div
  refine ⟨fun i j => div_nonneg (hnonneg i j) (hpos j).le, fun j => ?_, fun j => ?_, fun i => ?_⟩
  · rw [hcol, lt_div_iff₀ (hpos j)]
    have hone := hsum j
    nlinarith
  · rw [hcol, div_le_one (hpos j)]
    exact le_add_of_nonneg_right htiny.le
  · obtain ⟨j, hj⟩ := hkept i
    exact ⟨j, div_pos hj (hpos j)⟩

theorem routes_hardRouting (C P : HeadMatrix K S T) {alpha : K} (hS : 0 < S) (hT : 0 < T)
    (halpha : 0 < alpha) : Routes (hardRouting C P alpha) := by
  have h := merging_merged C P hT halpha
  exact routes_of_one_le h.nonneg (one_le_colSum h hS) (exists_pos_of_merging h)

end

/-! ### The function -/

theorem heads_pos {K : Type} {a : AttentionHeads K} (h : 0 < numel a) : 0 < a.heads :=
  Nat.pos_of_mul_pos_right h

section

variable {K : Type} [Field K] [LinearOrder K]

theorem costMatrix_returns {source target : AttentionHeads K} (hsource : 0 < numel source)
    (htarget : 0 < numel target) (hwidth : width source = width target) :
    ∃ C, costMatrix source target = .ok C := by
  have hsome : ¬(numel source = 0 ∨ numel target = 0) := by omega
  rw [costMatrix, if_neg hsome, if_neg (not_not.mpr hwidth)]
  cases hmax : (entries (distances source target)).max? with
  | none =>
    have hnil := List.max?_eq_none_iff.mp hmax
    exact absurd hnil (entries_ne_nil (heads_pos hsource) (heads_pos htarget) _)
  | some top => exact ⟨_, rfl⟩

/-- Hard mode is the hard routing of the cost matrix and the Sinkhorn plan. -/
theorem wassersteinDiscreteRouting_hard (math : RoutingMath K) {source target : AttentionHeads K}
    {epsilon : K} (alpha : K) (returnDiagnostics : Bool) (hsource : 0 < numel source)
    (htarget : 0 < numel target) (hwidth : width source = width target) (hepsilon : 0 < epsilon) :
    ∃ C P, costMatrix source target = .ok C ∧ sinkhornKnopp math C epsilon = .ok P ∧
      wassersteinDiscreteRouting math source target epsilon alpha "hard" returnDiagnostics =
        .ok (hardRouting C P alpha,
          if returnDiagnostics then some ⟨false, epsilon, "hard"⟩ else none) := by
  obtain ⟨C, hC⟩ := costMatrix_returns hsource htarget hwidth
  obtain ⟨P, hP⟩ : ∃ P, sinkhornKnopp math C epsilon = .ok P :=
    ⟨_, if_neg (not_le.mpr hepsilon)⟩
  refine ⟨C, P, hC, hP, ?_⟩
  rw [wassersteinDiscreteRouting, if_neg (by decide), hC]
  show (sinkhornKnopp math C epsilon >>= _) = _
  rw [hP]
  rfl

end

/-- Hard routing is normalised and drops no source head, whatever the costs and
the plan are, and so is what the function returns in hard mode. -/
theorem hard_routes (K : Type) [Field K] [LinearOrder K] [IsStrictOrderedRing K] :
    (∀ {S T : ℕ} (C P : HeadMatrix K S T) (alpha : K), 1 ≤ S → 1 ≤ T → 0 < alpha →
      Routes (hardRouting C P alpha)) ∧
    ∀ (math : RoutingMath K) (source target : AttentionHeads K) (epsilon alpha : K)
      (returnDiagnostics : Bool), 0 < numel source → 0 < numel target →
      width source = width target → 0 < epsilon → 0 < alpha →
        ∃ R diagnostics, wassersteinDiscreteRouting math source target epsilon alpha "hard"
          returnDiagnostics = .ok (R, diagnostics) ∧ Routes R := by
  refine ⟨fun C P alpha hS hT halpha => routes_hardRouting C P hS hT halpha, ?_⟩
  intro math source target epsilon alpha returnDiagnostics hsource htarget hwidth hepsilon halpha
  obtain ⟨C, P, -, -, heq⟩ :=
    wassersteinDiscreteRouting_hard math alpha returnDiagnostics hsource htarget hwidth hepsilon
  exact ⟨_, _, heq, routes_hardRouting C P (heads_pos hsource) (heads_pos htarget) halpha⟩

/-- Two source heads that want the one target head: the second is merged into it. -/
theorem hard_routes_two_onto_one :
    Routes (hardRouting (fun _ _ => 1 : HeadMatrix ℚ 2 1) (fun i _ => i) 0.1) ∧
      ∃ R diagnostics, wassersteinDiscreteRouting ⟨fun x => x, fun x => x⟩
        (⟨1, 2, 1, fun _ h _ => h⟩ : AttentionHeads ℚ) ⟨1, 1, 1, fun _ _ _ => 1⟩ 1 1 "hard" false =
          .ok (R, diagnostics) ∧ Routes R :=
  ⟨(hard_routes ℚ).1 _ _ _ (by decide) (by decide) (by norm_num),
    (hard_routes ℚ).2 _ _ _ _ _ _ (by decide) (by decide) rfl one_pos one_pos⟩

/-! ### Soft mode -/

section

variable {K : Type} [Field K] [LinearOrder K] [IsStrictOrderedRing K] {S T : ℕ}

/-- Soft routing is normalised exactly, with or without the fallback. -/
theorem colSum_softRouting {math : RoutingMath K} (hexp : ∀ x, 0 < math.exp x)
    (C P : HeadMatrix K S T) (epsilon : K) (hS : 0 < S) (j : Fin T) :
    colSum (softRouting math C P epsilon) j = 1 := by
  unfold softRouting
  by_cases hfallback : fallbackUsed P = true
  · have hsum : ∀ logits : Fin S → K, 0 < ∑ i, math.exp (logits i) := fun logits =>
      Finset.sum_pos (fun i _ => hexp _) ⟨⟨0, hS⟩, Finset.mem_univ _⟩
    have hcol : ∀ j, colSum (fun i j => math.exp (-C i j / max epsilon 1e-6) /
        ∑ i', math.exp (-C i' j / max epsilon 1e-6)) j = 1 := by
      intro j
      rw [colSum_div]
      exact div_self (hsum _).ne'
    rw [if_pos hfallback]
    simp only [hcol, div_one]
  · have hlarge : tiny < colSum P j := by
      by_contra hsmall
      exact hfallback (decide_eq_true ⟨j, not_lt.mp hsmall⟩)
    have hpos : (0 : K) < colSum P j := lt_trans (by unfold tiny; positivity) hlarge
    rw [if_neg hfallback, colSum_div, max_eq_left hlarge.le]
    exact div_self hpos.ne'

end

end WassersteinRouting
