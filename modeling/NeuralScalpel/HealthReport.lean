/-
What a health report depends on.

The analyser measures the complete pairs one after another.  In exact numbers
the report depends on the layers and the products of these pairs only, and not
on the order they come in.

* `measurePairs_eq` — the measurements are those of the complete pairs;
* `report_measured_perm` — their order does not matter;
* `report_measured_ne` — a report on some pairs differs from that on none.
-/
import NeuralScalpel.DeltaHealth

/-- A list with at most one element is not changed by a permutation. -/
theorem eq_of_perm_of_unique {α : Type} {l l' : List α} (h : l.Perm l') (hnodup : l.Nodup)
    (hunique : ∀ a ∈ l, ∀ b ∈ l, a = b) : l = l' := by
  rcases l with _ | ⟨a, rest⟩
  · exact (List.nil_perm.mp h).symm
  · have hrest : rest = [] := List.eq_nil_iff_forall_not_mem.mpr fun b hb => by
      have hab : a = b := hunique a List.mem_cons_self b (List.mem_cons_of_mem a hb)
      exact (List.nodup_cons.mp hnodup).1 (hab ▸ hb)
    subst hrest
    exact (List.perm_singleton.mp h.symm).symm

namespace DeltaHealthAnalyzer

/-! ### Complete pairs -/

section

variable {S : Type} [Field S]

/-- The layer and the tensors of a pair that has both. -/
def completePair (entry : String × BufferedPair S) :
    Option (Option ℕ × ShapedMatrix S × ShapedMatrix S) :=
  match entry.2 .a, entry.2 .b with
  | some a, some b => some (extractLayer entry.1, a, b)
  | _, _ => none

/-- The measurements with one more product. -/
def Measurements.add (math : HealthMath S) (m : Measurements S)
    (p : Option ℕ × ShapedMatrix S) : Measurements S where
  layerEnergy := addEnergy m.layerEnergy p.1 (energy p.2)
  totalFrobNormSq := m.totalFrobNormSq + energy p.2
  entropies := m.entropies ++ [spectralEntropy math p.2]

/-- The measurements of products, in the layers they belong to. -/
def measured (math : HealthMath S) (products : List (Option ℕ × ShapedMatrix S)) :
    Measurements S := products.foldl (Measurements.add math) .init

def pairProduct (p : Option ℕ × ShapedMatrix S × ShapedMatrix S) : Option ℕ × ShapedMatrix S :=
  (p.1, p.2.2.mul p.2.1)

/-- The loop measures the products of the complete pairs, if they have any. -/
theorem measurePairs_eq (math : HealthMath S) : ∀ {entries : List (String × BufferedPair S)}
    {m : Measurements S}, (∀ p ∈ entries.filterMap completePair, p.2.2.cols = p.2.1.rows) →
      measurePairs math entries m =
        .ok (((entries.filterMap completePair).map pairProduct).foldl
          (Measurements.add math) m) := by
  intro entries
  induction entries with
  | nil => exact fun _ => rfl
  | cons entry rest ih =>
    intro m hranks
    rw [measurePairs]
    cases ha : entry.2 .a with
    | none =>
      have hnone : completePair entry = none := by
        unfold completePair
        rw [ha]
      rw [List.filterMap_cons_none hnone] at hranks ⊢
      exact ih hranks
    | some a =>
      cases hb : entry.2 .b with
      | none =>
        have hnone : completePair entry = none := by
          unfold completePair
          rw [ha, hb]
        rw [List.filterMap_cons_none hnone] at hranks ⊢
        exact ih hranks
      | some b =>
        have hsome : completePair entry = some (extractLayer entry.1, a, b) := by
          unfold completePair
          rw [ha, hb]
        rw [List.filterMap_cons_some hsome] at hranks ⊢
        have hrank : b.cols = a.rows := hranks _ List.mem_cons_self
        have hpair : measurePair math (extractLayer entry.1) a b m =
            .ok (m.add math (extractLayer entry.1, b.mul a)) := if_neg (not_not_intro hrank)
        simp only [hpair]
        exact ih fun p hp => hranks p (List.mem_cons_of_mem _ hp)

theorem measure_eq (math : HealthMath S) (params : List (String × ShapedMatrix S))
    (hranks : ∀ p ∈ (collectPairs params).entries.filterMap completePair,
      p.2.2.cols = p.2.1.rows) :
    measure math params =
      .ok (measured math
        (((collectPairs params).entries.filterMap completePair).map pairProduct)) :=
  measurePairs_eq math hranks

/-! ### The measurements of products -/

theorem totalFrobNormSq_foldl (math : HealthMath S) :
    ∀ (products : List (Option ℕ × ShapedMatrix S)) (m : Measurements S),
      (products.foldl (Measurements.add math) m).totalFrobNormSq =
        m.totalFrobNormSq + (products.map fun p => energy p.2).sum := by
  intro products
  induction products with
  | nil => exact fun m => (add_zero _).symm
  | cons p products ih =>
    intro m
    rw [List.foldl_cons, ih, List.map_cons, List.sum_cons, ← add_assoc]
    rfl

theorem entropies_foldl (math : HealthMath S) :
    ∀ (products : List (Option ℕ × ShapedMatrix S)) (m : Measurements S),
      (products.foldl (Measurements.add math) m).entropies =
        m.entropies ++ products.map fun p => spectralEntropy math p.2 := by
  intro products
  induction products with
  | nil => exact fun m => (List.append_nil _).symm
  | cons p products ih =>
    intro m
    rw [List.foldl_cons, ih, List.map_cons]
    exact List.append_assoc m.entropies [_] _

/-- The energies of the products of a layer. -/
def layerEnergies (layer : ℕ) (products : List (Option ℕ × ShapedMatrix S)) : List S :=
  (products.filter fun p => p.1 = some layer).map fun p => energy p.2

/-- A layer has the sum of the energies of its products. -/
theorem layerEnergy_foldl (math : HealthMath S) (layer : ℕ) :
    ∀ (products : List (Option ℕ × ShapedMatrix S)) (m : Measurements S),
      (products.foldl (Measurements.add math) m).layerEnergy.get? layer =
        if layerEnergies layer products = [] then m.layerEnergy.get? layer
        else some ((m.layerEnergy.get? layer).getD 0 + (layerEnergies layer products).sum) := by
  intro products
  induction products with
  | nil => exact fun m => rfl
  | cons p products ih =>
    intro m
    rw [List.foldl_cons, ih]
    by_cases hlayer : p.1 = some layer
    · have hget : (m.add math p).layerEnergy.get? layer =
          some ((m.layerEnergy.get? layer).getD 0 + energy p.2) := by
        show (addEnergy m.layerEnergy p.1 (energy p.2)).get? layer = _
        rw [hlayer]
        exact Dict.get?_set_self _ _ _
      have hcons : layerEnergies layer (p :: products) =
          energy p.2 :: layerEnergies layer products := by
        unfold layerEnergies
        rw [List.filter_cons_of_pos (by simpa using hlayer), List.map_cons]
      rw [hget, hcons, if_neg (List.cons_ne_nil _ _), List.sum_cons, Option.getD_some, ← add_assoc]
      by_cases hnil : layerEnergies layer products = []
      · rw [if_pos hnil, hnil, List.sum_nil, add_zero]
      · rw [if_neg hnil]
    · have hget : (m.add math p).layerEnergy.get? layer = m.layerEnergy.get? layer := by
        show (addEnergy m.layerEnergy p.1 (energy p.2)).get? layer = _
        cases hp : p.1 with
        | none => rfl
        | some other =>
          refine Dict.get?_set_of_ne fun heq => hlayer ?_
          rw [hp, heq]
      have hcons : layerEnergies layer (p :: products) = layerEnergies layer products := by
        unfold layerEnergies
        rw [List.filter_cons_of_neg (by simpa using hlayer)]
      rw [hget, hcons]

end

/-! ### The order of the pairs -/

section

variable {S : Type} [Field S] {products products' : List (Option ℕ × ShapedMatrix S)}

theorem totalFrobNormSq_measured (math : HealthMath S)
    (products : List (Option ℕ × ShapedMatrix S)) :
    (measured math products).totalFrobNormSq = (products.map fun p => energy p.2).sum := by
  unfold measured
  rw [totalFrobNormSq_foldl]
  exact zero_add _

theorem entropies_measured (math : HealthMath S)
    (products : List (Option ℕ × ShapedMatrix S)) :
    (measured math products).entropies = products.map fun p => spectralEntropy math p.2 := by
  unfold measured
  rw [entropies_foldl]
  exact List.nil_append _

theorem perm_layerEnergy (math : HealthMath S) (h : products.Perm products') :
    (measured math products).layerEnergy.entries.Perm
      (measured math products').layerEnergy.entries := by
  refine Dict.perm_entries fun layer => ?_
  have henergies : (layerEnergies layer products).Perm (layerEnergies layer products') :=
    (h.filter _).map _
  have hnil : layerEnergies layer products = [] ↔ layerEnergies layer products' = [] :=
    ⟨fun hnil => List.nil_perm.mp (hnil ▸ henergies),
      fun hnil => List.perm_nil.mp (hnil ▸ henergies)⟩
  unfold measured
  rw [layerEnergy_foldl, layerEnergy_foldl, henergies.sum_eq]
  simp only [hnil]

theorem totalEnergy_perm (math : HealthMath S) (h : products.Perm products') :
    (measured math products).totalEnergy = (measured math products').totalEnergy := by
  unfold Measurements.totalEnergy
  rw [((perm_layerEnergy math h).map Prod.snd).sum_eq]

theorem normalizedEntropy_perm (math : HealthMath S) (h : products.Perm products') :
    (measured math products).normalizedEntropy = (measured math products').normalizedEntropy := by
  have hentropies :
      (measured math products).entropies.Perm (measured math products').entropies := by
    rw [entropies_measured, entropies_measured]
    exact h.map _
  unfold Measurements.normalizedEntropy
  rw [hentropies.sum_eq, hentropies.length_eq, hentropies.isEmpty_eq]

end

section

variable {S : Type} [Field S] [LinearOrder S] [IsStrictOrderedRing S] {math : HealthMath S}
  {products products' : List (Option ℕ × ShapedMatrix S)}

theorem nonneg_measured (math : HealthMath S) (products : List (Option ℕ × ShapedMatrix S)) :
    (measured math products).Nonneg := by
  intro layer e he
  unfold measured at he
  rw [layerEnergy_foldl] at he
  by_cases hnil : layerEnergies layer products = []
  · rw [if_pos hnil] at he
    cases he
  · rw [if_neg hnil] at he
    cases he
    refine add_nonneg le_rfl (List.sum_nonneg fun x hx => ?_)
    obtain ⟨p, -, rfl⟩ := List.mem_map.mp hx
    exact energy_nonneg p.2

omit [IsStrictOrderedRing S] in
theorem nodup_outlierRatios (m : Measurements S) : (m.outlierRatios.map Prod.fst).Nodup := by
  have hkeys : ((m.layerEnergy.entries.map fun e => (e.1, e.2 / m.totalEnergy)).map Prod.fst) =
      m.layerEnergy.entries.map Prod.fst := by
    rw [List.map_map]
    rfl
  exact (hkeys ▸ m.layerEnergy.nodup).sublist (List.filter_sublist.map Prod.fst)

/-- There is at most one outlier, so the order of the layers does not show. -/
theorem outlierRatios_perm (math : HealthMath S) (h : products.Perm products') :
    (measured math products).outlierRatios = (measured math products').outlierRatios := by
  have hperm : (measured math products).outlierRatios.Perm
      (measured math products').outlierRatios := by
    unfold Measurements.outlierRatios
    rw [totalEnergy_perm math h]
    exact ((perm_layerEnergy math h).map _).filter _
  refine eq_of_perm_of_unique hperm (List.Nodup.of_map Prod.fst (nodup_outlierRatios _)) ?_
  intro e he e' he'
  refine List.inj_on_of_nodup_map (nodup_outlierRatios _) he he' ?_
  exact outlierLayer_unique (nonneg_measured math products)
    (mem_outlierRatios.mp ⟨e.2, he⟩) (mem_outlierRatios.mp ⟨e'.2, he'⟩)

/-- The report does not depend on the order of the pairs. -/
theorem report_measured_perm [FloorRing S] (math : HealthMath S) (h : products.Perm products') :
    (measured math products).report math = (measured math products').report math := by
  have htotal : (measured math products).totalFrobNormSq =
      (measured math products').totalFrobNormSq := by
    rw [totalFrobNormSq_measured, totalFrobNormSq_measured, (h.map _).sum_eq]
  unfold Measurements.report Measurements.verdict Measurements.concentrationScore
  rw [htotal, outlierRatios_perm math h, normalizedEntropy_perm math h]

/-! ### Reports on some pairs -/

/-- What is known of the functions of the libraries. -/
structure HealthMath.Documented (math : HealthMath S) : Prop where
  sqrt_zero : math.sqrt 0 = 0
  sqrt_pos : ∀ x, 0 < x → 0 < math.sqrt x
  /-- The singular values of a zero matrix are zero. -/
  svd_zero : ∀ w : ShapedMatrix S, (∀ i j, w.entry i j = 0) → ∀ i, (math.svd w).s i = 0

omit [IsStrictOrderedRing S] in
theorem spectralEntropy_of_zero (hmath : HealthMath.Documented math) {w : ShapedMatrix S}
    (hw : ∀ i j, w.entry i j = 0) : spectralEntropy math w = 0 := by
  have hzero : ∀ n, (((List.range n).map (math.svd w).s).map fun x =>
      x / (((List.range n).map (math.svd w).s).sum + tiny)) = List.replicate n 0 := by
    intro n
    refine List.eq_replicate_iff.mpr ⟨by simp, fun x hx => ?_⟩
    obtain ⟨s, hs, rfl⟩ := List.mem_map.mp hx
    obtain ⟨i, -, rfl⟩ := List.mem_map.mp hs
    rw [hmath.svd_zero w hw i, zero_div]
  unfold spectralEntropy
  simp only [hzero]
  rw [List.map_replicate, zero_mul, List.sum_replicate, smul_zero, neg_zero, zero_div]

theorem eq_zero_of_energy {w : ShapedMatrix S} (h : energy w = 0) (i j : ℕ) :
    w.entry i j = 0 := by
  by_cases hin : i < w.rows ∧ j < w.cols
  · have hrow := (Finset.sum_eq_zero_iff_of_nonneg fun i _ =>
      Finset.sum_nonneg fun j _ => mul_self_nonneg (w.entry i j)).mp h i
        (Finset.mem_range.mpr hin.1)
    have hentry := (Finset.sum_eq_zero_iff_of_nonneg fun j _ =>
      mul_self_nonneg (w.entry i j)).mp hrow j (Finset.mem_range.mpr hin.2)
    exact mul_self_eq_zero.mp hentry
  · exact w.support i j hin

/-- A report on some pairs is not the report on none: either the norm is not
zero, or all singular values are and the entropy is not one. -/
theorem report_measured_ne [FloorRing S] (hmath : HealthMath.Documented math)
    (hne : products ≠ []) :
    (measured math products).report math ≠ (measured math []).report math := by
  intro heq
  have hnorm : math.sqrt (products.map fun p => energy p.2).sum = 0 := by
    have h := congrArg DeltaHealthResult.globalFrobeniusNorm heq
    simp only [Measurements.report, totalFrobNormSq_measured, List.map_nil, List.sum_nil] at h
    rw [h, hmath.sqrt_zero]
  have hall : ∀ x ∈ products.map fun p => energy p.2, 0 ≤ x := by
    intro x hx
    obtain ⟨p, -, rfl⟩ := List.mem_map.mp hx
    exact energy_nonneg p.2
  have hsum : (products.map fun p => energy p.2).sum = 0 := by
    rcases (List.sum_nonneg hall).lt_or_eq with hpos | hzero
    · exact absurd hnorm (hmath.sqrt_pos _ hpos).ne'
    · exact hzero.symm
  have hentropies : products.map (fun p => spectralEntropy math p.2) =
      List.replicate products.length 0 := by
    refine List.eq_replicate_iff.mpr ⟨List.length_map _, fun x hx => ?_⟩
    obtain ⟨p, hp, rfl⟩ := List.mem_map.mp hx
    have henergy : energy p.2 = 0 := by
      refine le_antisymm (hsum ▸ ?_) (energy_nonneg p.2)
      exact List.single_le_sum hall _ (List.mem_map_of_mem hp)
    exact spectralEntropy_of_zero hmath (eq_zero_of_energy henergy)
  have hentropy := congrArg (fun r => r.normalizedSpectralEntropy) heq
  simp only [Measurements.report, Measurements.normalizedEntropy, entropies_measured, hentropies,
    List.map_nil, List.isEmpty_nil, if_true, List.sum_replicate, smul_zero, zero_div] at hentropy
  rw [if_neg] at hentropy
  · exact zero_ne_one hentropy
  · simpa using hne

end

end DeltaHealthAnalyzer
