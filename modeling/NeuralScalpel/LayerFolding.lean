/-
Folding source layers onto target layers.

Target layer `t` of `T` stands at the position `t (n - 1) / (T - 1)` among `n`
source layers, and is blended from the layers below and above that position.

* `buildInterpolatedLayerMapping` — the loop;
* `get?_buildInterpolatedLayerMapping` — the entry of each target layer;
* `interpolates` — neighbouring layers in order, from the first to the last.
-/
import NeuralScalpel.AlphaRecommender

/-- How a target layer is blended. -/
structure LayerBlend (S : Type) where
  lower : ℤ
  upper : ℤ
  alpha : S
  deriving DecidableEq

namespace LayerFolding

/-- `items[index]`; a negative index counts from the end. -/
def itemAt (items : List ℤ) (index : ℤ) : Except PyError ℤ :=
  let place := if index < 0 then index + items.length else index
  match if place < 0 then none else items[place.toNat]? with
  | some item => .ok item
  | none => .error (.external "IndexError: list index out of range")

theorem itemAt_natCast {items : List ℤ} {n : ℕ} {item : ℤ} (h : items[n]? = some item) :
    itemAt items n = .ok item := by
  have hn : ¬(n : ℤ) < 0 := by omega
  simp only [itemAt, if_neg hn, Int.toNat_natCast, h]

section

variable (S : Type) [Field S] [LinearOrder S] [FloorRing S]

/-- Where a target layer stands among the source layers. -/
def sourcePos (numSrc targetLayers tIdx : ℕ) : S :=
  (((tIdx : ℤ) * ((numSrc : ℤ) - 1) : ℤ) : S) / (((targetLayers : ℤ) - 1 : ℤ) : S)

/-- The entry of a target layer. -/
def blend (sourceLayers : List ℤ) (targetLayers tIdx : ℕ) : Except PyError (LayerBlend S) :=
  if (targetLayers : ℤ) - 1 = 0 then .error (.external "ZeroDivisionError: division by zero")
  else do
    let pos := sourcePos S sourceLayers.length targetLayers tIdx
    let lower := ⌊pos⌋
    let upper := ⌈pos⌉
    let alpha := pos - lower
    let lowerLayer ← itemAt sourceLayers lower
    let upperLayer ← itemAt sourceLayers upper
    pure ⟨lowerLayer, upperLayer, AlphaRecommender.roundFour alpha⟩

/-- `build_interpolated_layer_mapping`. -/
def buildInterpolatedLayerMapping (sourceLayers : List ℤ) (targetLayers : ℕ) :
    Except PyError (Dict String (LayerBlend S)) :=
  Dict.fill (fun _ tIdx => some <$> blend S sourceLayers targetLayers tIdx)
    ((List.range targetLayers).map fun tIdx => (toString tIdx, tIdx)) .empty

end

/-! ### The position of a layer -/

section

variable {S : Type} [Field S]

theorem sourcePos_eq (n T t : ℕ) :
    sourcePos S n T t = (t : S) * ((n : S) - 1) / ((T : S) - 1) := by
  unfold sourcePos
  push_cast
  rfl

theorem sourcePos_zero (n T : ℕ) : sourcePos S n T 0 = 0 := by
  rw [sourcePos_eq, Nat.cast_zero, zero_mul, zero_div]

variable [LinearOrder S] [IsStrictOrderedRing S] {n T t t' : ℕ}

theorem span_pos (hT : 2 ≤ T) : (0 : S) < (T : S) - 1 := by
  have h : ((2 : ℕ) : S) ≤ T := Nat.cast_le.mpr hT
  rw [Nat.cast_ofNat] at h
  linarith

theorem sourcePos_last (hT : 2 ≤ T) : sourcePos S n T (T - 1) = (n : S) - 1 := by
  have hspan := span_pos (S := S) hT
  have hcast : ((T - 1 : ℕ) : S) = (T : S) - 1 := by
    rw [Nat.cast_sub (by omega), Nat.cast_one]
  rw [sourcePos_eq, hcast, mul_div_cancel_left₀ _ hspan.ne']

/-- Later target layers stand no lower. -/
theorem sourcePos_mono (hn : 0 < n) (hT : 2 ≤ T) (h : t ≤ t') :
    sourcePos S n T t ≤ sourcePos S n T t' := by
  have hspan := span_pos (S := S) hT
  have hsources : (0 : S) ≤ (n : S) - 1 := sub_nonneg.mpr (by exact_mod_cast hn)
  rw [sourcePos_eq, sourcePos_eq]
  gcongr

theorem sourcePos_nonneg (hn : 0 < n) (hT : 2 ≤ T) : 0 ≤ sourcePos S n T t :=
  sourcePos_zero (S := S) n T ▸ sourcePos_mono hn hT (Nat.zero_le t)

theorem sourcePos_le (hn : 0 < n) (hT : 2 ≤ T) (ht : t < T) : sourcePos S n T t ≤ (n : S) - 1 :=
  sourcePos_last (S := S) (n := n) hT ▸ sourcePos_mono hn hT (by omega)

variable [FloorRing S]

variable (S) in
/-- The source layer at or below the position of a target layer. -/
def lowerPlace (n T t : ℕ) : ℕ := ⌊sourcePos S n T t⌋.toNat

variable (S) in
/-- The source layer at or above it. -/
def upperPlace (n T t : ℕ) : ℕ := ⌈sourcePos S n T t⌉.toNat

theorem natCast_lowerPlace (hn : 0 < n) (hT : 2 ≤ T) :
    (lowerPlace S n T t : ℤ) = ⌊sourcePos S n T t⌋ :=
  Int.toNat_of_nonneg (Int.floor_nonneg.mpr (sourcePos_nonneg hn hT))

theorem natCast_upperPlace (hn : 0 < n) (hT : 2 ≤ T) :
    (upperPlace S n T t : ℤ) = ⌈sourcePos S n T t⌉ :=
  Int.toNat_of_nonneg (Int.ceil_nonneg (sourcePos_nonneg hn hT))

theorem lowerPlace_le_upperPlace (hn : 0 < n) (hT : 2 ≤ T) :
    lowerPlace S n T t ≤ upperPlace S n T t := by
  have h := Int.floor_le_ceil (sourcePos S n T t)
  rw [← natCast_lowerPlace hn hT, ← natCast_upperPlace hn hT] at h
  exact Int.ofNat_le.mp h

theorem upperPlace_le_succ (hn : 0 < n) (hT : 2 ≤ T) :
    upperPlace S n T t ≤ lowerPlace S n T t + 1 := by
  have h := Int.ceil_le_floor_add_one (sourcePos S n T t)
  rw [← natCast_lowerPlace hn hT, ← natCast_upperPlace hn hT] at h
  omega

/-- The layer above the position is one of the list. -/
theorem upperPlace_lt (hn : 0 < n) (hT : 2 ≤ T) (ht : t < T) : upperPlace S n T t < n := by
  have hceil : ⌈sourcePos S n T t⌉ ≤ (n : ℤ) - 1 := by
    refine Int.ceil_le.mpr ?_
    push_cast
    exact sourcePos_le hn hT ht
  rw [← natCast_upperPlace hn hT] at hceil
  omega

theorem lowerPlace_mono (hn : 0 < n) (hT : 2 ≤ T) (h : t ≤ t') :
    lowerPlace S n T t ≤ lowerPlace S n T t' :=
  Int.toNat_le_toNat (Int.floor_mono (sourcePos_mono hn hT h))

theorem upperPlace_mono (hn : 0 < n) (hT : 2 ≤ T) (h : t ≤ t') :
    upperPlace S n T t ≤ upperPlace S n T t' :=
  Int.toNat_le_toNat (Int.ceil_mono (sourcePos_mono hn hT h))

/-- The entry of a target layer blends the layers at these places. -/
theorem blend_eq {sourceLayers : List ℤ} (hne : 0 < sourceLayers.length) (hT : 2 ≤ T)
    {lower upper : ℤ}
    (hlower : sourceLayers[lowerPlace S sourceLayers.length T t]? = some lower)
    (hupper : sourceLayers[upperPlace S sourceLayers.length T t]? = some upper) :
    blend S sourceLayers T t = .ok ⟨lower, upper, AlphaRecommender.roundFour
      (sourcePos S sourceLayers.length T t - lowerPlace S sourceLayers.length T t)⟩ := by
  have hspan : ¬(T : ℤ) - 1 = 0 := by omega
  unfold blend
  rw [if_neg hspan]
  simp only [← natCast_lowerPlace hne hT, ← natCast_upperPlace hne hT, itemAt_natCast hlower,
    itemAt_natCast hupper, Int.cast_natCast]
  rfl

end

theorem toString_nat_injective : Function.Injective (toString : ℕ → String) := by
  intro n n' h
  refine toDigits_ten_injective ?_
  rw [← Nat.toList_repr, ← Nat.toList_repr]
  exact congrArg String.toList h

theorem nodup_names (T : ℕ) :
    (((List.range T).map fun t => (toString t, t)).map Prod.fst).Nodup := by
  rw [List.map_map]
  exact List.nodup_range.map toString_nat_injective

section

variable {S : Type} [Field S] [LinearOrder S] [FloorRing S]
  {sourceLayers : List ℤ} {T : ℕ} {mapping : Dict String (LayerBlend S)}

/-- The mapping has the entry of each target layer, and no other. -/
theorem get?_buildInterpolatedLayerMapping
    (h : buildInterpolatedLayerMapping S sourceLayers T = .ok mapping) {name : String}
    {entry : LayerBlend S} :
    mapping.get? name = some entry ↔
      ∃ t < T, name = toString t ∧ blend S sourceLayers T t = .ok entry := by
  rw [Dict.get?_fill_of_fresh (nodup_names T) (fun _ _ _ => Dict.get?_empty _) h]
  constructor
  · rintro (hempty | ⟨t, hmem, hentry⟩)
    · cases hempty
    · obtain ⟨t', ht', heq⟩ := List.mem_map.mp hmem
      cases heq
      cases hblend : blend S sourceLayers T t with
      | error e =>
        rw [hblend] at hentry
        cases hentry
      | ok entry' =>
        rw [hblend] at hentry
        cases hentry
        exact ⟨t, List.mem_range.mp ht', rfl, hblend⟩
  · rintro ⟨t, ht, rfl, hblend⟩
    refine Or.inr ⟨t, List.mem_map.mpr ⟨t, List.mem_range.mpr ht, rfl⟩, ?_⟩
    rw [hblend]
    rfl

/-- If every target layer has an entry, the loop returns. -/
theorem buildInterpolatedLayerMapping_returns
    (h : ∀ t < T, ∃ entry, blend S sourceLayers T t = .ok entry) :
    ∃ mapping, buildInterpolatedLayerMapping S sourceLayers T = .ok mapping := by
  refine Dict.fill_ok_iff.mpr fun name t hmem => ?_
  obtain ⟨t', ht', heq⟩ := List.mem_map.mp hmem
  cases heq
  obtain ⟨entry, hentry⟩ := h t (List.mem_range.mp ht')
  exact ⟨some entry, by rw [hentry]; rfl⟩

end

/-! ### The whole mapping -/

/-- Target layer `t` is blended from the layers at the neighbouring places `p`
and `q`, which surround its position. -/
structure BlendsAt {S : Type} [Field S] [LinearOrder S] [FloorRing S] (sourceLayers : List ℤ)
    (T : ℕ) (mapping : Dict String (LayerBlend S)) (t p q : ℕ) (alpha : S) : Prop where
  entry : ∃ lower upper, sourceLayers[p]? = some lower ∧ sourceLayers[q]? = some upper ∧
    mapping.get? (toString t) = some ⟨lower, upper, AlphaRecommender.roundFour alpha⟩
  ordered : p ≤ q
  inside : q ≤ sourceLayers.length - 1
  neighbours : q - p ≤ 1
  alpha_nonneg : 0 ≤ alpha
  alpha_lt_one : alpha < 1
  position : (p : S) + alpha = t * ((sourceLayers.length : S) - 1) / ((T : S) - 1)

/-- The mapping interpolates: places and alphas for every target layer, in
order, from the first source layer to the last. -/
structure Interpolates {S : Type} [Field S] [LinearOrder S] [FloorRing S]
    (sourceLayers : List ℤ) (T : ℕ) (mapping : Dict String (LayerBlend S)) (p q : ℕ → ℕ)
    (alpha : ℕ → S) : Prop where
  blends : ∀ t < T, BlendsAt sourceLayers T mapping t (p t) (q t) (alpha t)
  mono : ∀ t t', t ≤ t' → t' < T → p t ≤ p t' ∧ q t ≤ q t'
  first : p 0 = 0 ∧ q 0 = 0 ∧ alpha 0 = 0
  last : p (T - 1) = sourceLayers.length - 1 ∧ q (T - 1) = sourceLayers.length - 1 ∧
    alpha (T - 1) = 0

section

variable {S : Type} [Field S] [LinearOrder S] [FloorRing S] [IsStrictOrderedRing S]
  {sourceLayers : List ℤ} {T t : ℕ} {mapping : Dict String (LayerBlend S)}

variable (S) in
/-- How far a target layer stands above its lower layer. -/
def alphaAt (sourceLayers : List ℤ) (T t : ℕ) : S :=
  sourcePos S sourceLayers.length T t - lowerPlace S sourceLayers.length T t

theorem alphaAt_eq (hne : 0 < sourceLayers.length) (hT : 2 ≤ T) :
    alphaAt S sourceLayers T t = Int.fract (sourcePos S sourceLayers.length T t) := by
  rw [alphaAt, Int.fract, ← natCast_lowerPlace hne hT, Int.cast_natCast]

variable (S) in
/-- Both layers are in the list. -/
theorem layers_found (hne : 0 < sourceLayers.length) (hT : 2 ≤ T) (ht : t < T) :
    ∃ lower upper, sourceLayers[lowerPlace S sourceLayers.length T t]? = some lower ∧
      sourceLayers[upperPlace S sourceLayers.length T t]? = some upper := by
  have hupper := upperPlace_lt (S := S) hne hT ht
  have hlower := (lowerPlace_le_upperPlace (S := S) (t := t) hne hT).trans_lt hupper
  exact ⟨_, _, List.getElem?_eq_getElem hlower, List.getElem?_eq_getElem hupper⟩

theorem blendsAt (hne : 0 < sourceLayers.length) (hT : 2 ≤ T)
    (h : buildInterpolatedLayerMapping S sourceLayers T = .ok mapping) (ht : t < T) :
    BlendsAt sourceLayers T mapping t (lowerPlace S sourceLayers.length T t)
      (upperPlace S sourceLayers.length T t) (alphaAt S sourceLayers T t) := by
  obtain ⟨lower, upper, hlower, hupper⟩ := layers_found S hne hT ht
  have hentry := (get?_buildInterpolatedLayerMapping h).mpr
    ⟨t, ht, rfl, blend_eq hne hT hlower hupper⟩
  have hinside := upperPlace_lt (S := S) hne hT ht
  have hneighbours := upperPlace_le_succ (S := S) (t := t) hne hT
  refine ⟨⟨lower, upper, hlower, hupper, hentry⟩, lowerPlace_le_upperPlace hne hT, by omega,
    by omega, ?_, ?_, ?_⟩
  · rw [alphaAt_eq hne hT]
    exact Int.fract_nonneg _
  · rw [alphaAt_eq hne hT]
    exact Int.fract_lt_one _
  · rw [alphaAt, add_sub_cancel, sourcePos_eq]

variable (S) in
/-- Of every list of source layers that is not empty, folded onto two target
layers or more, the mapping interpolates. -/
theorem interpolates (hne : sourceLayers ≠ []) (hT : 2 ≤ T) :
    ∃ mapping, buildInterpolatedLayerMapping S sourceLayers T = .ok mapping ∧
      ∃ p q alpha, Interpolates sourceLayers T mapping p q alpha := by
  have hn : 0 < sourceLayers.length := List.length_pos_iff.mpr hne
  have hblends : ∀ t < T, ∃ entry, blend S sourceLayers T t = .ok entry := by
    intro t ht
    obtain ⟨lower, upper, hlower, hupper⟩ := layers_found S hn hT ht
    exact ⟨_, blend_eq hn hT hlower hupper⟩
  obtain ⟨mapping, hmapping⟩ := buildInterpolatedLayerMapping_returns hblends
  refine ⟨mapping, hmapping, lowerPlace S sourceLayers.length T,
    upperPlace S sourceLayers.length T, alphaAt S sourceLayers T, ?_⟩
  constructor
  · exact fun t ht => blendsAt hn hT hmapping ht
  · exact fun t t' h _ => ⟨lowerPlace_mono hn hT h, upperPlace_mono hn hT h⟩
  · have hfirst := sourcePos_zero (S := S) sourceLayers.length T
    simp only [alphaAt, lowerPlace, upperPlace, hfirst]
    simp
  · -- the last position is a whole number
    have hlast := sourcePos_last (S := S) (n := sourceLayers.length) hT
    rw [show (sourceLayers.length : S) - 1 = ((sourceLayers.length - 1 : ℕ) : S) by
      rw [Nat.cast_sub hn, Nat.cast_one]] at hlast
    simp only [alphaAt, lowerPlace, upperPlace, hlast]
    simp

theorem interpolates_three_onto_five : ∃ mapping,
    buildInterpolatedLayerMapping ℚ [2, 5, 9] 5 = .ok mapping ∧
      ∃ p q alpha, Interpolates [2, 5, 9] 5 mapping p q alpha :=
  interpolates ℚ (by decide) (by decide)

theorem roundFour_nonneg {x : S} (h : 0 ≤ x) : 0 ≤ AlphaRecommender.roundFour x := by
  have hround : 0 ≤ roundHalfEven (x * ((10 : ℕ) : S) ^ 4) :=
    roundHalfEven_nonneg (by positivity)
  unfold AlphaRecommender.roundFour
  positivity

theorem roundFour_le_one {x : S} (h : x ≤ 1) : AlphaRecommender.roundFour x ≤ 1 := by
  have hpow : (0 : S) < ((10 : ℕ) : S) ^ 4 := by positivity
  have hround : roundHalfEven (x * ((10 : ℕ) : S) ^ 4) ≤ ((10 ^ 4 : ℕ) : ℤ) :=
    roundHalfEven_le (by
      rw [Int.cast_natCast, Nat.cast_pow]
      exact mul_le_of_le_one_left hpow.le h)
  rw [AlphaRecommender.roundFour, div_le_one hpow]
  calc ((roundHalfEven (x * ((10 : ℕ) : S) ^ 4) : ℤ) : S) ≤ (((10 ^ 4 : ℕ) : ℤ) : S) :=
        Int.cast_le.mpr hround
    _ = ((10 : ℕ) : S) ^ 4 := by rw [Int.cast_natCast, Nat.cast_pow]

/-- Over increasing source layers, every entry blends two of them in order, and
rounding leaves its alpha between zero and one. -/
theorem entry_between (hsorted : sourceLayers.Pairwise (· < ·)) (hne : sourceLayers ≠ [])
    (hT : 2 ≤ T) (h : buildInterpolatedLayerMapping S sourceLayers T = .ok mapping)
    {name : String} {entry : LayerBlend S} (hentry : mapping.get? name = some entry) :
    entry.lower ∈ sourceLayers ∧ entry.upper ∈ sourceLayers ∧ entry.lower ≤ entry.upper ∧
      0 ≤ entry.alpha ∧ entry.alpha ≤ 1 := by
  obtain ⟨t, ht, rfl, -⟩ := (get?_buildInterpolatedLayerMapping h).mp hentry
  have hblends := blendsAt (List.length_pos_iff.mpr hne) hT h ht
  obtain ⟨lower, upper, hlower, hupper, hget⟩ := hblends.entry
  rw [hentry, Option.some_inj] at hget
  subst hget
  refine ⟨List.mem_of_getElem? hlower, List.mem_of_getElem? hupper, ?_, ?_, ?_⟩
  · obtain ⟨hp, rfl⟩ := List.getElem?_eq_some_iff.mp hlower
    obtain ⟨hq, rfl⟩ := List.getElem?_eq_some_iff.mp hupper
    rcases hblends.ordered.eq_or_lt with heq | hlt
    · simp only [heq, le_refl]
    · exact (List.pairwise_iff_getElem.mp hsorted _ _ hp hq hlt).le
  · exact roundFour_nonneg hblends.alpha_nonneg
  · exact roundFour_le_one hblends.alpha_lt_one.le

end

end LayerFolding
