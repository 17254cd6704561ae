/-
How adaptive scaling enters the update.

In the linear branch both tensors of a pair are multiplied by the scale, so
the update is scaled by its square; in the piecewise branch both are
multiplied by its square root.

* `outputs_cases` — what is written for a key of a stream;
* `scalesOnce_of_piecewise` — a pair projected piecewise is scaled once;
* `scalesOnce_linear_iff` — a pair projected linearly is scaled twice;
* `scalesOnce_iff` — exactly when the update is scaled once.
-/
import NeuralScalpel.PairStream
import Mathlib.Algebra.Module.Torsion.Field

/-- The adapter with adaptive scaling disabled. -/
def Adapter.unscaled {S : Type} (adapter : Adapter S) : Adapter S :=
  { adapter with scalingConfig := { adapter.scalingConfig with enabled := false } }

section Written

variable {R S : Type} [CommRing R] [Field S] [LinearOrder S]

theorem adaptiveScale_unscaled (adapter : Adapter S) (key : String) :
    adaptiveScale adapter.unscaled key = 1 := rfl

variable [MulActionWithZero S R] {torch : Torch R S} {adapter : Adapter S}
  {stream : PairStream R} {outputs : List (String × ShapedMatrix R)}

/-- What is written for a key: its own projection, if it is not matched, and
its share of the projected pair, if both keys are. -/
theorem outputs_cases
    (h : script torch adapter (fun key projected => .ok (projected.entries key)) 0
      stream.tensor [] stream.keys = .ok outputs) {base : String} {half : LoraHalf}
    (hbase : PlainBase base) (hmem : loraKey base half ∈ stream.keys) {v : ShapedMatrix R}
    (hv : (loraKey base half, v) ∈ outputs) :
    (piecewiseAt adapter stream.keys (loraKey base half) = false ∧
        v = linearTensor adapter (loraKey base half) (stream.tensor (loraKey base half))) ∨
      (piecewiseAt adapter stream.keys (loraKey base half) = true ∧
        piecewiseAt adapter stream.keys (loraKey base half.other) = true ∧
        v = pairTensor torch adapter base (pairOf stream.tensor base) half) := by
  have hnodup := List.nodup_reverse.mpr stream.nodup
  obtain ⟨key, projected, written, -, hpost, hin, hcase⟩ :=
    mem_script_cases stream.nodup (fun _ _ _ h => by cases h; rfl) h hv
  cases hpost
  rcases hcase with ⟨rfl, htakes, rfl⟩ | ⟨-, -, -, htakes, rfl⟩
  · rw [takesAt_eq_piecewiseAt] at htakes
    cases List.mem_singleton.mp hin
    exact .inl ⟨htakes, rfl⟩
  · right
    -- a matched key that is written has met its partner
    have hpaired : loraKey base half ∈ (adapterPairing adapter).paired 0 stream.keys.reverse := by
      have hkeys := (perm_outputs h).subset (List.mem_map_of_mem hv)
      rcases List.mem_append.mp hkeys with hsingle | hpaired
      · rw [((Pairing.mem_single_iff hnodup).mp hsingle).2] at htakes
        cases htakes
      · exact hpaired
    obtain ⟨-, -, -, -, hpartner⟩ := (Pairing.mem_paired_iff hnodup).mp hpaired
    have hother : (adapterPairing adapter).partner (loraKey base half) =
        loraKey base half.other := partnerKey_loraKey hbase half
    rw [hother, takesAt_eq_piecewiseAt] at hpartner
    rw [takesAt_eq_piecewiseAt] at htakes
    refine ⟨htakes, hpartner, ?_⟩
    rw [baseKey_loraKey hbase] at hin
    rcases List.mem_pair.mp hin with heq | heq
    · obtain ⟨hk, rfl⟩ := Prod.ext_iff.mp heq
      obtain ⟨-, rfl⟩ := loraKey_inj hk
      rfl
    · obtain ⟨hk, rfl⟩ := Prod.ext_iff.mp heq
      obtain ⟨-, rfl⟩ := loraKey_inj hk
      rfl

/-- A key that is not matched is written. -/
theorem exists_output
    (h : script torch adapter (fun key projected => .ok (projected.entries key)) 0
      stream.tensor [] stream.keys = .ok outputs) {key : String} (hmem : key ∈ stream.keys)
    (hlinear : piecewiseAt adapter stream.keys key = false) : ∃ v, (key, v) ∈ outputs := by
  have hnodup := List.nodup_reverse.mpr stream.nodup
  have hsingle : key ∈ (adapterPairing adapter).single 0 stream.keys.reverse := by
    refine (Pairing.mem_single_iff hnodup).mpr ⟨List.mem_reverse.mpr hmem, ?_⟩
    rw [takesAt_eq_piecewiseAt, hlinear]
  have hkeys := (perm_outputs h).symm.subset (List.mem_append_left _ hsingle)
  obtain ⟨⟨key', v⟩, hv, rfl⟩ := List.mem_map.mp hkeys
  exact ⟨v, hv⟩

end Written

section ScalesOnce

variable {R S : Type} [CommRing R] [Field S] [LinearOrder S] [Algebra S R]

/-- The update written for the base is the scale of its layer times the update
written with scaling disabled. -/
def ScalesOnce (torch : Torch R S) (adapter : Adapter S) (stream : PairStream R)
    (base : String) : Prop :=
  ∀ outputs outputs₀ st st₀, stream.project torch adapter .init = .ok outputs st →
    stream.project torch adapter.unscaled .init = .ok outputs₀ st₀ → ∀ a b a₀ b₀,
    (loraKey base .a, a) ∈ outputs → (loraKey base .b, b) ∈ outputs →
    (loraKey base .a, a₀) ∈ outputs₀ → (loraKey base .b, b₀) ∈ outputs₀ →
    b.mul a = (b₀.mul a₀).scale (adaptiveScale adapter (loraKey base .a))

variable {torch : Torch R S} {adapter : Adapter S} {stream : PairStream R} {base : String}

/-- The scripts of the two passes. -/
theorem scalesOnce_iff_scripts : ScalesOnce torch adapter stream base ↔
    ∀ outputs outputs₀,
      script torch adapter (fun key projected => .ok (projected.entries key)) 0
        stream.tensor [] stream.keys = .ok outputs →
      script torch adapter.unscaled (fun key projected => .ok (projected.entries key)) 0
        stream.tensor [] stream.keys = .ok outputs₀ → ∀ a b a₀ b₀,
      (loraKey base .a, a) ∈ outputs → (loraKey base .b, b) ∈ outputs →
      (loraKey base .a, a₀) ∈ outputs₀ → (loraKey base .b, b₀) ∈ outputs₀ →
      b.mul a = (b₀.mul a₀).scale (adaptiveScale adapter (loraKey base .a)) := by
  obtain ⟨outputs, st, hrun, hscript, -⟩ := project_eq torch adapter stream
  obtain ⟨outputs₀, st₀, hrun₀, hscript₀, -⟩ := project_eq torch adapter.unscaled stream
  constructor
  · intro h outputs' outputs₀' h' h₀'
    rw [hscript] at h'
    rw [hscript₀] at h₀'
    cases h'
    cases h₀'
    exact h outputs outputs₀ st st₀ hrun hrun₀
  · intro h outputs' outputs₀' st' st₀' h' h₀'
    rw [hrun] at h'
    rw [hrun₀] at h₀'
    cases h'
    cases h₀'
    exact h outputs outputs₀ hscript hscript₀

/-- The cropped and padded update, before scaling. -/
def linearUpdate (adapter : Adapter S) (stream : PairStream R) (base : String) :
    ShapedMatrix R :=
  (legacyProject adapter (loraKey base .b) (stream.tensor (loraKey base .b))).mul
    (legacyProject adapter (loraKey base .a) (stream.tensor (loraKey base .a)))

theorem mul_linearTensor (adapter : Adapter S) (stream : PairStream R) (base : String) :
    (linearTensor adapter (loraKey base .b) (stream.tensor (loraKey base .b))).mul
        (linearTensor adapter (loraKey base .a) (stream.tensor (loraKey base .a))) =
      (linearUpdate adapter stream base).scale
        (adaptiveScale adapter (loraKey base .a) * adaptiveScale adapter (loraKey base .a)) := by
  unfold linearTensor
  rw [ShapedMatrix.scale_mul_scale, adaptiveScale_loraKey adapter base .b .a]
  rfl

/-- A pair projected linearly is scaled by the square. -/
theorem scalesOnce_linear_iff (hbase : PlainBase base)
    (hA : loraKey base .a ∈ stream.keys) (hB : loraKey base .b ∈ stream.keys)
    (ha : piecewiseAt adapter stream.keys (loraKey base .a) = false)
    (hb : piecewiseAt adapter stream.keys (loraKey base .b) = false) :
    ScalesOnce torch adapter stream base ↔
      (linearUpdate adapter stream base).scale
          (adaptiveScale adapter (loraKey base .a) * adaptiveScale adapter (loraKey base .a)) =
        (linearUpdate adapter stream base).scale (adaptiveScale adapter (loraKey base .a)) := by
  have hlinear : ∀ {adapter : Adapter S} {outputs : List (String × ShapedMatrix R)}
      {half : LoraHalf} {v : ShapedMatrix R},
      script torch adapter (fun key projected => .ok (projected.entries key)) 0
        stream.tensor [] stream.keys = .ok outputs →
      piecewiseAt adapter stream.keys (loraKey base half) = false →
      loraKey base half ∈ stream.keys → (loraKey base half, v) ∈ outputs →
      v = linearTensor adapter (loraKey base half) (stream.tensor (loraKey base half)) := by
    intro adapter outputs half v h hfalse hmem hv
    rcases outputs_cases h hbase hmem hv with ⟨-, heq⟩ | ⟨htrue, -⟩
    · exact heq
    · rw [hfalse] at htrue
      cases htrue
  have hunscaled : (linearTensor adapter.unscaled (loraKey base .b)
      (stream.tensor (loraKey base .b))).mul (linearTensor adapter.unscaled (loraKey base .a)
        (stream.tensor (loraKey base .a))) = linearUpdate adapter stream base := by
    rw [mul_linearTensor, adaptiveScale_unscaled, mul_one, ShapedMatrix.scale_one]
    rfl
  rw [scalesOnce_iff_scripts]
  constructor
  · intro h
    obtain ⟨outputs, _, _, hscript, -⟩ := project_eq torch adapter stream
    obtain ⟨outputs₀, _, _, hscript₀, -⟩ := project_eq torch adapter.unscaled stream
    obtain ⟨a, hain⟩ := exists_output hscript hA ha
    obtain ⟨b, hbin⟩ := exists_output hscript hB hb
    obtain ⟨a₀, hain₀⟩ := exists_output hscript₀ hA ha
    obtain ⟨b₀, hbin₀⟩ := exists_output hscript₀ hB hb
    have heq := h outputs outputs₀ hscript hscript₀ a b a₀ b₀ hain hbin hain₀ hbin₀
    rw [hlinear hscript ha hA hain, hlinear hscript hb hB hbin, hlinear hscript₀ ha hA hain₀,
      hlinear hscript₀ hb hB hbin₀, mul_linearTensor, hunscaled] at heq
    exact heq
  · intro h outputs outputs₀ hscript hscript₀ a b a₀ b₀ hain hbin hain₀ hbin₀
    rw [hlinear hscript ha hA hain, hlinear hscript hb hB hbin, hlinear hscript₀ ha hA hain₀,
      hlinear hscript₀ hb hB hbin₀, mul_linearTensor, hunscaled]
    exact h

/-- A pair with a key that takes the piecewise branch is scaled once, if it is
written at all. -/
theorem scalesOnce_of_piecewise (hbase : PlainBase base)
    (hA : loraKey base .a ∈ stream.keys) (hB : loraKey base .b ∈ stream.keys)
    (hsqrt : torch.sqrtScale (adaptiveScale adapter (loraKey base .a)) *
      torch.sqrtScale (adaptiveScale adapter (loraKey base .a)) =
        adaptiveScale adapter (loraKey base .a))
    (hone : torch.sqrtScale 1 * torch.sqrtScale 1 = 1)
    (hpiecewise : piecewiseAt adapter stream.keys (loraKey base .a) = true ∨
      piecewiseAt adapter stream.keys (loraKey base .b) = true) :
    ScalesOnce torch adapter stream base := by
  rw [scalesOnce_iff_scripts]
  intro outputs outputs₀ hscript hscript₀ a b a₀ b₀ hain hbin hain₀ hbin₀
  have hboth : ∀ half, piecewiseAt adapter stream.keys (loraKey base half) = true := by
    have hotherA : piecewiseAt adapter stream.keys (loraKey base .a) = true →
        piecewiseAt adapter stream.keys (loraKey base .b) = true := by
      intro htrue
      rcases outputs_cases hscript hbase hA hain with ⟨hfalse, -⟩ | ⟨-, hother, -⟩
      · rw [htrue] at hfalse
        cases hfalse
      · exact hother
    have hotherB : piecewiseAt adapter stream.keys (loraKey base .b) = true →
        piecewiseAt adapter stream.keys (loraKey base .a) = true := by
      intro htrue
      rcases outputs_cases hscript hbase hB hbin with ⟨hfalse, -⟩ | ⟨-, hother, -⟩
      · rw [htrue] at hfalse
        cases hfalse
      · exact hother
    intro half
    cases half with
    | a => exact hpiecewise.elim id hotherB
    | b => exact hpiecewise.elim hotherA id
  have hpair : ∀ {adapter' : Adapter S} {outputs : List (String × ShapedMatrix R)}
      {half : LoraHalf} {v : ShapedMatrix R},
      script torch adapter' (fun key projected => .ok (projected.entries key)) 0
        stream.tensor [] stream.keys = .ok outputs →
      piecewiseAt adapter' stream.keys (loraKey base half) = true →
      loraKey base half ∈ stream.keys → (loraKey base half, v) ∈ outputs →
      v = pairTensor torch adapter' base (pairOf stream.tensor base) half := by
    intro adapter' outputs half v h htrue hmem hv
    rcases outputs_cases h hbase hmem hv with ⟨hfalse, -⟩ | ⟨-, -, heq⟩
    · rw [htrue] at hfalse
      cases hfalse
    · exact heq
  rw [hpair hscript (hboth .a) hA hain, hpair hscript (hboth .b) hB hbin,
    hpair hscript₀ (hboth .a) hA hain₀, hpair hscript₀ (hboth .b) hB hbin₀]
  simp only [pairTensor]
  rw [ShapedMatrix.scale_mul_scale, hsqrt, adaptiveScale_unscaled, ShapedMatrix.scale_mul_scale,
    hone, ShapedMatrix.scale_one]
  rfl

omit [Field S] [LinearOrder S] [Algebra S R] in
/-- The unscaled update, where both models have room for it. -/
theorem entry_linearUpdate {m : StandardModule} (hbase : NamesModule base m)
    (ha : (stream.tensor (loraKey base .a)).cols = m.inFeatures adapter.source)
    (hb : (stream.tensor (loraKey base .b)).rows = m.outFeatures adapter.source) (i j : ℕ) :
    (linearUpdate adapter stream base).entry i j =
      if i < min (m.outFeatures adapter.source) (m.outFeatures adapter.target) ∧
          j < min (m.inFeatures adapter.source) (m.inFeatures adapter.target) then
        ∑ k ∈ Finset.range (min (stream.tensor (loraKey base .b)).cols adapter.targetRank),
          (stream.tensor (loraKey base .b)).entry i k *
            (stream.tensor (loraKey base .a)).entry k j
      else 0 := by
  unfold linearUpdate
  rw [legacyProject_loraA hbase ha, legacyProject_loraB hbase hb,
    ShapedMatrix.entry_mul_resize, ha, hb]

/-- The update is scaled once exactly when a key of the pair takes the
piecewise branch, the scale is zero or one, or the part of the update both
models have room for is zero. -/
theorem scalesOnce_iff {m : StandardModule} (hbase : NamesModule base m)
    (hmem : loraKey base .a ∈ stream.keys)
    (ha : (stream.tensor (loraKey base .a)).cols = m.inFeatures adapter.source)
    (hb : (stream.tensor (loraKey base .b)).rows = m.outFeatures adapter.source)
    (hsqrt : torch.sqrtScale (adaptiveScale adapter (loraKey base .a)) *
      torch.sqrtScale (adaptiveScale adapter (loraKey base .a)) =
        adaptiveScale adapter (loraKey base .a))
    (hone : torch.sqrtScale 1 * torch.sqrtScale 1 = 1) :
    ScalesOnce torch adapter stream base ↔
      (piecewiseAt adapter stream.keys (loraKey base .a) = true ∨
        piecewiseAt adapter stream.keys (loraKey base .b) = true) ∨
      adaptiveScale adapter (loraKey base .a) = 0 ∨ adaptiveScale adapter (loraKey base .a) = 1 ∨
      ∀ i < min (m.outFeatures adapter.source) (m.outFeatures adapter.target),
        ∀ j < min (m.inFeatures adapter.source) (m.inFeatures adapter.target),
          ∑ k ∈ Finset.range
              (min (stream.tensor (loraKey base .b)).cols adapter.targetRank),
            (stream.tensor (loraKey base .b)).entry i k *
              (stream.tensor (loraKey base .a)).entry k j = 0 := by
  have hmemB : loraKey base .b ∈ stream.keys := stream.whole base .a hmem
  by_cases hpiecewise : piecewiseAt adapter stream.keys (loraKey base .a) = true ∨
      piecewiseAt adapter stream.keys (loraKey base .b) = true
  · exact ⟨fun _ => .inl hpiecewise, fun _ =>
      scalesOnce_of_piecewise hbase.plain hmem hmemB hsqrt hone hpiecewise⟩
  · obtain ⟨hfalseA, hfalseB⟩ := not_or.mp hpiecewise
    rw [or_iff_right hpiecewise, scalesOnce_linear_iff hbase.plain hmem hmemB
      (Bool.eq_false_iff.mpr hfalseA) (Bool.eq_false_iff.mpr hfalseB)]
    generalize adaptiveScale adapter (loraKey base .a) = s
    have hscale : ∀ x : R, (s * s) • x = s • x ↔ s = 0 ∨ s = 1 ∨ x = 0 := by
      intro x
      rw [← sub_eq_zero, ← sub_smul, smul_eq_zero, ← mul_sub_one, mul_eq_zero, sub_eq_zero,
        or_assoc]
    constructor
    · intro h
      by_cases hzero : s = 0
      · exact .inl hzero
      · by_cases hone : s = 1
        · exact .inr (.inl hone)
        · refine .inr (.inr fun i hi j hj => ?_)
          have heq : (s * s) • (linearUpdate adapter stream base).entry i j =
              s • (linearUpdate adapter stream base).entry i j := by
            have hcongr := congrArg (fun M : ShapedMatrix R => M.entry i j) h
            exact hcongr
          rw [hscale, or_iff_right hzero, or_iff_right hone, entry_linearUpdate hbase ha hb,
            if_pos ⟨hi, hj⟩] at heq
          exact heq
    · intro h
      refine ShapedMatrix.ext rfl rfl fun i j => ?_
      rw [ShapedMatrix.entry_scale, ShapedMatrix.entry_scale, hscale]
      refine h.imp_right fun h => h.imp_right fun h => ?_
      rw [entry_linearUpdate hbase ha hb]
      split
      · next hin => exact h i hin.1 j hin.2
      · rfl

end ScalesOnce

/-! ### One pair -/

/-- The keys of an up projection. -/
def singleKeys : List String :=
  [loraKey "layers.0.mlp.up_proj" .a, loraKey "layers.0.mlp.up_proj" .b]

def singleStream : PairStream ℚ where
  keys := singleKeys
  tensor := upTensor
  nodup := by decide
  lora := by
    intro key hkey
    rcases List.mem_pair.mp hkey with rfl | rfl
    · exact ⟨_, _, by decide, rfl⟩
    · exact ⟨_, _, by decide, rfl⟩
  whole := by
    intro base half h
    rcases List.mem_pair.mp h with h | h
    · obtain ⟨rfl, rfl⟩ := loraKey_inj h
      exact List.mem_cons_of_mem _ List.mem_cons_self
    · obtain ⟨rfl, rfl⟩ := loraKey_inj h
      exact List.mem_cons_self
  one_rank := by
    intro base half h
    rcases List.mem_pair.mp h with h | h
    · obtain ⟨rfl, rfl⟩ := loraKey_inj h
      decide
    · obtain ⟨rfl, rfl⟩ := loraKey_inj h
      decide

/-- A report that names the first layer an outlier. -/
def outlierHealth : DeltaHealth ℚ := ⟨"HEALTHY", 1, ["Layer 0"]⟩

/-- The pair at scale one quarter, projected linearly: the update is scaled by
one sixteenth. -/
theorem linear_scales_twice :
    ¬ScalesOnce sampleTorch (sampleAdapter "linear" (some outlierHealth)) singleStream
      "layers.0.mlp.up_proj" := by
  rw [scalesOnce_linear_iff (by decide) (by decide) (by decide) (by decide) (by decide)]
  intro h
  have hentry := congrArg (fun M : ShapedMatrix ℚ => M.entry 0 0) h
  revert hentry
  decide +kernel

/-- The same pair projected piecewise is scaled once. -/
theorem piecewise_scales_once :
    ScalesOnce sampleTorch (sampleAdapter "piecewise" (some outlierHealth)) singleStream
      "layers.0.mlp.up_proj" :=
  (scalesOnce_iff namesModule_up (by decide) (by decide) (by decide) (by decide +kernel)
    (by decide +kernel)).mpr (.inl (.inl (by decide)))
