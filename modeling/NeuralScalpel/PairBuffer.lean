/-
The pair buffer of the structural adapter matches the halves of pairs.

Keys of LoRA tensors are matched by `adapterPairing`: a key's partner is the
other key of its base, the piecewise tests say which keys are eligible, and
`piecewise_max_layers` is the limit.  The adapter that has projected the keys
`seen` of a stream holds the tensors of the keys that wait:

* `projectStructural_waits`, `projectStructural_meets` — the two piecewise
  cases of a call, beside `projectStructural_linear`;
* `Holds` — what counter and buffer are after a part of a stream;
* `Holds.step` — one call returns what the pairing says, and keeps `Holds`.
-/
import NeuralScalpel.CropAndPad
import NeuralScalpel.Pairing

/-! ### Partners -/

/-- The other tensor of a pair. -/
def LoraHalf.other : LoraHalf → LoraHalf
  | .a => .b
  | .b => .a

@[simp] theorem LoraHalf.other_ne (half : LoraHalf) : half.other ≠ half := by
  cases half <;> decide

@[simp] theorem LoraHalf.other_other (half : LoraHalf) : half.other.other = half := by
  cases half <;> rfl

theorem LoraHalf.eq_or_eq_other (half half' : LoraHalf) : half' = half ∨ half' = half.other := by
  cases half <;> cases half' <;> decide

theorem keyHalf_loraKey {base : String} (hbase : PlainBase base) (half : LoraHalf) :
    keyHalf (loraKey base half) = half := by
  unfold keyHalf
  rw [inKey_loraA hbase]
  cases half <;> rfl

/-- A key of the form `<base>.lora_A.weight` or `<base>.lora_B.weight` with a
plain base, as the program reads it back. -/
def LoraKeyed (key : String) : Prop :=
  PlainBase (baseKey key) ∧ loraKey (baseKey key) (keyHalf key) = key

instance (key : String) : Decidable (LoraKeyed key) :=
  inferInstanceAs (Decidable (_ ∧ _))

def isLoraKeyed (key : String) : Bool := decide (LoraKeyed key)

theorem isLoraKeyed_iff {key : String} : isLoraKeyed key = true ↔ LoraKeyed key :=
  decide_eq_true_iff

theorem loraKeyed_loraKey {base : String} (hbase : PlainBase base) (half : LoraHalf) :
    LoraKeyed (loraKey base half) := by
  unfold LoraKeyed
  rw [baseKey_loraKey hbase, keyHalf_loraKey hbase]
  exact ⟨hbase, rfl⟩

/-- The other key of the base. -/
def partnerKey (key : String) : String := loraKey (baseKey key) (keyHalf key).other

theorem partnerKey_loraKey {base : String} (hbase : PlainBase base) (half : LoraHalf) :
    partnerKey (loraKey base half) = loraKey base half.other := by
  unfold partnerKey
  rw [baseKey_loraKey hbase, keyHalf_loraKey hbase]

theorem LoraKeyed.baseKey_partner {key : String} (h : LoraKeyed key) :
    baseKey (partnerKey key) = baseKey key := baseKey_loraKey h.1 _

theorem LoraKeyed.keyHalf_partner {key : String} (h : LoraKeyed key) :
    keyHalf (partnerKey key) = (keyHalf key).other := keyHalf_loraKey h.1 _

theorem LoraKeyed.partner {key : String} (h : LoraKeyed key) : LoraKeyed (partnerKey key) :=
  loraKeyed_loraKey h.1 _

theorem LoraKeyed.partner_partner {key : String} (h : LoraKeyed key) :
    partnerKey (partnerKey key) = key := by
  rw [partnerKey, h.baseKey_partner, h.keyHalf_partner, LoraHalf.other_other, h.2]

theorem LoraKeyed.partner_ne {key : String} (h : LoraKeyed key) : partnerKey key ≠ key := by
  intro heq
  have hhalf := h.keyHalf_partner
  rw [heq] at hhalf
  exact LoraHalf.other_ne _ hhalf.symm

/-- Two LoRA keys of one base are the same or partners. -/
theorem LoraKeyed.eq_or_eq_partner {key : String} (h : LoraKeyed key) (half : LoraHalf) :
    loraKey (baseKey key) half = key ∨ loraKey (baseKey key) half = partnerKey key := by
  rcases LoraHalf.eq_or_eq_other (keyHalf key) half with rfl | rfl
  · exact .inl h.2
  · exact .inr rfl

section Pairing

variable {S : Type}

theorem piecewiseExhausted_mono {adapter : Adapter S} {m n : ℕ} (hle : m ≤ n)
    (h : piecewiseExhausted adapter m = true) : piecewiseExhausted adapter n = true := by
  unfold piecewiseExhausted at h ⊢
  rcases hmax : adapter.piecewiseMaxLayers with _ | limit
  · rw [hmax] at h
    cases h
  · rw [hmax] at h
    have hlimit : limit ≤ (m : ℤ) := of_decide_eq_true h
    exact decide_eq_true (hlimit.trans (Int.ofNat_le.mpr hle))

/-- How the adapter matches keys. -/
def adapterPairing (adapter : Adapter S) : Pairing String where
  partner := partnerKey
  matchable := isLoraKeyed
  eligible := piecewiseEligible adapter
  exhausted := piecewiseExhausted adapter
  matchable_partner h := isLoraKeyed_iff.mpr (isLoraKeyed_iff.mp h).partner
  partner_partner h := (isLoraKeyed_iff.mp h).partner_partner
  partner_ne h := (isLoraKeyed_iff.mp h).partner_ne
  exhausted_mono := piecewiseExhausted_mono

theorem matchable_eq (adapter : Adapter S) :
    (adapterPairing adapter).matchable = isLoraKeyed := by
  simp only [adapterPairing]

theorem matchable_of_loraKeyed (adapter : Adapter S) {key : String} (h : LoraKeyed key) :
    (adapterPairing adapter).matchable key = true := by
  rw [matchable_eq, isLoraKeyed_iff]
  exact h

theorem loraKeyed_of_matchable {adapter : Adapter S} {key : String}
    (h : (adapterPairing adapter).matchable key = true) : LoraKeyed key := by
  rw [matchable_eq, isLoraKeyed_iff] at h
  exact h

/-- Keys the piecewise branch is open to have one base only as the two keys of
a LoRA pair. -/
def DistinctBases (adapter : Adapter S) (stream : List String) : Prop :=
  ∀ key ∈ stream, ∀ key' ∈ stream, piecewiseEligible adapter key = true →
    piecewiseEligible adapter key' = true → baseKey key = baseKey key' →
    key = key' ∨ LoraKeyed key ∧ LoraKeyed key'

/-- LoRA keys of one base and one half are the same. -/
theorem LoraKeyed.eq_of_cell {key key' : String} (h : LoraKeyed key) (h' : LoraKeyed key')
    (hbase : baseKey key = baseKey key') (hhalf : keyHalf key = keyHalf key') : key = key' := by
  rw [← h.2, hbase, hhalf, h'.2]

end Pairing

/-! ### The calls -/

section Calls

variable {R S : Type} [CommRing R]

/-- The tensor of a pair in the buffer. -/
def heldAt (st : AdapterState R S) (base : String) (half : LoraHalf) : Option (ShapedMatrix R) :=
  (st.pairBuffer.get? base).bind fun pair => pair half

/-- A pair of tensors whose product exists. -/
def Composable (pair : LoraHalf → ShapedMatrix R) : Prop := (pair .b).cols = (pair .a).rows

instance (pair : LoraHalf → ShapedMatrix R) : Decidable (Composable pair) :=
  inferInstanceAs (Decidable ((pair .b).cols = (pair .a).rows))

/-- The pair with one tensor given and the other in the buffer. -/
def joinPair (half : LoraHalf) (tensor other : ShapedMatrix R) (half' : LoraHalf) :
    ShapedMatrix R :=
  if half' = half then tensor else other

/-- Both keys of a pair have one target shape. -/
theorem piecewiseTarget_loraKey (g : Geometry) (base : String) (half : LoraHalf) :
    piecewiseTarget g (loraKey base half) = piecewiseTarget g base := by
  unfold piecewiseTarget
  rw [anyInKey_loraKey (by decide) (by cases half <;> decide),
    inKey_loraKey (by decide) (by cases half <;> decide),
    anyInKey_loraKey (by decide) (by cases half <;> decide)]

theorem projectPair_loraKey (torch : Torch R S) (adapter : Adapter S) (base : String)
    (half : LoraHalf) (a b : ShapedMatrix R) :
    projectPair torch adapter (loraKey base half) a b =
      projectPair torch adapter (loraKey base .a) a b := by
  unfold projectPair
  rw [piecewiseTarget_loraKey, piecewiseTarget_loraKey]

@[simp] theorem put_apply (pair : BufferedPair R) (half half' : LoraHalf)
    (tensor : ShapedMatrix R) :
    BufferedPair.put pair half tensor half' = if half' = half then some tensor else pair half' :=
  rfl

theorem heldAt_set (st : AdapterState R S) (base base' : String) (half half' : LoraHalf)
    (tensor : ShapedMatrix R) :
    heldAt { st with
      pairBuffer := st.pairBuffer.set base
        (BufferedPair.put ((st.pairBuffer.get? base).getD fun _ => none) half tensor) }
        base' half' =
      if base' = base ∧ half' = half then some tensor else heldAt st base' half' := by
  unfold heldAt
  simp only [Dict.get?_set]
  by_cases hbase : base' = base
  · subst hbase
    rw [if_pos rfl, Option.bind_some, put_apply]
    by_cases hhalf : half' = half
    · rw [if_pos hhalf, if_pos ⟨rfl, hhalf⟩]
    · rw [if_neg hhalf, if_neg fun h => hhalf h.2]
      cases st.pairBuffer.get? base' <;> rfl
  · rw [if_neg hbase, if_neg fun h => hbase h.1]

theorem heldAt_erase {st st' : AdapterState R S} {base : String}
    (h : st'.pairBuffer = st.pairBuffer.erase base) (base' : String) (half : LoraHalf) :
    heldAt st' base' half = if base' = base then none else heldAt st base' half := by
  unfold heldAt
  rw [h, Dict.get?_erase]
  by_cases hbase : base' = base
  · rw [if_pos hbase, if_pos hbase]
    rfl
  · rw [if_neg hbase, if_neg hbase]

variable [Field S] [LinearOrder S] [MulActionWithZero S R] (torch : Torch R S)
  (adapter : Adapter S)

/-- The tensors written for a complete pair. -/
def pairTensor (base : String) (pair : LoraHalf → ShapedMatrix R) :
    LoraHalf → ShapedMatrix R
  | .a => (projectPair torch adapter (loraKey base .a) (pair .a) (pair .b)).1.scale
      (torch.sqrtScale (adaptiveScale adapter (loraKey base .a)))
  | .b => (projectPair torch adapter (loraKey base .a) (pair .a) (pair .b)).2.scale
      (torch.sqrtScale (adaptiveScale adapter (loraKey base .a)))

def pairEntries (base : String) (pair : LoraHalf → ShapedMatrix R) :
    List (String × ShapedMatrix R) :=
  [(loraKey base .a, pairTensor torch adapter base pair .a),
    (loraKey base .b, pairTensor torch adapter base pair .b)]

variable {torch adapter} {key : String} {st : AdapterState R S}

theorem projectStructural_piecewise (h : takesPiecewise adapter st.piecewiseCounter key = true)
    (tensor : ShapedMatrix R) : projectStructural torch adapter key tensor st =
      bufferHalf torch adapter key tensor (st.warn adapter) := by
  rw [projectStructural_eq, (sameBuffer_warn adapter st).1, if_pos h]

/-- The first tensor of a pair is put into the buffer. -/
theorem bufferHalf_waits (hfree : heldAt st (baseKey key) (keyHalf key).other = none)
    (tensor : ShapedMatrix R) : bufferHalf torch adapter key tensor st =
      .ok .nothing { st with
        pairBuffer := st.pairBuffer.set (baseKey key)
          (BufferedPair.put ((st.pairBuffer.get? (baseKey key)).getD fun _ => none)
            (keyHalf key) tensor) } := by
  have hother : (st.pairBuffer.get? (baseKey key)).getD (fun _ => none) (keyHalf key).other =
      none := by
    unfold heldAt at hfree
    rcases hget : st.pairBuffer.get? (baseKey key) with _ | pair
    · rfl
    · rw [hget] at hfree
      exact hfree
  unfold bufferHalf
  rw [Effect.get_bind]
  rcases hhalf : keyHalf key with _ | _ <;> rw [hhalf] at hother
  · simp only [put_apply, if_pos, reduceCtorEq, if_false]
    rw [show (LoraHalf.b : LoraHalf) = LoraHalf.other .a from rfl, hother]
    rfl
  · simp only [put_apply, if_pos, reduceCtorEq, if_false]
    rw [show (LoraHalf.a : LoraHalf) = LoraHalf.other .b from rfl, hother]
    rfl

/-- The second tensor of a pair takes the first out of the buffer and counts a
pair; the pair is projected if its product exists. -/
theorem bufferHalf_meets (hkey : LoraKeyed key) {other : ShapedMatrix R}
    (hheld : heldAt st (baseKey key) (keyHalf key).other = some other) (tensor : ShapedMatrix R) :
    ∃ st', st'.piecewiseCounter = st.piecewiseCounter + 1 ∧
      st'.pairBuffer = st.pairBuffer.erase (baseKey key) ∧
      bufferHalf torch adapter key tensor st =
        if Composable (joinPair (keyHalf key) tensor other) then
          .ok (.dict (pairEntries torch adapter (baseKey key)
            (joinPair (keyHalf key) tensor other))) st'
        else .error (.runtimeError "mat1 and mat2 shapes cannot be multiplied") st' := by
  obtain ⟨pair, hget, hpair⟩ := Option.bind_eq_some_iff.mp hheld
  have hscale : adaptiveScale adapter key = adaptiveScale adapter (loraKey (baseKey key) .a) := by
    conv_lhs => rw [← hkey.2]
    exact adaptiveScale_loraKey adapter (baseKey key) (keyHalf key) .a
  have hproject : ∀ a b, projectPair torch adapter key a b =
      projectPair torch adapter (loraKey (baseKey key) .a) a b := by
    intro a b
    conv_lhs => rw [← hkey.2]
    exact projectPair_loraKey torch adapter (baseKey key) (keyHalf key) a b
  obtain ⟨st', hrun, hcounter, hbuffer⟩ := getAdaptiveScale_eq adapter key { st with
    piecewiseCounter := st.piecewiseCounter + 1
    pairBuffer := st.pairBuffer.erase (baseKey key) }
  have hput : ∀ half, BufferedPair.put pair (keyHalf key) tensor half =
      some (joinPair (keyHalf key) tensor other half) := by
    intro half
    unfold joinPair
    rcases LoraHalf.eq_or_eq_other (keyHalf key) half with rfl | rfl
    · rw [put_apply, if_pos rfl, if_pos rfl]
    · rw [put_apply, if_neg (LoraHalf.other_ne _), if_neg (LoraHalf.other_ne _), hpair]
  by_cases hcomp : Composable (joinPair (keyHalf key) tensor other)
  · refine ⟨st', hcounter, hbuffer, ?_⟩
    rw [if_pos hcomp]
    unfold bufferHalf
    rw [Effect.get_bind]
    simp only [hget, Option.getD_some, hput, Effect.set_bind]
    have hcols : (joinPair (keyHalf key) tensor other .b).cols =
        (joinPair (keyHalf key) tensor other .a).rows := hcomp
    simp only [ne_eq, hcols, not_true_eq_false, if_false, pure, EStateM.pure, bind, EStateM.bind,
      hrun, hproject, hscale]
    rfl
  · refine ⟨{ st with
      piecewiseCounter := st.piecewiseCounter + 1
      pairBuffer := st.pairBuffer.erase (baseKey key) }, rfl, rfl, ?_⟩
    rw [if_neg hcomp]
    unfold bufferHalf
    rw [Effect.get_bind]
    simp only [hget, Option.getD_some, hput, Effect.set_bind]
    have hcols : ¬(joinPair (keyHalf key) tensor other .b).cols =
        (joinPair (keyHalf key) tensor other .a).rows := hcomp
    simp only [ne_eq, hcols, not_false_eq_true, if_true]
    rfl

/-! ### A part of a stream -/

/-- The two tensors of a base in a stream. -/
def pairOf (tensor : String → ShapedMatrix R) (base : String) (half : LoraHalf) :
    ShapedMatrix R :=
  tensor (loraKey base half)

variable (torch adapter) in
/-- What a call returns, by what happens to its key. -/
def outcome (tensor : String → ShapedMatrix R) (key : String) :
    Pairing.Branch → Except PyError (Projected R)
  | .alone => .ok (.tensor (linearTensor adapter key (tensor key)))
  | .waits => .ok .nothing
  | .meets =>
    if Composable (pairOf tensor (baseKey key)) then
      .ok (.dict (pairEntries torch adapter (baseKey key) (pairOf tensor (baseKey key))))
    else .error (.runtimeError "mat1 and mat2 shapes cannot be multiplied")

end Calls

section Stream

variable {R S : Type} [CommRing R]

/-- Counter and buffer after the keys `seen`, the latest first: the counter
stands at the pairs met unless the limit was reached, and the buffer holds the
tensors of the keys that wait, and of keys left over from before. -/
structure Holds (adapter : Adapter S) (start : ℕ) (tensor : String → ShapedMatrix R)
    (leftover seen : List String) (st : AdapterState R S) : Prop where
  counter : st.piecewiseCounter = start + (adapterPairing adapter).pairs seen ∨
    piecewiseExhausted adapter st.piecewiseCounter = true ∧
      st.piecewiseCounter ≤ start + (adapterPairing adapter).pairs seen
  held_of_waiting : ∀ key ∈ (adapterPairing adapter).waiting start seen,
    heldAt st (baseKey key) (keyHalf key) = some (tensor key)
  of_held : ∀ base half t, heldAt st base half = some t →
    ∃ key, baseKey key = base ∧ keyHalf key = half ∧ t = tensor key ∧
      (key ∈ (adapterPairing adapter).waiting start seen ∨ key ∈ leftover)
  some_held : ∀ base pair, st.pairBuffer.get? base = some pair → ∃ half t, pair half = some t

namespace Holds

variable {adapter : Adapter S} {start : ℕ} {tensor : String → ShapedMatrix R}
  {leftover seen : List String} {st : AdapterState R S}

theorem init : Holds adapter 0 tensor leftover [] (.init : AdapterState R S) where
  counter := .inl rfl
  held_of_waiting _ h := absurd h List.not_mem_nil
  of_held _ _ _ h := by cases h
  some_held _ _ h := by cases h

/-- The limit is reached when it would be without one. -/
theorem exhausted_eq (h : Holds adapter start tensor leftover seen st) :
    piecewiseExhausted adapter st.piecewiseCounter =
      piecewiseExhausted adapter (start + (adapterPairing adapter).pairs seen) := by
  rcases h.counter with heq | ⟨hexh, hle⟩
  · rw [heq]
  · rw [hexh, piecewiseExhausted_mono hle hexh]

theorem takesPiecewise_eq (h : Holds adapter start tensor leftover seen st) (key : String) :
    takesPiecewise adapter st.piecewiseCounter key =
      (adapterPairing adapter).takes start seen key := by
  unfold takesPiecewise Pairing.takes
  rw [h.exhausted_eq]
  rfl

/-- States that count and pair alike hold alike. -/
theorem of_sameBuffer (h : Holds adapter start tensor leftover seen st) {st' : AdapterState R S}
    (hsame : SameBuffer st st') : Holds adapter start tensor leftover seen st' where
  counter := by
    rw [hsame.1]
    exact h.counter
  held_of_waiting key hkey := by
    unfold heldAt
    rw [hsame.2]
    exact h.held_of_waiting key hkey
  of_held base half t ht := by
    unfold heldAt at ht
    rw [hsame.2] at ht
    exact h.of_held base half t ht
  some_held base pair hpair := by
    rw [hsame.2] at hpair
    exact h.some_held base pair hpair

/-- A key projected on its own changes nothing. -/
theorem alone (h : Holds adapter start tensor leftover seen st) {key : String}
    (hb : (adapterPairing adapter).branch start seen key = .alone) :
    Holds adapter start tensor leftover (key :: seen) st := by
  have hwait : (adapterPairing adapter).waiting start (key :: seen) =
      (adapterPairing adapter).waiting start seen := by
    rw [Pairing.waiting_cons, hb]
  refine ⟨?_, ?_, ?_, h.some_held⟩
  · by_cases hmeet : (adapterPairing adapter).Completes seen key
    · -- a pair that is not counted: the limit has been reached
      have hexh : piecewiseExhausted adapter (start + (adapterPairing adapter).pairs seen) =
          true := by
        refine Bool.not_eq_false _ |>.mp fun hlimit => ?_
        rw [Pairing.branch_alone_iff, Pairing.takes_iff.mpr ⟨hmeet.2.1, hlimit⟩] at hb
        cases hb
      rw [← h.exhausted_eq] at hexh
      have hle : st.piecewiseCounter ≤ start + (adapterPairing adapter).pairs seen := by
        rcases h.counter with heq | hle
        · exact heq.le
        · exact hle.2
      exact .inr ⟨hexh, hle.trans (Nat.add_le_add_left Pairing.pairs_le_cons start)⟩
    · rw [Pairing.pairs_cons, if_neg hmeet]
      exact h.counter
  · rw [hwait]
    exact h.held_of_waiting
  · rw [hwait]
    exact h.of_held

/-- A key that waits is put into the buffer. -/
theorem waits (h : Holds adapter start tensor leftover seen st) {key : String}
    (hb : (adapterPairing adapter).branch start seen key = .waits)
    (hbases : ∀ k ∈ seen, piecewiseEligible adapter k = true → baseKey k = baseKey key →
      LoraKeyed k ∧ LoraKeyed key) :
    Holds adapter start tensor leftover (key :: seen) { st with
      pairBuffer := st.pairBuffer.set (baseKey key)
        (BufferedPair.put ((st.pairBuffer.get? (baseKey key)).getD fun _ => none)
          (keyHalf key) (tensor key)) } := by
  have hnot := (Pairing.branch_waits_iff.mp hb).2
  have hwait : (adapterPairing adapter).waiting start (key :: seen) =
      key :: (adapterPairing adapter).waiting start seen := by
    rw [Pairing.waiting_cons, hb]
  refine ⟨?_, ?_, ?_, ?_⟩
  · rw [Pairing.pairs_cons, if_neg hnot]
    exact h.counter
  · rw [hwait]
    intro k hk
    rw [heldAt_set]
    by_cases hsame : baseKey k = baseKey key ∧ keyHalf k = keyHalf key
    · rw [if_pos hsame]
      rcases List.mem_cons.mp hk with rfl | hk
      · rfl
      · obtain ⟨hlora, hlora'⟩ := hbases k (Pairing.mem_of_mem_waiting hk)
          (Pairing.eligible_of_mem_waiting hk) hsame.1
        rw [hlora.eq_of_cell hlora' hsame.1 hsame.2]
    · rw [if_neg hsame]
      rcases List.mem_cons.mp hk with rfl | hk
      · exact absurd ⟨rfl, rfl⟩ hsame
      · exact h.held_of_waiting k hk
  · rw [hwait]
    intro base half t ht
    rw [heldAt_set] at ht
    by_cases hsame : base = baseKey key ∧ half = keyHalf key
    · rw [if_pos hsame] at ht
      cases ht
      exact ⟨key, hsame.1.symm, hsame.2.symm, rfl, .inl List.mem_cons_self⟩
    · rw [if_neg hsame] at ht
      obtain ⟨k, hbase, hhalf, ht, hmem⟩ := h.of_held base half t ht
      exact ⟨k, hbase, hhalf, ht, hmem.imp_left (List.mem_cons_of_mem key)⟩
  · intro base pair hpair
    simp only [Dict.get?_set] at hpair
    by_cases hsame : base = baseKey key
    · rw [if_pos hsame] at hpair
      cases hpair
      exact ⟨keyHalf key, tensor key, if_pos rfl⟩
    · rw [if_neg hsame] at hpair
      exact h.some_held base pair hpair

/-- A key that meets its partner takes it out of the buffer. -/
theorem meets (h : Holds adapter start tensor leftover seen st) {key : String}
    (hfresh : key ∉ seen) (hnodup : seen.Nodup)
    (hb : (adapterPairing adapter).branch start seen key = .meets)
    (hbases : ∀ k ∈ seen, piecewiseEligible adapter k = true → baseKey k = baseKey key →
      LoraKeyed k ∧ LoraKeyed key) {st' : AdapterState R S}
    (hcounter : st'.piecewiseCounter = st.piecewiseCounter + 1)
    (hbuffer : st'.pairBuffer = st.pairBuffer.erase (baseKey key)) :
    Holds adapter start tensor leftover (key :: seen) st' := by
  obtain ⟨htakes, hmeet⟩ := Pairing.branch_meets_iff.mp hb
  have hlimit := (Pairing.takes_iff.mp htakes).2
  have hkey : LoraKeyed key := loraKeyed_of_matchable hmeet.1
  have hwait : (adapterPairing adapter).waiting start (key :: seen) =
      ((adapterPairing adapter).waiting start seen).erase (partnerKey key) := by
    rw [Pairing.waiting_cons, hb]
    rfl
  refine ⟨?_, ?_, ?_, ?_⟩
  · rw [Pairing.pairs_cons, if_pos hmeet, hcounter]
    rcases h.counter with heq | ⟨hexh, -⟩
    · exact .inl (by rw [heq, Nat.add_assoc])
    · rw [h.exhausted_eq] at hexh
      exact absurd hexh (Bool.eq_false_iff.mp hlimit)
  · rw [hwait]
    intro k hk
    have hk' := List.mem_of_mem_erase hk
    have hseen := Pairing.mem_of_mem_waiting hk'
    have hbase : baseKey k ≠ baseKey key := by
      intro hsame
      have hlora := (hbases k hseen (Pairing.eligible_of_mem_waiting hk') hsame).1
      rcases hkey.eq_or_eq_partner (keyHalf k) with heq | heq
      · rw [← hsame, hlora.2] at heq
        exact hfresh (heq ▸ hseen)
      · rw [← hsame, hlora.2] at heq
        exact ((List.Nodup.mem_erase_iff (Pairing.nodup_waiting hnodup)).mp hk).1 heq
    rw [heldAt_erase hbuffer, if_neg hbase]
    exact h.held_of_waiting k hk'
  · rw [hwait]
    intro base half t ht
    rw [heldAt_erase hbuffer] at ht
    by_cases hbase : base = baseKey key
    · rw [if_pos hbase] at ht
      cases ht
    · rw [if_neg hbase] at ht
      obtain ⟨k, hk, hhalf, ht, hmem⟩ := h.of_held base half t ht
      refine ⟨k, hk, hhalf, ht, hmem.imp_left fun hin => ?_⟩
      refine (List.mem_erase_of_ne fun heq => hbase ?_).mpr hin
      rw [← hk, heq, hkey.baseKey_partner]
  · intro base pair hpair
    rw [hbuffer, Dict.get?_erase] at hpair
    by_cases hbase : base = baseKey key
    · rw [if_pos hbase] at hpair
      cases hpair
    · rw [if_neg hbase] at hpair
      exact h.some_held base pair hpair

theorem joinPair_partner {key : String} (hkey : LoraKeyed key) :
    joinPair (keyHalf key) (tensor key) (tensor (partnerKey key)) =
      pairOf tensor (baseKey key) := by
  funext half
  unfold joinPair pairOf
  rcases LoraHalf.eq_or_eq_other (keyHalf key) half with rfl | rfl
  · rw [if_pos rfl, hkey.2]
  · rw [if_neg (LoraHalf.other_ne _)]
    rfl

/-- Nothing is held where the partner of a key that waits would be. -/
theorem heldAt_of_waits {stream later : List String} {key : String}
    (hstream : stream = later ++ key :: seen) (hnodup : stream.Nodup)
    (hstale : ∀ k ∈ leftover, (adapterPairing adapter).Stale stream k)
    (hshared : ∀ k ∈ stream, k ≠ key → piecewiseEligible adapter k = true →
      baseKey k = baseKey key → LoraKeyed k ∧ LoraKeyed key)
    (h : Holds adapter start tensor leftover seen st)
    (hb : (adapterPairing adapter).branch start seen key = .waits) :
    heldAt st (baseKey key) (keyHalf key).other = none := by
  rcases hheld : heldAt st (baseKey key) (keyHalf key).other with _ | t
  · rfl
  · obtain ⟨k, hbase, hhalf, -, hmem⟩ := h.of_held _ _ t hheld
    have hkIn : k ∈ stream ∧ piecewiseEligible adapter k = true := by
      rcases hmem with hin | hin
      · refine ⟨?_, Pairing.eligible_of_mem_waiting hin⟩
        rw [hstream]
        exact List.mem_append_right _ (List.mem_cons_of_mem key (Pairing.mem_of_mem_waiting hin))
      · exact ⟨(hstale k hin).1, (hstale k hin).2.1⟩
    have hne : k ≠ key := by
      rintro rfl
      exact LoraHalf.other_ne _ hhalf.symm
    obtain ⟨hlora, hkey⟩ := hshared k hkIn.1 hne hkIn.2 hbase
    have hpartner : k = partnerKey key := by rw [← hlora.2, hbase, hhalf, partnerKey]
    subst hstream
    obtain ⟨hnot, hnotStale⟩ :=
      Pairing.not_stale_of_waits hnodup (matchable_of_loraKeyed adapter hkey) hb
    rw [hpartner] at hmem
    rcases hmem with hin | hin
    · exact absurd hin hnot
    · exact absurd (hstale _ hin) hnotStale

variable [Field S] [LinearOrder S] [MulActionWithZero S R] {torch : Torch R S}

variable (torch) in
/-- One call returns what the pairing says, and the adapter holds what it says. -/
theorem step {stream later : List String} {key : String} (hstream : stream = later ++ key :: seen)
    (hnodup : stream.Nodup) (hstale : ∀ k ∈ leftover, (adapterPairing adapter).Stale stream k)
    (hdistinct : DistinctBases adapter stream)
    (h : Holds adapter start tensor leftover seen st) :
    ∃ st', Holds adapter start tensor leftover (key :: seen) st' ∧
      projectStructural torch adapter key (tensor key) st =
        Effect.ofExcept (outcome torch adapter tensor key
          ((adapterPairing adapter).branch start seen key)) st' := by
  have hkeyIn : key ∈ stream := hstream ▸ List.mem_append_right _ List.mem_cons_self
  have hseenIn : ∀ k ∈ seen, k ∈ stream := fun k hk =>
    hstream ▸ List.mem_append_right _ (List.mem_cons_of_mem key hk)
  have htakes := h.takesPiecewise_eq key
  have hwarn := h.of_sameBuffer (sameBuffer_warn adapter st)
  have hfresh : key ∉ seen ∧ seen.Nodup := by
    rw [hstream] at hnodup
    exact List.nodup_cons.mp (List.nodup_append.mp hnodup).2.1
  -- a key of the same base that takes the branch is the other key of a pair
  have hshared : piecewiseEligible adapter key = true → ∀ k ∈ stream, k ≠ key →
      piecewiseEligible adapter k = true → baseKey k = baseKey key →
      LoraKeyed k ∧ LoraKeyed key := fun helig k hk hne hkelig hbase =>
    (hdistinct k hk key hkeyIn hkelig helig hbase).resolve_left hne
  have hbases : piecewiseEligible adapter key = true → ∀ k ∈ seen,
      piecewiseEligible adapter k = true → baseKey k = baseKey key →
      LoraKeyed k ∧ LoraKeyed key := fun helig k hk =>
    hshared helig k (hseenIn k hk) fun heq => hfresh.1 (heq ▸ hk)
  rcases hb : (adapterPairing adapter).branch start seen key with _ | _ | _
  · rw [Pairing.branch_alone_iff.mp hb] at htakes
    obtain ⟨st', hrun, hsame⟩ := projectStructural_linear torch htakes (tensor key)
    exact ⟨st', (h.of_sameBuffer hsame).alone hb, hrun⟩
  · have hwaits := Pairing.branch_waits_iff.mp hb
    have helig : piecewiseEligible adapter key = true := (Pairing.takes_iff.mp hwaits.1).1
    rw [hwaits.1] at htakes
    refine ⟨_, hwarn.waits hb (hbases helig), ?_⟩
    rw [projectStructural_piecewise htakes,
      bufferHalf_waits (hwarn.heldAt_of_waits hstream hnodup hstale (hshared helig) hb)]
    rfl
  · have hmeets := Pairing.branch_meets_iff.mp hb
    have helig : piecewiseEligible adapter key = true := (Pairing.takes_iff.mp hmeets.1).1
    rw [hmeets.1] at htakes
    have hkey : LoraKeyed key := loraKeyed_of_matchable hmeets.2.1
    have hheld : heldAt (st.warn adapter) (baseKey key) (keyHalf key).other =
        some (tensor (partnerKey key)) := by
      have hwaiting := hwarn.held_of_waiting _ (Pairing.partner_mem_waiting hfresh.1 hb)
      rw [← hkey.keyHalf_partner, ← hkey.baseKey_partner]
      exact hwaiting
    obtain ⟨st', hcounter, hbuffer, hrun⟩ := bufferHalf_meets hkey hheld (tensor key)
    refine ⟨st', hwarn.meets hfresh.1 hfresh.2 hb (hbases helig) hcounter hbuffer, ?_⟩
    rw [projectStructural_piecewise htakes, hrun, joinPair_partner hkey]
    unfold outcome
    by_cases hcomp : Composable (pairOf tensor (baseKey key))
    · rw [if_pos hcomp, if_pos hcomp]
      rfl
    · rw [if_neg hcomp, if_neg hcomp]
      rfl

end Holds

end Stream
