/-
The order of the elements of a Q4_0 block.

Each of the sixteen bytes of a block holds two numbers of four bits.  GGML
stores the first half of the block in the low nibbles and the second half in
the high ones; the decoder puts the two nibbles of a byte side by side, and
rounds the products with the scale to half precision.

* `GGUFBridge.GgmlOrder` — where the elements belong;
* `GGUFBridge.dequantizeTorch_q40` — where the decoder puts them;
* `GGUFBridge.toHalf_q40Element_iff` — when a rounded element is one that belongs
  there;
* `GGUFBridge.ggmlOrder_dequantized_iff` — exactly when all are.
-/
import NeuralScalpel.BlockDecoding
import NeuralScalpel.FloatFormat
import NeuralScalpel.Tensor
import Mathlib.Tactic.Ring

namespace Scalar

def mul : Scalar → Scalar → Scalar
  | nan, _ => nan
  | _, nan => nan
  | inf b, inf b' => inf (b ^^ b')
  | inf b, finite q => if q = 0 then nan else inf (b ^^ decide (q < 0))
  | finite p, inf b => if p = 0 then nan else inf (decide (p < 0) ^^ b)
  | finite p, finite q => finite (p * q)

theorem mul_comm' (a b : Scalar) : mul a b = mul b a := by
  cases a with
  | nan => cases b <;> rfl
  | finite p =>
    cases b with
    | nan => rfl
    | finite q => exact congrArg finite (Rat.mul_comm p q)
    | inf b => simp only [mul, Bool.xor_comm]
  | inf a =>
    cases b with
    | nan => rfl
    | finite q => simp only [mul, Bool.xor_comm]
    | inf b => simp only [mul, Bool.xor_comm]

/-- `.to(torch.float16)`. -/
def toHalf : Scalar → Scalar
  | finite q =>
    if FloatFormat.half.Overflows q then inf (decide (q < 0))
    else finite (FloatFormat.half.nearest q)
  | inf b => inf b
  | nan => nan

theorem toHalf_zero : toHalf (finite 0) = finite 0 := by
  have hexact := FloatFormat.half.nearest_zero
  have hfits : ¬FloatFormat.half.Overflows 0 := by
    rw [FloatFormat.Overflows, hexact, abs_zero, not_lt]
    exact Nat.cast_nonneg 65504
  rw [toHalf, if_neg hfits, hexact]

end Scalar

namespace GGUFBridge

/-- A block as it is stored. -/
structure Q40Block where
  scale₀ : UInt8
  scale₁ : UInt8
  ys : List UInt8
  length_ys : ys.length = 16

def Q40Block.bytes (block : Q40Block) : List UInt8 := block.scale₀ :: block.scale₁ :: block.ys

theorem Q40Block.length_bytes (block : Q40Block) : block.bytes.length = 18 := by
  rw [bytes, List.length_cons, List.length_cons, block.length_ys]

def lowNibble (y : UInt8) : ℕ := y.toNat % 16

def highNibble (y : UInt8) : ℕ := y.toNat / 16

/-- The nibbles of a block, byte by byte. -/
def Q40Block.bytewise (block : Q40Block) : List ℕ :=
  block.ys.flatMap fun y => [lowNibble y, highNibble y]

/-- All low nibbles, then all high ones. -/
def Q40Block.halfwise (block : Q40Block) : List ℕ :=
  block.ys.map lowNibble ++ block.ys.map highNibble

theorem Q40Block.length_bytewise (block : Q40Block) : block.bytewise.length = 32 := by
  rw [bytewise, length_flatMap_of_forall (k := 2) fun _ _ => rfl, block.length_ys]

theorem Q40Block.length_halfwise (block : Q40Block) : block.halfwise.length = 32 := by
  rw [halfwise, List.length_append, List.length_map, List.length_map, block.length_ys]

/-- The first half comes from low nibbles. -/
theorem Q40Block.getElem?_halfwise_low {block : Q40Block} {j : ℕ} {y : UInt8}
    (hy : block.ys[j]? = some y) : block.halfwise[j]? = some (lowNibble y) := by
  have hj : j < block.ys.length := (List.getElem?_eq_some_iff.mp hy).1
  rw [halfwise, List.getElem?_append_left (by rw [List.length_map]; exact hj), List.getElem?_map,
    hy, Option.map_some]

/-- The second half comes from high ones. -/
theorem Q40Block.getElem?_halfwise_high {block : Q40Block} {j : ℕ} {y : UInt8}
    (hy : block.ys[j]? = some y) : block.halfwise[16 + j]? = some (highNibble y) := by
  have hlen : (block.ys.map lowNibble).length = 16 := by rw [List.length_map, block.length_ys]
  rw [halfwise, List.getElem?_append_right (by rw [hlen]; omega), hlen, Nat.add_sub_cancel_left,
    List.getElem?_map, hy, Option.map_some]

/-- Taking eight from a nibble does not leave the signed bytes. -/
theorem toInt_nibbles (y : UInt8) :
    ((y &&& 0x0F).toInt8 - 8).toInt = (lowNibble y : ℤ) - 8 ∧
      ((y >>> 4).toInt8 - 8).toInt = (highNibble y : ℤ) - 8 := by
  have hall : ∀ n < 256,
      (((UInt8.ofNat n) &&& 0x0F).toInt8 - 8).toInt = (lowNibble (.ofNat n) : ℤ) - 8 ∧
        (((UInt8.ofNat n) >>> 4).toInt8 - 8).toInt = (highNibble (.ofNat n) : ℤ) - 8 := by
    decide +kernel
  have hy := hall y.toNat y.toNat_lt
  rwa [UInt8.ofNat_toNat] at hy

theorem Q40Block.lt_of_mem_bytewise {block : Q40Block} {n : ℕ} (h : n ∈ block.bytewise) :
    n < 16 := by
  obtain ⟨y, -, hn⟩ := List.mem_flatMap.mp h
  have hy := y.toNat_lt
  simp only [List.mem_cons, List.not_mem_nil, or_false, lowNibble, highNibble] at hn
  omega

/-- The element a nibble stands for. -/
def q40Element (d : Scalar) (nibble : ℕ) : Scalar := d.mul (.finite (((nibble : ℤ) - 8 : ℤ)))

/-- The elements of each block in the order of GGML. -/
def GgmlOrder (scale : Q40Block → Scalar) (blocks : List Q40Block) (elements : List Scalar) :
    Prop :=
  ∀ b block, blocks[b]? = some block → ∀ j y, block.ys[j]? = some y →
    elements[32 * b + j]? = some (q40Element (scale block) (lowNibble y)) ∧
      elements[32 * b + 16 + j]? = some (q40Element (scale block) (highNibble y))

/-- The order of GGML determines the elements. -/
theorem ggmlOrder_iff {scale : Q40Block → Scalar} {blocks : List Q40Block}
    {elements : List Scalar} (hlen : elements.length = 32 * blocks.length) :
    GgmlOrder scale blocks elements ↔
      elements = blocks.flatMap fun block => block.halfwise.map (q40Element (scale block)) := by
  have hblock : ∀ block ∈ blocks,
      (block.halfwise.map (q40Element (scale block))).length = 32 := by
    intro block _
    rw [List.length_map, block.length_halfwise]
  constructor
  · intro h
    refine List.ext_getElem? fun n => ?_
    obtain ⟨b, r, hr, rfl⟩ : ∃ b r, r < 32 ∧ n = 32 * b + r :=
      ⟨n / 32, n % 32, by omega, by omega⟩
    rw [getElem?_flatMap hblock hr]
    rcases hb : blocks[b]? with _ | block
    · rw [List.getElem?_eq_none_iff] at hb
      rw [Option.bind_none, List.getElem?_eq_none_iff]
      omega
    · have hys := block.length_ys
      rw [Option.bind_some, List.getElem?_map]
      by_cases hhalf : r < 16
      · obtain ⟨y, hy⟩ : ∃ y, block.ys[r]? = some y :=
          ⟨_, List.getElem?_eq_getElem (hys ▸ hhalf)⟩
        rw [(h b block hb r y hy).1, Q40Block.getElem?_halfwise_low hy, Option.map_some]
      · obtain ⟨j, rfl⟩ : ∃ j, r = 16 + j := ⟨r - 16, by omega⟩
        have hj : j < block.ys.length := by omega
        obtain ⟨y, hy⟩ : ∃ y, block.ys[j]? = some y := ⟨_, List.getElem?_eq_getElem hj⟩
        rw [← Nat.add_assoc, (h b block hb j y hy).2, Q40Block.getElem?_halfwise_high hy,
          Option.map_some]
  · rintro rfl b block hb j y hy
    have hj : j < 16 := block.length_ys ▸ (List.getElem?_eq_some_iff.mp hy).1
    constructor
    · rw [getElem?_flatMap hblock (by omega), hb, Option.bind_some, List.getElem?_map,
        Q40Block.getElem?_halfwise_low hy, Option.map_some]
    · rw [Nat.add_assoc, getElem?_flatMap hblock (by omega), hb, Option.bind_some,
        List.getElem?_map, Q40Block.getElem?_halfwise_high hy, Option.map_some]

/-! ### Rounded elements -/

section

variable {d : ℚ} {n m : ℕ}

/-- A scale that is not zero is at least the least number. -/
theorem le_abs_decodeHalf {b₀ b₁ : UInt8} (h : decodeHalf b₀ b₁ ≠ 0) :
    (2 : ℚ) ^ FloatFormat.half.leastExponent ≤ |decodeHalf b₀ b₁| := by
  set bits := b₁.toNat * 256 + b₀.toNat with hbits
  obtain ⟨magnitude, hmagnitude⟩ : ∃ magnitude : ℚ, magnitude =
      if bits / 1024 % 32 = 0 then ((bits % 1024 : ℕ) : ℚ) / 2 ^ 24
      else (1024 + ((bits % 1024 : ℕ) : ℚ)) * 2 ^ (bits / 1024 % 32) / 2 ^ 25 := ⟨_, rfl⟩
  have hdecode : decodeHalf b₀ b₁ = if bits / 32768 = 1 then -magnitude else magnitude := by
    rw [decodeHalf, ← hbits, hmagnitude]
  have habs : |decodeHalf b₀ b₁| = |magnitude| := by
    rw [hdecode]
    split_ifs
    · exact abs_neg magnitude
    · rfl
  have hne : magnitude ≠ 0 := abs_ne_zero.mp (habs ▸ abs_ne_zero.mpr h)
  rw [habs, show (2 : ℚ) ^ FloatFormat.half.leastExponent = 1 / 2 ^ 24 by
    norm_num [FloatFormat.half]]
  refine le_trans ?_ (le_abs_self magnitude)
  rw [hmagnitude] at hne ⊢
  split_ifs at hne ⊢ with hexponent
  · -- a subnormal number is a multiple of the least one
    have hmantissa : bits % 1024 ≠ 0 := fun hzero => hne (by rw [hzero]; simp)
    have hone : (1 : ℚ) ≤ (bits % 1024 : ℕ) := by
      exact_mod_cast Nat.one_le_iff_ne_zero.mpr hmantissa
    exact div_le_div_of_nonneg_right hone (by positivity)
  · have hpow : (2 : ℚ) ≤ 2 ^ (bits / 1024 % 32) := le_self_pow₀ (by norm_num) hexponent
    have hmantissa : (0 : ℚ) ≤ (bits % 1024 : ℕ) := Nat.cast_nonneg _
    rw [div_le_div_iff₀ (by positivity) (by positivity)]
    nlinarith

/-- A scale that is a number: the rounded product is the product with another
nibble only if that is the same nibble, and the product needs no rounding. -/
theorem toHalf_finite_iff (hd : (2 : ℚ) ^ FloatFormat.half.leastExponent ≤ |d|) (hn : n < 16) :
    (q40Element (.finite d) n).toHalf = q40Element (.finite d) m ↔
      n = m ∧ FloatFormat.half.IsExact (d * ((n : ℤ) - 8 : ℤ)) := by
  obtain ⟨x, hx⟩ : ∃ x : ℚ, x = d * ((n : ℤ) - 8 : ℤ) := ⟨_, rfl⟩
  have helement : q40Element (.finite d) n = .finite x := congrArg Scalar.finite hx.symm
  have hdpos : 0 < |d| := lt_of_lt_of_le (zpow_pos (by norm_num) _) hd
  rw [helement, ← hx]
  constructor
  · intro h
    by_cases hover : FloatFormat.half.Overflows x
    · rw [Scalar.toHalf, if_pos hover] at h
      cases h
    · rw [Scalar.toHalf, if_neg hover] at h
      have hnearest : FloatFormat.half.nearest x = d * ((m : ℤ) - 8 : ℤ) :=
        Scalar.finite.inj h
      have hsmall : |x| < 2 ^ FloatFormat.half.digits * |d| := by
        have hfactor : |(((n : ℤ) - 8 : ℤ) : ℚ)| ≤ 8 := by
          rw [← Int.cast_abs]
          exact_mod_cast (show |(n : ℤ) - 8| ≤ 8 by rw [abs_le]; omega)
        rw [hx, abs_mul, mul_comm]
        refine mul_lt_mul_of_pos_right (hfactor.trans_lt ?_) hdpos
        norm_num [FloatFormat.half]
      -- rounding moves the product by less than a step of the scale
      have hmove := FloatFormat.half.abs_nearest_sub_lt hd hsmall
      rw [hnearest, hx, ← mul_sub, abs_mul] at hmove
      have hstep : |((m : ℤ) - 8 : ℤ) - (((n : ℤ) - 8 : ℤ) : ℚ)| < 1 := by
        by_contra hge
        exact absurd hmove (not_lt.mpr (le_mul_of_one_le_right hdpos.le (not_lt.mp hge)))
      rw [← Int.cast_sub, ← Int.cast_abs] at hstep
      have hint : |((m : ℤ) - 8) - ((n : ℤ) - 8)| < 1 := by exact_mod_cast hstep
      have hnm : n = m := by
        rw [abs_lt] at hint
        omega
      refine ⟨hnm, ?_, hover⟩
      rw [hnearest, hx, hnm]
  · rintro ⟨rfl, hexact, hover⟩
    rw [Scalar.toHalf, if_neg hover, hexact, helement]

/-- An infinite scale: the product tells only on which side of eight the nibble is. -/
def infiniteElement (b : Bool) : Ordering → Scalar
  | .lt => .inf (!b)
  | .eq => .nan
  | .gt => .inf b

theorem infiniteElement_injective (b : Bool) : Function.Injective (infiniteElement b) := by
  intro o o' h
  cases b <;> cases o <;> cases o' <;> first | rfl | cases h

theorem q40Element_inf (b : Bool) (n : ℕ) :
    q40Element (.inf b) n = infiniteElement b (compare n 8) := by
  rw [q40Element, Scalar.mul]
  rcases lt_trichotomy n 8 with hlt | rfl | hgt
  · have hneg : (((n : ℤ) - 8 : ℤ) : ℚ) < 0 := by exact_mod_cast (by omega : (n : ℤ) - 8 < 0)
    rw [if_neg hneg.ne, decide_eq_true hneg, compare_lt_iff_lt.mpr hlt, Bool.xor_true]
    rfl
  · rfl
  · have hpos : (0 : ℚ) < ((n : ℤ) - 8 : ℤ) := by exact_mod_cast (by omega : (0 : ℤ) < n - 8)
    rw [if_neg hpos.ne', decide_eq_false hpos.not_gt, compare_gt_iff_gt.mpr hgt, Bool.xor_false]
    rfl

theorem map_eq_map_iff_of_forall {f g : ℕ → Scalar} {P : ℕ → Prop} {l l' : List ℕ}
    (h : ∀ n ∈ l, ∀ m, f n = g m ↔ n = m ∧ P n) :
    l.map f = l'.map g ↔ l = l' ∧ ∀ n ∈ l, P n := by
  induction l generalizing l' with
  | nil =>
    cases l' with
    | nil => simp
    | cons m l' => simp
  | cons n l ih =>
    cases l' with
    | nil => simp
    | cons m l' =>
      rw [List.map_cons, List.map_cons, List.cons.injEq, List.cons.injEq, List.forall_mem_cons,
        h n List.mem_cons_self m, ih fun n' hn' => h n' (List.mem_cons_of_mem _ hn')]
      tauto

end

/-! ### The decoder -/

/-- The number two bytes stand for; the greatest exponent is that of the
infinities and of NaN. -/
def decodeFloat16 (b₀ b₁ : UInt8) : Scalar :=
  let bits := b₁.toNat * 256 + b₀.toNat
  if bits / 1024 % 32 = 31 then
    if bits % 1024 = 0 then .inf (bits / 32768 = 1) else .nan
  else .finite (decodeHalf b₀ b₁)

/-- The scale of a block. -/
def Q40Block.scale (block : Q40Block) : Scalar := decodeFloat16 block.scale₀ block.scale₁

/-- Decoding in floats, whatever arithmetic has quantised.  A scale has eleven
digits and what it is multiplied by at most four, so the product in single
precision is exact. -/
def decodingArith (arith : FloatArith Scalar) : FloatArith Scalar :=
  { arith with
    ofRat := .finite
    mul := .mul
    ofInt8 := fun q => .finite q.toInt
    ofHalfBytes := decodeFloat16
    roundHalf := .toHalf }

/-- The two orders read the same elements, and none of them is rounded.  Under
an infinite scale only the sides of eight are to be the same, and a scale that
is zero or NaN makes all elements the same. -/
def Q40Block.OrdersAgree (block : Q40Block) : Prop :=
  match block.scale with
  | .nan => True
  | .inf _ => block.bytewise.map (compare · 8) = block.halfwise.map (compare · 8)
  | .finite d => d ≠ 0 → block.bytewise = block.halfwise ∧
      ∀ n ∈ block.bytewise, FloatFormat.half.IsExact (d * ((n : ℤ) - 8 : ℤ))

theorem ordersAgree_iff (block : Q40Block) :
    block.bytewise.map (fun n => (q40Element block.scale n).toHalf) =
      block.halfwise.map (q40Element block.scale) ↔ block.OrdersAgree := by
  have hlen : block.bytewise.length = block.halfwise.length := by
    rw [block.length_bytewise, block.length_halfwise]
  have hsame : ∀ (l l' : List ℕ) (c : Scalar), l.length = l'.length →
      l.map (fun _ => c) = l'.map fun _ => c := fun l l' c h => by
    rw [List.map_const', List.map_const', h]
  unfold Q40Block.OrdersAgree
  rcases hscale : block.scale with d | b | _
  · by_cases hd : d = 0
    · -- every element is zero, and needs no rounding
      have hzero : q40Element (.finite d) = fun _ => .finite 0 := funext fun n =>
        congrArg Scalar.finite (by rw [hd, zero_mul])
      simp only [hzero, Scalar.toHalf_zero]
      exact iff_of_true (hsame _ _ _ hlen) fun hne => absurd hd hne
    · have hdecode : decodeHalf block.scale₀ block.scale₁ = d := by
        simp only [Q40Block.scale, decodeFloat16] at hscale
        split_ifs at hscale
        exact Scalar.finite.inj hscale
      have hleast := le_abs_decodeHalf (hdecode ▸ hd)
      rw [hdecode] at hleast
      rw [map_eq_map_iff_of_forall fun n hn m =>
        toHalf_finite_iff hleast (block.lt_of_mem_bytewise hn)]
      exact (imp_iff_right hd).symm
  · have hround : ∀ n, (q40Element (.inf b) n).toHalf = q40Element (.inf b) n := fun n => by
      rw [q40Element_inf]
      cases compare n 8 <;> rfl
    have helement : q40Element (.inf b) = infiniteElement b ∘ (compare · 8) :=
      funext (q40Element_inf b)
    rw [funext hround, helement, ← List.map_map, ← List.map_map]
    exact (List.map_injective_iff.mpr (infiniteElement_injective b)).eq_iff
  · have hnan : q40Element .nan = fun _ => .nan := rfl
    rw [hnan]
    exact iff_of_true (hsame _ _ _ hlen) trivial

section

variable (arith : FloatArith Scalar)

theorem q40Values_bytes (block : Q40Block) :
    q40Values (decodingArith arith) block.bytes =
      block.bytewise.map (q40Element block.scale) := by
  rw [Q40Block.bytes, q40Values, Q40Block.bytewise, List.map_flatMap]
  refine List.flatMap_congr fun y _ => ?_
  obtain ⟨hlow, hhigh⟩ := toInt_nibbles y
  simp only [decodingArith, hlow, hhigh, List.map_cons, List.map_nil, q40Element, Q40Block.scale]
  rw [Scalar.mul_comm' (decodeFloat16 _ _), Scalar.mul_comm' (decodeFloat16 _ _)]

variable {blocks : List Q40Block} {bytes : NdArray UInt8} {shape : List ℕ}

/-- The decoder reads the nibbles byte by byte, and rounds the elements. -/
theorem dequantizeTorch_q40 (hbytes : bytes.data = blocks.flatMap Q40Block.bytes)
    (hshape : shape.prod = 32 * blocks.length) :
    ∃ loaded, dequantizeTorch (decodingArith arith) (.q40 bytes) shape = .ok loaded ∧
      loaded.shape = shape ∧
      loaded.data = blocks.flatMap fun block =>
        block.bytewise.map fun n => (q40Element block.scale n).toHalf := by
  have hvalues : (blocks.map Q40Block.bytes).flatMap (q40Values (decodingArith arith)) =
      blocks.flatMap fun block => block.bytewise.map (q40Element block.scale) := by
    rw [List.flatMap_map]
    exact List.flatMap_congr fun block _ => q40Values_bytes arith block
  have hlen : (blocks.flatMap fun block =>
      block.bytewise.map (q40Element block.scale)).length = shape.prod := by
    rw [length_flatMap_of_forall (k := 32) fun block _ => by
      rw [List.length_map, block.length_bytewise], hshape, Nat.mul_comm]
  have hrows : ∀ row ∈ blocks.map Q40Block.bytes, row.length = 18 :=
    List.forall_mem_map.mpr fun block _ => block.length_bytes
  obtain ⟨loaded, hload, hloaded, hdata⟩ := dequantizeBlocks_flatten
    (decodingArith arith) (q40Values (decodingArith arith)) (by omega) hrows
    (hbytes.trans List.flatMap_def) shape (by rw [hvalues, hlen])
  refine ⟨loaded, hload, hloaded, ?_⟩
  rw [hdata, hvalues, List.take_of_length_le (by rw [List.length_map, hlen]), List.map_flatMap]
  exact List.flatMap_congr fun block _ => List.map_map

/-- **Elements in the order of GGML.**  The elements of blocks are those of GGML
exactly when in each block the two orders read the same ones, exactly. -/
theorem ggmlOrder_dequantized_iff (hbytes : bytes.data = blocks.flatMap Q40Block.bytes)
    (hshape : shape.prod = 32 * blocks.length) :
    (∃ loaded, dequantizeTorch (decodingArith arith) (.q40 bytes) shape = .ok loaded ∧
        GgmlOrder Q40Block.scale blocks loaded.data) ↔
      ∀ block ∈ blocks, block.OrdersAgree := by
  obtain ⟨loaded, hload, hloaded, hdata⟩ := dequantizeTorch_q40 arith hbytes hshape
  have hlen : loaded.data.length = 32 * blocks.length := by
    rw [loaded.wf, hloaded, hshape]
  have horder : GgmlOrder Q40Block.scale blocks loaded.data ↔
      ∀ block ∈ blocks, block.OrdersAgree := by
    rw [ggmlOrder_iff hlen, hdata, flatMap_eq_flatMap_iff fun block _ => by
      rw [List.length_map, List.length_map, block.length_bytewise, block.length_halfwise]]
    exact forall₂_congr fun block _ => ordersAgree_iff block
  rw [← horder]
  constructor
  · rintro ⟨loaded', hload', h⟩
    cases hload.symm.trans hload'
    exact h
  · intro h
    exact ⟨loaded, hload, h⟩

end

/-! ### Blocks of scale one -/

/-- A block of scale one. -/
def unitBlock (ys : List UInt8) (h : ys.length = 16) : Q40Block := ⟨0x00, 0x3C, ys, h⟩

def unitBytes (ys : List UInt8) (h : ys.length = 16) : NdArray UInt8 :=
  ⟨[18], (unitBlock ys h).bytes, (unitBlock ys h).length_bytes⟩

theorem bytes_unitBytes (ys : List UInt8) (h : ys.length = 16) :
    (unitBytes ys h).data = [unitBlock ys h].flatMap Q40Block.bytes := (List.append_nil _).symm

/-- Arithmetic to quantise with, which decoding does not use. -/
def sampleArith : FloatArith Scalar :=
  let number : Scalar → ℚ
    | .finite q => q
    | _ => 0
  { ofRat := .finite
    add := .add
    mul := .mul
    div := fun x y => .finite (number x / number y)
    abs := fun x => .finite |number x|
    max := fun x y => .finite (max (number x) (number y))
    round := fun x => .finite (roundHalfEven (number x))
    toInt8 := fun x => Int8.ofInt ⌊number x⌋
    ofInt8 := fun q => .finite q.toInt
    halfBytes := fun _ => (0, 0)
    ofHalfBytes := decodeFloat16
    roundHalf := .toHalf }

theorem ones_in_ggmlOrder : ∃ loaded,
    dequantizeTorch (decodingArith sampleArith)
      (.q40 (unitBytes (List.replicate 16 0x99) rfl)) [32] = .ok loaded ∧
      GgmlOrder Q40Block.scale [unitBlock (List.replicate 16 0x99) rfl] loaded.data := by
  refine (ggmlOrder_dequantized_iff _ (bytes_unitBytes _ _) rfl).mpr fun block hblock => ?_
  rw [List.mem_singleton.mp hblock]
  intro _
  exact ⟨by decide, by decide +kernel⟩

/-- The high nibble of the first byte belongs at 16 and is put at 1. -/
theorem high_nibble_misplaced : ¬∃ loaded,
    dequantizeTorch (decodingArith sampleArith)
      (.q40 (unitBytes (0x10 :: List.replicate 15 0) rfl)) [32] = .ok loaded ∧
      GgmlOrder Q40Block.scale [unitBlock (0x10 :: List.replicate 15 0) rfl] loaded.data := by
  rintro ⟨loaded, hload, horder⟩
  obtain ⟨loaded', hload', -, hdata⟩ := dequantizeTorch_q40 sampleArith
    (bytes_unitBytes (0x10 :: List.replicate 15 0) rfl) (show [32].prod = 32 * 1 from rfl)
  cases hload.symm.trans hload'
  have hone := (horder 0 _ rfl 1 0 rfl).1
  rw [hdata] at hone
  exact absurd hone (by decide +kernel)

end GGUFBridge
