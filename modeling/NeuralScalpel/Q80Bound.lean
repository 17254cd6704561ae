/-
The error of Q8_0 blocks.

A block is stored as its greatest absolute value over 127, and for each
element the nearest multiple of it, up to a small number that keeps a zero
block from dividing by zero.

* `GGUFBridge.absMax_exact` — the scale before division;
* `GGUFBridge.quantized_mem_range` — no multiple leaves the signed bytes;
* `GGUFBridge.abs_decoded_sub_le` — how far an element moves;
* `GGUFBridge.q80_roundTrip` — a tensor saved and read with its own shape.
-/
import NeuralScalpel.BlockDecoding
import Mathlib.Tactic.FieldSimp
import Mathlib.Tactic.Positivity
import Mathlib.Tactic.Ring

namespace GGUFBridge

theorem getElem?_rows {α : Type} {n k b : ℕ} {data : List α} (hb : b < n) :
    (NdArray.rows n k data)[b]? = some ((data.drop (b * k)).take k) := by
  rw [NdArray.rows, List.getElem?_map, List.getElem?_range hb, Option.map_some]

/-! ### Blocks and scales -/

section

variable {S : Type} [Field S]

/-- A flat tensor with zeros up to a whole number of blocks. -/
def zeroPadded (x : List S) : List S := x ++ List.replicate ((32 - x.length % 32) % 32) 0

/-- The block that holds element `i`. -/
def blockOf (x : List S) (i : ℕ) : List S := ((zeroPadded x).drop (i / 32 * 32)).take 32

theorem length_zeroPadded (x : List S) : (zeroPadded x).length = blockCount x.length * 32 := by
  rw [zeroPadded, List.length_append, List.length_replicate, blockCount]
  omega

/-- An element keeps its place when zeros are appended. -/
theorem getElem?_zeroPadded {x : List S} {i : ℕ} (hi : i < x.length) :
    (zeroPadded x)[i]? = x[i]? := List.getElem?_append_left hi

/-- The place of an element in its block. -/
theorem getElem?_blockOf (x : List S) (i : ℕ) :
    (blockOf x i)[i % 32]? = (zeroPadded x)[i]? := by
  rw [blockOf, List.getElem?_take_of_lt (Nat.mod_lt i (by omega)), List.getElem?_drop,
    show i / 32 * 32 + i % 32 = i by omega]

end

section

variable {S : Type} [Field S] [LinearOrder S]

/-- The greatest absolute value of a list, zero if there is none. -/
def maxAbs (block : List S) : S := block.foldr (fun x m => max |x| m) 0

/-- `d`: the scale of the block that holds element `i`. -/
def blockScale (x : List S) (i : ℕ) : S := maxAbs (blockOf x i) / 127

/-- What keeps a zero block from dividing by zero. -/
def tiny : S := 1 / 1000000000000

/-- The multiple of the scale that is stored for an element. -/
def quantized [FloorRing S] (d x : S) : ℤ := roundHalfEven (x / (d + tiny))

variable [IsStrictOrderedRing S]

theorem maxAbs_nonneg (block : List S) : 0 ≤ maxAbs block := by
  cases block with
  | nil => exact le_rfl
  | cons x block => exact (abs_nonneg x).trans (le_max_left _ _)

omit [IsStrictOrderedRing S] in
theorem abs_le_maxAbs {block : List S} {x : S} (hx : x ∈ block) : |x| ≤ maxAbs block := by
  induction block with
  | nil => cases hx
  | cons y block ih =>
    rcases List.mem_cons.mp hx with rfl | hmem
    · exact le_max_left _ _
    · exact (ih hmem).trans (le_max_right _ _)

theorem blockScale_nonneg (x : List S) (i : ℕ) : 0 ≤ blockScale x i :=
  div_nonneg (maxAbs_nonneg _) (by positivity)

/-- An element is at most 127 scales of its block. -/
theorem abs_le_blockScale {x : List S} {i : ℕ} {v : S} (hv : (zeroPadded x)[i]? = some v) :
    |v| ≤ 127 * blockScale x i := by
  rw [blockScale, mul_div_cancel₀ _ (by positivity)]
  rw [← getElem?_blockOf] at hv
  exact abs_le_maxAbs (List.mem_of_getElem? hv)

theorem tiny_pos : (0 : S) < tiny := by
  unfold tiny
  positivity

/-! ### The stored multiples -/

section

variable {d x : S}

/-- An element is at most 127 scales. -/
theorem abs_quotient_le (hd : 0 ≤ d) (hx : |x| ≤ 127 * d) : |x / (d + tiny)| ≤ 127 := by
  have hpos : 0 < d + tiny := add_pos_of_nonneg_of_pos hd tiny_pos
  rw [abs_div, abs_of_pos hpos, div_le_iff₀ hpos]
  have htiny : (0 : S) < tiny := tiny_pos
  linarith

variable [FloorRing S]

theorem quantized_mem_range (hd : 0 ≤ d) (hx : |x| ≤ 127 * d) :
    -127 ≤ quantized d x ∧ quantized d x ≤ 127 := by
  obtain ⟨hlow, hhigh⟩ := abs_le.mp (abs_quotient_le hd hx)
  constructor
  · refine le_roundHalfEven ?_
    push_cast
    exact hlow
  · refine roundHalfEven_le ?_
    push_cast
    exact hhigh

/-- Rounding moves an element by half a scale, the small number by at most
127 times itself. -/
theorem abs_decoded_sub_le (hd : 0 ≤ d) (hx : |x| ≤ 127 * d) :
    |(quantized d x : S) * d - x| ≤ d / 2 + 128 * tiny := by
  have htiny : (0 : S) < tiny := tiny_pos
  have hpos : 0 < d + tiny := add_pos_of_nonneg_of_pos hd htiny
  obtain ⟨v, hv⟩ : ∃ v, v = x / (d + tiny) := ⟨_, rfl⟩
  have hxv : x = v * (d + tiny) := by rw [hv, div_mul_cancel₀ _ hpos.ne']
  have hround : |((quantized d x : S) - v) * d| ≤ d / 2 := by
    rw [abs_mul, abs_of_nonneg hd, hv]
    calc |(quantized d x : S) - x / (d + tiny)| * d ≤ 1 / 2 * d :=
          mul_le_mul_of_nonneg_right (abs_roundHalfEven_sub_le _) hd
      _ = d / 2 := by ring
  have hshift : |v * tiny| ≤ 127 * tiny := by
    rw [abs_mul, abs_of_pos htiny, hv]
    exact mul_le_mul_of_nonneg_right (abs_quotient_le hd hx) htiny.le
  have hsplit : (quantized d x : S) * d - x = ((quantized d x : S) - v) * d - v * tiny := by
    rw [sub_mul]
    linarith [mul_add v d tiny]
  rw [hsplit]
  refine (abs_sub _ _).trans ?_
  linarith

end

end

/-! ### The blocks of a tensor -/

section

variable {S : Type} [Field S] [LinearOrder S] [FloorRing S]
variable (halfBytes : S → UInt8 × UInt8) (ofHalfBytes : UInt8 → UInt8 → S)

theorem padded_exact (x : List S) : padded (exactArith halfBytes ofHalfBytes) x = zeroPadded x := by
  have hzero : (exactArith halfBytes ofHalfBytes).ofRat 0 = 0 := Rat.cast_zero
  unfold padded zeroPadded
  rw [hzero]
  split_ifs with h
  · rw [Nat.mod_eq_of_lt (show 32 - x.length % 32 < 32 by omega)]
  · rw [show (32 - x.length % 32) % 32 = 0 by omega, List.replicate_zero, List.append_nil]

/-- The bytes of a tensor, block by block. -/
theorem data_quantizeQ80 (tensor : NdArray S) :
    (quantizeQ80 (exactArith halfBytes ofHalfBytes) tensor).data =
      ((NdArray.rows (blockCount tensor.numel) 32 (zeroPadded tensor.data)).map
        (quantizeBlock (exactArith halfBytes ofHalfBytes))).flatten := by
  have hcount : (zeroPadded tensor.data).length / 32 = blockCount tensor.numel := by
    rw [length_zeroPadded, Nat.mul_div_cancel _ (by omega)]
    rfl
  show (NdArray.rows ((padded _ tensor.data).length / 32) 32 (padded _ tensor.data)).flatMap _ = _
  rw [padded_exact, hcount, List.flatMap_def]

/-- What is read of a block that was stored. -/
def decodedBlock (block : List S) : List S :=
  block.map fun x => (quantized (maxAbs block / 127) x : S) * (maxAbs block / 127)

/-- Element `i` of the decoded blocks comes from element `i` of the tensor. -/
theorem getElem?_decodedBlocks {x : List S} {i : ℕ} (hi : i < x.length) :
    ((NdArray.rows (blockCount x.length) 32 (zeroPadded x)).flatMap decodedBlock)[i]? =
      x[i]?.map fun v => (quantized (blockScale x i) v : S) * blockScale x i := by
  have hlen : ∀ block ∈ NdArray.rows (blockCount x.length) 32 (zeroPadded x),
      (decodedBlock block).length = 32 := by
    intro block hblock
    rw [decodedBlock, List.length_map]
    exact NdArray.length_of_mem_rows (length_zeroPadded x) hblock
  have hb : i / 32 < blockCount x.length := by
    unfold blockCount
    omega
  have hplace := getElem?_flatMap (i := i / 32) hlen (Nat.mod_lt i (by omega))
  rw [Nat.div_add_mod, getElem?_rows hb, Option.bind_some] at hplace
  rw [hplace, decodedBlock, List.getElem?_map, ← getElem?_zeroPadded hi, ← getElem?_blockOf]
  rfl

variable [IsStrictOrderedRing S]

theorem absMax_exact (block : List S) :
    absMax (exactArith halfBytes ofHalfBytes) block = maxAbs block := by
  have hfold : ∀ (l : List S) (m : S), 0 ≤ m →
      l.foldl (fun m y => max m |y|) m = max m (maxAbs l) := by
    intro l
    induction l with
    | nil =>
      intro m hm
      exact (max_eq_left hm).symm
    | cons y l ih =>
      intro m hm
      rw [List.foldl_cons, ih _ (hm.trans (le_max_left _ _)), max_assoc]
      rfl
  cases block with
  | nil => exact Rat.cast_zero
  | cons x block => exact hfold block |x| (abs_nonneg x)

/-- A signed byte holds every number in its range. -/
theorem toInt8_exact {q : ℤ} (hlow : -127 ≤ q) (hhigh : q ≤ 127) :
    ((exactArith halfBytes ofHalfBytes).toInt8 (q : S)).toInt = q := by
  show (Int8.ofInt (max (-128) (min 127 ⌊(q : S)⌋))).toInt = q
  rw [Int.floor_intCast, min_eq_right hhigh, max_eq_right (by omega),
    Int8.toInt_ofInt_of_le (by omega) (by omega)]

/-- A block that is stored and read again. -/
theorem q80Values_quantizeBlock {block : List S}
    (hhalf : ofHalfBytes (halfBytes (maxAbs block / 127)).1 (halfBytes (maxAbs block / 127)).2 =
      maxAbs block / 127) :
    q80Values (exactArith halfBytes ofHalfBytes)
        (quantizeBlock (exactArith halfBytes ofHalfBytes) block) = decodedBlock block := by
  have hd : (0 : S) ≤ maxAbs block / 127 := div_nonneg (maxAbs_nonneg block) (by positivity)
  have hdelta : (exactArith halfBytes ofHalfBytes).div
      (absMax (exactArith halfBytes ofHalfBytes) block)
      ((exactArith halfBytes ofHalfBytes).ofRat 127) = maxAbs block / 127 := by
    rw [absMax_exact]
    show maxAbs block / ((127 : ℚ) : S) = _
    rw [Rat.cast_ofNat]
  have htiny : (exactArith halfBytes ofHalfBytes).ofRat (1 / 1000000000000) = tiny := by
    show ((1 / 1000000000000 : ℚ) : S) = 1 / 1000000000000
    push_cast
    rfl
  unfold quantizeBlock
  rw [hdelta, htiny]
  show (List.map _ _).map _ = _
  rw [List.map_map]
  refine List.map_congr_left fun x hx => ?_
  have hle : |x| ≤ 127 * (maxAbs block / 127) := by
    rw [mul_div_cancel₀ _ (by positivity)]
    exact abs_le_maxAbs hx
  obtain ⟨hlow, hhigh⟩ := quantized_mem_range hd hle
  have hbyte := toInt8_exact halfBytes ofHalfBytes hlow hhigh
  exact congrArg₂ (· * ·) (congrArg (Int.cast : ℤ → S) hbyte) hhalf

/-- A tensor saved and read with its own shape: its blocks, up to the padding. -/
theorem dequantizeTorch_own_shape {tensor : NdArray S}
    (hhalf : ∀ i < tensor.numel, ofHalfBytes (halfBytes (blockScale tensor.data i)).1
      (halfBytes (blockScale tensor.data i)).2 = blockScale tensor.data i) :
    ∃ loaded,
      dequantizeTorch (exactArith halfBytes ofHalfBytes)
          (.q80 (quantizeQ80 (exactArith halfBytes ofHalfBytes) tensor)) tensor.shape =
        .ok loaded ∧
      loaded.shape = tensor.shape ∧
      loaded.data = ((NdArray.rows (blockCount tensor.numel) 32
        (zeroPadded tensor.data)).flatMap decodedBlock).take tensor.data.length := by
  set blocks := NdArray.rows (blockCount tensor.numel) 32 (zeroPadded tensor.data) with hblocks
  have hlength : ∀ block ∈ blocks, block.length = 32 := fun block hblock =>
    NdArray.length_of_mem_rows (length_zeroPadded tensor.data) hblock
  have hdecode : ∀ block ∈ blocks, q80Values (exactArith halfBytes ofHalfBytes)
      (quantizeBlock (exactArith halfBytes ofHalfBytes) block) = decodedBlock block := by
    intro block hblock
    obtain ⟨b, hb, rfl⟩ := List.mem_map.mp hblock
    -- the block that holds its first element
    have hown :
        blockOf tensor.data (32 * b) = ((zeroPadded tensor.data).drop (b * 32)).take 32 := by
      rw [blockOf, Nat.mul_div_cancel_left b (by omega)]
    have hfirst : 32 * b < tensor.numel := by
      have hlt := List.mem_range.mp hb
      unfold blockCount at hlt
      omega
    have hscale := hhalf (32 * b) hfirst
    rw [blockScale, hown] at hscale
    exact q80Values_quantizeBlock halfBytes ofHalfBytes hscale
  have hvalues : (blocks.map (quantizeBlock (exactArith halfBytes ofHalfBytes))).flatMap
      (q80Values (exactArith halfBytes ofHalfBytes)) = blocks.flatMap decodedBlock := by
    rw [List.flatMap_map]
    exact List.flatMap_congr hdecode
  have hshape : tensor.shape.prod ≤ (blocks.flatMap decodedBlock).length := by
    rw [length_flatMap_of_forall fun block hblock => by rw [decodedBlock, List.length_map,
      hlength block hblock], ← tensor.wf, hblocks, NdArray.rows, List.length_map,
      List.length_range]
    show tensor.data.length ≤ blockCount tensor.data.length * 32
    unfold blockCount
    omega
  have hrows : ∀ row ∈ blocks.map (quantizeBlock (exactArith halfBytes ofHalfBytes)),
      row.length = 34 := by
    rw [List.forall_mem_map]
    intro block hblock
    rw [length_quantizeBlock, hlength block hblock]
  obtain ⟨loaded, hload, hloaded, hdata⟩ := dequantizeBlocks_flatten
    (exactArith halfBytes ofHalfBytes) (q80Values (exactArith halfBytes ofHalfBytes)) (by omega)
    hrows (data_quantizeQ80 halfBytes ofHalfBytes tensor) tensor.shape (by rwa [hvalues])
  refine ⟨loaded, hload, hloaded, ?_⟩
  rw [hdata, hvalues, show (exactArith halfBytes ofHalfBytes).roundHalf = id from rfl, List.map_id,
    tensor.wf]

/-- A tensor saved and read with its own shape has its elements in order, each
moved by at most half a scale and a small number, and none was clamped. -/
theorem q80_roundTrip (tensor : NdArray S)
    (hhalf : ∀ i < tensor.numel, ofHalfBytes (halfBytes (blockScale tensor.data i)).1
      (halfBytes (blockScale tensor.data i)).2 = blockScale tensor.data i) :
    (∃ loaded,
      dequantizeTorch (exactArith halfBytes ofHalfBytes)
          (.q80 (quantizeQ80 (exactArith halfBytes ofHalfBytes) tensor)) tensor.shape =
        .ok loaded ∧
      loaded.shape = tensor.shape ∧ loaded.data.length = tensor.data.length ∧
      ∀ (i : ℕ) (x y : S), tensor.data[i]? = some x → loaded.data[i]? = some y →
        |y - x| ≤ blockScale tensor.data i / 2 + 128 * tiny) ∧
    ∀ (i : ℕ) (x : S), (zeroPadded tensor.data)[i]? = some x →
      -128 ≤ quantized (blockScale tensor.data i) x ∧
        quantized (blockScale tensor.data i) x ≤ 127 := by
  constructor
  · obtain ⟨loaded, hload, hloaded, hdata⟩ :=
      dequantizeTorch_own_shape halfBytes ofHalfBytes hhalf
    refine ⟨loaded, hload, hloaded, ?_, ?_⟩
    · rw [loaded.wf, hloaded, tensor.wf]
    · intro i x y hx hy
      have hi : i < tensor.data.length := (List.getElem?_eq_some_iff.mp hx).1
      rw [hdata, List.getElem?_take_of_lt hi] at hy
      have hdecoded := (getElem?_decodedBlocks hi).symm.trans hy
      rw [hx, Option.map_some, Option.some_inj] at hdecoded
      rw [← hdecoded]
      refine abs_decoded_sub_le (blockScale_nonneg _ _) (abs_le_blockScale ?_)
      rw [getElem?_zeroPadded hi, hx]
  · intro i x hx
    obtain ⟨hlow, hhigh⟩ :=
      quantized_mem_range (blockScale_nonneg tensor.data i) (abs_le_blockScale hx)
    exact ⟨by omega, hhigh⟩

end

/-- The bytes of the numbers one and two. -/
def smallHalf (d : ℚ) : UInt8 × UInt8 := if d = 2 then (0x00, 0x40) else (0x00, 0x3C)

/-- Two elements, the scale of which is two. -/
def pairTensor : NdArray ℚ := ⟨[2], [254, -3], rfl⟩

theorem blockScale_pairTensor {i : ℕ} (hi : i < pairTensor.numel) :
    blockScale pairTensor.data i = 2 := by
  have hblock : i / 32 = 0 := by
    have hlt : i < 2 := hi
    omega
  rw [blockScale, blockOf, hblock]
  decide +kernel

theorem pairTensor_roundTrip :
    (∃ loaded,
      dequantizeTorch (exactArith smallHalf decodeHalf)
          (.q80 (quantizeQ80 (exactArith smallHalf decodeHalf) pairTensor)) pairTensor.shape =
        .ok loaded ∧
      loaded.shape = pairTensor.shape ∧ loaded.data.length = pairTensor.data.length ∧
      ∀ (i : ℕ) (x y : ℚ), pairTensor.data[i]? = some x → loaded.data[i]? = some y →
        |y - x| ≤ blockScale pairTensor.data i / 2 + 128 * tiny) ∧
    ∀ (i : ℕ) (x : ℚ), (zeroPadded pairTensor.data)[i]? = some x →
      -128 ≤ quantized (blockScale pairTensor.data i) x ∧
        quantized (blockScale pairTensor.data i) x ≤ 127 := by
  refine q80_roundTrip smallHalf decodeHalf pairTensor fun i hi => ?_
  rw [blockScale_pairTensor hi]
  decide +kernel

end GGUFBridge
