/-
Decoding blocks of quantised numbers, in exact arithmetic.

An array of bytes is cut into rows of one block each, whatever its shape, and
the numbers of the rows are strung together:

* `getElem?_flatMap` — one entry of lists of the same length strung together;
* `GGUFBridge.dequantizeBlocks_flatten` — the elements decoded from blocks;
* `GGUFBridge.exactArith` — arithmetic without rounding, over a given way to
  write a scale into two bytes.
-/
import NeuralScalpel.GgufBridge
import NeuralScalpel.Rounding

section

variable {α β : Type} {k : ℕ} {f : α → List β} {l : List α}

/-- Entry `k * i + j` of lists of length `k` is entry `j` of list `i`. -/
theorem getElem?_flatMap (hlen : ∀ a ∈ l, (f a).length = k) {i j : ℕ} (hj : j < k) :
    (l.flatMap f)[k * i + j]? = l[i]?.bind fun a => (f a)[j]? := by
  induction l generalizing i with
  | nil => simp
  | cons a l ih =>
    have hhead : (f a).length = k := hlen a List.mem_cons_self
    rw [List.flatMap_cons]
    rcases i with _ | i
    · rw [List.getElem?_append_left (by omega)]
      simp
    · have hskip : k * (i + 1) + j - (f a).length = k * i + j := by
        rw [hhead, Nat.mul_succ]
        omega
      rw [List.getElem?_append_right (by rw [hhead, Nat.mul_succ]; omega), hskip,
        ih fun a' ha' => hlen a' (List.mem_cons_of_mem _ ha'), List.getElem?_cons_succ]

theorem length_flatMap_of_forall (hlen : ∀ a ∈ l, (f a).length = k) :
    (l.flatMap f).length = l.length * k := by
  rw [List.length_flatMap, List.map_congr_left hlen, List.map_const', List.sum_replicate,
    smul_eq_mul]

/-- Lists of the same length strung together agree iff they agree one by one. -/
theorem flatMap_eq_flatMap_iff {g : α → List β} (hlen : ∀ a ∈ l, (f a).length = (g a).length) :
    l.flatMap f = l.flatMap g ↔ ∀ a ∈ l, f a = g a := by
  induction l with
  | nil => simp
  | cons a l ih =>
    rw [List.flatMap_cons, List.flatMap_cons, List.forall_mem_cons,
      ← ih fun a' ha' => hlen a' (List.mem_cons_of_mem _ ha')]
    constructor
    · intro h
      exact List.append_inj h (hlen a List.mem_cons_self)
    · rintro ⟨hhead, htail⟩
      rw [hhead, htail]

end

namespace NdArray

variable {α : Type}

/-- Taking as many entries as there are elements takes everything. -/
theorem data_take_numel {a : NdArray α} {n : ℕ} (hn : a.numel ≤ n) : (a.take n).data = a.data := by
  rcases hshape : a.shape with _ | ⟨d, ds⟩
  · simp only [take, hshape]
  · have hwf := a.wf
    rw [hshape, List.prod_cons] at hwf
    simp only [take, hshape]
    refine List.take_of_length_le ?_
    rcases Nat.eq_zero_or_pos ds.prod with hzero | hpos
    · rw [hwf, hzero, Nat.mul_zero]
      exact Nat.zero_le _
    · exact hn.trans (Nat.le_mul_of_pos_right n hpos)

/-- The rows of rows strung together are these rows. -/
theorem rows_flatten {k : ℕ} {blocks : List (List α)} (hlen : ∀ row ∈ blocks, row.length = k) :
    rows blocks.length k blocks.flatten = blocks := by
  induction blocks with
  | nil => rfl
  | cons row blocks ih =>
    have hrow : row.length = k := hlen row List.mem_cons_self
    have htail : rows blocks.length k blocks.flatten = blocks :=
      ih fun row' hrow' => hlen row' (List.mem_cons_of_mem _ hrow')
    unfold rows at htail ⊢
    rw [List.length_cons, List.range_succ_eq_map, List.map_cons, List.map_map, List.flatten_cons,
      Nat.zero_mul, List.drop_zero, List.take_left' hrow]
    refine congrArg (row :: ·) (.trans (List.map_congr_left fun i _ => ?_) htail)
    show (List.drop ((i + 1) * k) (row ++ blocks.flatten)).take k = _
    rw [Nat.succ_mul, Nat.add_comm, ← List.drop_drop, List.drop_left' hrow]

end NdArray

namespace GGUFBridge

section

variable {α : Type} (arith : FloatArith α)

/-- The first so many numbers of the blocks, in order. -/
theorem dequantizeBlocks_flatten (values : List UInt8 → List α) {rowBytes : ℕ}
    (hpos : 0 < rowBytes) {blocks : List (List UInt8)}
    (hrows : ∀ row ∈ blocks, row.length = rowBytes) {data : NdArray UInt8}
    (hdata : data.data = blocks.flatten) (shape : List ℕ)
    (hshape : shape.prod ≤ (blocks.flatMap values).length) :
    ∃ loaded, dequantizeBlocks arith values rowBytes data shape = .ok loaded ∧
      loaded.shape = shape ∧
      loaded.data = ((blocks.flatMap values).map arith.roundHalf).take shape.prod := by
  have hlen : data.data.length = blocks.length * rowBytes := by
    rw [hdata, ← List.flatMap_id', length_flatMap_of_forall hrows]
  have hcount : data.numel / rowBytes = blocks.length := by
    rw [NdArray.numel, hlen, Nat.mul_div_cancel _ hpos]
  simp only [dequantizeBlocks, hcount]
  split_ifs with hzero
  · -- no blocks and no elements
    rw [List.length_eq_zero_iff.mp hzero] at hshape ⊢
    have hnone : shape.prod = 0 := Nat.le_zero.mp hshape
    refine ⟨_, rfl, rfl, ?_⟩
    show List.replicate shape.prod _ = _
    rw [hnone]
    rfl
  · have htaken : (data.take (blocks.length * rowBytes)).data = data.data :=
      NdArray.data_take_numel hlen.le
    have hfits : (data.take (blocks.length * rowBytes)).data.length =
        [blocks.length, rowBytes].prod := by
      rw [htaken, hlen]
      simp
    rw [NdArray.reshape, dif_pos hfits]
    show ∃ loaded, NdArray.reshape _ _ = .ok loaded ∧ _
    have hrow : NdArray.rows blocks.length rowBytes
        (data.take (blocks.length * rowBytes)).data = blocks := by
      rw [htaken, hdata, NdArray.rows_flatten hrows]
    simp only [hrow]
    rw [NdArray.reshape, dif_pos]
    · exact ⟨_, rfl, rfl, rfl⟩
    · rw [List.length_take, List.length_map]
      omega

end

section

variable {S : Type} [Field S] [LinearOrder S] [FloorRing S]

/-- Exact arithmetic.  Numbers are rounded only to become signed bytes; how a
scale is written into two bytes and read back is left open. -/
def exactArith (halfBytes : S → UInt8 × UInt8) (ofHalfBytes : UInt8 → UInt8 → S) :
    FloatArith S where
  ofRat := fun q => q
  add := (· + ·)
  mul := (· * ·)
  div := (· / ·)
  abs := abs
  max := max
  round := fun x => roundHalfEven x
  toInt8 := fun x => Int8.ofInt (max (-128) (min 127 ⌊x⌋))
  ofInt8 := fun q => (q.toInt : S)
  halfBytes := halfBytes
  ofHalfBytes := ofHalfBytes
  roundHalf := id

end

/-- The number two bytes stand for, if it is finite. -/
def decodeHalf (b₀ b₁ : UInt8) : ℚ :=
  let bits := b₁.toNat * 256 + b₀.toNat
  let exponent := bits / 1024 % 32
  let mantissa := bits % 1024
  let magnitude : ℚ :=
    if exponent = 0 then mantissa / 2 ^ 24 else (1024 + mantissa) * 2 ^ exponent / 2 ^ 25
  if bits / 32768 = 1 then -magnitude else magnitude

end GGUFBridge
