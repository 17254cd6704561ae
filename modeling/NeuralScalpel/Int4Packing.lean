/-
Packing weights into four bits.

Each row of a weight is scaled to the numbers from 0 to 15, padded with zeros
to a multiple of eight columns, and packed eight numbers to a word of 32 bits:
word `j` takes column `8 j + i` at bit `4 i`.

* `packInt4` — the packed words, the scales and the zeros;
* `entry_orSlices` — the loop over the eight slices fills one field after the other;
* `packInt4_lossless` — every number is found in its field again.
-/
import NeuralScalpel.FailurePolicy
import NeuralScalpel.FloatFormat
import NeuralScalpel.PackedFields
import NeuralScalpel.ShapedMatrix
import Mathlib.Data.BitVec

namespace AWQBridge

open ShapedMatrix PackedFields

/-! ### Packing -/

section

variable {α : Type} [Zero α]

/-- `m[:, start::step]`. -/
def strided (m : ShapedMatrix α) (start step : ℕ) : ShapedMatrix α :=
  ofFn m.rows ((m.cols - start + step - 1) / step) fun r j => m.entry r (start + step * j)

/-- Zeros up to a multiple of eight columns. -/
def padToEight (m : ShapedMatrix α) : ShapedMatrix α :=
  if m.cols % 8 ≠ 0 then m.padCols (8 - m.cols % 8) else m

end

/-- `m << n`. -/
def shiftLeft (m : ShapedMatrix (BitVec 32)) (n : ℕ) : ShapedMatrix (BitVec 32) :=
  ofFn m.rows m.cols fun r j => m.entry r j <<< n

/-- `m |= m'`, for matrices of one shape. -/
def orWith (m m' : ShapedMatrix (BitVec 32)) : ShapedMatrix (BitVec 32) :=
  ofFn m.rows m.cols fun r j => m.entry r j ||| m'.entry r j

/-- The words after `k` rounds of the loop. -/
def orSlices (qW : ShapedMatrix (BitVec 32)) (k : ℕ) : ShapedMatrix (BitVec 32) :=
  (List.range k).foldl (fun packed i => orWith packed (shiftLeft (strided qW i 8) (4 * i)))
    (ofFn qW.rows (qW.cols / 8) fun _ _ => 0)

/-- The words of a quantised matrix. -/
def packWords (qW : ShapedMatrix (BitVec 32)) : ShapedMatrix (BitVec 32) :=
  orSlices (padToEight qW) 8

/-! ### Quantising -/

section

variable {S : Type} [Field S] [LinearOrder S]

/-- The entries of a row. -/
def rowEntries (weight : ShapedMatrix S) (r : ℕ) : List S :=
  (List.range weight.cols).map (weight.entry r)

/-- `weight.min(dim=1, keepdim=True)[0]`. -/
def rowMin (weight : ShapedMatrix S) (r : ℕ) : S := (rowEntries weight r).min?.getD 0

/-- `weight.max(dim=1, keepdim=True)[0]`. -/
def rowMax (weight : ShapedMatrix S) (r : ℕ) : S := (rowEntries weight r).max?.getD 0

/-- `q_scales`. -/
def rowScale (weight : ShapedMatrix S) (r : ℕ) : S := (rowMax weight r - rowMin weight r) / 15.0

variable [FloorRing S] {H : Type} [Zero H]

/-- `q_w`, before it is padded. -/
def quantize (weight : ShapedMatrix S) : ShapedMatrix (BitVec 32) :=
  ofFn weight.rows weight.cols fun r c =>
    let steps := roundHalfEven ((weight.entry r c - rowMin weight r) / (rowScale weight r + 1e-12))
    BitVec.ofInt 32 (min (max steps 0) 15)

/-- `_pack_int4`: the words, and the scales and zeros cast to half precision. -/
def packInt4 (toFloat16 : S → H) (weight : ShapedMatrix S) :
    Except PyError (ShapedMatrix (BitVec 32) × ShapedMatrix H × ShapedMatrix H) :=
  if weight.cols = 0 then
    .error (.external "IndexError: min(): Expected reduction dim 1 to have non-zero size.")
  else .ok (packWords (quantize weight),
    ofFn weight.rows 1 fun r _ => toFloat16 (rowScale weight r),
    ofFn weight.rows 1 fun r _ => toFloat16 (rowMin weight r))

end

/-! ### The loop -/

section

variable {qW : ShapedMatrix (BitVec 32)}

/-- A slice of a padded matrix has as many columns as there are words. -/
theorem cols_strided {i : ℕ} (hi : i < 8) (hcols : qW.cols % 8 = 0) :
    (strided qW i 8).cols = qW.cols / 8 := by
  show (qW.cols - i + 8 - 1) / 8 = qW.cols / 8
  omega

theorem orSlices_succ (qW : ShapedMatrix (BitVec 32)) (k : ℕ) :
    orSlices qW (k + 1) = orWith (orSlices qW k) (shiftLeft (strided qW k 8) (4 * k)) := by
  rw [orSlices, List.range_succ, List.foldl_concat]
  rfl

theorem shape_orSlices (qW : ShapedMatrix (BitVec 32)) (k : ℕ) :
    (orSlices qW k).rows = qW.rows ∧ (orSlices qW k).cols = qW.cols / 8 := by
  induction k with
  | zero => exact ⟨rfl, rfl⟩
  | succ k ih =>
    rw [orSlices_succ]
    exact ih

/-- Round by round, the loop fills the fields of every word. -/
theorem entry_orSlices (hcols : qW.cols % 8 = 0) {k r j : ℕ} (hk : k ≤ 8) (hr : r < qW.rows)
    (hj : j < qW.cols / 8) :
    (orSlices qW k).entry r j = packFields 4 (fun i => qW.entry r (8 * j + i)) k := by
  induction k with
  | zero => exact if_pos ⟨hr, hj⟩
  | succ k ih =>
    obtain ⟨hrows, hwords⟩ := shape_orSlices qW k
    have hin : j < (strided qW k 8).cols := by
      rw [cols_strided (Nat.lt_of_succ_le hk) hcols]
      exact hj
    have hslice : (strided qW k 8).entry r j = qW.entry r (8 * j + k) := by
      rw [add_comm]
      exact if_pos ⟨hr, hin⟩
    have hshifted : (shiftLeft (strided qW k 8) (4 * k)).entry r j =
        qW.entry r (8 * j + k) <<< (4 * k) := by
      rw [← hslice]
      exact if_pos ⟨hr, hin⟩
    rw [orSlices_succ, packFields, ← ih (Nat.le_of_succ_le hk), ← hshifted]
    exact if_pos ⟨hrows ▸ hr, hwords ▸ hj⟩

end

/-! ### What the words hold -/

/-- A matrix of numbers from 0 to 15. -/
def Quantised (q : ShapedMatrix (BitVec 32)) : Prop := ∀ r c, (q.entry r c).toNat ≤ 15

/-- Every number of the matrix has its own four bits in the words, the four bits
that are left over are zero, and the numbers are read from them. -/
structure Packs (q words : ShapedMatrix (BitVec 32)) : Prop where
  rows : words.rows = q.rows
  cols : words.cols = (q.cols + 7) / 8
  nibble : ∀ r j i, r < q.rows → j < words.cols → i < 8 →
    (words.entry r j).extractLsb' (4 * i) 4 =
      if 8 * j + i < q.cols then (q.entry r (8 * j + i)).setWidth 4 else 0
  recovers : ∀ r c, r < q.rows → c < q.cols →
    readField 4 (c % 8) (words.entry r (c / 8)) = q.entry r c

section

variable {q : ShapedMatrix (BitVec 32)}

theorem rows_padToEight (q : ShapedMatrix (BitVec 32)) : (padToEight q).rows = q.rows := by
  unfold padToEight
  split_ifs <;> rfl

theorem entry_padToEight (q : ShapedMatrix (BitVec 32)) (r c : ℕ) :
    (padToEight q).entry r c = q.entry r c := by
  unfold padToEight
  split_ifs <;> rfl

theorem cols_padToEight (q : ShapedMatrix (BitVec 32)) :
    (padToEight q).cols = 8 * ((q.cols + 7) / 8) := by
  unfold padToEight
  by_cases h : q.cols % 8 = 0
  · rw [if_neg (not_not.mpr h)]
    omega
  · rw [if_pos h, cols_padCols]
    omega

theorem cols_packWords (q : ShapedMatrix (BitVec 32)) : (packWords q).cols = (q.cols + 7) / 8 := by
  rw [packWords, (shape_orSlices _ 8).2, cols_padToEight]
  omega

/-- A word is the eight numbers of its columns, packed. -/
theorem entry_packWords {r j : ℕ} (hr : r < q.rows) (hj : j < (q.cols + 7) / 8) :
    (packWords q).entry r j = packFields 4 (fun i => q.entry r (8 * j + i)) 8 := by
  have hcols := cols_padToEight q
  rw [packWords, entry_orSlices (by omega) le_rfl (by rw [rows_padToEight]; exact hr) (by omega)]
  simp only [entry_padToEight]

theorem packs_packWords (hq : Quantised q) : Packs q (packWords q) := by
  have hfits : ∀ r j, ∀ i < 8, (q.entry r (8 * j + i)).toNat < 2 ^ 4 := fun r j i _ =>
    Nat.lt_succ_of_le (hq r (8 * j + i))
  refine ⟨(shape_orSlices _ 8).1.trans (rows_padToEight q), cols_packWords q, ?_, ?_⟩
  · intro r j i hr hj hi
    rw [cols_packWords] at hj
    rw [entry_packWords hr hj, extractLsb'_packFields (hfits r j) (by decide) hi]
    by_cases hc : 8 * j + i < q.cols
    · rw [if_pos hc]
    · rw [if_neg hc, entry_eq_zero (Or.inr (Nat.not_lt.mp hc))]
      rfl
  · intro r c hr hc
    rw [entry_packWords hr (by omega),
      readField_packFields (hfits r (c / 8)) (by decide) (Nat.mod_lt c (by decide)),
      Nat.div_add_mod]

end

/-! ### Quantised weights -/

section

variable {S H : Type} [Field S] [LinearOrder S] [FloorRing S] [Zero H]

theorem quantised_quantize (weight : ShapedMatrix S) : Quantised (quantize weight) := by
  intro r c
  by_cases h : r < weight.rows ∧ c < weight.cols
  · have hentry : (quantize weight).entry r c = BitVec.ofInt 32 (min (max (roundHalfEven
        ((weight.entry r c - rowMin weight r) / (rowScale weight r + 1e-12))) 0) 15) := if_pos h
    rw [hentry, BitVec.toNat_ofInt]
    omega
  · have hentry : (quantize weight).entry r c = 0 := if_neg h
    rw [hentry]
    decide

/-- Packing loses nothing: it keeps every matrix of numbers from 0 to 15, and it
is given such a matrix for every weight that has a column. -/
theorem packInt4_lossless (toFloat16 : S → H) :
    (∀ q, Quantised q → Packs q (packWords q)) ∧
      ∀ weight : ShapedMatrix S, 1 ≤ weight.cols → ∃ words scales zeros,
        packInt4 toFloat16 weight = .ok (words, scales, zeros) ∧
          words = packWords (quantize weight) ∧ Quantised (quantize weight) ∧
          Packs (quantize weight) words := by
  refine ⟨fun q hq => packs_packWords hq, fun weight hcols => ?_⟩
  have hq := quantised_quantize weight
  exact ⟨_, _, _, if_neg (by omega), rfl, hq, packs_packWords hq⟩

end

/-- Nine fifteens: a word with its sign bit set, and a number alone in the next. -/
def nineFifteens : ShapedMatrix (BitVec 32) := ofFn 1 9 fun _ _ => 15

example : ((packWords nineFifteens).entry 0 0, (packWords nineFifteens).entry 0 1) = (-1, 15) := by
  decide

theorem packInt4_nineFifteens : Quantised nineFifteens ∧
    Packs nineFifteens (packWords nineFifteens) ∧ ∃ words scales zeros,
      packInt4 FloatFormat.half.nearest (ofFn 2 3 fun _ c => (c : ℚ)) =
        .ok (words, scales, zeros) ∧
      words = packWords (quantize (ofFn 2 3 fun _ c => (c : ℚ))) ∧
        Quantised (quantize (ofFn 2 3 fun _ c => (c : ℚ))) ∧
          Packs (quantize (ofFn 2 3 fun _ c => (c : ℚ))) words := by
  have hq : Quantised nineFifteens := by
    intro r c
    show (if r < 1 ∧ c < 9 then (15 : BitVec 32) else 0).toNat ≤ 15
    split_ifs <;> decide
  obtain ⟨hpacks, hweight⟩ := packInt4_lossless FloatFormat.half.nearest
  exact ⟨hq, hpacks nineFifteens hq, hweight _ (by decide)⟩

end AWQBridge
