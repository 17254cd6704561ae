/-
Numbers of a few bits packed into one word.

Field `i` of a word is its `m` bits from bit `m i` on.  Words are filled by
combining shifted numbers with or, and read by an arithmetic shift and a mask.

* `getLsbD_packFields` — which bit of which number each bit of the word is;
* `extractLsb'_packFields` — every field holds its number;
* `readField_packFields` — reading recovers it, whatever the sign of the word.
-/
import Mathlib.Data.Nat.Bitwise
import Mathlib.Tactic.Ring

namespace PackedFields

variable {w : ℕ}

/-- The first `k` numbers, each shifted to its field. -/
def packFields (m : ℕ) (digit : ℕ → BitVec w) : ℕ → BitVec w
  | 0 => 0
  | k + 1 => packFields m digit k ||| digit k <<< (m * k)

/-- Field `i` of a word: shifted to the low end, sign bit first, and masked. -/
def readField (m i : ℕ) (word : BitVec w) : BitVec w :=
  word.sshiftRight (m * i) &&& BitVec.ofNat w (2 ^ m - 1)

variable {m : ℕ} {digit : ℕ → BitVec w} {x : BitVec w}

/-- A number of `m` bits has no others. -/
theorem getLsbD_of_lt_two_pow (h : x.toNat < 2 ^ m) {n : ℕ} (hn : m ≤ n) :
    x.getLsbD n = false := by
  rw [← BitVec.testBit_toNat]
  exact Nat.testBit_eq_false_of_lt (h.trans_le (Nat.pow_le_pow_right (by decide) hn))

/-- Below the bits filled so far, a bit of the word is one of the number of its field. -/
theorem getLsbD_packFields {k : ℕ} (h : ∀ i < k, (digit i).toNat < 2 ^ m) {n : ℕ} (hn : n < w) :
    (packFields m digit k).getLsbD n =
      (decide (n < m * k) && (digit (n / m)).getLsbD (n % m)) := by
  induction k with
  | zero => simp [packFields]
  | succ k ih =>
    have hfilled := ih fun i hi => h i (hi.trans (Nat.lt_succ_self k))
    rw [packFields, BitVec.getLsbD_or, BitVec.getLsbD_shiftLeft, hfilled]
    have hsplit : m * (k + 1) = m * k + m := by ring
    by_cases hlow : n < m * k
    · have hnext : n < m * (k + 1) := by omega
      simp [hlow, hnext]
    · by_cases hfield : n < m * (k + 1)
      -- the field being filled
      · obtain ⟨r, rfl⟩ := Nat.exists_eq_add_of_le (Nat.not_lt.mp hlow)
        have hr : r < m := by omega
        have hdiv : (m * k + r) / m = k := by
          rw [Nat.mul_add_div (by omega), Nat.div_eq_of_lt hr, add_zero]
        have hmod : (m * k + r) % m = r := by
          rw [Nat.mul_add_mod, Nat.mod_eq_of_lt hr]
        simp [hfield, hdiv, hmod, hn]
      · have hhigh := getLsbD_of_lt_two_pow (h k (Nat.lt_succ_self k)) (n := n - m * k) (by omega)
        simp [hlow, hfield, hhigh]

variable {k i : ℕ}

theorem getLsbD_field (h : ∀ i < k, (digit i).toNat < 2 ^ m) (hw : m * k ≤ w) (hi : i < k)
    {b : ℕ} (hb : b < m) : (packFields m digit k).getLsbD (m * i + b) = (digit i).getLsbD b := by
  have hroom : m * i + m ≤ m * k := by
    calc m * i + m = m * (i + 1) := by ring
      _ ≤ m * k := Nat.mul_le_mul_left m hi
  have hdiv : (m * i + b) / m = i := by
    rw [Nat.mul_add_div (by omega), Nat.div_eq_of_lt hb, add_zero]
  have hmod : (m * i + b) % m = b := by
    rw [Nat.mul_add_mod, Nat.mod_eq_of_lt hb]
  rw [getLsbD_packFields h (by omega), hdiv, hmod, decide_eq_true (by omega), Bool.true_and]

/-- Every field holds its number. -/
theorem extractLsb'_packFields (h : ∀ i < k, (digit i).toNat < 2 ^ m) (hw : m * k ≤ w)
    (hi : i < k) : (packFields m digit k).extractLsb' (m * i) m = (digit i).setWidth m := by
  apply BitVec.eq_of_getLsbD_eq
  intro b hb
  rw [BitVec.getLsbD_extractLsb', BitVec.getLsbD_setWidth, getLsbD_field h hw hi hb]

/-- Reading a field recovers its number. -/
theorem readField_packFields (h : ∀ i < k, (digit i).toNat < 2 ^ m) (hw : m * k ≤ w)
    (hi : i < k) : readField m i (packFields m digit k) = digit i := by
  have hroom : m * i + m ≤ m * k := by
    calc m * i + m = m * (i + 1) := by ring
      _ ≤ m * k := Nat.mul_le_mul_left m hi
  apply BitVec.eq_of_getLsbD_eq
  intro b hb
  rw [readField, BitVec.getLsbD_and, BitVec.getLsbD_sshiftRight, BitVec.getLsbD_ofNat,
    Nat.testBit_two_pow_sub_one]
  by_cases hlow : b < m
  · have hinside : m * i + b < w := by omega
    rw [if_pos hinside, getLsbD_field h hw hi hlow]
    simp [hb, hlow]
  · rw [getLsbD_of_lt_two_pow (h i hi) (Nat.not_lt.mp hlow)]
    simp [hlow]

end PackedFields
