/-
Rounding to the nearest integer, ties to the even neighbour.

* `abs_roundHalfEven_sub_le` — no number moves by more than a half;
* `roundHalfEven_le`, `le_roundHalfEven` — integer bounds survive rounding.
-/
import Mathlib.Algebra.Order.Floor.Ring
import Mathlib.Algebra.Order.Field.Basic
import Mathlib.Algebra.Ring.Int.Parity
import Mathlib.Data.Rat.Floor
import Mathlib.Tactic.Linarith
import Mathlib.Tactic.NormNum

section

variable {S : Type} [Field S] [LinearOrder S] [FloorRing S]

/-- The nearest integer; of two nearest ones the even one. -/
def roundHalfEven (x : S) : ℤ :=
  if Int.fract x < 1 - Int.fract x then ⌊x⌋
  else if 1 - Int.fract x < Int.fract x then ⌊x⌋ + 1
  else if Even ⌊x⌋ then ⌊x⌋
  else ⌊x⌋ + 1

variable [IsStrictOrderedRing S]

/-- A number is rounded down at most a half above an integer, and up at least
a half above it. -/
theorem roundHalfEven_cases (x : S) :
    (roundHalfEven x = ⌊x⌋ ∧ Int.fract x ≤ 1 / 2) ∨
      (roundHalfEven x = ⌊x⌋ + 1 ∧ 1 / 2 ≤ Int.fract x) := by
  unfold roundHalfEven
  by_cases hlow : Int.fract x < 1 - Int.fract x
  · exact Or.inl ⟨if_pos hlow, by linarith⟩
  · rw [if_neg hlow]
    by_cases hhigh : 1 - Int.fract x < Int.fract x
    · exact Or.inr ⟨if_pos hhigh, by linarith⟩
    · rw [if_neg hhigh]
      by_cases heven : Even ⌊x⌋
      · exact Or.inl ⟨if_pos heven, by linarith⟩
      · exact Or.inr ⟨if_neg heven, by linarith⟩

theorem abs_roundHalfEven_sub_le (x : S) : |(roundHalfEven x : S) - x| ≤ 1 / 2 := by
  have hsplit : (⌊x⌋ : S) + Int.fract x = x := Int.floor_add_fract x
  have hnonneg : 0 ≤ Int.fract x := Int.fract_nonneg x
  have hlt : Int.fract x < 1 := Int.fract_lt_one x
  rcases roundHalfEven_cases x with ⟨hround, hfract⟩ | ⟨hround, hfract⟩
  · rw [hround, abs_le]
    constructor <;> linarith
  · rw [hround, Int.cast_add, Int.cast_one, abs_le]
    constructor <;> linarith

theorem roundHalfEven_le {x : S} {n : ℤ} (h : x ≤ n) : roundHalfEven x ≤ n := by
  have hnear := (abs_le.mp (abs_roundHalfEven_sub_le x)).2
  have hcast : (roundHalfEven x : S) < ((n + 1 : ℤ) : S) := by
    push_cast
    linarith
  exact Int.lt_add_one_iff.mp (Int.cast_lt.mp hcast)

theorem le_roundHalfEven {x : S} {n : ℤ} (h : (n : S) ≤ x) : n ≤ roundHalfEven x := by
  have hnear := (abs_le.mp (abs_roundHalfEven_sub_le x)).1
  have hcast : ((n - 1 : ℤ) : S) < (roundHalfEven x : S) := by
    push_cast
    linarith
  exact Int.sub_one_lt_iff.mp (Int.cast_lt.mp hcast)

theorem roundHalfEven_nonneg {x : S} (h : 0 ≤ x) : 0 ≤ roundHalfEven x :=
  le_roundHalfEven (by rwa [Int.cast_zero])

example : [5 / 2, 7 / 2, -5 / 2, 13 / 5].map (roundHalfEven : ℚ → ℤ) = [2, 4, -2, 3] := by
  decide +kernel

end
