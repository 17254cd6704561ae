/-
Decimal fractions as text.

`decimalText places n` is the number `n / 10 ^ places`, without the zeros at
the end of its fraction, but for one digit.

* `toDigits_ten_injective` — the digits of a number determine it;
* `ofDigitChars_fixedDigits` — what a fixed number of digits stands for;
* `value_decimalText` — the digits of a text, with the places it has, stand for
  the number.
-/
import Mathlib.Data.List.DropRight
import Mathlib.Algebra.Ring.Nat
import Mathlib.Tactic.Ring

theorem toDigits_ten_injective : Function.Injective (Nat.toDigits 10) := by
  intro n n' h
  rw [← @Nat.ofDigitChars_ten_toDigits n, h, Nat.ofDigitChars_ten_toDigits]

theorem not_mem_toDigits {c : Char} (hc : c.isDigit = false) (n : ℕ) : c ∉ Nat.toDigits 10 n := by
  intro hmem
  rw [Nat.isDigit_of_mem_toDigits (by decide) (by decide) hmem] at hc
  cases hc

/-- The last digits of a number. -/
def fixedDigits : ℕ → ℕ → List Char
  | 0, _ => []
  | places + 1, n => fixedDigits places (n / 10) ++ [(n % 10).digitChar]

theorem length_fixedDigits (places n : ℕ) : (fixedDigits places n).length = places := by
  induction places generalizing n with
  | zero => rfl
  | succ places ih => rw [fixedDigits, List.length_append, ih, List.length_singleton]

theorem isDigit_digitChar {n : ℕ} (h : n < 10) : n.digitChar.isDigit = true := by
  have hall : ∀ k < 10, k.digitChar.isDigit = true := by decide
  exact hall n h

theorem isDigit_of_mem_fixedDigits {places n : ℕ} {c : Char} (h : c ∈ fixedDigits places n) :
    c.isDigit = true := by
  induction places generalizing n with
  | zero => exact absurd h List.not_mem_nil
  | succ places ih =>
    rw [fixedDigits, List.mem_append, List.mem_singleton] at h
    rcases h with h | rfl
    · exact ih h
    · exact isDigit_digitChar (Nat.mod_lt n (by decide))

/-- The digits stand for the remainder of the number. -/
theorem ofDigitChars_fixedDigits (places n start : ℕ) :
    Nat.ofDigitChars 10 (fixedDigits places n) start = start * 10 ^ places + n % 10 ^ places := by
  induction places generalizing n with
  | zero => rw [fixedDigits, Nat.ofDigitChars_nil, pow_zero, Nat.mod_one, mul_one, add_zero]
  | succ places ih =>
    rw [fixedDigits, Nat.ofDigitChars_append, ih,
      Nat.ofDigitChars_cons_digitChar_of_lt_ten (Nat.mod_lt n (by decide)), Nat.ofDigitChars_nil]
    have hsplit : n % 10 ^ (places + 1) = n % 10 + 10 * (n / 10 % 10 ^ places) := by
      rw [pow_succ', Nat.mod_mul]
    rw [hsplit, pow_succ]
    ring

/-- A fraction without the zeros at its end, but for one digit. -/
def trimFraction : List Char → List Char
  | [] => []
  | d :: ds => d :: ds.rdropWhile (· == '0')

theorem exists_append_zeros (ds : List Char) :
    ∃ zeros, ds = ds.rdropWhile (· == '0') ++ List.replicate zeros '0' := by
  induction ds using List.reverseRecOn with
  | nil => exact ⟨0, rfl⟩
  | append_singleton ds d ih =>
    by_cases hd : d = '0'
    · obtain ⟨zeros, hzeros⟩ := ih
      refine ⟨zeros + 1, ?_⟩
      rw [List.rdropWhile_concat_pos _ _ _ (by simp [hd]), List.replicate_succ',
        ← List.append_assoc, ← hzeros, hd]
    · refine ⟨0, ?_⟩
      rw [List.rdropWhile_concat_neg _ _ _ (by simp [hd]), List.replicate_zero, List.append_nil]

theorem exists_trimFraction_append (ds : List Char) :
    ∃ zeros, ds = trimFraction ds ++ List.replicate zeros '0' := by
  rcases ds with _ | ⟨d, ds⟩
  · exact ⟨0, rfl⟩
  · obtain ⟨zeros, hzeros⟩ := exists_append_zeros ds
    exact ⟨zeros, congrArg (d :: ·) hzeros⟩

/-- The digits before the point. -/
def wholeDigits (places n : ℕ) : List Char := Nat.toDigits 10 (n / 10 ^ places)

/-- The digits after the point. -/
def fractionDigits (places n : ℕ) : List Char := trimFraction (fixedDigits places n)

/-- `n / 10 ^ places`. -/
def decimalText (places n : ℕ) : List Char := wholeDigits places n ++ '.' :: fractionDigits places n

/-- The digits, with the places that are left, stand for the number. -/
theorem value_decimalText (places n : ℕ) :
    ∃ zeros, (fractionDigits places n).length + zeros = places ∧
      Nat.ofDigitChars 10 (wholeDigits places n ++ fractionDigits places n) 0 * 10 ^ zeros = n := by
  obtain ⟨zeros, hzeros⟩ := exists_trimFraction_append (fixedDigits places n)
  refine ⟨zeros, ?_, ?_⟩
  · have hlength := congrArg List.length hzeros
    rw [List.length_append, List.length_replicate, length_fixedDigits] at hlength
    exact hlength.symm
  · have hall : Nat.ofDigitChars 10 (wholeDigits places n ++ fixedDigits places n) 0 = n := by
      rw [Nat.ofDigitChars_append, wholeDigits, Nat.ofDigitChars_ten_toDigits,
        ofDigitChars_fixedDigits, Nat.div_add_mod']
    rw [hzeros, ← List.append_assoc, Nat.ofDigitChars_append,
      Nat.ofDigitChars_replicate_zero] at hall
    rw [mul_comm]
    exact hall

example : decimalText 4 20500 = "2.05".toList := by decide

example : decimalText 4 160000 = "16.0".toList := by decide
