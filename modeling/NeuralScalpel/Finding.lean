/-
First occurrences.

* `findIn_eq_some_iff` — where a pattern first occurs;
* `earliest_eq_some_iff` — where one of several patterns first occurs;
* `le_length_upTo_iff` — how long a list is up to its first element of a kind;
* `le_length_rdropWhile_iff` — how long it is without its last ones of a kind.
-/
import Mathlib.Data.List.DropRight
import Mathlib.Data.List.Infix

section

variable {α : Type} [DecidableEq α]

/-- Where a pattern first occurs. -/
def findIn (pattern : List α) : List α → Option ℕ
  | [] => if pattern = [] then some 0 else none
  | c :: cs => if pattern.isPrefixOf (c :: cs) then some 0 else (findIn pattern cs).map (· + 1)

theorem findIn_eq_some_iff {pattern text : List α} {i : ℕ} (hi : i ≤ text.length) :
    findIn pattern text = some i ↔
      pattern <+: text.drop i ∧ ∀ j < i, ¬pattern <+: text.drop j := by
  induction text generalizing i with
  | nil =>
    obtain rfl : i = 0 := Nat.le_zero.mp hi
    by_cases h : pattern = [] <;> simp [findIn, h]
  | cons c cs ih =>
    rw [findIn]
    by_cases h : pattern.isPrefixOf (c :: cs) = true
    · have hbegins := List.isPrefixOf_iff_prefix.mp h
      rw [if_pos h, Option.some_inj]
      constructor
      · rintro rfl
        exact ⟨hbegins, fun j hj => absurd hj (Nat.not_lt_zero j)⟩
      · rintro ⟨-, hfirst⟩
        rcases i with _ | i
        · rfl
        · exact absurd hbegins (hfirst 0 (Nat.succ_pos i))
    · have hnot : ¬pattern <+: c :: cs := fun hp => h (List.isPrefixOf_iff_prefix.mpr hp)
      rw [if_neg h]
      rcases i with _ | i
      · simp [hnot]
      · rw [List.length_cons] at hi
        rw [Option.map_eq_some_iff]
        constructor
        · rintro ⟨i', hi', hsucc⟩
          obtain rfl : i' = i := by omega
          obtain ⟨hat, hfirst⟩ := (ih (by omega)).mp hi'
          refine ⟨hat, fun j hj => ?_⟩
          rcases j with _ | j
          · exact hnot
          · exact hfirst j (by omega)
        · rintro ⟨hat, hfirst⟩
          exact ⟨i, (ih (by omega)).mpr ⟨hat, fun j hj => hfirst (j + 1) (by omega)⟩, rfl⟩

theorem findIn_le_length {pattern text : List α} {i : ℕ} (h : findIn pattern text = some i) :
    i ≤ text.length := by
  induction text generalizing i with
  | nil =>
    rw [findIn] at h
    split at h
    · cases h
      exact Nat.zero_le _
    · cases h
  | cons c cs ih =>
    rw [findIn] at h
    split at h
    · cases h
      exact Nat.zero_le _
    · obtain ⟨i', hi', rfl⟩ := Option.map_eq_some_iff.mp h
      exact Nat.succ_le_succ (ih hi')

theorem findIn_ne_none {pattern text : List α} {i : ℕ} (hi : i ≤ text.length)
    (h : pattern <+: text.drop i) : findIn pattern text ≠ none := by
  induction text generalizing i with
  | nil =>
    obtain rfl : i = 0 := Nat.le_zero.mp hi
    rw [List.drop_zero, List.prefix_nil] at h
    simp [findIn, h]
  | cons c cs ih =>
    rw [findIn]
    split
    · simp
    · rename_i hnot
      rcases i with _ | i
      · exact absurd (List.isPrefixOf_iff_prefix.mpr h) hnot
      · rw [ne_eq, Option.map_eq_none_iff]
        exact ih (by simpa using hi) h

/-! ### Several patterns -/

/-- The lesser of two places, if there are any. -/
def lesser : Option ℕ → Option ℕ → Option ℕ
  | none, j => j
  | some i, none => some i
  | some i, some j => if j < i then some j else some i

/-- Where one of the patterns first occurs. -/
def earliest (patterns : List (List α)) (text : List α) : Option ℕ :=
  patterns.foldl (fun best pattern => lesser best (findIn pattern text)) none

/-- The least of some places. -/
def LeastPlace (places : List (Option ℕ)) : Option ℕ → Prop
  | none => ∀ j, some j ∉ places
  | some i => some i ∈ places ∧ ∀ j, some j ∈ places → i ≤ j

theorem LeastPlace.snoc {places : List (Option ℕ)} {best : Option ℕ} (h : LeastPlace places best)
    (place : Option ℕ) : LeastPlace (places ++ [place]) (lesser best place) := by
  rcases best with _ | b
  · rcases place with _ | i
    · intro j hj
      rcases List.mem_append.mp hj with hj | hj
      · exact h j hj
      · simp at hj
    · refine ⟨by simp, fun j hj => ?_⟩
      rcases List.mem_append.mp hj with hj | hj
      · exact absurd hj (h j)
      · simp at hj
        omega
  · obtain ⟨hmem, hle⟩ := h
    rcases place with _ | i
    · refine ⟨List.mem_append_left _ hmem, fun j hj => ?_⟩
      rcases List.mem_append.mp hj with hj | hj
      · exact hle j hj
      · simp at hj
    · rw [lesser]
      by_cases hlt : i < b
      · rw [if_pos hlt]
        refine ⟨by simp, fun j hj => ?_⟩
        rcases List.mem_append.mp hj with hj | hj
        · exact hlt.le.trans (hle j hj)
        · simp at hj
          omega
      · rw [if_neg hlt]
        refine ⟨List.mem_append_left _ hmem, fun j hj => ?_⟩
        rcases List.mem_append.mp hj with hj | hj
        · exact hle j hj
        · simp at hj
          omega

theorem leastPlace_earliest (patterns : List (List α)) (text : List α) :
    LeastPlace (patterns.map fun p => findIn p text) (earliest patterns text) := by
  have hloop : ∀ (rest done : List (List α)) (best : Option ℕ),
      LeastPlace (done.map fun p => findIn p text) best →
      LeastPlace ((done ++ rest).map fun p => findIn p text)
        (rest.foldl (fun best pattern => lesser best (findIn pattern text)) best) := by
    intro rest
    induction rest with
    | nil =>
      intro done best h
      rw [List.append_nil]
      exact h
    | cons p rest ih =>
      intro done best h
      rw [List.append_cons]
      refine ih (done ++ [p]) _ ?_
      rw [List.map_append]
      exact h.snoc (findIn p text)
  exact hloop patterns [] none fun j hj => List.not_mem_nil hj

end

section

variable {α : Type}

/-- One of the patterns first occurs here. -/
def FirstAt (patterns : List (List α)) (text : List α) (i : ℕ) : Prop :=
  (∃ p ∈ patterns, p <+: text.drop i) ∧ ∀ j < i, ∀ p ∈ patterns, ¬p <+: text.drop j

theorem FirstAt.unique {patterns : List (List α)} {text : List α} {i j : ℕ}
    (hi : FirstAt patterns text i) (hj : FirstAt patterns text j) : i = j := by
  obtain ⟨⟨p, hp, hpi⟩, hifirst⟩ := hi
  obtain ⟨⟨q, hq, hqj⟩, hjfirst⟩ := hj
  rcases lt_trichotomy i j with hlt | heq | hgt
  · exact absurd hpi (hjfirst i hlt p hp)
  · exact heq
  · exact absurd hqj (hifirst j hgt q hq)

variable {patterns : List (List α)} {text : List α} {i : ℕ}

theorem lt_length_of_prefix_drop {p : List α} (hne : p ≠ []) (h : p <+: text.drop i) :
    i < text.length := by
  by_contra hge
  rw [List.drop_of_length_le (Nat.not_lt.mp hge), List.prefix_nil] at h
  exact hne h

variable [DecidableEq α]

theorem earliest_eq_some_iff (hne : ∀ p ∈ patterns, p ≠ []) :
    earliest patterns text = some i ↔ FirstAt patterns text i := by
  have hleast := leastPlace_earliest patterns text
  have hfind : ∀ p ∈ patterns, ∀ j, p <+: text.drop j →
      ∃ k ≤ j, findIn p text = some k := by
    intro p hp j hpj
    have hj := (lt_length_of_prefix_drop (hne p hp) hpj).le
    obtain ⟨k, hk⟩ := Option.ne_none_iff_exists'.mp (findIn_ne_none hj hpj)
    refine ⟨k, Nat.not_lt.mp fun hlt => ?_, hk⟩
    exact ((findIn_eq_some_iff (findIn_le_length hk)).mp hk).2 j hlt hpj
  have hfirst : ∀ k, earliest patterns text = some k → FirstAt patterns text k := by
    intro k hk
    rw [hk] at hleast
    obtain ⟨hmem, hle⟩ := hleast
    obtain ⟨p, hp, hpk⟩ := List.mem_map.mp hmem
    refine ⟨⟨p, hp, ((findIn_eq_some_iff (findIn_le_length hpk)).mp hpk).1⟩, ?_⟩
    intro j hj q hq hqj
    obtain ⟨m, hm, hqm⟩ := hfind q hq j hqj
    have hkm := hle m (List.mem_map.mpr ⟨q, hq, hqm⟩)
    omega
  constructor
  · exact hfirst i
  · intro h
    obtain ⟨p, hp, hpi⟩ := h.1
    obtain ⟨k, -, hpk⟩ := hfind p hp i hpi
    rcases hearliest : earliest patterns text with _ | m
    · rw [hearliest] at hleast
      exact absurd (List.mem_map.mpr ⟨p, hp, hpk⟩) (hleast k)
    · rw [(hfirst m hearliest).unique h]

end

/-! ### Up to an element -/

section

variable {α : Type}

theorem mem_take_iff {c : α} {l : List α} {n : ℕ} : c ∈ l.take n ↔ ∃ k < n, l[k]? = some c := by
  rw [List.mem_iff_getElem?]
  constructor
  · rintro ⟨k, hk⟩
    rw [List.getElem?_take] at hk
    split at hk
    · exact ⟨k, ‹_›, hk⟩
    · cases hk
  · rintro ⟨k, hlt, hk⟩
    exact ⟨k, by rw [List.getElem?_take_of_lt hlt, hk]⟩

theorem singleton_prefix_drop {c : α} {l : List α} {i : ℕ} :
    [c] <+: l.drop i ↔ l[i]? = some c := by
  rw [← List.head?_drop]
  rcases l.drop i with _ | ⟨d, rest⟩ <;> simp [eq_comm]

/-- How much is left without the last elements of a kind. -/
theorem le_length_rdropWhile_iff {p : α → Bool} {l : List α} {m : ℕ} :
    m + 1 ≤ (l.rdropWhile p).length ↔ ∃ k ≥ m, ∃ x, l[k]? = some x ∧ p x = false := by
  induction l using List.reverseRecOn with
  | nil => simp
  | append_singleton l x ih =>
    rw [List.rdropWhile_concat]
    by_cases hx : p x = true
    · rw [if_pos hx, ih]
      refine exists_congr fun k => and_congr_right fun _ => exists_congr fun y => ?_
      constructor
      · rintro ⟨hk, hy⟩
        have hlt : k < l.length := (List.getElem?_eq_some_iff.mp hk).1
        exact ⟨by rw [List.getElem?_append_left hlt, hk], hy⟩
      · rintro ⟨hk, hy⟩
        rcases Nat.lt_or_ge k l.length with hlt | hge
        · rw [List.getElem?_append_left hlt] at hk
          exact ⟨hk, hy⟩
        · -- the last element is of the kind
          rw [List.getElem?_append_right hge] at hk
          have hmem := List.mem_singleton.mp (List.mem_of_getElem? hk)
          rw [hmem, hx] at hy
          cases hy
    · rw [if_neg hx, List.length_append, List.length_singleton]
      constructor
      · intro hle
        exact ⟨l.length, by omega, x, by simp, Bool.eq_false_iff.mpr hx⟩
      · rintro ⟨k, hk, y, hy, -⟩
        have hlt := (List.getElem?_eq_some_iff.mp hy).1
        rw [List.length_append, List.length_singleton] at hlt
        omega

variable [DecidableEq α]

/-- A list up to and with its first `c`, or all of it. -/
def upTo (c : α) (l : List α) : List α :=
  match findIn [c] l with
  | some i => l.take (i + 1)
  | none => l

theorem upTo_begins (c : α) (l : List α) : upTo c l <+: l := by
  unfold upTo
  split
  · exact List.take_prefix _ _
  · exact List.prefix_rfl

/-- How much there is up to the first `c`. -/
theorem le_length_upTo_iff {c : α} {l : List α} {m : ℕ} :
    m + 1 ≤ (upTo c l).length ↔ m + 1 ≤ l.length ∧ c ∉ l.take m := by
  unfold upTo
  rcases hfind : findIn [c] l with _ | i
  · have hnot : c ∉ l.take m := by
      intro hmem
      obtain ⟨k, -, hk⟩ := mem_take_iff.mp hmem
      have hk' := (List.getElem?_eq_some_iff.mp hk).1
      exact findIn_ne_none hk'.le (singleton_prefix_drop.mpr hk) hfind
    exact (and_iff_left hnot).symm
  · obtain ⟨hat, hfirst⟩ := (findIn_eq_some_iff (findIn_le_length hfind)).mp hfind
    rw [singleton_prefix_drop] at hat
    have hlt := (List.getElem?_eq_some_iff.mp hat).1
    show m + 1 ≤ (l.take (i + 1)).length ↔ _
    rw [List.length_take, mem_take_iff]
    constructor
    · intro hle
      refine ⟨by omega, ?_⟩
      rintro ⟨k, hk, hc⟩
      exact hfirst k (by omega) (singleton_prefix_drop.mpr hc)
    · rintro ⟨hle, hnot⟩
      have hmi : m ≤ i := Nat.not_lt.mp fun hmi => hnot ⟨i, hmi, hat⟩
      omega

/-- Only the last element is `c`. -/
theorem eq_last_of_upTo {c : α} {l : List α} {i : ℕ} (h : (upTo c l)[i]? = some c) :
    i + 1 = (upTo c l).length := by
  have hlt := (List.getElem?_eq_some_iff.mp h).1
  refine Nat.le_antisymm hlt (Nat.not_lt.mp fun hlonger => ?_)
  refine (le_length_upTo_iff.mp hlonger).2 (mem_take_iff.mpr ⟨i, by omega, ?_⟩)
  obtain ⟨rest, hrest⟩ := upTo_begins c l
  rw [← hrest, List.getElem?_append_left hlt, h]

end
