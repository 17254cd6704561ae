/-
Substrings.

Membership of one string in another, and removal of all its occurrences, on
the characters of strings; and which of them are white space:

* `occursIn_iff` — occurrence as a split of the characters;
* `append_cons_inj` — where a character first occurs, a text is cut in one way;
* `occursIn_append_cons` — across a character the needle does not have, an
  occurrence lies on one side;
* `removeAll_append` — nothing is removed before the pattern first begins;
* `removeAll_append_cons` — a pattern with one mark is removed from the parts of
  a text that is split at the mark.
-/
import Mathlib.Data.List.Infix

/-- `str.isspace`, for one character. -/
def isSpace (c : Char) : Bool :=
  [9, 10, 11, 12, 13, 28, 29, 30, 31, 32, 133, 160, 5760, 8192, 8193, 8194, 8195, 8196, 8197,
    8198, 8199, 8200, 8201, 8202, 8232, 8233, 8239, 8287, 12288].contains c.toNat

/-- `needle in haystack`, for the characters of strings. -/
def occursIn (needle : String) (haystack : List Char) : Bool :=
  haystack.tails.any needle.toList.isPrefixOf

theorem occursIn_iff {needle : String} {haystack : List Char} :
    occursIn needle haystack = true ↔ needle.toList <:+: haystack := by
  unfold occursIn
  rw [List.any_eq_true, List.infix_iff_prefix_suffix]
  constructor
  · rintro ⟨tail, htail, hfront⟩
    exact ⟨tail, List.isPrefixOf_iff_prefix.mp hfront, (List.mem_tails _ _).mp htail⟩
  · rintro ⟨tail, hfront, htail⟩
    exact ⟨tail, (List.mem_tails _ _).mpr htail, List.isPrefixOf_iff_prefix.mpr hfront⟩

/-- A prefix without the character ends before its first occurrence. -/
theorem prefix_of_prefix_append_cons {α : Type} {c : α} : ∀ {needle left right : List α},
    c ∉ needle → needle <+: left ++ c :: right → needle <+: left := by
  intro needle
  induction needle with
  | nil => exact fun _ _ => List.nil_prefix
  | cons d needle ih =>
    intro left right hc h
    obtain ⟨hcd, hc⟩ := not_or.mp (List.mem_cons.not.mp hc)
    rcases left with _ | ⟨e, left⟩
    · exact absurd (List.cons_prefix_cons.mp h).1.symm hcd
    · obtain ⟨rfl, hrest⟩ := List.cons_prefix_cons.mp h
      exact List.cons_prefix_cons.mpr ⟨rfl, ih hc hrest⟩

/-- Where a character first occurs, a text is cut in one way. -/
theorem append_cons_inj {α : Type} {c : α} {left left' right right' : List α} (hc : c ∉ left)
    (hc' : c ∉ left') :
    left ++ c :: right = left' ++ c :: right' ↔ left = left' ∧ right = right' := by
  constructor
  · intro h
    have hprefix : left <+: left' :=
      prefix_of_prefix_append_cons hc (h ▸ List.prefix_append _ _)
    have hprefix' : left' <+: left :=
      prefix_of_prefix_append_cons hc' (h.symm ▸ List.prefix_append _ _)
    have hleft : left = left' := hprefix.eq_of_length_le hprefix'.length_le
    rw [hleft] at h
    exact ⟨hleft, (List.cons.inj (List.append_cancel_left h)).2⟩
  · rintro ⟨rfl, rfl⟩
    rfl

/-- A suffix without the character begins after its last occurrence. -/
theorem suffix_append_cons_iff {α : Type} {c : α} {needle left right : List α}
    (hc : c ∉ needle) : needle <:+ left ++ c :: right ↔ needle <:+ right := by
  constructor
  · intro h
    rw [← List.reverse_prefix, List.reverse_append, List.reverse_cons, List.append_assoc] at h
    rw [← List.reverse_prefix]
    exact prefix_of_prefix_append_cons (fun hmem => hc (List.mem_reverse.mp hmem)) h
  · exact fun h => h.trans ((List.suffix_cons c right).trans (List.suffix_append left _))

/-- An occurrence does not reach over a character the needle does not have. -/
theorem infix_append_cons {α : Type} {needle : List α} {c : α} (hc : c ∉ needle) :
    ∀ {left right : List α},
      needle <:+: left ++ c :: right ↔ needle <:+: left ∨ needle <:+: right := by
  intro left right
  constructor
  · induction left with
    | nil =>
      intro h
      rcases List.infix_cons_iff.mp h with hfront | hright
      · have hnil : needle <+: [] := prefix_of_prefix_append_cons hc hfront
        exact Or.inl hnil.isInfix
      · exact Or.inr hright
    | cons d left ih =>
      intro h
      rcases List.infix_cons_iff.mp h with hfront | hrest
      · have hleft : needle <+: d :: left := prefix_of_prefix_append_cons hc hfront
        exact Or.inl hleft.isInfix
      · rcases ih hrest with hleft | hright
        · exact Or.inl (List.infix_cons hleft)
        · exact Or.inr hright
  · rintro (h | h)
    · exact h.trans (List.prefix_append _ _).isInfix
    · exact h.trans ((List.suffix_cons _ _).trans (List.suffix_append _ _)).isInfix

theorem occursIn_append_cons {needle : String} {c : Char} (hc : c ∉ needle.toList)
    (left right : List Char) :
    occursIn needle (left ++ c :: right) = (occursIn needle left || occursIn needle right) := by
  rw [Bool.eq_iff_iff, Bool.or_eq_true, occursIn_iff, occursIn_iff, occursIn_iff]
  exact infix_append_cons hc

/-! ### Removing a substring -/

/-- Passes over the next `skip` characters, then removes every occurrence of
the pattern from the left. -/
def removeFrom (pattern : List Char) : ℕ → List Char → List Char
  | _, [] => []
  | skip + 1, _ :: cs => removeFrom pattern skip cs
  | 0, c :: cs =>
    if pattern.isPrefixOf (c :: cs) then removeFrom pattern (pattern.length - 1) cs
    else c :: removeFrom pattern 0 cs

/-- `text.replace(pattern, "")`, for a pattern that is not empty. -/
def removeAll (pattern text : List Char) : List Char := removeFrom pattern 0 text

/-- Nothing is removed before the first place where the pattern begins. -/
theorem removeAll_append {pattern tail : List Char} : ∀ {text : List Char},
    (∀ rest, rest <:+ text → rest ≠ [] → ¬pattern <+: rest ++ tail) →
      removeAll pattern (text ++ tail) = text ++ removeAll pattern tail := by
  intro text
  induction text with
  | nil => exact fun _ => rfl
  | cons c cs ih =>
    intro h
    have hhead : ¬pattern.isPrefixOf (c :: (cs ++ tail)) = true := fun hfront =>
      h (c :: cs) List.suffix_rfl (List.cons_ne_nil c cs) (List.isPrefixOf_iff_prefix.mp hfront)
    show removeFrom pattern 0 (c :: (cs ++ tail)) = _
    rw [removeFrom, if_neg hhead]
    have hrest : removeAll pattern (cs ++ tail) = cs ++ removeAll pattern tail :=
      ih fun rest hsuffix => h rest (hsuffix.trans (List.suffix_cons c cs))
    exact congrArg (c :: ·) hrest

/-- A text without the pattern is left alone. -/
theorem removeAll_of_not_in {pattern text : List Char} (h : ¬pattern <:+: text) :
    removeAll pattern text = text := by
  have hremove : removeAll pattern (text ++ []) = text ++ removeAll pattern [] := by
    refine removeAll_append fun rest hsuffix _ hfront => ?_
    rw [List.append_nil] at hfront
    exact h (hfront.isInfix.trans hsuffix.isInfix)
  rw [List.append_nil] at hremove
  rw [hremove]
  exact List.append_nil text

theorem removeFrom_append_cons {c : Char} {pattern right : List Char} (hc : c ∉ pattern) :
    ∀ {left : List Char} {skip : ℕ}, skip ≤ left.length →
      removeFrom (c :: pattern) skip (left ++ c :: right) =
        removeFrom (c :: pattern) skip left ++ removeFrom (c :: pattern) 0 (c :: right) := by
  intro left
  induction left with
  | nil =>
    intro skip hskip
    rw [Nat.le_zero.mp hskip]
    rfl
  | cons d left ih =>
    intro skip hskip
    rcases skip with _ | skip
    · rw [List.cons_append, removeFrom, removeFrom]
      by_cases hfront : (c :: pattern).isPrefixOf (d :: left) = true
      · -- the pattern ends before the next mark
        have hstarts : c :: pattern <+: d :: left := List.isPrefixOf_iff_prefix.mp hfront
        have hlonger : (c :: pattern).isPrefixOf (d :: (left ++ c :: right)) = true :=
          List.isPrefixOf_iff_prefix.mpr (hstarts.trans (List.prefix_append _ _))
        have hlength : pattern.length ≤ left.length :=
          (List.cons_prefix_cons.mp hstarts).2.length_le
        rw [if_pos hlonger, if_pos hfront]
        exact ih hlength
      · have hlonger : ¬(c :: pattern).isPrefixOf (d :: (left ++ c :: right)) = true := by
          intro h
          obtain ⟨hhead, htail⟩ := List.cons_prefix_cons.mp (List.isPrefixOf_iff_prefix.mp h)
          refine hfront (List.isPrefixOf_iff_prefix.mpr ?_)
          exact List.cons_prefix_cons.mpr ⟨hhead, prefix_of_prefix_append_cons hc htail⟩
        rw [if_neg hlonger, if_neg hfront, List.cons_append, ih (Nat.zero_le _)]
    · exact ih (Nat.le_of_succ_le_succ hskip)

/-- A pattern that begins with its only mark is removed from both parts of a
text that is split at the mark. -/
theorem removeAll_append_cons {c : Char} {pattern : List Char} (hc : c ∉ pattern)
    (left right : List Char) : removeAll (c :: pattern) (left ++ c :: right) =
      removeAll (c :: pattern) left ++ removeAll (c :: pattern) (c :: right) :=
  removeFrom_append_cons hc (Nat.zero_le _)
