/-
Replacing substrings.

All occurrences of a pattern in a text are replaced from the left.  A pattern
neither occurs nor is replaced across characters it does not have:

* `replaceAll_append_cons` — the two sides of such a character;
* `replaceAll_run` — the two sides of a run of such characters;
* `infix_run` — where a pattern occurs beside a run.
-/
import NeuralScalpel.Substrings

/-- Passes over the next `skip` characters, then replaces every occurrence of
the pattern from the left. -/
def replaceFrom (pattern new : List Char) : ℕ → List Char → List Char
  | _, [] => []
  | skip + 1, _ :: cs => replaceFrom pattern new skip cs
  | 0, c :: cs =>
    if pattern.isPrefixOf (c :: cs) then new ++ replaceFrom pattern new (pattern.length - 1) cs
    else c :: replaceFrom pattern new 0 cs

/-- `text.replace(pattern, new)`, for a pattern that is not empty. -/
def replaceAll (pattern new text : List Char) : List Char := replaceFrom pattern new 0 text

/-- `key.replace(pattern, new)`. -/
def replaceIn (pattern new key : String) : String :=
  String.ofList (replaceAll pattern.toList new.toList key.toList)

theorem toList_replaceIn (pattern new key : String) :
    (replaceIn pattern new key).toList =
      replaceAll pattern.toList new.toList key.toList := String.toList_ofList

section

variable {c : Char} {pattern : List Char}

theorem replaceFrom_append_cons (hne : pattern ≠ []) (hc : c ∉ pattern) (new right : List Char) :
    ∀ {left : List Char} {skip : ℕ}, skip ≤ left.length →
      replaceFrom pattern new skip (left ++ c :: right) =
        replaceFrom pattern new skip left ++ c :: replaceAll pattern new right := by
  have hhead : ∀ rest, ¬pattern.isPrefixOf (c :: rest) = true := by
    intro rest h
    rcases pattern with _ | ⟨d, pattern⟩
    · exact hne rfl
    · obtain ⟨rfl, -⟩ := List.cons_prefix_cons.mp (List.isPrefixOf_iff_prefix.mp h)
      exact hc List.mem_cons_self
  intro left
  induction left with
  | nil =>
    intro skip hskip
    rw [Nat.le_zero.mp hskip]
    exact if_neg (hhead right)
  | cons d left ih =>
    intro skip hskip
    rcases skip with _ | skip
    · rw [List.cons_append, replaceFrom, replaceFrom]
      by_cases hbegins : pattern.isPrefixOf (d :: left) = true
      · -- the pattern ends before the character
        have hstarts : pattern <+: d :: left := List.isPrefixOf_iff_prefix.mp hbegins
        have hlonger : pattern.isPrefixOf (d :: (left ++ c :: right)) = true :=
          List.isPrefixOf_iff_prefix.mpr (hstarts.trans (List.prefix_append (d :: left) _))
        have hlength : pattern.length - 1 ≤ left.length := by
          have := hstarts.length_le
          rw [List.length_cons] at this
          omega
        rw [if_pos hlonger, if_pos hbegins, List.append_assoc, ih hlength]
      · have hlonger : ¬pattern.isPrefixOf (d :: (left ++ c :: right)) = true := fun h =>
          hbegins (List.isPrefixOf_iff_prefix.mpr
            (@prefix_of_prefix_append_cons _ c pattern (d :: left) right hc
              (List.isPrefixOf_iff_prefix.mp h)))
        rw [if_neg hlonger, if_neg hbegins, List.cons_append, ih (Nat.zero_le _)]
    · exact ih (Nat.le_of_succ_le_succ hskip)

/-- A character the pattern does not have splits a text. -/
theorem replaceAll_append_cons (hne : pattern ≠ []) (hc : c ∉ pattern)
    (new left right : List Char) :
    replaceAll pattern new (left ++ c :: right) =
      replaceAll pattern new left ++ c :: replaceAll pattern new right :=
  replaceFrom_append_cons hne hc new right (Nat.zero_le _)

/-- A run of characters the pattern does not have is kept. -/
theorem replaceAll_run_append (hne : pattern ≠ []) {run : List Char} (hrun : ∀ c ∈ run, c ∉ pattern)
    (new right : List Char) :
    replaceAll pattern new (run ++ right) = run ++ replaceAll pattern new right := by
  induction run with
  | nil => rfl
  | cons c run ih =>
    have hsplit := replaceAll_append_cons hne (hrun c List.mem_cons_self) new [] (run ++ right)
    rw [List.nil_append] at hsplit
    rw [List.cons_append, hsplit, ih fun c hc => hrun c (List.mem_cons_of_mem _ hc)]
    rfl

theorem replaceAll_run (hne : pattern ≠ []) {run : List Char} (hempty : run ≠ [])
    (hrun : ∀ c ∈ run, c ∉ pattern) (new left right : List Char) :
    replaceAll pattern new (left ++ (run ++ right)) =
      replaceAll pattern new left ++ (run ++ replaceAll pattern new right) := by
  rcases run with _ | ⟨c, run⟩
  · exact absurd rfl hempty
  · rw [List.cons_append, replaceAll_append_cons hne (hrun c List.mem_cons_self),
      replaceAll_run_append hne fun c hc => hrun c (List.mem_cons_of_mem _ hc), List.cons_append]

theorem infix_run_append (hne : pattern ≠ []) {run right : List Char}
    (hrun : ∀ c ∈ run, c ∉ pattern) : pattern <:+: run ++ right ↔ pattern <:+: right := by
  induction run with
  | nil => exact Iff.rfl
  | cons c run ih =>
    have hsplit := @infix_append_cons _ pattern c (hrun c List.mem_cons_self) [] (run ++ right)
    rw [List.nil_append] at hsplit
    rw [List.cons_append, hsplit, ih fun c hc => hrun c (List.mem_cons_of_mem _ hc),
      or_iff_right fun h => hne (List.infix_nil.mp h)]

/-- A pattern occurs on one side of a run of characters it does not have. -/
theorem infix_run (hne : pattern ≠ []) {run : List Char} (hempty : run ≠ [])
    (hrun : ∀ c ∈ run, c ∉ pattern) (left right : List Char) :
    pattern <:+: left ++ (run ++ right) ↔ pattern <:+: left ∨ pattern <:+: right := by
  rcases run with _ | ⟨c, run⟩
  · exact absurd rfl hempty
  · rw [List.cons_append, infix_append_cons (hrun c List.mem_cons_self),
      infix_run_append hne fun c hc => hrun c (List.mem_cons_of_mem _ hc)]

end
