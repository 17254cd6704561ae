/-
Words of a text.

A text is cut into words at its separators, with empty words where separators
meet.  What some word of the text is like can be read off the places where
words start:

* `AtWordStart` — at the start of the text, or right after a separator;
* `exists_word_iff` — some word has a property iff the text up to the next
  separator has it, from some place where words start;
* `exists_word_prefix_iff`, `mem_words_iff` — so a word begins with a needle, or
  is one, exactly where the needle stands at such a place.
-/
import Mathlib.Data.List.Infix
import Mathlib.Data.List.TakeWhile

namespace Words

variable {α : Type} {sep : α → Bool}

/-- From the start of the text, or from right after one of its separators, the
rest of the text is in `Q`. -/
def AtWordStart (sep : α → Bool) (Q : List α → Prop) (text : List α) : Prop :=
  Q text ∨ ∃ c rest, sep c = true ∧ c :: rest <:+ text ∧ Q rest

/-- The needle stands where a word starts. -/
def BeginsWord (sep : α → Bool) (needle text : List α) : Prop :=
  AtWordStart sep (fun rest => needle <+: rest) text

/-- The needle stands where a word starts, and the word ends with it. -/
def StandsAlone (sep : α → Bool) (needle text : List α) : Prop :=
  AtWordStart sep (fun rest => ∃ post, rest = needle ++ post ∧ ∀ c ∈ post.head?, sep c = true) text

theorem AtWordStart.congr {Q Q' : List α → Prop} (h : ∀ rest, Q rest ↔ Q' rest) {text : List α} :
    AtWordStart sep Q text ↔ AtWordStart sep Q' text := by
  unfold AtWordStart
  simp only [h]

/-! ### Cutting -/

/-- The text up to its first separator. -/
def firstWord (sep : α → Bool) (text : List α) : List α := text.takeWhile fun c => !sep c

theorem head?_splitOnP (sep : α → Bool) (text : List α) :
    (text.splitOnP sep).head? = some (firstWord sep text) := by
  induction text with
  | nil => rfl
  | cons c text ih =>
    rw [List.splitOnP_cons_eq_if_modifyHead, firstWord]
    by_cases hc : sep c = true
    · simp [hc]
    · simp [hc, ih, firstWord]

/-- The words after the first start right after a separator. -/
theorem exists_later_word_iff {W : List α → Prop} : ∀ {text : List α},
    (∃ t ∈ (text.splitOnP sep).tail, W t) ↔
      ∃ c rest, sep c = true ∧ c :: rest <:+ text ∧ W (firstWord sep rest) := by
  intro text
  induction text with
  | nil => simp
  | cons d text ih =>
    have hsuffix : ∀ {c : α} {rest : List α}, c :: rest <:+ d :: text ↔
        c = d ∧ rest = text ∨ c :: rest <:+ text := by
      intro c rest
      rw [List.suffix_cons_iff, List.cons.injEq]
    rw [List.splitOnP_cons_eq_if_modifyHead]
    by_cases hd : sep d = true
    · -- a separator: what was the first word is one of the later words now
      obtain ⟨word, words, hsplit⟩ := List.exists_cons_of_ne_nil (text.splitOnP_ne_nil sep)
      have hfirst : word = firstWord sep text := by
        have hhead := head?_splitOnP sep text
        rw [hsplit] at hhead
        exact Option.some.inj hhead
      rw [hsplit, List.tail_cons] at ih
      rw [if_pos hd, List.tail_cons, hsplit, List.exists_mem_cons_iff, ih, hfirst]
      constructor
      · rintro (hword | ⟨c, rest, hc, hrest, hword⟩)
        · exact ⟨d, text, hd, List.suffix_rfl, hword⟩
        · exact ⟨c, rest, hc, hsuffix.mpr (Or.inr hrest), hword⟩
      · rintro ⟨c, rest, hc, hrest, hword⟩
        rcases hsuffix.mp hrest with ⟨rfl, rfl⟩ | hrest
        · exact Or.inl hword
        · exact Or.inr ⟨c, rest, hc, hrest, hword⟩
    · -- no separator: only the first word grows
      rw [if_neg hd, List.tail_modifyHead, ih]
      refine exists_congr fun c => exists_congr fun rest => and_congr_right fun hc => ?_
      refine and_congr_left fun _ => ⟨fun h => hsuffix.mpr (Or.inr h), fun h => ?_⟩
      rcases hsuffix.mp h with ⟨rfl, -⟩ | hrest
      · exact absurd hc hd
      · exact hrest

/-- Some word has a property iff the text up to the next separator has it, from
some place where words start. -/
theorem exists_word_iff {W : List α → Prop} {text : List α} :
    (∃ t ∈ text.splitOnP sep, W t) ↔
      AtWordStart sep (fun rest => W (firstWord sep rest)) text := by
  unfold AtWordStart
  rw [← exists_later_word_iff]
  have hhead := head?_splitOnP sep text
  obtain ⟨word, words, hsplit⟩ := List.exists_cons_of_ne_nil (text.splitOnP_ne_nil sep)
  rw [hsplit] at hhead ⊢
  rw [List.exists_mem_cons_iff, List.tail_cons, Option.some.inj hhead]

/-- A word has no separators in it. -/
theorem not_sep_of_mem_word {word text : List α} (h : word ∈ text.splitOnP sep) :
    ∀ c ∈ word, sep c = false := by
  have hfirst : ∀ rest, word = firstWord sep rest → ∀ c ∈ word, sep c = false := by
    rintro rest rfl c hc
    simpa using List.mem_takeWhile_imp hc
  rcases exists_word_iff.mp ⟨word, h, rfl⟩ with hword | ⟨_, rest, _, _, hword⟩
  · exact hfirst text hword
  · exact hfirst rest hword

/-! ### Needles without separators -/

variable {needle : List α} (hneedle : ∀ c ∈ needle, sep c = false)
include hneedle

theorem firstWord_append (rest : List α) :
    firstWord sep (needle ++ rest) = needle ++ firstWord sep rest :=
  List.takeWhile_append_of_pos fun c hc => by simp [hneedle c hc]

/-- A word begins with the needle where the text does. -/
theorem prefix_firstWord_iff {rest : List α} :
    needle <+: firstWord sep rest ↔ needle <+: rest := by
  constructor
  · exact fun h => h.trans (List.takeWhile_prefix _)
  · rintro ⟨post, rfl⟩
    rw [firstWord_append hneedle]
    exact List.prefix_append needle _

/-- A word is the needle where the text goes on with a separator, or ends. -/
theorem firstWord_eq_iff {rest : List α} :
    firstWord sep rest = needle ↔
      ∃ post, rest = needle ++ post ∧ ∀ c ∈ post.head?, sep c = true := by
  constructor
  · intro h
    obtain ⟨post, rfl⟩ : needle <+: rest := h ▸ List.takeWhile_prefix _
    refine ⟨post, rfl, fun c hc => ?_⟩
    rw [firstWord_append hneedle, List.append_right_eq_self] at h
    cases post with
    | nil => cases hc
    | cons d post =>
      obtain rfl : d = c := Option.some.inj hc
      by_contra hsep
      rw [firstWord, List.takeWhile_cons_of_pos (by simp [hsep])] at h
      cases h
  · rintro ⟨post, rfl, hpost⟩
    rw [firstWord_append hneedle]
    cases post with
    | nil => simp [firstWord]
    | cons d post => simp [firstWord, hpost d rfl]

/-- Some word begins with the needle iff the needle stands where a word starts. -/
theorem exists_word_prefix_iff {text : List α} :
    (∃ t ∈ text.splitOnP sep, needle <+: t) ↔ BeginsWord sep needle text := by
  rw [exists_word_iff]
  exact AtWordStart.congr fun _ => prefix_firstWord_iff hneedle

/-- The needle is a word iff it stands alone somewhere. -/
theorem mem_words_iff {text : List α} :
    needle ∈ text.splitOnP sep ↔ StandsAlone sep needle text := by
  have hexists : needle ∈ text.splitOnP sep ↔ ∃ t ∈ text.splitOnP sep, t = needle := by simp
  rw [hexists, exists_word_iff]
  exact AtWordStart.congr fun _ => firstWord_eq_iff hneedle

end Words
