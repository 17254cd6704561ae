/-
Matching the two halves of pairs in a stream, up to a limit.

A matchable element of a stream has a partner.  An eligible element waits for
its partner, or meets it when it is already there, as long as the limit on the
number of pairs is not exhausted; any other element passes alone.  Histories
are lists of the elements seen, the latest first.

* `perm_of_nodup` — what has passed, what has met and what waits is a
  permutation of what has been seen;
* `mem_single_iff`, `mem_paired_iff`, `mem_waiting_iff` — what becomes of an
  element is told by the decisions at its place and its partner's;
* `waiting_eq_nil_iff` — nothing is left waiting exactly when partners decide
  alike;
* `takesAt_mono` — from a higher count fewer elements wait.
-/
import Mathlib.Data.List.Basic
import Mathlib.Data.List.Perm.Basic
import Mathlib.Data.Nat.Notation

/-- Partners, the elements that have one, the elements that wait for one, and
the limit. -/
structure Pairing (α : Type) where
  partner : α → α
  matchable : α → Bool
  eligible : α → Bool
  exhausted : ℕ → Bool
  matchable_partner : ∀ {x : α}, matchable x = true → matchable (partner x) = true
  partner_partner : ∀ {x : α}, matchable x = true → partner (partner x) = x
  partner_ne : ∀ {x : α}, matchable x = true → partner x ≠ x
  exhausted_mono : ∀ {m n : ℕ}, m ≤ n → exhausted m = true → exhausted n = true

namespace Pairing

variable {α : Type} [DecidableEq α] (P : Pairing α)

/-- An eligible element whose eligible partner has been seen. -/
def Completes (seen : List α) (x : α) : Prop :=
  P.matchable x = true ∧ P.eligible x = true ∧ P.partner x ∈ seen ∧
    P.eligible (P.partner x) = true

instance (seen : List α) (x : α) : Decidable (P.Completes seen x) :=
  inferInstanceAs (Decidable (_ ∧ _ ∧ _ ∧ _))

/-- The pairs of eligible elements seen, as if there were no limit. -/
def pairs : List α → ℕ
  | [] => 0
  | x :: seen => pairs seen + if P.Completes seen x then 1 else 0

/-- An element is matched rather than passed alone. -/
def takes (start : ℕ) (seen : List α) (x : α) : Bool :=
  P.eligible x && !P.exhausted (start + P.pairs seen)

/-- What happens to an element. -/
inductive Branch
  | alone
  | waits
  | meets
  deriving DecidableEq, Repr

def branch (start : ℕ) (seen : List α) (x : α) : Branch :=
  if P.takes start seen x = true then
    if P.Completes seen x then .meets else .waits
  else .alone

/-- The elements that passed alone. -/
def single (start : ℕ) : List α → List α
  | [] => []
  | x :: seen =>
    match P.branch start seen x with
    | .alone => x :: single start seen
    | .waits | .meets => single start seen

/-- The elements that met their partners. -/
def paired (start : ℕ) : List α → List α
  | [] => []
  | x :: seen =>
    match P.branch start seen x with
    | .meets => x :: P.partner x :: paired start seen
    | .alone | .waits => paired start seen

/-- The elements that wait. -/
def waiting (start : ℕ) : List α → List α
  | [] => []
  | x :: seen =>
    match P.branch start seen x with
    | .alone => waiting start seen
    | .waits => x :: waiting start seen
    | .meets => (waiting start seen).erase (P.partner x)

variable {P} {start : ℕ} {seen : List α} {x y : α}

theorem single_cons : P.single start (x :: seen) =
    match P.branch start seen x with
    | .alone => x :: P.single start seen
    | .waits | .meets => P.single start seen := rfl

theorem paired_cons : P.paired start (x :: seen) =
    match P.branch start seen x with
    | .meets => x :: P.partner x :: P.paired start seen
    | .alone | .waits => P.paired start seen := rfl

theorem waiting_cons : P.waiting start (x :: seen) =
    match P.branch start seen x with
    | .alone => P.waiting start seen
    | .waits => x :: P.waiting start seen
    | .meets => (P.waiting start seen).erase (P.partner x) := rfl

theorem pairs_cons : P.pairs (x :: seen) = P.pairs seen + if P.Completes seen x then 1 else 0 :=
  rfl

/-! ### One element -/

theorem takes_iff : P.takes start seen x = true ↔
    P.eligible x = true ∧ P.exhausted (start + P.pairs seen) = false := by
  unfold takes
  rw [Bool.and_eq_true, Bool.not_eq_true']

theorem branch_alone_iff : P.branch start seen x = .alone ↔ P.takes start seen x = false := by
  unfold branch
  by_cases htakes : P.takes start seen x = true
  · by_cases hmeet : P.Completes seen x <;> simp [htakes, hmeet]
  · simp [htakes]

theorem branch_waits_iff : P.branch start seen x = .waits ↔
    P.takes start seen x = true ∧ ¬P.Completes seen x := by
  unfold branch
  by_cases htakes : P.takes start seen x = true
  · by_cases hmeet : P.Completes seen x <;> simp [htakes, hmeet]
  · simp [htakes]

theorem branch_meets_iff : P.branch start seen x = .meets ↔
    P.takes start seen x = true ∧ P.Completes seen x := by
  unfold branch
  by_cases htakes : P.takes start seen x = true
  · by_cases hmeet : P.Completes seen x <;> simp [htakes, hmeet]
  · simp [htakes]

theorem pairs_le_cons : P.pairs seen ≤ P.pairs (x :: seen) := Nat.le_add_right _ _

theorem exhausted_cons (h : P.exhausted (start + P.pairs seen) = true) :
    P.exhausted (start + P.pairs (x :: seen)) = true :=
  P.exhausted_mono (Nat.add_le_add_left pairs_le_cons start) h

/-- As long as the limit is not reached, it was not reached before. -/
theorem exhausted_of_cons (h : P.exhausted (start + P.pairs (x :: seen)) = false) :
    P.exhausted (start + P.pairs seen) = false := by
  refine Bool.eq_false_iff.mpr fun hseen => ?_
  rw [exhausted_cons hseen] at h
  cases h

/-! ### Waiting -/

theorem mem_of_mem_waiting : ∀ {seen : List α}, x ∈ P.waiting start seen → x ∈ seen := by
  intro seen
  induction seen with
  | nil => exact fun h => h
  | cons y seen ih =>
    intro h
    unfold waiting at h
    rcases hb : P.branch start seen y with _ | _ | _ <;> rw [hb] at h
    · exact List.mem_cons_of_mem y (ih h)
    · rcases List.mem_cons.mp h with rfl | h
      · exact List.mem_cons_self
      · exact List.mem_cons_of_mem y (ih h)
    · exact List.mem_cons_of_mem y (ih (List.mem_of_mem_erase h))

theorem nodup_waiting : ∀ {seen : List α}, seen.Nodup → (P.waiting start seen).Nodup := by
  intro seen
  induction seen with
  | nil => exact fun _ => List.nodup_nil
  | cons y seen ih =>
    intro hnodup
    obtain ⟨hy, hseen⟩ := List.nodup_cons.mp hnodup
    unfold waiting
    rcases hb : P.branch start seen y with _ | _ | _
    · exact ih hseen
    · exact List.nodup_cons.mpr ⟨fun h => hy (mem_of_mem_waiting h), ih hseen⟩
    · exact (ih hseen).erase _

theorem eligible_of_mem_waiting : ∀ {seen : List α}, x ∈ P.waiting start seen →
    P.eligible x = true := by
  intro seen
  induction seen with
  | nil => exact fun h => absurd h List.not_mem_nil
  | cons y seen ih =>
    intro h
    unfold waiting at h
    rcases hb : P.branch start seen y with _ | _ | _ <;> rw [hb] at h
    · exact ih h
    · rcases List.mem_cons.mp h with rfl | h
      · exact (takes_iff.mp (branch_waits_iff.mp hb).1).1
      · exact ih h
    · exact ih (List.mem_of_mem_erase h)

/-- A matchable element that was seen before the limit, and whose partner was
not, waits. -/
theorem mem_waiting_of_lone (hmatch : P.matchable x = true) : ∀ {seen : List α}, x ∈ seen →
    P.eligible x = true → P.exhausted (start + P.pairs seen) = false → P.partner x ∉ seen →
    x ∈ P.waiting start seen := by
  intro seen
  induction seen with
  | nil => exact fun h => absurd h List.not_mem_nil
  | cons y seen ih =>
    intro hx helig hlimit hpartner
    have hlimit' := exhausted_of_cons hlimit
    have hpartner' : P.partner x ∉ seen := fun h => hpartner (List.mem_cons_of_mem y h)
    have hkeep : x ≠ y → x ∈ P.waiting start seen := fun hne =>
      ih ((List.mem_cons.mp hx).resolve_left hne) helig hlimit' hpartner'
    unfold waiting
    rcases hb : P.branch start seen y with _ | _ | _
    · refine hkeep ?_
      rintro rfl
      rw [branch_alone_iff, takes_iff.mpr ⟨helig, hlimit'⟩] at hb
      cases hb
    · by_cases hxy : x = y
      · exact List.mem_cons.mpr (.inl hxy)
      · exact List.mem_cons_of_mem y (hkeep hxy)
    · obtain ⟨-, hy, -, hmem, -⟩ := branch_meets_iff.mp hb
      have hxy : x ≠ y := by
        rintro rfl
        exact hpartner' hmem
      have hne : x ≠ P.partner y := by
        rintro rfl
        exact hpartner (List.mem_cons.mpr (.inl (P.partner_partner hy)))
      exact (List.mem_erase_of_ne hne).mpr (hkeep hxy)

/-- An element that meets its partner finds it waiting. -/
theorem partner_mem_waiting (hx : x ∉ seen) (h : P.branch start seen x = .meets) :
    P.partner x ∈ P.waiting start seen := by
  obtain ⟨htakes, hmatch, -, hmem, hpartner⟩ := branch_meets_iff.mp h
  refine mem_waiting_of_lone (P.matchable_partner hmatch) hmem hpartner (takes_iff.mp htakes).2 ?_
  rwa [P.partner_partner hmatch]

variable (start) in
/-- What passed alone, what met and what waits is what was seen. -/
theorem perm_of_nodup : ∀ {seen : List α}, seen.Nodup →
    (P.single start seen ++ P.paired start seen ++ P.waiting start seen).Perm seen := by
  intro seen
  induction seen with
  | nil => exact fun _ => List.Perm.refl []
  | cons x seen ih =>
    intro hnodup
    obtain ⟨hx, hseen⟩ := List.nodup_cons.mp hnodup
    have hperm := ih hseen
    unfold single paired waiting
    rcases hb : P.branch start seen x with _ | _ | _
    · exact hperm.cons x
    · exact List.perm_middle.trans (hperm.cons x)
    · have hmem := partner_mem_waiting hx hb
      have herase := (List.perm_cons_erase hmem).symm
      simp only [List.append_assoc]
      refine List.perm_middle.trans (List.Perm.cons x ?_)
      refine List.Perm.trans ?_ (List.append_assoc _ _ _ ▸ hperm)
      refine List.Perm.append_left _ ?_
      exact List.perm_middle.symm.trans (herase.append_left _)

/-! ### Decisions at their places -/

/-- What was seen before an element. -/
def before (seen : List α) (x : α) : List α := (seen.dropWhile fun y => y ≠ x).tail

variable (P) in
/-- The decision about an element at its place. -/
def takesAt (start : ℕ) (seen : List α) (x : α) : Bool := P.takes start (before seen x) x

theorem before_cons_self : before (x :: seen) x = seen := by
  unfold before
  rw [List.dropWhile_cons_of_neg (by simp)]
  rfl

theorem before_cons_of_ne (h : y ≠ x) : before (y :: seen) x = before seen x := by
  unfold before
  rw [List.dropWhile_cons_of_pos (by simpa using h)]

theorem before_append : ∀ {later : List α}, x ∉ later →
    before (later ++ seen) x = before seen x := by
  intro later
  induction later with
  | nil => exact fun _ => rfl
  | cons y later ih =>
    intro h
    have hne : y ≠ x := by
      rintro rfl
      exact h List.mem_cons_self
    rw [List.cons_append, before_cons_of_ne hne, ih fun hlater => h (List.mem_cons_of_mem y hlater)]

theorem takesAt_cons_self : P.takesAt start (x :: seen) x = P.takes start seen x := by
  unfold takesAt
  rw [before_cons_self]

theorem takesAt_cons_of_ne (h : y ≠ x) :
    P.takesAt start (y :: seen) x = P.takesAt start seen x := by
  unfold takesAt
  rw [before_cons_of_ne h]

theorem eligible_of_takesAt (h : P.takesAt start seen x = true) : P.eligible x = true :=
  (takes_iff.mp h).1

/-- From a higher count fewer elements are matched. -/
theorem takesAt_mono {start' : ℕ} (hle : start ≤ start') (h : P.takesAt start' seen x = true) :
    P.takesAt start seen x = true := by
  obtain ⟨helig, hlimit⟩ := takes_iff.mp h
  refine takes_iff.mpr ⟨helig, Bool.eq_false_iff.mpr fun hexh => ?_⟩
  rw [P.exhausted_mono (Nat.add_le_add_right hle _) hexh] at hlimit
  cases hlimit

theorem mem_single_iff : ∀ {seen : List α}, seen.Nodup →
    (x ∈ P.single start seen ↔ x ∈ seen ∧ P.takesAt start seen x = false) := by
  intro seen
  induction seen with
  | nil => exact fun _ => ⟨fun h => absurd h List.not_mem_nil, fun h => absurd h.1 List.not_mem_nil⟩
  | cons y seen ih =>
    intro hnodup
    obtain ⟨hy, hseen⟩ := List.nodup_cons.mp hnodup
    have hih := ih hseen
    by_cases hxy : x = y
    · subst hxy
      have hnot : x ∉ P.single start seen := fun h => hy (hih.mp h).1
      rw [takesAt_cons_self, ← branch_alone_iff]
      rw [single_cons]
      rcases hb : P.branch start seen x with _ | _ | _ <;> simp [hnot]
    · rw [takesAt_cons_of_ne (Ne.symm hxy), List.mem_cons, or_iff_right hxy, ← hih, single_cons]
      rcases hb : P.branch start seen y with _ | _ | _ <;> simp [hxy]

/-- The decision about an element that waits, at its place. -/
theorem branch_of_mem_waiting : ∀ {seen : List α}, seen.Nodup → x ∈ P.waiting start seen →
    P.branch start (before seen x) x = .waits := by
  intro seen
  induction seen with
  | nil => exact fun _ h => absurd h List.not_mem_nil
  | cons y seen ih =>
    intro hnodup h
    obtain ⟨hy, hseen⟩ := List.nodup_cons.mp hnodup
    have hkeep : x ∈ P.waiting start seen → P.branch start (before (y :: seen) x) x = .waits := by
      intro hx
      have hne : y ≠ x := by
        rintro rfl
        exact hy (mem_of_mem_waiting hx)
      rw [before_cons_of_ne hne]
      exact ih hseen hx
    unfold waiting at h
    rcases hb : P.branch start seen y with _ | _ | _ <;> rw [hb] at h
    · exact hkeep h
    · rcases List.mem_cons.mp h with rfl | h
      · rw [before_cons_self]
        exact hb
      · exact hkeep h
    · exact hkeep (List.mem_of_mem_erase h)

theorem takesAt_of_mem_waiting (hnodup : seen.Nodup) (h : x ∈ P.waiting start seen) :
    P.takesAt start seen x = true :=
  (branch_waits_iff.mp (branch_of_mem_waiting hnodup h)).1

variable (P) in
/-- The partner of an element has come and was matched. -/
def PartnerTakes (start : ℕ) (seen : List α) (x : α) : Prop :=
  P.matchable x = true ∧ P.partner x ∈ seen ∧ P.takesAt start seen (P.partner x) = true

theorem not_partnerTakes_of_mem_waiting (hnodup : (y :: seen).Nodup)
    (ih : x ∈ P.waiting start seen → ¬P.PartnerTakes start seen x)
    (h : x ∈ P.waiting start (y :: seen)) : ¬P.PartnerTakes start (y :: seen) x := by
  rintro ⟨hmatch, hmem, htakes⟩
  obtain ⟨hy, hseen⟩ := List.nodup_cons.mp hnodup
  have helig := eligible_of_mem_waiting h
  have hold : P.partner x ≠ y → x ∉ P.waiting start seen := by
    intro hne hx
    rw [takesAt_cons_of_ne hne.symm] at htakes
    exact ih hx ⟨hmatch, (List.mem_cons.mp hmem).resolve_left hne, htakes⟩
  rw [waiting_cons] at h
  -- the partner came last, or both were there before
  by_cases hlast : P.partner x = y
  · have hpartner : P.partner y = x := by rw [← hlast, P.partner_partner hmatch]
    have hmatchY : P.matchable y = true := hlast ▸ P.matchable_partner hmatch
    rw [hlast, takesAt_cons_self] at htakes
    have hxy : x ≠ y := by
      rintro rfl
      exact P.partner_ne hmatch hlast
    rcases hb : P.branch start seen y with _ | _ | _ <;> rw [hb] at h
    · rw [branch_alone_iff, htakes] at hb
      cases hb
    · have hx := mem_of_mem_waiting ((List.mem_cons.mp h).resolve_left hxy)
      refine (branch_waits_iff.mp hb).2 ⟨hmatchY, (takes_iff.mp htakes).1, ?_, ?_⟩
      · rwa [hpartner]
      · rwa [hpartner]
    · rw [hpartner] at h
      exact ((List.Nodup.mem_erase_iff (nodup_waiting hseen)).mp h).1 rfl
  · rcases hb : P.branch start seen y with _ | _ | _ <;> rw [hb] at h
    · exact hold hlast h
    · rcases List.mem_cons.mp h with rfl | h
      · have hp := (List.mem_cons.mp hmem).resolve_left hlast
        rw [takesAt_cons_of_ne (Ne.symm hlast)] at htakes
        exact (branch_waits_iff.mp hb).2 ⟨hmatch, helig, hp, eligible_of_takesAt htakes⟩
      · exact hold hlast h
    · exact hold hlast (List.mem_of_mem_erase h)

/-- An element is left waiting when its partner did not come or was not
matched. -/
theorem mem_waiting_iff : ∀ {seen : List α}, seen.Nodup →
    (x ∈ P.waiting start seen ↔
      x ∈ seen ∧ P.takesAt start seen x = true ∧ ¬P.PartnerTakes start seen x) := by
  intro seen
  induction seen with
  | nil => exact fun _ => ⟨fun h => absurd h List.not_mem_nil, fun h => absurd h.1 List.not_mem_nil⟩
  | cons y seen ih =>
    intro hnodup
    obtain ⟨hy, hseen⟩ := List.nodup_cons.mp hnodup
    have hih := ih hseen
    constructor
    · intro h
      exact ⟨mem_of_mem_waiting h, takesAt_of_mem_waiting hnodup h,
        not_partnerTakes_of_mem_waiting hnodup (fun hx => (hih.mp hx).2.2) h⟩
    · rintro ⟨hmem, htakes, hnot⟩
      rw [waiting_cons]
      by_cases hxy : x = y
      · subst hxy
        rw [takesAt_cons_self] at htakes
        have hb : P.branch start seen x = .waits := by
          refine branch_waits_iff.mpr ⟨htakes, fun hmeet => hnot ?_⟩
          have hp := partner_mem_waiting hy (branch_meets_iff.mpr ⟨htakes, hmeet⟩)
          refine ⟨hmeet.1, List.mem_cons_of_mem x hmeet.2.2.1, ?_⟩
          rw [takesAt_cons_of_ne (P.partner_ne hmeet.1).symm]
          exact takesAt_of_mem_waiting hseen hp
        rw [hb]
        exact List.mem_cons_self
      · rw [takesAt_cons_of_ne (Ne.symm hxy)] at htakes
        have hold : x ∈ P.waiting start seen := by
          refine hih.mpr ⟨(List.mem_cons.mp hmem).resolve_left hxy, htakes, ?_⟩
          rintro ⟨hmatch, hp, hptakes⟩
          have hne : y ≠ P.partner x := fun h => hy (h ▸ hp)
          refine hnot ⟨hmatch, List.mem_cons_of_mem y hp, ?_⟩
          rwa [takesAt_cons_of_ne hne]
        rcases hb : P.branch start seen y with _ | _ | _
        · exact hold
        · exact List.mem_cons_of_mem y hold
        · obtain ⟨hytakes, hymatch, -⟩ := branch_meets_iff.mp hb
          refine (List.mem_erase_of_ne ?_).mpr hold
          rintro rfl
          refine hnot ⟨P.matchable_partner hymatch, ?_, ?_⟩
          · rw [P.partner_partner hymatch]
            exact List.mem_cons_self
          · rw [P.partner_partner hymatch, takesAt_cons_self]
            exact hytakes

theorem mem_paired_iff (hnodup : seen.Nodup) : x ∈ P.paired start seen ↔
    x ∈ seen ∧ P.takesAt start seen x = true ∧ P.PartnerTakes start seen x := by
  have hperm := P.perm_of_nodup start hnodup
  have hapart := (hperm.nodup_iff).mpr hnodup
  obtain ⟨hleft, -, hwait⟩ := List.nodup_append.mp hapart
  obtain ⟨-, -, hsingle⟩ := List.nodup_append.mp hleft
  constructor
  · intro h
    have hmem : x ∈ seen := hperm.subset (List.mem_append_left _ (List.mem_append_right _ h))
    have htakes : P.takesAt start seen x = true := by
      refine Bool.not_eq_false _ |>.mp fun hfalse => ?_
      exact hsingle x (mem_single_iff hnodup |>.mpr ⟨hmem, hfalse⟩) x h rfl
    refine ⟨hmem, htakes, ?_⟩
    by_contra hnot
    exact hwait x (List.mem_append_right _ h) x (mem_waiting_iff hnodup |>.mpr
      ⟨hmem, htakes, hnot⟩) rfl
  · rintro ⟨hmem, htakes, hpartner⟩
    rcases List.mem_append.mp (hperm.symm.subset hmem) with h | h
    · rcases List.mem_append.mp h with h | h
      · rw [((mem_single_iff hnodup).mp h).2] at htakes
        cases htakes
      · exact h
    · exact absurd hpartner ((mem_waiting_iff hnodup).mp h).2.2

/-- In a stream of whole pairs nothing is left waiting exactly when an element
is matched only if its partner is. -/
theorem waiting_eq_nil_iff (hnodup : seen.Nodup)
    (hwhole : ∀ x ∈ seen, P.matchable x = true ∧ P.partner x ∈ seen) :
    P.waiting start seen = [] ↔ ∀ x ∈ seen, P.takesAt start seen x = true →
      P.takesAt start seen (P.partner x) = true := by
  rw [List.eq_nil_iff_forall_not_mem]
  refine forall_congr' fun x => ?_
  rw [mem_waiting_iff hnodup]
  constructor
  · intro h hmem htakes
    by_contra hnot
    exact h ⟨hmem, htakes, fun hp => hnot hp.2.2⟩
  · rintro h ⟨hmem, htakes, hnot⟩
    exact hnot ⟨(hwhole x hmem).1, (hwhole x hmem).2, h hmem htakes⟩

/-! ### Elements left over from an earlier stream -/

variable (P) in
/-- An eligible element of a stream whose partner, if earlier, is not eligible. -/
def Stale (stream : List α) (x : α) : Prop :=
  x ∈ stream ∧ P.eligible x = true ∧
    (P.matchable x = true → P.partner x ∈ before stream x → P.eligible (P.partner x) = false)

/-- What is left waiting halfway is stale in the whole stream. -/
theorem stale_of_mem_waiting {later : List α} (hnodup : (later ++ seen).Nodup)
    (h : x ∈ P.waiting start seen) : P.Stale (later ++ seen) x := by
  obtain ⟨-, hseen, hapart⟩ := List.nodup_append.mp hnodup
  have hmem := mem_of_mem_waiting h
  have helig := eligible_of_mem_waiting h
  refine ⟨List.mem_append_right _ hmem, helig, fun hmatch hp =>
    Bool.eq_false_iff.mpr fun hpe => ?_⟩
  rw [before_append fun hx => hapart x hx x hmem rfl] at hp
  exact (branch_waits_iff.mp (branch_of_mem_waiting hseen h)).2 ⟨hmatch, helig, hp, hpe⟩

/-- An element that waits finds neither its partner nor a stale one. -/
theorem not_stale_of_waits {later : List α} (hnodup : (later ++ x :: seen).Nodup)
    (hmatch : P.matchable x = true) (h : P.branch start seen x = .waits) :
    P.partner x ∉ P.waiting start seen ∧ ¬P.Stale (later ++ x :: seen) (P.partner x) := by
  obtain ⟨htakes, hnot⟩ := branch_waits_iff.mp h
  have helig := (takes_iff.mp htakes).1
  refine ⟨fun hp => hnot ⟨hmatch, helig, mem_of_mem_waiting hp, eligible_of_mem_waiting hp⟩, ?_⟩
  rintro ⟨hmem, hpe, hstale⟩
  rcases List.mem_append.mp hmem with hlater | hold
  · -- the partner is still to come, so the element itself is before it
    have hearlier := hstale (P.matchable_partner hmatch)
    rw [P.partner_partner hmatch] at hearlier
    have hx : x ∈ before (later ++ x :: seen) (P.partner x) := by
      obtain ⟨later₁, later₂, hsplit⟩ := List.append_of_mem hlater
      have hfirst : P.partner x ∉ later₁ := by
        rw [hsplit, List.append_assoc] at hnodup
        intro hin
        exact (List.nodup_append.mp hnodup).2.2 _ hin _
          (List.mem_append_left _ List.mem_cons_self) rfl
      rw [hsplit, List.append_assoc, before_append hfirst, List.cons_append, before_cons_self]
      exact List.mem_append_right _ List.mem_cons_self
    rw [hearlier hx] at helig
    cases helig
  · rcases List.mem_cons.mp hold with hself | hin
    · exact P.partner_ne hmatch hself
    · exact hnot ⟨hmatch, helig, hin, hpe⟩

end Pairing
