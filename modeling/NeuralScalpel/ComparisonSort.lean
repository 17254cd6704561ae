/-
Sorting by comparisons that may fail.

A comparison sort learns about its elements by asking which of two comes
first.  Some pairs may be refused, and the sort fails when it asks for one.
Whether it does is a matter of the list alone: it must ask for every pair that
two total orders could put differently.

* `Asking` — a computation that asks;
* `ComparisonSort` — a computation that sorts by any total order;
* `Straddles` — a comparison between two total orders;
* `ComparisonSort.attempt_isSome_iff` — which lists are sorted;
* `ComparisonSort.attempt_eq_iff` — two sorted lists agree iff the lists are
  permutations.
-/
import Mathlib.Data.List.Lex
import Mathlib.Data.List.Pairwise
import Mathlib.Data.List.Sort

/-! ### Asking -/

/-- A computation that may ask whether one element comes before another. -/
inductive Asking (α β : Type)
  | done (result : β)
  | ask (x y : α) (next : Bool → Asking α β)

namespace Asking

variable {α β γ : Type}

/-- The result when a test answers. -/
def answer (lt : α → α → Bool) : Asking α β → β
  | .done result => result
  | .ask x y next => (next (lt x y)).answer lt

/-- The result when answers may be refused. -/
def attempt (lt : α → α → Option Bool) : Asking α β → Option β
  | .done result => some result
  | .ask x y next =>
    match lt x y with
    | some b => (next b).attempt lt
    | none => none

def bind (f : β → Asking α γ) : Asking α β → Asking α γ
  | .done result => f result
  | .ask x y next => .ask x y fun b => (next b).bind f

/-- Only elements with a property are asked about, and every result has one. -/
def Asks (P : α → Prop) (Q : β → Prop) : Asking α β → Prop
  | .done result => Q result
  | .ask x y next => P x ∧ P y ∧ ∀ b, (next b).Asks P Q

theorem answer_bind (lt : α → α → Bool) (f : β → Asking α γ) (t : Asking α β) :
    (t.bind f).answer lt = (f (t.answer lt)).answer lt := by
  induction t with
  | done result => rfl
  | ask x y next ih => exact ih (lt x y)

theorem Asks.imp {P P' : α → Prop} {Q Q' : β → Prop} (hP : ∀ x, P x → P' x)
    (hQ : ∀ result, Q result → Q' result) {t : Asking α β} (h : t.Asks P Q) : t.Asks P' Q' := by
  induction t with
  | done result => exact hQ result h
  | ask x y next ih =>
    obtain ⟨hx, hy, hnext⟩ := h
    exact ⟨hP x hx, hP y hy, fun b => ih b (hnext b)⟩

theorem Asks.bind {P : α → Prop} {Q : β → Prop} {Q' : γ → Prop} {f : β → Asking α γ}
    (hf : ∀ result, Q result → (f result).Asks P Q') {t : Asking α β} (h : t.Asks P Q) :
    (t.bind f).Asks P Q' := by
  induction t with
  | done result => exact hf result h
  | ask x y next ih =>
    obtain ⟨hx, hy, hnext⟩ := h
    exact ⟨hx, hy, fun b => ih b (hnext b)⟩

/-- A computation that is not refused anything does what it does with any test
that gives the same answers. -/
theorem answer_of_attempt {lt : α → α → Option Bool} {test : α → α → Bool}
    (hagree : ∀ x y b, lt x y = some b → test x y = b) {t : Asking α β} {result : β}
    (h : t.attempt lt = some result) : t.answer test = result := by
  induction t with
  | done r => exact Option.some.inj h
  | ask x y next ih =>
    rw [attempt] at h
    rcases hlt : lt x y with _ | b
    · rw [hlt] at h
      cases h
    · rw [hlt] at h
      rw [answer, hagree x y b hlt]
      exact ih b h

theorem attempt_isSome {lt : α → α → Option Bool} {P : α → Prop} {Q : β → Prop}
    (htotal : ∀ x y, P x → P y → (lt x y).isSome = true) {t : Asking α β} (h : t.Asks P Q) :
    (t.attempt lt).isSome = true := by
  induction t with
  | done result => rfl
  | ask x y next ih =>
    obtain ⟨hx, hy, hnext⟩ := h
    obtain ⟨b, hb⟩ := Option.isSome_iff_exists.mp (htotal x y hx hy)
    rw [attempt, hb]
    exact ih b (hnext b)

end Asking

/-! ### Sorts -/

/-- A test for a strict total order. -/
structure TotalTest {α : Type} (lt : α → α → Bool) : Prop where
  irrefl : ∀ x, lt x x = false
  trans : ∀ x y z, lt x y = true → lt y z = true → lt x z = true
  total : ∀ x y, x ≠ y → lt x y = true ∨ lt y x = true

/-- A sort that asks about elements of the list only. -/
structure ComparisonSort (α : Type) where
  tree : List α → Asking α (List α)
  asks : ∀ l, (tree l).Asks (· ∈ l) fun _ => True
  perm : ∀ lt, TotalTest lt → ∀ l, ((tree l).answer lt).Perm l
  sorted : ∀ lt, TotalTest lt → ∀ l, ((tree l).answer lt).Pairwise fun x y => lt y x = false

/-- The order of a key that tells elements apart. -/
theorem totalTest_key {α K : Type} [LinearOrder K] {key : α → K}
    (hkey : Function.Injective key) : TotalTest fun x y => decide (key x < key y) where
  irrefl x := decide_eq_false (lt_irrefl (key x))
  trans x y z hxy hyz :=
    decide_eq_true ((of_decide_eq_true hxy).trans (of_decide_eq_true hyz))
  total x y hne := by
    rcases lt_or_gt_of_ne (hkey.ne hne) with hlt | hgt
    · exact Or.inl (decide_eq_true hlt)
    · exact Or.inr (decide_eq_true hgt)

/-! ### Comparisons that may be refused -/

/-- Two total orders agree with a comparison where it answers, and disagree
with each other where it does not. -/
structure Straddles {α K L : Type} [LinearOrder K] [LinearOrder L] (lt : α → α → Option Bool)
    (up : α → K) (down : α → L) : Prop where
  up_injective : Function.Injective up
  down_injective : Function.Injective down
  agree : ∀ x y b, x ≠ y → lt x y = some b →
    (b = true ↔ up x < up y) ∧ (b = true ↔ down x < down y)
  differ : ∀ x y, x ≠ y → lt x y = none →
    up x < up y ∧ down y < down x ∨ up y < up x ∧ down x < down y

/-- Lists are compared where they first differ; a list comes after its
beginnings. -/
def lexCompare {α : Type} [DecidableEq α] (lt : α → α → Option Bool) :
    List α → List α → Option Bool
  | [], [] => some false
  | [], _ :: _ => some true
  | _ :: _, [] => some false
  | x :: xs, y :: ys => if x = y then lexCompare lt xs ys else lt x y

section Lex

variable {α K L : Type} [DecidableEq α] [LinearOrder K] [LinearOrder L]
variable {lt : α → α → Option Bool}

theorem lexCompare_self (xs : List α) : lexCompare lt xs xs = some false := by
  induction xs with
  | nil => rfl
  | cons x xs ih => rw [lexCompare, if_pos rfl, ih]

theorem lexCompare_agree {key : α → K} (hkey : Function.Injective key)
    (hagree : ∀ x y b, x ≠ y → lt x y = some b → (b = true ↔ key x < key y)) {xs : List α} :
    ∀ {ys : List α} {b : Bool}, xs ≠ ys → lexCompare lt xs ys = some b →
      (b = true ↔ xs.map key < ys.map key) := by
  induction xs with
  | nil =>
    intro ys b hne h
    rcases ys with _ | ⟨y, ys⟩
    · exact absurd rfl hne
    · cases h
      simp
  | cons x xs ih =>
    intro ys b hne h
    rcases ys with _ | ⟨y, ys⟩
    · cases h
      simp
    · rw [lexCompare] at h
      rw [List.map_cons, List.map_cons, List.cons_lt_cons_iff]
      by_cases hxy : x = y
      · subst hxy
        rw [if_pos rfl] at h
        have htails : xs ≠ ys := fun heq => hne (heq ▸ rfl)
        rw [ih htails h]
        simp
      · rw [if_neg hxy] at h
        rw [hagree x y b hxy h, or_iff_left fun hand => hxy (hkey hand.1)]

theorem lexCompare_differ {up : α → K} {down : α → L} (h : Straddles lt up down) {xs : List α} :
    ∀ {ys : List α}, lexCompare lt xs ys = none →
      xs.map up < ys.map up ∧ ys.map down < xs.map down ∨
        ys.map up < xs.map up ∧ xs.map down < ys.map down := by
  induction xs with
  | nil =>
    intro ys hnone
    rcases ys with _ | ⟨y, ys⟩ <;> cases hnone
  | cons x xs ih =>
    intro ys hnone
    rcases ys with _ | ⟨y, ys⟩
    · cases hnone
    · rw [lexCompare] at hnone
      simp only [List.map_cons, List.cons_lt_cons_iff]
      by_cases hxy : x = y
      · subst hxy
        rw [if_pos rfl] at hnone
        rcases ih hnone with ⟨hup, hdown⟩ | ⟨hup, hdown⟩
        · exact Or.inl ⟨Or.inr ⟨rfl, hup⟩, Or.inr ⟨rfl, hdown⟩⟩
        · exact Or.inr ⟨Or.inr ⟨rfl, hup⟩, Or.inr ⟨rfl, hdown⟩⟩
      · rw [if_neg hxy] at hnone
        rcases h.differ x y hxy hnone with ⟨hup, hdown⟩ | ⟨hup, hdown⟩
        · exact Or.inl ⟨Or.inl hup, Or.inl hdown⟩
        · exact Or.inr ⟨Or.inl hup, Or.inl hdown⟩

/-- Comparing lists lies between two orders if comparing elements does. -/
theorem Straddles.lex {up : α → K} {down : α → L} (h : Straddles lt up down) :
    Straddles (lexCompare lt) (List.map up) (List.map down) where
  up_injective := List.map_injective_iff.mpr h.up_injective
  down_injective := List.map_injective_iff.mpr h.down_injective
  agree _ _ _ hne hb :=
    ⟨lexCompare_agree h.up_injective (fun x y b hne hb => (h.agree x y b hne hb).1) hne hb,
      lexCompare_agree h.down_injective (fun x y b hne hb => (h.agree x y b hne hb).2) hne hb⟩
  differ _ _ _ hnone := lexCompare_differ h hnone

end Lex

/-! ### What sorts can tell -/

namespace ComparisonSort

variable {α K L : Type} [LinearOrder K] [LinearOrder L] {lt : α → α → Option Bool}
variable {up : α → K} {down : α → L} (sort : ComparisonSort α) {l l' out out' : List α}

/-- What a sort returns is sorted by any order that agrees with the comparison. -/
theorem sorted_of_attempt {key : α → K} (hkey : Function.Injective key)
    (hself : ∀ x, lt x x = some false)
    (hagree : ∀ x y b, x ≠ y → lt x y = some b → (b = true ↔ key x < key y))
    (h : (sort.tree l).attempt lt = some out) :
    out.Perm l ∧ out.Pairwise fun x y => ¬key y < key x := by
  have htest : ∀ x y b, lt x y = some b → decide (key x < key y) = b := by
    intro x y b hb
    by_cases hxy : x = y
    · subst hxy
      rw [hself x] at hb
      cases hb
      exact decide_eq_false (lt_irrefl (key x))
    · rw [Bool.eq_iff_iff, decide_eq_true_iff]
      exact (hagree x y b hxy hb).symm
  have hanswer := Asking.answer_of_attempt htest h
  rw [← hanswer]
  refine ⟨sort.perm _ (totalTest_key hkey) l, (sort.sorted _ (totalTest_key hkey) l).imp ?_⟩
  intro x y hfalse
  exact of_decide_eq_false hfalse

/-- A list is sorted iff no two of its elements are refused. -/
theorem attempt_isSome_iff (h : Straddles lt up down) (hself : ∀ x, lt x x = some false)
    (l : List α) : ((sort.tree l).attempt lt).isSome = true ↔
      ∀ x ∈ l, ∀ y ∈ l, (lt x y).isSome = true := by
  constructor
  · intro hsome x hx y hy
    obtain ⟨out, hout⟩ := Option.isSome_iff_exists.mp hsome
    obtain ⟨hperm, hup⟩ := sort.sorted_of_attempt h.up_injective hself
      (fun x y b hne hb => (h.agree x y b hne hb).1) hout
    obtain ⟨-, hdown⟩ := sort.sorted_of_attempt h.down_injective hself
      (fun x y b hne hb => (h.agree x y b hne hb).2) hout
    -- one of the two comes first, in both orders
    have hpairs := hup.and hdown
    have hboth : ∀ x ∈ out, ∀ y ∈ out, (¬up y < up x ∧ ¬down y < down x) ∨
        (¬up x < up y ∧ ¬down x < down y) := by
      intro x hx y hy
      exact List.Pairwise.forall_of_forall_of_flip
        (R := fun x y => (¬up y < up x ∧ ¬down y < down x) ∨ (¬up x < up y ∧ ¬down x < down y))
        (fun x _ => Or.inl ⟨lt_irrefl (up x), lt_irrefl (down x)⟩) (hpairs.imp Or.inl)
        (hpairs.imp Or.inr) hx hy
    refine Option.isSome_iff_ne_none.mpr fun hnone => ?_
    have hne : x ≠ y := by
      rintro rfl
      rw [hself x] at hnone
      cases hnone
    rcases h.differ x y hne hnone with ⟨h₁, h₂⟩ | ⟨h₁, h₂⟩ <;>
      rcases hboth x (hperm.mem_iff.mpr hx) y (hperm.mem_iff.mpr hy) with ⟨h₃, h₄⟩ | ⟨h₃, h₄⟩
    · exact h₄ h₂
    · exact h₃ h₁
    · exact h₃ h₁
    · exact h₄ h₂
  · intro htotal
    exact Asking.attempt_isSome (fun x y hx hy => htotal x hx y hy) (sort.asks l)

/-- Sorted lists tell whether lists are permutations of one another. -/
theorem attempt_eq_iff (h : Straddles lt up down) (hself : ∀ x, lt x x = some false)
    (hl : (sort.tree l).attempt lt = some out) (hl' : (sort.tree l').attempt lt = some out') :
    out = out' ↔ l.Perm l' := by
  obtain ⟨hperm, hsorted⟩ := sort.sorted_of_attempt h.up_injective hself
    (fun x y b hne hb => (h.agree x y b hne hb).1) hl
  obtain ⟨hperm', hsorted'⟩ := sort.sorted_of_attempt h.up_injective hself
    (fun x y b hne hb => (h.agree x y b hne hb).1) hl'
  constructor
  · rintro rfl
    exact hperm.symm.trans hperm'
  · intro hll'
    refine List.Perm.eq_of_pairwise ?_ hsorted hsorted' (hperm.trans (hll'.trans hperm'.symm))
    intro x y _ _ hxy hyx
    exact h.up_injective (le_antisymm (not_lt.mp hxy) (not_lt.mp hyx))

end ComparisonSort

/-! ### Insertion -/

section Insertion

variable {α : Type}

/-- Put an element before the first one that does not come before it. -/
def insertAsking (x : α) : List α → Asking α (List α)
  | [] => .done [x]
  | y :: ys => .ask y x fun b =>
    if b then (insertAsking x ys).bind fun zs => .done (y :: zs) else .done (x :: y :: ys)

def insertionAsking : List α → Asking α (List α)
  | [] => .done []
  | x :: xs => (insertionAsking xs).bind (insertAsking x)

theorem answer_insertAsking (lt : α → α → Bool) (x : α) (ys : List α) :
    (insertAsking x ys).answer lt = ys.orderedInsert (fun a b => lt b a = false) x := by
  induction ys with
  | nil => rfl
  | cons y ys ih =>
    rw [insertAsking, Asking.answer, List.orderedInsert_cons]
    by_cases hlt : lt y x = true
    · rw [if_pos hlt, if_neg (by rw [hlt]; decide), Asking.answer_bind, ih]
      rfl
    · rw [if_neg hlt, if_pos (Bool.eq_false_iff.mpr hlt)]
      rfl

theorem answer_insertionAsking (lt : α → α → Bool) (xs : List α) :
    (insertionAsking xs).answer lt = xs.insertionSort fun a b => lt b a = false := by
  induction xs with
  | nil => rfl
  | cons x xs ih =>
    rw [insertionAsking, Asking.answer_bind, ih, answer_insertAsking, List.insertionSort_cons]

theorem insertAsking_asks (x : α) (ys : List α) :
    (insertAsking x ys).Asks (· ∈ x :: ys) fun zs => ∀ z ∈ zs, z ∈ x :: ys := by
  induction ys with
  | nil => exact fun z hz => hz
  | cons y ys ih =>
    have hweaken : ∀ z, z ∈ x :: ys → z ∈ x :: y :: ys := by
      intro z hz
      simp only [List.mem_cons] at hz ⊢
      exact hz.imp_right Or.inr
    refine ⟨by simp, by simp, fun b => ?_⟩
    cases b with
    | false => exact fun z hz => hz
    | true =>
      refine Asking.Asks.bind (fun zs hzs => ?_) (ih.imp hweaken fun zs hzs => hzs)
      intro z hz
      rcases List.mem_cons.mp hz with rfl | hmem
      · simp
      · exact hweaken z (hzs z hmem)

theorem insertionAsking_asks (xs : List α) :
    (insertionAsking xs).Asks (· ∈ xs) fun zs => ∀ z ∈ zs, z ∈ xs := by
  induction xs with
  | nil => exact fun z hz => hz
  | cons x xs ih =>
    refine Asking.Asks.bind (fun zs hzs => ?_)
      (ih.imp (fun z hz => List.mem_cons_of_mem x hz) fun zs hzs => hzs)
    have hmem : ∀ z, z ∈ x :: zs → z ∈ x :: xs := by
      intro z hz
      rcases List.mem_cons.mp hz with rfl | hz
      · exact List.mem_cons_self
      · exact List.mem_cons_of_mem x (hzs z hz)
    exact (insertAsking_asks x zs).imp hmem fun ws hws z hz => hmem z (hws z hz)

/-- Sorting by insertion. -/
def ComparisonSort.insertion (α : Type) : ComparisonSort α where
  tree := insertionAsking
  asks xs := (insertionAsking_asks xs).imp (fun _ hx => hx) fun _ _ => trivial
  perm lt _ xs := by
    rw [answer_insertionAsking]
    exact List.perm_insertionSort _ xs
  sorted lt hlt xs := by
    have htotal : Std.Total fun a b => lt b a = false := by
      refine ⟨fun a b => ?_⟩
      by_cases hab : lt a b = true
      · refine Or.inl (Bool.eq_false_iff.mpr fun hba => ?_)
        have hloop := hlt.trans a b a hab hba
        rw [hlt.irrefl a] at hloop
        cases hloop
      · exact Or.inr (Bool.eq_false_iff.mpr hab)
    have htrans : IsTrans α fun a b => lt b a = false := by
      refine ⟨fun a b c hab hbc => Bool.eq_false_iff.mpr fun hca => ?_⟩
      by_cases hne : a = b
      · subst hne
        rw [hbc] at hca
        cases hca
      · -- the first comes before the second, so the third would too
        have hlt' : lt a b = true := (hlt.total a b hne).resolve_right (by rw [hab]; decide)
        rw [hlt.trans c a b hca hlt'] at hbc
        cases hbc
    rw [answer_insertionAsking]
    exact List.pairwise_insertionSort _ xs

end Insertion
