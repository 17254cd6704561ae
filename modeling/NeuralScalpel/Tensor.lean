/-
Tensors with exact arithmetic and in-place operations.

A tensor is a shape, an element type and its elements in row-major order; the
structure carries the proof that there are as many elements as the shape says.
Elements are exact numbers together with the two infinities and NaN, so that
addition is commutative and associative and nothing is rounded.

The in-place operations follow the usual broadcasting rule: the operand is
stretched to the shape of the tensor written to, which never changes.

* `add_` raises (`none`) exactly when the operand does not broadcast;
* `copy_eq_of_layout` — a copy from a tensor of the same layout is exact;
* `entry_plus` — for equal shapes, addition is element by element.
-/
import Mathlib.Algebra.BigOperators.Group.List.Basic
import Mathlib.Algebra.Ring.Rat
import Mathlib.Data.List.GetD

/-! ### Elements -/

/-- An element of a tensor: an exact number, an infinity or NaN. -/
inductive Scalar
  | finite (q : ℚ)
  | inf (negative : Bool)
  | nan
  deriving DecidableEq

namespace Scalar

def isNan : Scalar → Bool
  | nan => true
  | _ => false

def isInf : Scalar → Bool
  | inf _ => true
  | _ => false

def add : Scalar → Scalar → Scalar
  | nan, _ => nan
  | _, nan => nan
  | inf b, inf b' => if b = b' then inf b else nan
  | inf b, finite _ => inf b
  | finite _, inf b => inf b
  | finite p, finite q => finite (p + q)

theorem add_comm' (a b : Scalar) : add a b = add b a := by
  cases a with
  | nan => cases b <;> rfl
  | finite p => cases b <;> simp [add, Rat.add_comm]
  | inf a =>
    cases b with
    | nan => rfl
    | finite q => rfl
    | inf b => cases a <;> cases b <;> rfl

theorem add_assoc' (a b c : Scalar) : add (add a b) c = add a (add b c) := by
  cases a with
  | nan => rfl
  | finite p =>
    cases b with
    | nan => rfl
    | finite q => cases c <;> simp [add, Rat.add_assoc]
    | inf b =>
      cases c with
      | nan => rfl
      | finite r => rfl
      | inf c => cases b <;> cases c <;> rfl
  | inf a =>
    cases b with
    | nan => rfl
    | finite q => cases c <;> rfl
    | inf b =>
      cases c with
      | nan => cases a <;> cases b <;> rfl
      | finite r => cases a <;> cases b <;> rfl
      | inf c => cases a <;> cases b <;> cases c <;> rfl

instance : Add Scalar := ⟨add⟩

instance : Zero Scalar := ⟨finite 0⟩

instance : AddCommMonoid Scalar where
  add_assoc a b c := add_assoc' a b c
  zero_add a := by
    show add (finite 0) a = a
    cases a <;> simp [add]
  add_zero a := by
    show add a (finite 0) = a
    cases a <;> simp [add]
  add_comm a b := add_comm' a b
  nsmul := nsmulRec

end Scalar

/-! ### Broadcasting -/

/-- Dimensions listed innermost first: each one of the operand is one of the
result's or is one. -/
def broadcastsRev : List ℕ → List ℕ → Bool
  | [], _ => true
  | _ :: _, [] => false
  | d :: ds, t :: ts => (d == t || d == 1) && broadcastsRev ds ts

/-- A tensor of shape `source` can be stretched to the shape `target`. -/
def broadcastsTo (source target : List ℕ) : Bool :=
  broadcastsRev source.reverse target.reverse

/-- The shape two shapes are stretched to, if there is one. -/
def broadcastRev : List ℕ → List ℕ → Option (List ℕ)
  | [], ts => some ts
  | d :: ds, [] => some (d :: ds)
  | d :: ds, t :: ts =>
    if d = t ∨ t = 1 then (broadcastRev ds ts).map (d :: ·)
    else if d = 1 then (broadcastRev ds ts).map (t :: ·)
    else none

/-- The element of the operand that lands at flat index `k` of the result. -/
def sourceIndexRev : List ℕ → List ℕ → ℕ → ℕ
  | [], _, _ => 0
  | _ :: _, [], _ => 0
  | d :: ds, t :: ts, k =>
    (if d = 1 then 0 else k % t) + d * sourceIndexRev ds ts (k / t)

theorem broadcastsRev_refl : ∀ ds : List ℕ, broadcastsRev ds ds = true
  | [] => rfl
  | d :: ds => by rw [broadcastsRev, broadcastsRev_refl ds]; simp

theorem broadcastsTo_refl (shape : List ℕ) : broadcastsTo shape shape = true :=
  broadcastsRev_refl _

/-- Only a scalar can be stretched to a scalar. -/
theorem eq_nil_of_broadcastsTo_nil {source : List ℕ} (h : broadcastsTo source [] = true) :
    source = [] := by
  unfold broadcastsTo at h
  rcases hs : source.reverse with _ | ⟨d, ds⟩
  · exact List.reverse_eq_nil_iff.mp hs
  · rw [hs] at h
    simp [broadcastsRev] at h

theorem sourceIndexRev_refl : ∀ {ds : List ℕ} {k : ℕ}, k < ds.prod →
    sourceIndexRev ds ds k = k := by
  intro ds
  induction ds with
  | nil =>
    intro k h
    rw [List.prod_nil] at h
    rw [sourceIndexRev]
    omega
  | cons d ds ih =>
    intro k h
    rw [List.prod_cons] at h
    rw [sourceIndexRev, ih (Nat.div_lt_of_lt_mul h)]
    by_cases hd : d = 1
    · subst hd
      simp
    · rw [if_neg hd]
      exact Nat.mod_add_div k d

/-! ### Tensors -/

structure Tensor where
  shape : List ℕ
  dtype : String
  data : List Scalar
  wf : data.length = shape.prod

namespace Tensor

theorem ext {t u : Tensor} (hs : t.shape = u.shape) (hd : t.dtype = u.dtype)
    (hv : t.data = u.data) : t = u := by
  cases t
  cases u
  subst hs hd hv
  rfl

instance : DecidableEq Tensor := fun t u =>
  decidable_of_iff (t.shape = u.shape ∧ t.dtype = u.dtype ∧ t.data = u.data)
    ⟨fun h => ext h.1 h.2.1 h.2.2, fun h => h ▸ ⟨rfl, rfl, rfl⟩⟩

/-- The element at a flat index; zero past the end. -/
def entry (t : Tensor) (k : ℕ) : Scalar := t.data.getD k 0

def hasNan (t : Tensor) : Bool := t.data.any Scalar.isNan

def hasInf (t : Tensor) : Bool := t.data.any Scalar.isInf

/-- The elements of `t` stretched to `shape`. -/
def expand (t : Tensor) (shape : List ℕ) : List Scalar :=
  (List.range shape.prod).map fun k =>
    t.entry (sourceIndexRev t.shape.reverse shape.reverse k)

theorem length_expand (t : Tensor) (shape : List ℕ) :
    (t.expand shape).length = shape.prod := by
  rw [expand, List.length_map, List.length_range]

theorem expand_shape (t : Tensor) : t.expand t.shape = t.data := by
  apply List.ext_getElem
  · rw [length_expand, t.wf]
  · intro k h1 h2
    have hk : k < t.shape.reverse.prod := by
      rw [List.prod_reverse, ← t.wf]
      exact h2
    simp only [expand, List.getElem_map, List.getElem_range]
    rw [sourceIndexRev_refl hk, entry, List.getD_eq_getElem _ _ h2]

/-- `t.to(dtype=...)`; exact arithmetic keeps every element. -/
def toDtype (t : Tensor) (dtype : String) : Tensor := ⟨t.shape, dtype, t.data, t.wf⟩

@[simp] theorem toDtype_shape (t : Tensor) (dtype : String) :
    (t.toDtype dtype).shape = t.shape := rfl

/-- The tensor of the layout of `t` with every element equal to `c`. -/
def fillLike (t : Tensor) (c : Scalar) : Tensor :=
  ⟨t.shape, t.dtype, List.replicate t.shape.prod c, List.length_replicate⟩

/-- Same shape and same element type. -/
def SameLayout (t u : Tensor) : Prop := t.shape = u.shape ∧ t.dtype = u.dtype

theorem SameLayout.refl (t : Tensor) : SameLayout t t := ⟨rfl, rfl⟩

theorem SameLayout.symm {t u : Tensor} (h : SameLayout t u) : SameLayout u t :=
  ⟨h.1.symm, h.2.symm⟩

theorem SameLayout.trans {t u v : Tensor} (h : SameLayout t u) (h' : SameLayout u v) :
    SameLayout t v :=
  ⟨h.1.trans h'.1, h.2.trans h'.2⟩

/-- The sum of `live` and the stretched `delta`, in the layout of `live`. -/
def plus (live delta : Tensor) : Tensor :=
  ⟨live.shape, live.dtype, List.zipWith (· + ·) live.data (delta.expand live.shape), by
    rw [List.length_zipWith, length_expand, live.wf, min_self]⟩

/-- `live.add_(delta)`: raises when `delta` does not broadcast. -/
def add_ (live delta : Tensor) : Option Tensor :=
  if broadcastsTo delta.shape live.shape then some (live.plus delta) else none

/-- `live.copy_(source)`: raises when `source` does not broadcast. -/
def copy_ (live source : Tensor) : Option Tensor :=
  if broadcastsTo source.shape live.shape then
    some ⟨live.shape, live.dtype, source.expand live.shape, length_expand _ _⟩
  else none

theorem add_eq_some {live delta t : Tensor} :
    live.add_ delta = some t ↔
      broadcastsTo delta.shape live.shape = true ∧ t = live.plus delta := by
  rw [add_]
  by_cases h : broadcastsTo delta.shape live.shape = true
  · rw [if_pos h, Option.some.injEq]
    exact ⟨fun he => ⟨h, he.symm⟩, fun he => he.2.symm⟩
  · rw [if_neg h]
    exact ⟨fun he => absurd he (by simp), fun he => absurd he.1 h⟩

theorem sameLayout_plus (live delta : Tensor) : SameLayout (live.plus delta) live := ⟨rfl, rfl⟩

theorem sameLayout_of_copy_ {live source t : Tensor} (h : live.copy_ source = some t) :
    SameLayout t live := by
  rw [copy_] at h
  by_cases hb : broadcastsTo source.shape live.shape = true
  · rw [if_pos hb, Option.some.injEq] at h
    subst h
    exact ⟨rfl, rfl⟩
  · rw [if_neg hb] at h
    exact absurd h (by simp)

/-- A copy from a tensor of the same layout leaves that tensor, exactly. -/
theorem copy_eq_of_layout {live source : Tensor} (h : SameLayout source live) :
    live.copy_ source = some source := by
  obtain ⟨hs, hd⟩ := h
  have hb : broadcastsTo source.shape live.shape = true := hs ▸ broadcastsTo_refl _
  rw [copy_, if_pos hb, Option.some.injEq]
  have hdata : source.expand live.shape = source.data := by
    rw [← hs, expand_shape]
  exact ext hs.symm hd.symm hdata

/-- For equal shapes, addition is element by element. -/
theorem entry_plus {live delta : Tensor} (h : delta.shape = live.shape) (k : ℕ) :
    (live.plus delta).entry k = live.entry k + delta.entry k := by
  have hlen : delta.data.length = live.data.length := by rw [delta.wf, live.wf, h]
  have hexpand : delta.expand live.shape = delta.data := by
    rw [← h, expand_shape]
  have hdata : (live.plus delta).data = List.zipWith (· + ·) live.data delta.data :=
    congrArg (List.zipWith (· + ·) live.data) hexpand
  have hzip : (List.zipWith (· + ·) live.data delta.data).length = live.data.length := by
    rw [List.length_zipWith, hlen, min_self]
  rw [entry, entry, entry, hdata]
  by_cases hk : k < live.data.length
  · rw [List.getD_eq_getElem _ _ (hzip ▸ hk), List.getD_eq_getElem _ _ hk,
      List.getD_eq_getElem _ _ (hlen ▸ hk), List.getElem_zipWith]
  · -- past the end every element is zero
    rw [List.getD_eq_default _ _ (by omega), List.getD_eq_default _ _ (by omega),
      List.getD_eq_default _ _ (by omega), add_zero]

/-- Adding one tensor after the other: the elements of the sum are the sums of
the elements. -/
theorem entry_foldl_plus {ds : List Tensor} : ∀ {live : Tensor},
    (∀ d ∈ ds, d.shape = live.shape) → ∀ k,
      (ds.foldl plus live).entry k = live.entry k + (ds.map fun d => d.entry k).sum := by
  induction ds with
  | nil =>
    intro live _ k
    rw [List.foldl_nil, List.map_nil, List.sum_nil, add_zero]
  | cons d ds ih =>
    intro live h k
    have hds : ∀ d' ∈ ds, d'.shape = (live.plus d).shape :=
      fun d' hd' => h d' (List.mem_cons_of_mem d hd')
    rw [List.foldl_cons, List.map_cons, List.sum_cons, ih hds, entry_plus (h d List.mem_cons_self),
      add_assoc]

theorem sameLayout_foldl_plus (ds : List Tensor) : ∀ live : Tensor,
    SameLayout (ds.foldl plus live) live := by
  induction ds with
  | nil => exact SameLayout.refl
  | cons d ds ih => exact fun live => (ih (live.plus d)).trans (sameLayout_plus live d)

end Tensor
