/-
Programs that change a state and may raise.

A program is an `EStateM ε σ α`: it starts in a state, ends in a state, and
either returns or raises.  The state it leaves behind when it raises is the
state it had reached, so a half-finished loop stays half-finished.  The file
gives

* `wp m Q E s` — from `s`, the program `m` ends in a state satisfying `Q` if it
  returns and `E` if it raises, with one rule per program former;
* `Keeps R m` — every run of `m` relates its end to its start by `R`, the
  frame condition of `m`, with one rule per program former when `R` is
  reflexive and transitive;
* `Same f`, `Appends log P` — the two frame conditions most often kept: a part
  of the state is unchanged, a log only grows by entries satisfying `P`;
* `after`, `returned`, `raised` — the end state, the returned value and the
  exception, and `wp_iff` which reads `wp` back in terms of them;
* `run_bind_eq_ok`, `run_map_eq_ok` — when a sequence of programs returns.
-/
import Mathlib.Data.Nat.Notation
import Mathlib.Order.Defs.Unbundled

namespace Effect

variable {ε σ τ ι α β : Type}

/-- From `s`, `m` ends in `Q` if it returns and in `E` if it raises. -/
def wp (m : EStateM ε σ α) (Q : α → σ → Prop) (E : ε → σ → Prop) (s : σ) : Prop :=
  match m s with
  | .ok a s' => Q a s'
  | .error e s' => E e s'

/-- The state a program leaves behind, whether it returns or raises. -/
def after (m : EStateM ε σ α) (s : σ) : σ :=
  match m s with
  | .ok _ s' => s'
  | .error _ s' => s'

/-- The value a program returns, `none` if it raises. -/
def returned (m : EStateM ε σ α) (s : σ) : Option α :=
  match m s with
  | .ok a _ => some a
  | .error _ _ => none

/-- The exception a program raises, `none` if it returns. -/
def raised (m : EStateM ε σ α) (s : σ) : Option ε :=
  match m s with
  | .ok _ _ => none
  | .error e _ => some e

theorem wp_iff {m : EStateM ε σ α} {Q : α → σ → Prop} {E : σ → Prop} {s : σ} :
    wp m Q (fun _ => E) s ↔
      (∀ a, returned m s = some a → Q a (after m s)) ∧
        (returned m s = none → E (after m s)) := by
  unfold wp returned after
  cases m s <;> simp

theorem returned_eq_some {m : EStateM ε σ α} {s : σ} {a : α} :
    returned m s = some a ↔ ∃ s', m s = .ok a s' := by
  unfold returned
  cases m s <;> simp

/-- A program ends in the state it leaves behind, and raises what it raises. -/
theorem wp_raised (m : EStateM ε σ α) (s : σ) :
    wp m (fun _ s' => raised m s = none ∧ s' = after m s)
      (fun e s' => raised m s = some e ∧ s' = after m s) s := by
  unfold wp raised after
  cases m s <;> exact ⟨rfl, rfl⟩

theorem wp_const_iff {m : EStateM ε σ α} {P : σ → Prop} {s : σ} :
    wp m (fun _ => P) (fun _ => P) s ↔ P (after m s) := by
  unfold wp after
  cases m s <;> exact Iff.rfl

/-- Programs that end alike have the same to say. -/
theorem wp_congr {m m' : EStateM ε σ α} {s s' : σ} (h : m s = m' s') {Q : α → σ → Prop}
    {E : ε → σ → Prop} : wp m Q E s ↔ wp m' Q E s' := by
  unfold wp
  rw [h]

/-! ### Rules for the program formers -/

section Rules

variable {Q : α → σ → Prop} {E : ε → σ → Prop} {s : σ}

@[simp] theorem wp_pure {a : α} : wp (pure a) Q E s ↔ Q a s := Iff.rfl

@[simp] theorem wp_throw {e : ε} : wp (throw e : EStateM ε σ α) Q E s ↔ E e s := Iff.rfl

@[simp] theorem wp_get {Q : σ → σ → Prop} : wp (get : EStateM ε σ σ) Q E s ↔ Q s s := Iff.rfl

@[simp] theorem wp_set {Q : PUnit → σ → Prop} {s' : σ} :
    wp (set s' : EStateM ε σ PUnit) Q E s ↔ Q ⟨⟩ s' := Iff.rfl

@[simp] theorem wp_modify {Q : PUnit → σ → Prop} {f : σ → σ} :
    wp (modify f : EStateM ε σ PUnit) Q E s ↔ Q ⟨⟩ (f s) := Iff.rfl

@[simp] theorem wp_bind {m : EStateM ε σ β} {f : β → EStateM ε σ α} :
    wp (m >>= f) Q E s ↔ wp m (fun b => wp (f b) Q E) E s := by
  show (match EStateM.bind m f s with
    | .ok a s' => Q a s'
    | .error e s' => E e s') ↔ _
  unfold wp EStateM.bind
  cases m s <;> exact Iff.rfl

@[simp] theorem wp_map {m : EStateM ε σ β} {f : β → α} :
    wp (f <$> m) Q E s ↔ wp m (fun b => Q (f b)) E s := by
  show (match EStateM.map f m s with
    | .ok a s' => Q a s'
    | .error e s' => E e s') ↔ _
  unfold wp EStateM.map
  cases m s <;> exact Iff.rfl

/-- Reading the state goes on with it. -/
theorem get_bind (f : σ → EStateM ε σ α) (s : σ) :
    ((get : EStateM ε σ σ) >>= f) s = f s s := rfl

/-- Writing the state goes on from it. -/
theorem set_bind (s' : σ) (f : PUnit → EStateM ε σ α) (s : σ) :
    ((set s' : EStateM ε σ PUnit) >>= f) s = f ⟨⟩ s' := rfl

/-- A sequence of programs returns iff each of them does. -/
theorem run_bind_eq_ok {m : EStateM ε σ β} {f : β → EStateM ε σ α} {a : α} {s s'' : σ} :
    (m >>= f) s = .ok a s'' ↔ ∃ b s', m s = .ok b s' ∧ f b s' = .ok a s'' := by
  show EStateM.bind m f s = .ok a s'' ↔ _
  unfold EStateM.bind
  cases m s with
  | ok b s' => simp [and_assoc]
  | error e s' => simp

theorem run_map_eq_ok {m : EStateM ε σ β} {f : β → α} {a : α} {s s' : σ} :
    (f <$> m) s = .ok a s' ↔ ∃ b, m s = .ok b s' ∧ f b = a := by
  show EStateM.map f m s = .ok a s' ↔ _
  unfold EStateM.map
  cases m s with
  | ok b s'' => simp [and_comm]
  | error e s'' => simp

/-- Where the first program returns, the second goes on. -/
theorem run_bind_of_ok {m : EStateM ε σ β} {f : β → EStateM ε σ α} {b : β} {s s' : σ}
    (h : m s = .ok b s') : (m >>= f) s = f b s' := by
  show EStateM.bind m f s = f b s'
  rw [EStateM.bind, h]

/-- Run `m` and hand its outcome over as a value: the `try` of a `try … except`. -/
def attempt (m : EStateM ε σ α) : EStateM ε σ (Except ε α) := fun s =>
  match m s with
  | .ok a s' => .ok (.ok a) s'
  | .error e s' => .ok (.error e) s'

@[simp] theorem wp_attempt {m : EStateM ε σ β} {Q : Except ε β → σ → Prop} :
    wp (attempt m) Q E s ↔ wp m (fun b => Q (.ok b)) (fun e => Q (.error e)) s := by
  unfold wp attempt
  cases m s <;> exact Iff.rfl

theorem attempt_map (f : α → β) (m : EStateM ε σ α) :
    attempt (f <$> m) = Except.map f <$> attempt m := by
  funext s
  simp only [attempt, Functor.map, EStateM.map]
  cases m s <;> rfl

/-- `attempt` for a caller with exceptions of its own. -/
def catching {ε' : Type} (m : EStateM ε σ α) : EStateM ε' σ (Except ε α) := fun s =>
  match m s with
  | .ok a s' => .ok (.ok a) s'
  | .error e s' => .ok (.error e) s'

@[simp] theorem wp_catching {ε' : Type} {m : EStateM ε' σ β} {Q : Except ε' β → σ → Prop} :
    wp (catching m) Q E s ↔ wp m (fun b => Q (.ok b)) (fun e => Q (.error e)) s := by
  unfold wp catching
  cases m s <;> exact Iff.rfl

/-- A sequence of computations returns iff each of them does. -/
theorem bind_eq_ok {x : Except ε β} {f : β → Except ε α} {a : α} :
    (x >>= f) = .ok a ↔ ∃ b, x = .ok b ∧ f b = .ok a := by
  cases x <;> simp [bind, Except.bind]

/-- A sequence of computations raises what the first raises, or the second. -/
theorem bind_eq_error {x : Except ε β} {f : β → Except ε α} {e : ε} :
    (x >>= f) = .error e ↔ x = .error e ∨ ∃ b, x = .ok b ∧ f b = .error e := by
  cases x <;> simp [bind, Except.bind]

/-- A check that raises under a condition passes iff the condition fails. -/
theorem guard_eq_ok {c : Bool} {e : ε} {u : Unit} :
    ((if c = true then throw e else pure ()) : Except ε Unit) = .ok u ↔ c = false := by
  cases c <;> simp [throw, throwThe, MonadExceptOf.throw, pure, Except.pure]

/-- Raise unless a condition holds. -/
def require (c : Bool) (e : ε) : Except ε Unit := if c then .ok () else .error e

theorem require_eq_ok {c : Bool} {e : ε} {u : Unit} : require c e = .ok u ↔ c = true := by
  cases c <;> simp [require]

/-- A computation that reads nothing from the state and may raise. -/
def ofExcept : Except ε α → EStateM ε σ α
  | .ok a => pure a
  | .error e => throw e

@[simp] theorem wp_ofExcept {x : Except ε α} :
    wp (ofExcept x : EStateM ε σ α) Q E s ↔
      (∀ a, x = .ok a → Q a s) ∧ (∀ e, x = .error e → E e s) := by
  cases x <;> simp [ofExcept]

theorem ofExcept_eq_ok {x : Except ε α} {a : α} {s s' : σ} :
    ofExcept x s = .ok a s' ↔ x = .ok a ∧ s = s' := by
  cases x with
  | ok b =>
    constructor
    · intro h
      cases h
      exact ⟨rfl, rfl⟩
    · rintro ⟨h, rfl⟩
      cases h
      rfl
  | error e => exact iff_of_false (fun h => by cases h) fun h => by cases h.1

/-- Run a program on a component of the state. -/
def zoom (read : σ → τ) (write : τ → σ → σ) (m : EStateM ε τ α) : EStateM ε σ α := fun s =>
  match m (read s) with
  | .ok a t => .ok a (write t s)
  | .error e t => .error e (write t s)

@[simp] theorem wp_zoom {read : σ → τ} {write : τ → σ → σ} {m : EStateM ε τ α} :
    wp (zoom read write m) Q E s ↔
      wp m (fun a t => Q a (write t s)) (fun e t => E e (write t s)) (read s) := by
  unfold wp zoom
  cases m (read s) <;> exact Iff.rfl

theorem wp.mono {m : EStateM ε σ α} {Q' : α → σ → Prop} {E' : ε → σ → Prop}
    (h : wp m Q E s) (hQ : ∀ a s', Q a s' → Q' a s') (hE : ∀ e s', E e s' → E' e s') :
    wp m Q' E' s := by
  unfold wp at h ⊢
  cases hm : m s with
  | ok a s' =>
    rw [hm] at h
    exact hQ a s' h
  | error e s' =>
    rw [hm] at h
    exact hE e s' h

theorem wp.and {m : EStateM ε σ α} {Q' : α → σ → Prop} {E' : ε → σ → Prop}
    (h : wp m Q E s) (h' : wp m Q' E' s) :
    wp m (fun a s' => Q a s' ∧ Q' a s') (fun e s' => E e s' ∧ E' e s') s := by
  unfold wp at h h' ⊢
  cases hm : m s with
  | ok a s' =>
    rw [hm] at h h'
    exact ⟨h, h'⟩
  | error e s' =>
    rw [hm] at h h'
    exact ⟨h, h'⟩

end Rules

/-! ### Loops -/

/-- `for i, x in enumerate(xs, start)`. -/
def forEach (body : ℕ → ι → EStateM ε σ Unit) : ℕ → List ι → EStateM ε σ Unit
  | _, [] => pure ()
  | i, x :: xs => do
    body i x
    forEach body (i + 1) xs

/-- The loop rule: `I` holds of the elements not yet visited. -/
theorem wp_forEach {body : ℕ → ι → EStateM ε σ Unit} {I : List ι → σ → Prop}
    {E : ε → σ → Prop}
    (hbody : ∀ i x xs s, I (x :: xs) s → wp (body i x) (fun _ => I xs) E s) :
    ∀ {xs : List ι} {i : ℕ} {s : σ}, I xs s →
      wp (forEach body i xs) (fun _ => I []) E s := by
  intro xs
  induction xs with
  | nil =>
    intro i s h
    exact h
  | cons x xs ih =>
    intro i s h
    rw [forEach, wp_bind]
    exact (hbody i x xs s h).mono (fun _ s' hs' => ih hs') fun _ _ he => he

/-! ### Frame conditions -/

/-- Every run of `m` relates the state it leaves behind to the one it started in. -/
def Keeps (R : σ → σ → Prop) (m : EStateM ε σ α) : Prop :=
  ∀ s, wp m (fun _ s' => R s s') (fun _ s' => R s s') s

namespace Keeps

variable {R : σ → σ → Prop}

theorem after {m : EStateM ε σ α} (h : Keeps R m) (s : σ) : R s (after m s) :=
  wp_const_iff.mp (h s)

/-- A frame condition may be added to what is known of a run. -/
theorem and_wp {m : EStateM ε σ α} (h : Keeps R m) {Q : α → σ → Prop} {E : ε → σ → Prop}
    {s : σ} (hwp : wp m Q E s) :
    wp m (fun a s' => R s s' ∧ Q a s') (fun e s' => R s s' ∧ E e s') s :=
  (h s).and hwp

theorem modify {f : σ → σ} (h : ∀ s, R s (f s)) :
    Keeps R (modify f : EStateM ε σ PUnit) := h

theorem attempt {m : EStateM ε σ α} (hm : Keeps R m) : Keeps R (attempt m) := by
  intro s
  rw [wp_attempt]
  exact hm s

theorem map {m : EStateM ε σ β} (f : β → α) (hm : Keeps R m) : Keeps R (f <$> m) := by
  intro s
  rw [wp_map]
  exact hm s

theorem ite {c : Prop} [Decidable c] {m m' : EStateM ε σ α} (hm : c → Keeps R m)
    (hm' : ¬c → Keeps R m') : Keeps R (if c then m else m') := by
  by_cases h : c
  · rw [if_pos h]
    exact hm h
  · rw [if_neg h]
    exact hm' h

section Preorder

variable [IsPreorder σ R]

theorem pure (a : α) : Keeps R (pure a : EStateM ε σ α) := fun s => refl_of R s

theorem throw (e : ε) : Keeps R (throw e : EStateM ε σ α) := fun s => refl_of R s

theorem get : Keeps R (get : EStateM ε σ σ) := fun s => refl_of R s

theorem ofExcept (x : Except ε α) : Keeps R (ofExcept x : EStateM ε σ α) := by
  cases x
  · exact throw _
  · exact pure _

theorem bind {m : EStateM ε σ β} {f : β → EStateM ε σ α} (hm : Keeps R m)
    (hf : ∀ b, Keeps R (f b)) : Keeps R (m >>= f) := by
  intro s
  rw [wp_bind]
  refine (hm s).mono (fun b s' hs' => ?_) fun _ _ he => he
  exact (hf b s').mono (fun _ _ h => trans_of R hs' h) fun _ _ h => trans_of R hs' h

theorem forEach {body : ℕ → ι → EStateM ε σ Unit} (h : ∀ i x, Keeps R (body i x)) :
    ∀ (xs : List ι) (i : ℕ), Keeps R (forEach body i xs) := by
  intro xs
  induction xs with
  | nil =>
    intro i
    exact pure ()
  | cons x xs ih =>
    intro i
    exact bind (h i x) fun _ => ih (i + 1)

end Preorder

/-- Every program keeps the relation that says nothing. -/
theorem anything (m : EStateM ε σ α) : Keeps (fun _ _ => True) m := fun s => by
  unfold wp
  cases m s <;> exact trivial

/-- A program on a component keeps what writing back what it keeps there keeps. -/
theorem zoom {S : τ → τ → Prop} {read : σ → τ} {write : τ → σ → σ} {m : EStateM ε τ α}
    (hm : Keeps S m) (h : ∀ t s, S (read s) t → R s (write t s)) :
    Keeps R (zoom read write m) := by
  intro s
  rw [wp_zoom]
  exact (hm (read s)).mono (fun _ t ht => h t s ht) fun _ t ht => h t s ht

end Keeps

/-- The part `f` of the state is unchanged. -/
def Same {ρ : Type} (f : σ → ρ) (s s' : σ) : Prop := f s' = f s

instance {ρ : Type} (f : σ → ρ) : IsPreorder σ (Same f) where
  refl _ := rfl
  trans _ _ _ h h' := Eq.trans h' h

/-- The log has grown by entries that satisfy `P`. -/
def Appends {η : Type} (log : σ → List η) (P : η → Prop) (s s' : σ) : Prop :=
  ∃ es, log s' = log s ++ es ∧ ∀ e ∈ es, P e

instance {η : Type} (log : σ → List η) (P : η → Prop) : IsPreorder σ (Appends log P) where
  refl s := ⟨[], (List.append_nil _).symm, fun _ h => absurd h List.not_mem_nil⟩
  trans s s' s'' := by
    rintro ⟨es, hes, hP⟩ ⟨es', hes', hP'⟩
    refine ⟨es ++ es', by rw [hes', hes, List.append_assoc], fun e he => ?_⟩
    rcases List.mem_append.mp he with h | h
    · exact hP e h
    · exact hP' e h

namespace Appends

variable {η : Type} {log : σ → List η} {P : η → Prop} {s s' : σ}

/-- What is past the old end of the log satisfies `P`. -/
theorem of_mem_drop (h : Appends log P s s') {e : η} (he : e ∈ (log s').drop (log s).length) :
    P e := by
  obtain ⟨es, hes, hP⟩ := h
  rw [hes, List.drop_left] at he
  exact hP e he

theorem mono {P' : η → Prop} (h : Appends log P s s') (hP : ∀ e, P e → P' e) :
    Appends log P' s s' := by
  obtain ⟨es, hes, hes'⟩ := h
  exact ⟨es, hes, fun e he => hP e (hes' e he)⟩

theorem one {e : η} (hlog : log s' = log s ++ [e]) (he : P e) : Appends log P s s' :=
  ⟨[e], hlog, fun _ h => List.mem_singleton.mp h ▸ he⟩

theorem nothing (hlog : log s' = log s) : Appends log P s s' :=
  ⟨[], by rw [hlog, List.append_nil], fun _ h => absurd h List.not_mem_nil⟩

end Appends

/-- From `s`, the program returns. -/
def Returns (m : EStateM ε σ α) (s : σ) : Prop := wp m (fun _ _ => True) (fun _ _ => False) s

theorem returns_iff {m : EStateM ε σ α} {s : σ} : Returns m s ↔ ∃ a, returned m s = some a := by
  unfold Returns wp returned
  cases m s <;> simp

instance {m : EStateM ε σ α} {s : σ} : Decidable (Returns m s) :=
  decidable_of_iff ((returned m s).isSome = true)
    (by rw [returns_iff, Option.isSome_iff_exists])

theorem not_returns_iff {m : EStateM ε σ α} {s : σ} :
    ¬Returns m s ↔ wp m (fun _ _ => False) (fun _ _ => True) s := by
  unfold Returns wp
  cases m s <;> simp

theorem wp_returns_and {m : EStateM ε σ α} {P : Prop} {s : σ} :
    wp m (fun _ _ => P) (fun _ _ => False) s ↔ Returns m s ∧ P := by
  unfold Returns wp
  cases m s <;> simp

/-- A loop returns with another if each step of it does, from whatever states. -/
theorem returns_forEach_congr {body body' : ℕ → ι → EStateM ε σ Unit}
    (h : ∀ i x s s', Returns (body i x) s ↔ Returns (body' i x) s') :
    ∀ (xs : List ι) (i : ℕ) (s s' : σ),
      Returns (forEach body i xs) s ↔ Returns (forEach body' i xs) s' := by
  intro xs
  induction xs with
  | nil => exact fun _ _ _ => Iff.rfl
  | cons x xs ih =>
    intro i s s'
    have hfirst : ∀ {b : ℕ → ι → EStateM ε σ Unit} {s₀ : σ},
        (∀ s₁, Returns (forEach b (i + 1) xs) s₁ ↔ Returns (forEach body (i + 1) xs) s) →
        (Returns (forEach b i (x :: xs)) s₀ ↔
          Returns (b i x) s₀ ∧ Returns (forEach body (i + 1) xs) s) := by
      intro b s₀ hrest
      rw [Returns, forEach, wp_bind, ← wp_returns_and]
      constructor
      · exact fun hwp => hwp.mono (fun _ s₁ hs₁ => (hrest s₁).mp hs₁) fun _ _ h => h
      · exact fun hwp => hwp.mono (fun _ s₁ hs => (hrest s₁).mpr hs) fun _ _ h => h
    have hconst : ∀ s₁, Returns (forEach body (i + 1) xs) s₁ ↔
        Returns (forEach body (i + 1) xs) s := fun s₁ => (ih _ s₁ s).trans (ih _ s s).symm
    rw [hfirst hconst, hfirst fun s₁ => (ih _ s s₁).symm, h i x s s']

/-- A program that returns need not be followed on its exceptional exit. -/
theorem Returns.wp {m : EStateM ε σ α} {Q : α → σ → Prop} {E E' : ε → σ → Prop} {s : σ}
    (h : Returns m s) (hwp : wp m Q E s) : wp m Q E' s :=
  (Effect.wp.and h hwp).mono (fun _ _ h => h.2) fun _ _ h => h.1.elim

end Effect
