/-
Loops that fill a dictionary.

`fill f l d` walks through keyed values and, for each, raises, writes a value
under the same key, or passes over it:

* `fill_ok_iff` — the loop returns iff no step of it raises;
* `get?_fill` — what is then found under a key is what its step wrote.

`ofKeys f l` is the comprehension that computes a value for every key:

* `get?_ofKeys` — every key of the list has the value computed for it.
-/
import NeuralScalpel.Dict
import NeuralScalpel.Effect

namespace Dict

variable {ε κ α ν : Type} [DecidableEq κ]

/-- For each keyed value, in order: raise, write under the key, or pass over. -/
def fill (f : κ → α → Except ε (Option ν)) : List (κ × α) → Dict κ ν → Except ε (Dict κ ν)
  | [], d => .ok d
  | (k, a) :: rest, d => do
    match ← f k a with
    | some v => fill f rest (d.set k v)
    | none => fill f rest d

variable {f : κ → α → Except ε (Option ν)}

theorem fill_cons_of_ok {k : κ} {a : α} {rest : List (κ × α)} {d : Dict κ ν} {o : Option ν}
    (h : f k a = .ok o) :
    fill f ((k, a) :: rest) d = fill f rest (o.elim d fun v => d.set k v) := by
  rw [fill, h]
  cases o <;> rfl

/-- The loop returns iff no step raises. -/
theorem fill_ok_iff : ∀ {l : List (κ × α)} {d : Dict κ ν},
    (∃ d', fill f l d = .ok d') ↔ ∀ k a, (k, a) ∈ l → ∃ o, f k a = .ok o := by
  intro l
  induction l with
  | nil =>
    intro d
    exact ⟨fun _ k a hmem => absurd hmem List.not_mem_nil, fun _ => ⟨d, rfl⟩⟩
  | cons hd rest ih =>
    intro d
    obtain ⟨k, a⟩ := hd
    rcases hf : f k a with e | o
    · constructor
      · rintro ⟨d', hd'⟩
        rw [fill, hf] at hd'
        cases hd'
      · intro h
        obtain ⟨o, ho⟩ := h k a List.mem_cons_self
        rw [hf] at ho
        cases ho
    · rw [fill_cons_of_ok hf, ih]
      constructor
      · intro h k' a' hmem
        rcases List.mem_cons.mp hmem with heq | hrest
        · cases heq
          exact ⟨o, hf⟩
        · exact h k' a' hrest
      · intro h k' a' hmem
        exact h k' a' (List.mem_cons_of_mem _ hmem)

/-- Under a key is found what its step wrote, or what was there before. -/
theorem get?_fill_of_fresh {k : κ} {v : ν} : ∀ {l : List (κ × α)} {d d' : Dict κ ν},
    (l.map Prod.fst).Nodup → (∀ k a, (k, a) ∈ l → d.get? k = none) → fill f l d = .ok d' →
      (d'.get? k = some v ↔ d.get? k = some v ∨ ∃ a, (k, a) ∈ l ∧ f k a = .ok (some v)) := by
  intro l
  induction l with
  | nil =>
    intro d d' _ _ h
    cases h
    exact ⟨Or.inl, fun h => h.resolve_right fun ⟨_, hmem, _⟩ => absurd hmem List.not_mem_nil⟩
  | cons hd rest ih =>
    intro d d' hnodup hfresh h
    obtain ⟨k₀, a₀⟩ := hd
    obtain ⟨hk₀, hnodup⟩ := List.nodup_cons.mp hnodup
    obtain ⟨o, hf⟩ := fill_ok_iff.mp ⟨d', h⟩ k₀ a₀ List.mem_cons_self
    have hne : ∀ k a, (k, a) ∈ rest → k ≠ k₀ := by
      rintro k a hmem rfl
      exact absurd (List.mem_map_of_mem (f := Prod.fst) hmem) hk₀
    have hfresh' : ∀ k a, (k, a) ∈ rest → (o.elim d fun v => d.set k₀ v).get? k = none := by
      intro k a hmem
      have hd : d.get? k = none := hfresh k a (List.mem_cons_of_mem _ hmem)
      cases o with
      | none => exact hd
      | some v₀ =>
        show (d.set k₀ v₀).get? k = none
        rw [get?_set_of_ne (hne k a hmem), hd]
    rw [fill_cons_of_ok hf] at h
    rw [ih hnodup hfresh' h]
    have hstep : (o.elim d fun v => d.set k₀ v).get? k = some v ↔
        d.get? k = some v ∨ (k = k₀ ∧ o = some v) := by
      cases o with
      | none => simp
      | some v₀ =>
        show (d.set k₀ v₀).get? k = some v ↔ _
        rw [get?_set]
        by_cases hk : k = k₀
        · have hd : d.get? k = none := by
            rw [hk]
            exact hfresh k₀ a₀ List.mem_cons_self
          simp [hk, hk ▸ hd]
        · simp [hk]
    rw [hstep, or_assoc]
    refine or_congr_right ?_
    constructor
    · rintro (⟨rfl, rfl⟩ | ⟨a, hmem, ha⟩)
      · exact ⟨a₀, List.mem_cons_self, hf⟩
      · exact ⟨a, List.mem_cons_of_mem _ hmem, ha⟩
    · rintro ⟨a, hmem, ha⟩
      rcases List.mem_cons.mp hmem with heq | hrest
      · cases heq
        rw [hf] at ha
        exact Or.inl ⟨rfl, Except.ok.inj ha⟩
      · exact Or.inr ⟨a, hrest, ha⟩

/-- Filling the empty dictionary from the entries of another. -/
theorem get?_fill {source : Dict κ α} {d : Dict κ ν} (h : fill f source.entries empty = .ok d)
    {k : κ} {v : ν} :
    d.get? k = some v ↔ ∃ a, source.get? k = some a ∧ f k a = .ok (some v) := by
  rw [get?_fill_of_fresh source.nodup (fun k a _ => get?_empty k) h]
  simp [mem_entries_iff]

/-! ### Comprehensions -/

/-- `{k: f(k) for k in keys}`, from a dictionary on. -/
def fillKeys (f : κ → Except ε ν) : List κ → Dict κ ν → Except ε (Dict κ ν)
  | [], d => .ok d
  | k :: keys, d => do
    let v ← f k
    fillKeys f keys (d.set k v)

def ofKeys (f : κ → Except ε ν) (keys : List κ) : Except ε (Dict κ ν) := fillKeys f keys empty

theorem get?_fillKeys {f : κ → Except ε ν} {k : κ} {v : ν} : ∀ {keys : List κ} {d d' : Dict κ ν},
    fillKeys f keys d = .ok d' →
      (d'.get? k = some v ↔ (k ∈ keys ∧ f k = .ok v) ∨ (k ∉ keys ∧ d.get? k = some v)) := by
  intro keys
  induction keys with
  | nil =>
    intro d d' h
    cases h
    simp
  | cons key keys ih =>
    intro d d' h
    obtain ⟨u, hu, h⟩ := Effect.bind_eq_ok.mp h
    rw [ih h, get?_set]
    by_cases hk : k = key
    · subst hk
      have hv : (some u = some v) ↔ f k = .ok v := by
        rw [hu, Option.some_inj, Except.ok.injEq]
      by_cases hmem : k ∈ keys
      · simp [hmem]
      · simp [hmem, hv]
    · simp [hk]

/-- Every key of the list has the value computed for it, and no other key has one. -/
theorem get?_ofKeys {f : κ → Except ε ν} {keys : List κ} {d : Dict κ ν}
    (h : ofKeys f keys = .ok d) {k : κ} {v : ν} :
    d.get? k = some v ↔ k ∈ keys ∧ f k = .ok v := by
  rw [get?_fillKeys h, get?_empty]
  simp

/-- A comprehension that returns has computed a value for every key. -/
theorem exists_of_fillKeys {f : κ → Except ε ν} : ∀ {keys : List κ} {d d' : Dict κ ν},
    fillKeys f keys d = .ok d' → ∀ k ∈ keys, ∃ v, f k = .ok v := by
  intro keys
  induction keys with
  | nil => exact fun _ _ h => absurd h List.not_mem_nil
  | cons key keys ih =>
    intro d d' h k hk
    obtain ⟨u, hu, h⟩ := Effect.bind_eq_ok.mp h
    rcases List.mem_cons.mp hk with rfl | hrest
    · exact ⟨u, hu⟩
    · exact ih h k hrest

end Dict
