/-
Queues that are first-in first-out for each key.

Items have a key and are taken a few of one key at a time.
`Accounts key submitted taken pending` says that for every key the items taken
so far, followed by those still pending, are the items submitted, in the order
of submission.  Everything one asks of such a queue follows:

* `Accounts.submit`, `Accounts.take` — the two operations keep the accounts;
* `Accounts.perm` — nothing is lost and nothing is duplicated;
* `Accounts.order` — the items of a key are taken in the order of submission;
* `ofKey_flatMap_entries` — the pending items may be kept in a dictionary of one
  queue for each key;
* `Numbered` — items may carry the position at which they were submitted.
-/
import NeuralScalpel.Dict
import Mathlib.Data.List.Basic
import Mathlib.Data.List.Perm.Basic
import Mathlib.Data.List.Range

namespace KeyedFifo

variable {κ α : Type} [DecidableEq κ] {key : α → κ}

/-- The items of one key, in order. -/
def ofKey (key : α → κ) (k : κ) (l : List α) : List α := l.filter fun a => key a = k

@[simp] theorem ofKey_nil (k : κ) : ofKey key k [] = [] := rfl

@[simp] theorem ofKey_append (k : κ) (l l' : List α) :
    ofKey key k (l ++ l') = ofKey key k l ++ ofKey key k l' := List.filter_append ..

theorem ofKey_cons (k : κ) (a : α) (l : List α) :
    ofKey key k (a :: l) = if key a = k then a :: ofKey key k l else ofKey key k l := by
  by_cases h : key a = k <;> simp [ofKey, h]

theorem mem_ofKey {k : κ} {a : α} {l : List α} : a ∈ ofKey key k l ↔ a ∈ l ∧ key a = k := by
  simp [ofKey]

/-- All items have the key. -/
theorem ofKey_of_forall {k : κ} {l : List α} (h : ∀ a ∈ l, key a = k) : ofKey key k l = l :=
  List.filter_eq_self.mpr fun a ha => decide_eq_true (h a ha)

/-- No item has the key. -/
theorem ofKey_of_forall_ne {k : κ} {l : List α} (h : ∀ a ∈ l, key a ≠ k) : ofKey key k l = [] :=
  List.filter_eq_nil_iff.mpr fun a ha => by simpa using h a ha

/-- How often an item occurs can be told from the items of its key. -/
theorem count_ofKey [DecidableEq α] (a : α) (l : List α) :
    (ofKey key (key a) l).count a = l.count a :=
  List.count_filter (by simp)

/-- In a dictionary of queues whose items have the key they are stored under,
the items of a key are those of its queue. -/
theorem ofKey_flatMap_entries {ν : Type} {items : ν → List α} {d : Dict κ ν}
    (h : ∀ k v, d.get? k = some v → ∀ a ∈ items v, key a = k) (k : κ) :
    ofKey key k (d.entries.flatMap fun e => items e.2) = ((d.get? k).map items).getD [] := by
  obtain ⟨entries, hnodup⟩ := d
  have hkeys : ∀ e ∈ entries, ∀ a ∈ items e.2, key a = e.1 := fun e he a ha =>
    h e.1 e.2 ((Dict.lookup_eq_some_iff_mem hnodup).mpr he) a ha
  clear h
  show ofKey key k (entries.flatMap fun e => items e.2) = ((entries.lookup k).map items).getD []
  induction entries with
  | nil => rfl
  | cons e entries ih =>
    obtain ⟨hnot, hrest⟩ := List.nodup_cons.mp hnodup
    have hhead := hkeys e List.mem_cons_self
    have ih := ih hrest fun e' he' => hkeys e' (List.mem_cons_of_mem e he')
    rw [List.flatMap_cons, ofKey_append, ih]
    by_cases hk : k = e.1
    · subst hk
      have hnone : entries.lookup e.1 = none := by
        rcases hl : entries.lookup e.1 with _ | v
        · rfl
        · exact absurd (List.mem_map_of_mem ((Dict.lookup_eq_some_iff_mem hrest).mp hl)) hnot
      rw [hnone, ofKey_of_forall hhead, List.lookup_cons_self]
      simp
    · have hne : ∀ a ∈ items e.2, key a ≠ k := fun a ha heq => hk (heq.symm.trans (hhead a ha))
      rw [ofKey_of_forall_ne hne, List.nil_append, Dict.lookup_cons_of_ne hk]

/-- For every key, what has been taken and what is pending is what has been
submitted, in order. -/
def Accounts (key : α → κ) (submitted taken : List α) (pending : κ → List α) : Prop :=
  ∀ k, ofKey key k taken ++ pending k = ofKey key k submitted

namespace Accounts

variable {submitted taken : List α} {pending pending' : κ → List α}

theorem start : Accounts key [] [] fun _ => [] := fun _ => rfl

/-- An item goes to the end of its key. -/
theorem submit (h : Accounts key submitted taken pending) {a : α}
    (hself : pending' (key a) = pending (key a) ++ [a])
    (hother : ∀ k, k ≠ key a → pending' k = pending k) :
    Accounts key (submitted ++ [a]) taken pending' := by
  intro k
  rw [ofKey_append, ← h k, ofKey_cons, ofKey_nil]
  by_cases hk : key a = k
  · subst hk
    rw [hself, if_pos rfl, List.append_assoc]
  · rw [hother k (Ne.symm hk), if_neg hk, List.append_nil]

/-- A batch comes from the front of its key. -/
theorem take (h : Accounts key submitted taken pending) {k : κ} {batch : List α}
    (hbatch : ∀ a ∈ batch, key a = k) (hself : pending k = batch ++ pending' k)
    (hother : ∀ k', k' ≠ k → pending' k' = pending k') :
    Accounts key submitted (taken ++ batch) pending' := by
  intro k'
  rw [ofKey_append, ← h k']
  by_cases hk : k' = k
  · subst hk
    rw [ofKey_of_forall hbatch, hself, List.append_assoc]
  · have hne : ∀ a ∈ batch, key a ≠ k' := fun a ha heq => hk (heq.symm.trans (hbatch a ha))
    rw [ofKey_of_forall_ne hne, List.append_nil, hother k' hk]

/-- Each key is served in the order of submission. -/
theorem order (h : Accounts key submitted taken pending) (k : κ) :
    ofKey key k taken <+: ofKey key k submitted := ⟨pending k, h k⟩

/-- Nothing is lost and nothing is duplicated. -/
theorem perm {left : List α} (h : Accounts key submitted taken fun k => ofKey key k left) :
    (taken ++ left).Perm submitted := by
  classical
  refine List.perm_iff_count.mpr fun a => ?_
  have hcount := congrArg (List.count a) (h (key a))
  rw [List.count_append, count_ofKey, count_ofKey, count_ofKey] at hcount
  rw [List.count_append, hcount]

end Accounts

/-! ### Items that carry their position -/

/-- The number of each item is its position. -/
def Numbered (number : α → ℕ) (l : List α) : Prop :=
  ∀ (n : ℕ) (a : α), l[n]? = some a → number a = n

namespace Numbered

variable {number : α → ℕ} {l : List α}

theorem nil : Numbered number [] := fun _ _ h => absurd h (by simp)

theorem concat (h : Numbered number l) {a : α} (ha : number a = l.length) :
    Numbered number (l ++ [a]) := by
  intro n b hn
  rcases Nat.lt_or_ge n l.length with hlt | hge
  · exact h n b (by rwa [List.getElem?_append_left hlt] at hn)
  · rw [List.getElem?_append_right hge] at hn
    obtain ⟨hlt, hget⟩ := List.getElem?_eq_some_iff.mp hn
    rw [List.length_singleton] at hlt
    have hb : b = a := by
      rw [← hget]
      exact List.getElem_singleton ..
    rw [hb, ha]
    omega

theorem inj (h : Numbered number l) {a b : α} (ha : a ∈ l) (hb : b ∈ l)
    (heq : number a = number b) : a = b := by
  obtain ⟨n, hn⟩ := List.mem_iff_getElem?.mp ha
  obtain ⟨m, hm⟩ := List.mem_iff_getElem?.mp hb
  rw [h n a hn, h m b hm] at heq
  subst heq
  exact Option.some.inj (hn.symm.trans hm)

theorem map_eq_range (h : Numbered number l) : l.map number = List.range l.length := by
  refine List.ext_getElem? fun n => ?_
  rcases hn : l[n]? with _ | a
  · have hlen := List.getElem?_eq_none_iff.mp hn
    rw [List.getElem?_map, hn, List.getElem?_eq_none (by simpa using hlen)]
    rfl
  · have hlt : n < l.length := (List.getElem?_eq_some_iff.mp hn).1
    rw [List.getElem?_map, hn, List.getElem?_range hlt]
    exact congrArg some (h n a hn)

theorem nodup (h : Numbered number l) : (l.map number).Nodup := by
  rw [h.map_eq_range]
  exact List.nodup_range

end Numbered

end KeyedFifo
