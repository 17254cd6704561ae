/-
Insertion-ordered dictionaries.

`Dict κ ν` is a finite map that remembers the order in which its keys were
first written: `set` overwrites the value of a present key in place and
appends an absent key at the end.  No key occurs twice, and the structure
carries the proof, so that walking through the entries and looking keys up
can never disagree:

* `Dict.mem_entries_iff` — an entry is in the list iff its key looks up to it;
* `Dict.get?_set`, `Dict.get?_erase` — a lookup after a write or a removal;
* `Dict.mem_keys_iff` — the keys are the keys that look up to something;
* `Dict.get?_ofWrites` — what a sequence of writes leaves.
-/
import Mathlib.Data.List.Nodup
import Mathlib.Data.List.Induction

/-- A dictionary that remembers the order of first insertion. -/
structure Dict (κ ν : Type) [DecidableEq κ] where
  entries : List (κ × ν)
  nodup : (entries.map Prod.fst).Nodup

namespace Dict

variable {κ ν : Type} [DecidableEq κ]

theorem ext {d d' : Dict κ ν} (h : d.entries = d'.entries) : d = d' := by
  cases d
  cases d'
  subst h
  rfl

instance [DecidableEq ν] : DecidableEq (Dict κ ν) := fun d d' =>
  decidable_of_iff (d.entries = d'.entries) ⟨ext, fun h => h ▸ rfl⟩

/-- The dictionary without entries. -/
def empty : Dict κ ν := ⟨[], List.nodup_nil⟩

def keys (d : Dict κ ν) : List κ := d.entries.map Prod.fst

def get? (d : Dict κ ν) (k : κ) : Option ν := d.entries.lookup k

def contains (d : Dict κ ν) (k : κ) : Bool := (d.get? k).isSome

def isEmpty (d : Dict κ ν) : Bool := d.entries.isEmpty

/-- Write `v` at `k`: in place when `k` is present, at the end otherwise. -/
def setEntries (k : κ) (v : ν) : List (κ × ν) → List (κ × ν)
  | [] => [(k, v)]
  | (k', v') :: rest => if k' = k then (k, v) :: rest else (k', v') :: setEntries k v rest

theorem mem_keys_setEntries {k k' : κ} {v : ν} : ∀ {l : List (κ × ν)},
    k' ∈ (setEntries k v l).map Prod.fst ↔ k' = k ∨ k' ∈ l.map Prod.fst := by
  intro l
  induction l with
  | nil => simp [setEntries]
  | cons hd rest ih =>
    rw [setEntries]
    by_cases h : hd.1 = k
    · rw [if_pos h]
      simp [h]
    · rw [if_neg h, List.map_cons, List.mem_cons, ih, List.map_cons, List.mem_cons]
      exact or_left_comm

theorem nodup_setEntries (k : κ) (v : ν) : ∀ {l : List (κ × ν)},
    (l.map Prod.fst).Nodup → ((setEntries k v l).map Prod.fst).Nodup := by
  intro l
  induction l with
  | nil => simp [setEntries]
  | cons hd rest ih =>
    intro h
    obtain ⟨hhd, hrest⟩ := List.nodup_cons.mp h
    rw [setEntries]
    by_cases hk : hd.1 = k
    · rw [if_pos hk]
      exact List.nodup_cons.mpr ⟨hk ▸ hhd, hrest⟩
    · rw [if_neg hk]
      refine List.nodup_cons.mpr ⟨fun hmem => ?_, ih hrest⟩
      rcases mem_keys_setEntries.mp hmem with h' | h'
      · exact hk h'
      · exact hhd h'

def set (d : Dict κ ν) (k : κ) (v : ν) : Dict κ ν :=
  ⟨setEntries k v d.entries, nodup_setEntries k v d.nodup⟩

/-! ### Lookups -/

@[simp] theorem get?_empty (k : κ) : (empty : Dict κ ν).get? k = none := rfl

@[simp] theorem isEmpty_empty : (empty : Dict κ ν).isEmpty = true := rfl

theorem lookup_cons_of_ne {k k' : κ} (h : k' ≠ k) (v : ν) (l : List (κ × ν)) :
    ((k, v) :: l).lookup k' = l.lookup k' := by
  rw [List.lookup_cons, beq_false_of_ne h]

theorem lookup_eq_some_iff_mem {k : κ} {v : ν} : ∀ {l : List (κ × ν)},
    (l.map Prod.fst).Nodup → (l.lookup k = some v ↔ (k, v) ∈ l) := by
  intro l
  induction l with
  | nil => simp
  | cons hd rest ih =>
    intro h
    obtain ⟨hhd, hrest⟩ := List.nodup_cons.mp h
    by_cases hk : k = hd.1
    · subst hk
      rw [List.lookup_cons_self, Option.some.injEq, List.mem_cons]
      constructor
      · rintro rfl
        exact Or.inl rfl
      · rintro (h' | h')
        · exact (congrArg Prod.snd h').symm
        · exact absurd (List.mem_map_of_mem h') hhd
    · rw [lookup_cons_of_ne hk, ih hrest, List.mem_cons]
      exact ⟨Or.inr, fun h' => h'.resolve_left fun he => hk (congrArg Prod.fst he)⟩

/-- An entry is listed iff its key looks up to its value. -/
theorem mem_entries_iff {d : Dict κ ν} {k : κ} {v : ν} :
    (k, v) ∈ d.entries ↔ d.get? k = some v :=
  (lookup_eq_some_iff_mem d.nodup).symm

theorem contains_iff {d : Dict κ ν} {k : κ} :
    d.contains k = true ↔ ∃ v, d.get? k = some v := by
  rw [contains, Option.isSome_iff_exists]

theorem mem_keys_iff {d : Dict κ ν} {k : κ} : k ∈ d.keys ↔ d.contains k = true := by
  rw [contains_iff, keys, List.mem_map]
  constructor
  · rintro ⟨⟨k', v⟩, hmem, rfl⟩
    exact ⟨v, mem_entries_iff.mp hmem⟩
  · rintro ⟨v, hv⟩
    exact ⟨(k, v), mem_entries_iff.mpr hv, rfl⟩

theorem lookup_setEntries {k k' : κ} {v : ν} : ∀ {l : List (κ × ν)},
    (setEntries k v l).lookup k' = if k' = k then some v else l.lookup k' := by
  intro l
  induction l with
  | nil =>
    rw [setEntries]
    by_cases h : k' = k
    · rw [h, List.lookup_cons_self, if_pos rfl]
    · rw [lookup_cons_of_ne h, if_neg h]
  | cons hd rest ih =>
    rw [setEntries]
    by_cases hk : hd.1 = k
    · rw [if_pos hk]
      by_cases h : k' = k
      · rw [h, List.lookup_cons_self, if_pos rfl]
      · rw [lookup_cons_of_ne h, if_neg h, lookup_cons_of_ne (hk ▸ h)]
    · rw [if_neg hk]
      by_cases h : k' = hd.1
      · rw [h, List.lookup_cons_self, List.lookup_cons_self, if_neg hk]
      · rw [lookup_cons_of_ne h, lookup_cons_of_ne h, ih]

/-- A lookup after a write. -/
theorem get?_set (d : Dict κ ν) (k k' : κ) (v : ν) :
    (d.set k v).get? k' = if k' = k then some v else d.get? k' :=
  lookup_setEntries

@[simp] theorem get?_set_self (d : Dict κ ν) (k : κ) (v : ν) :
    (d.set k v).get? k = some v := by
  rw [get?_set, if_pos rfl]

theorem get?_set_of_ne {d : Dict κ ν} {k k' : κ} {v : ν} (h : k' ≠ k) :
    (d.set k v).get? k' = d.get? k' := by
  rw [get?_set, if_neg h]

theorem setEntries_eq_self {k : κ} {v : ν} : ∀ {l : List (κ × ν)},
    l.lookup k = some v → setEntries k v l = l := by
  intro l
  induction l with
  | nil =>
    intro h
    cases h
  | cons hd rest ih =>
    intro h
    rw [setEntries]
    by_cases hk : hd.1 = k
    · subst hk
      rw [List.lookup_cons_self, Option.some_inj] at h
      rw [if_pos rfl, ← h]
    · rw [lookup_cons_of_ne fun h => hk h.symm] at h
      rw [if_neg hk, ih h]

/-- Writing what is there changes nothing, and nothing else does. -/
theorem set_eq_self_iff {d : Dict κ ν} {k : κ} {v : ν} : d.set k v = d ↔ d.get? k = some v := by
  constructor
  · intro h
    have hget := get?_set_self d k v
    rwa [h] at hget
  · exact fun h => ext (setEntries_eq_self h)

theorem contains_set {d : Dict κ ν} {k k' : κ} {v : ν} :
    (d.set k v).contains k' = true ↔ k' = k ∨ d.contains k' = true := by
  rw [contains, contains, get?_set]
  by_cases h : k' = k <;> simp [h]

theorem isEmpty_iff {d : Dict κ ν} : d.isEmpty = true ↔ d = empty := by
  rw [isEmpty, List.isEmpty_iff]
  exact ⟨fun h => ext h, fun h => h ▸ rfl⟩

theorem isEmpty_eq_false {d : Dict κ ν} {k : κ} (h : d.contains k = true) : d.isEmpty = false := by
  refine Bool.eq_false_iff.mpr fun hempty => ?_
  rw [isEmpty_iff.mp hempty] at h
  cases h

theorem get?_of_isEmpty {d : Dict κ ν} (h : d.isEmpty = true) (k : κ) : d.get? k = none := by
  rw [isEmpty_iff.mp h, get?_empty]

theorem eq_empty_of_get? {d : Dict κ ν} (h : ∀ k, d.get? k = none) : d = empty := by
  refine ext (List.eq_nil_iff_forall_not_mem.mpr fun e he => ?_)
  have hget := mem_entries_iff.mp he
  rw [h e.1] at hget
  cases hget

theorem nodup_entries (d : Dict κ ν) : d.entries.Nodup := List.Nodup.of_map Prod.fst d.nodup

/-- Dictionaries with the same lookups have the same entries, up to order. -/
theorem perm_entries {d d' : Dict κ ν} (h : ∀ k, d.get? k = d'.get? k) :
    d.entries.Perm d'.entries := by
  refine (List.perm_ext_iff_of_nodup d.nodup_entries d'.nodup_entries).mpr fun e => ?_
  rw [show e = (e.1, e.2) from rfl, mem_entries_iff, mem_entries_iff, h e.1]

/-! ### Removing a key -/

/-- Take the entry of `k` out. -/
def erase (d : Dict κ ν) (k : κ) : Dict κ ν where
  entries := d.entries.filter fun e => e.1 ≠ k
  nodup := d.nodup.sublist (List.filter_sublist.map Prod.fst)

theorem lookup_filter_ne (k k' : κ) : ∀ l : List (κ × ν),
    (l.filter fun e => e.1 ≠ k).lookup k' = if k' = k then none else l.lookup k' := by
  intro l
  induction l with
  | nil => simp
  | cons hd rest ih =>
    obtain ⟨k₀, v₀⟩ := hd
    by_cases hk : k₀ = k
    · subst hk
      rw [List.filter_cons_of_neg (by simp), ih]
      by_cases h : k' = k₀
      · rw [if_pos h, if_pos h]
      · rw [if_neg h, if_neg h, lookup_cons_of_ne h]
    · rw [List.filter_cons_of_pos (by simpa using hk)]
      by_cases h : k' = k₀
      · subst h
        rw [List.lookup_cons_self, List.lookup_cons_self, if_neg hk]
      · rw [lookup_cons_of_ne h, ih, lookup_cons_of_ne h]

/-- A lookup after a removal. -/
theorem get?_erase (d : Dict κ ν) (k k' : κ) :
    (d.erase k).get? k' = if k' = k then none else d.get? k' :=
  lookup_filter_ne k k' d.entries

/-! ### Sequences of writes -/

/-- The dictionary a sequence of writes leaves: the last one for each key. -/
def ofWrites (writes : List (κ × ν)) : Dict κ ν := writes.foldl (fun d e => d.set e.1 e.2) empty

theorem ofWrites_append_singleton (writes : List (κ × ν)) (k : κ) (v : ν) :
    ofWrites (writes ++ [(k, v)]) = (ofWrites writes).set k v := by
  unfold ofWrites
  rw [List.foldl_append]
  rfl

theorem setEntries_of_not_mem {k : κ} {v : ν} : ∀ {l : List (κ × ν)},
    k ∉ l.map Prod.fst → setEntries k v l = l ++ [(k, v)] := by
  intro l
  induction l with
  | nil => exact fun _ => rfl
  | cons hd rest ih =>
    intro h
    rw [List.map_cons, List.mem_cons, not_or] at h
    rw [setEntries, if_neg fun hk => h.1 hk.symm, ih h.2, List.cons_append]

/-- Writes to different keys are the entries. -/
theorem entries_ofWrites {writes : List (κ × ν)} (h : (writes.map Prod.fst).Nodup) :
    (ofWrites writes).entries = writes := by
  induction writes using List.reverseRecOn with
  | nil => rfl
  | append_singleton writes e ih =>
    rw [List.map_append, List.nodup_append] at h
    obtain ⟨hwrites, -, hapart⟩ := h
    have hnot : e.1 ∉ writes.map Prod.fst := fun hmem =>
      hapart e.1 hmem e.1 List.mem_cons_self rfl
    rw [ofWrites_append_singleton]
    show setEntries e.1 e.2 (ofWrites writes).entries = _
    rw [ih hwrites, setEntries_of_not_mem hnot]

/-- Later writes hide earlier ones. -/
theorem get?_ofWrites_append (before after : List (κ × ν)) (k : κ) :
    (ofWrites (before ++ after)).get? k =
      ((ofWrites after).get? k).or ((ofWrites before).get? k) := by
  induction after using List.reverseRecOn with
  | nil =>
    rw [List.append_nil]
    exact (Option.none_or).symm
  | append_singleton after e ih =>
    rw [← List.append_assoc, ofWrites_append_singleton, ofWrites_append_singleton, get?_set,
      get?_set, ih]
    by_cases hk : k = e.1
    · rw [if_pos hk, if_pos hk, Option.some_or]
    · rw [if_neg hk, if_neg hk]

theorem mem_of_get?_ofWrites {writes : List (κ × ν)} {k : κ} {v : ν}
    (h : (ofWrites writes).get? k = some v) : (k, v) ∈ writes := by
  induction writes using List.reverseRecOn with
  | nil => cases h
  | append_singleton writes e ih =>
    rw [ofWrites_append_singleton, get?_set] at h
    by_cases hk : k = e.1
    · rw [if_pos hk, Option.some_inj] at h
      exact List.mem_append_right _ (List.mem_singleton.mpr (Prod.ext hk h.symm))
    · rw [if_neg hk] at h
      exact List.mem_append_left _ (ih h)

/-- Writes to different keys are all kept. -/
theorem get?_ofWrites {writes : List (κ × ν)} (hnodup : (writes.map Prod.fst).Nodup) {k : κ}
    {v : ν} : (ofWrites writes).get? k = some v ↔ (k, v) ∈ writes := by
  induction writes using List.reverseRecOn generalizing v with
  | nil =>
    show none = some v ↔ (k, v) ∈ []
    simp
  | append_singleton writes e ih =>
    rw [List.map_append, List.nodup_append] at hnodup
    obtain ⟨hwrites, -, hapart⟩ := hnodup
    rw [ofWrites_append_singleton, get?_set, List.mem_append, List.mem_singleton]
    by_cases hk : k = e.1
    · have hnot : (k, v) ∉ writes := fun hmem =>
        hapart k (List.mem_map_of_mem hmem) e.1 List.mem_cons_self hk
      rw [if_pos hk, or_iff_right hnot, Option.some_inj]
      exact ⟨fun h => Prod.ext hk h.symm, fun h => (congrArg Prod.snd h).symm⟩
    · rw [if_neg hk, ih hwrites, or_iff_left fun h => hk (congrArg Prod.fst h)]

theorem get?_ofWrites_ne_none {writes : List (κ × ν)} {k : κ} (h : k ∈ writes.map Prod.fst) :
    (ofWrites writes).get? k ≠ none := by
  induction writes using List.reverseRecOn with
  | nil => exact absurd h List.not_mem_nil
  | append_singleton writes e ih =>
    rw [ofWrites_append_singleton, get?_set]
    by_cases hk : k = e.1
    · rw [if_pos hk]
      exact Option.some_ne_none _
    · rw [if_neg hk]
      rw [List.map_append, List.mem_append] at h
      exact ih (h.resolve_right fun hin => hk (List.mem_singleton.mp hin))

theorem get?_ofWrites_of_not_mem {writes : List (κ × ν)} {k : κ}
    (h : k ∉ writes.map Prod.fst) : (ofWrites writes).get? k = none := by
  induction writes using List.reverseRecOn with
  | nil => rfl
  | append_singleton writes e ih =>
    rw [List.map_append, List.mem_append, not_or] at h
    rw [ofWrites_append_singleton, get?_set_of_ne fun hk => h.2 (List.mem_singleton.mpr hk)]
    exact ih h.1

theorem mem_keys_ofWrites {writes : List (κ × ν)} {k : κ} :
    k ∈ (ofWrites writes).keys ↔ k ∈ writes.map Prod.fst := by
  rw [mem_keys_iff, contains_iff]
  constructor
  · rintro ⟨v, hv⟩
    exact List.mem_map.mpr ⟨_, mem_of_get?_ofWrites hv, rfl⟩
  · exact fun h => Option.ne_none_iff_exists'.mp (get?_ofWrites_ne_none h)

end Dict
