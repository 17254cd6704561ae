/-
The canonical form of a JSON document.

Two documents are the same JSON value when they differ only in the order of
the fields of their objects, at any depth; `Same` is that relation, the way
the interpreter compares dictionaries.  Sorting the keys at every depth before
writing picks one text for each value:

* `same_obj_iff` — objects are the same value when their fields are, by name;
* `sortKeys_eq_iff` — documents sort to one document exactly when they are the
  same value;
* `canonical_eq_iff` — and so have one canonical text exactly then.
-/
import NeuralScalpel.JsonText
import Mathlib.Data.List.Perm.Subperm
import Mathlib.Data.List.Sort
import Mathlib.Logic.Equiv.List

open JsonValue

namespace JsonText

section

variable {φ : Type}

mutual

/-- The document with the fields of every object in the order of their keys. -/
def sortKeys : JsonValue φ → JsonValue φ
  | .null => .null
  | .bool b => .bool b
  | .int n => .int n
  | .float x => .float x
  | .str s => .str s
  | .arr elems => .arr (sortElems elems)
  | .obj fields => .obj ((sortFields fields).insertionSort fun e e' => e.1 ≤ e'.1)

def sortElems : List (JsonValue φ) → List (JsonValue φ)
  | [] => []
  | v :: rest => sortKeys v :: sortElems rest

def sortFields : List (String × JsonValue φ) → List (String × JsonValue φ)
  | [] => []
  | (k, v) :: rest => (k, sortKeys v) :: sortFields rest

end

mutual

/-- Equality of JSON values: the order of the fields of an object is no part
of its value. -/
def Same : JsonValue φ → JsonValue φ → Prop
  | .null, v' => v' = .null
  | .bool b, v' => v' = .bool b
  | .int n, v' => v' = .int n
  | .float x, v' => v' = .float x
  | .str s, v' => v' = .str s
  | .arr elems, v' => ∃ elems', v' = .arr elems' ∧ SameElems elems elems'
  | .obj fields, v' =>
    ∃ fields', v' = .obj fields' ∧ fields.length = fields'.length ∧ SameFields fields fields'

def SameElems : List (JsonValue φ) → List (JsonValue φ) → Prop
  | [], elems' => elems' = []
  | v :: rest, elems' => ∃ v' rest', elems' = v' :: rest' ∧ Same v v' ∧ SameElems rest rest'

/-- Every field on the left is on the right, with the same value. -/
def SameFields : List (String × JsonValue φ) → List (String × JsonValue φ) → Prop
  | [], _ => True
  | (k, v) :: rest, fields' =>
    (∃ v', fields'.lookup k = some v' ∧ Same v v') ∧ SameFields rest fields'

end

theorem sortFields_eq (fields : List (String × JsonValue φ)) :
    sortFields fields = fields.map fun e => (e.1, sortKeys e.2) := by
  induction fields with
  | nil => rfl
  | cons e rest ih => rw [sortFields, ih, List.map_cons]

theorem sameFields_iff {fields fields' : List (String × JsonValue φ)} :
    SameFields fields fields' ↔
      ∀ e ∈ fields, ∃ v', fields'.lookup e.1 = some v' ∧ Same e.2 v' := by
  induction fields with
  | nil => simp [SameFields]
  | cons e rest ih => rw [SameFields, ih, List.forall_mem_cons]

/-! ### Sorting by distinct keys -/

/-- The keys of a sorted list of fields are those of the list. -/
theorem map_fst_sortFields (fields : List (String × JsonValue φ)) :
    (sortFields fields).map Prod.fst = fields.map Prod.fst := by
  rw [sortFields_eq, List.map_map]
  rfl

/-- Fields with distinct keys have one order. -/
theorem insertionSort_eq_of_perm {fields fields' : List (String × JsonValue φ)}
    (hnodup : (fields.map Prod.fst).Nodup) (hperm : fields.Perm fields') :
    (fields.insertionSort fun e e' => e.1 ≤ e'.1) =
      fields'.insertionSort fun e e' => e.1 ≤ e'.1 := by
  have hsort := List.perm_insertionSort (fun e e' : String × JsonValue φ => e.1 ≤ e'.1)
  refine List.Perm.eq_of_pairwise ?_ (List.pairwise_insertionSort _ _)
    (List.pairwise_insertionSort _ _) ((hsort fields).trans (hperm.trans (hsort fields').symm))
  intro e e' he he' hle hle'
  -- one key, hence one field
  have hmem : e ∈ fields := (hsort fields).mem_iff.mp he
  have hmem' : e' ∈ fields := hperm.mem_iff.mpr ((hsort fields').mem_iff.mp he')
  exact List.inj_on_of_nodup_map hnodup hmem hmem' (le_antisymm hle hle')

theorem perm_of_insertionSort_eq {fields fields' : List (String × JsonValue φ)}
    (h : (fields.insertionSort fun e e' => e.1 ≤ e'.1) =
      fields'.insertionSort fun e e' => e.1 ≤ e'.1) : fields.Perm fields' := by
  have hsort := List.perm_insertionSort (fun e e' : String × JsonValue φ => e.1 ≤ e'.1)
  have hperm := hsort fields'
  rw [← h] at hperm
  exact (hsort fields).symm.trans hperm

/-! ### Same values -/

/-- Objects of one size are permutations of each other when every field of one
is a field of the other. -/
theorem perm_of_subset {α : Type} {l l' : List (String × α)} (hnodup : (l.map Prod.fst).Nodup)
    (hlength : l.length = l'.length) (hsub : l ⊆ l') : l.Perm l' :=
  (List.subperm_of_subset hnodup.of_map hsub).perm_of_length_le hlength.ge

/-- What sorting `v` tells about the value it is. -/
def SortsByValue (v : JsonValue φ) : Prop :=
  ∀ v' : JsonValue φ, DistinctKeys v → DistinctKeys v' →
    (sortKeys v = sortKeys v' ↔ Same v v')

theorem sortElems_eq_iff {elems : List (JsonValue φ)} (hall : ∀ v ∈ elems, SortsByValue v) :
    ∀ {elems' : List (JsonValue φ)}, DistinctElems elems → DistinctElems elems' →
      (sortElems elems = sortElems elems' ↔ SameElems elems elems') := by
  induction elems with
  | nil =>
    intro elems' _ _
    rw [SameElems]
    cases elems' <;> simp [sortElems]
  | cons v rest ih =>
    intro elems' hdistinct hdistinct'
    rw [SameElems]
    cases elems' with
    | nil => simp [sortElems]
    | cons v' rest' =>
      have hv := hall v List.mem_cons_self v' hdistinct.1 hdistinct'.1
      have hrest := ih (fun w hw => hall w (List.mem_cons_of_mem _ hw)) hdistinct.2 hdistinct'.2
      rw [sortElems, sortElems, List.cons.injEq, hv, hrest]
      constructor
      · rintro ⟨h, hs⟩
        exact ⟨v', rest', rfl, h, hs⟩
      · rintro ⟨w, ws, heq, h, hs⟩
        cases heq
        exact ⟨h, hs⟩

/-- Sorting the values in the fields leaves a permutation exactly when the
fields are the same. -/
theorem sortFields_perm_iff {fields fields' : List (String × JsonValue φ)}
    (hall : ∀ e ∈ fields, SortsByValue e.2) (hnodup : (fields.map Prod.fst).Nodup)
    (hnodup' : (fields'.map Prod.fst).Nodup) (hdistinct : DistinctFields fields)
    (hdistinct' : DistinctFields fields') :
    (sortFields fields).Perm (sortFields fields') ↔
      fields.length = fields'.length ∧ SameFields fields fields' := by
  rw [distinctFields_iff] at hdistinct hdistinct'
  rw [sameFields_iff]
  have hlength : ∀ fs : List (String × JsonValue φ), (sortFields fs).length = fs.length := by
    intro fs
    rw [sortFields_eq, List.length_map]
  have hmem : ∀ {fs : List (String × JsonValue φ)} {e}, e ∈ fs →
      (e.1, sortKeys e.2) ∈ sortFields fs := by
    intro fs e he
    rw [sortFields_eq]
    exact List.mem_map_of_mem (f := fun e => (e.1, sortKeys e.2)) he
  constructor
  · intro hperm
    refine ⟨by rw [← hlength, hperm.length_eq, hlength], fun e he => ?_⟩
    have hsorted := hperm.mem_iff.mp (hmem he)
    rw [sortFields_eq, List.mem_map] at hsorted
    obtain ⟨e', he', heq⟩ := hsorted
    obtain ⟨hkey, hvalue⟩ := Prod.mk.inj heq
    -- a sorted field is that of one field, with its key
    refine ⟨e'.2, (Dict.lookup_eq_some_iff_mem hnodup').mpr (hkey ▸ he'), ?_⟩
    exact (hall e he e'.2 (hdistinct e he) (hdistinct' e' he')).mp hvalue.symm
  · rintro ⟨hlen, hsame⟩
    -- as many fields on both sides, so one inclusion is enough
    refine perm_of_subset (by rwa [map_fst_sortFields]) (by rw [hlength, hlength, hlen]) ?_
    intro e he
    rw [sortFields_eq, List.mem_map] at he
    obtain ⟨e₀, he₀, rfl⟩ := he
    obtain ⟨w, hlookup, hw⟩ := hsame e₀ he₀
    have hw' := (Dict.lookup_eq_some_iff_mem hnodup').mp hlookup
    rw [(hall e₀ he₀ w (hdistinct e₀ he₀) (hdistinct' _ hw')).mpr hw]
    exact hmem hw'

theorem sortsByValue (v : JsonValue φ) : SortsByValue v := by
  induction v using JsonValue.induct with
  | null | bool | int | float | str =>
    intro v' _ _
    rw [Same]
    cases v' <;> simp [sortKeys, eq_comm]
  | arr elems ih =>
    intro v' hv hv'
    rw [Same]
    cases v' with
    | arr elems' =>
      rw [sortKeys, sortKeys, JsonValue.arr.injEq, sortElems_eq_iff ih hv hv']
      constructor
      · intro h
        exact ⟨elems', rfl, h⟩
      · rintro ⟨es, heq, h⟩
        cases heq
        exact h
    | _ => simp [sortKeys]
  | obj fields ih =>
    intro v' hv hv'
    rw [Same]
    cases v' with
    | obj fields' =>
      have hperm := sortFields_perm_iff ih hv.1 hv'.1 hv.2 hv'.2
      rw [sortKeys, sortKeys, JsonValue.obj.injEq]
      constructor
      · intro h
        exact ⟨fields', rfl, hperm.mp (perm_of_insertionSort_eq h)⟩
      · rintro ⟨fs, heq, h⟩
        cases heq
        -- the keys are distinct, so sorting them leaves no choice
        refine insertionSort_eq_of_perm ?_ (hperm.mpr h)
        rw [map_fst_sortFields]
        exact hv.1
    | _ => simp [sortKeys]

/-- Sorting identifies the documents that are the same value, and no others. -/
theorem sortKeys_eq_iff {v v' : JsonValue φ} (hv : DistinctKeys v) (hv' : DistinctKeys v') :
    sortKeys v = sortKeys v' ↔ Same v v' := sortsByValue v v' hv hv'

/-- The canonical text: keys sorted at every depth, no blanks. -/
def canonical (floats : FloatText φ) (v : JsonValue φ) : String :=
  String.ofList (write floats compact (sortKeys v))

theorem canonical_eq_iff {floats : FloatText φ} {v v' : JsonValue φ} (hv : DistinctKeys v)
    (hv' : DistinctKeys v') : canonical floats v = canonical floats v' ↔ Same v v' := by
  rw [canonical, canonical, String.ofList_inj, ← sortKeys_eq_iff hv hv']
  exact (write_injective floats compact).eq_iff

theorem same_refl {v : JsonValue φ} (hv : DistinctKeys v) : Same v v :=
  (sortKeys_eq_iff hv hv).mp rfl

theorem mem_keys_iff_lookup {fields : List (String × JsonValue φ)}
    (hnodup : (fields.map Prod.fst).Nodup) {k : String} :
    k ∈ fields.map Prod.fst ↔ ∃ v, fields.lookup k = some v := by
  rw [List.mem_map]
  constructor
  · rintro ⟨e, he, rfl⟩
    exact ⟨e.2, (Dict.lookup_eq_some_iff_mem hnodup).mpr he⟩
  · rintro ⟨v, hv⟩
    exact ⟨(k, v), (Dict.lookup_eq_some_iff_mem hnodup).mp hv, rfl⟩

/-- Objects of one size whose fields are the same have the same keys. -/
theorem keys_perm_of_sameFields {fields fields' : List (String × JsonValue φ)}
    (hnodup : (fields.map Prod.fst).Nodup) (hnodup' : (fields'.map Prod.fst).Nodup)
    (hlength : fields.length = fields'.length) (hsame : SameFields fields fields') :
    (fields.map Prod.fst).Perm (fields'.map Prod.fst) := by
  -- the keys on the left are all on the right, which has no room for another
  have hsub : fields.map Prod.fst ⊆ fields'.map Prod.fst := by
    intro k hk
    obtain ⟨e, he, rfl⟩ := List.mem_map.mp hk
    obtain ⟨w, hw, -⟩ := sameFields_iff.mp hsame e he
    exact (mem_keys_iff_lookup hnodup').mpr ⟨w, hw⟩
  refine (List.subperm_of_subset hnodup hsub).perm_of_length_le ?_
  rw [List.length_map, List.length_map, hlength]

/-- Objects are the same value when their fields are, name by name. -/
theorem same_obj_iff {fields fields' : List (String × JsonValue φ)}
    (hnodup : (fields.map Prod.fst).Nodup) (hnodup' : (fields'.map Prod.fst).Nodup) :
    Same (.obj fields) (.obj fields') ↔
      ∀ k, Option.Rel Same (fields.lookup k) (fields'.lookup k) := by
  constructor
  · intro h k
    rw [Same] at h
    obtain ⟨fs, heq, hlength, hsame⟩ := h
    cases heq
    cases hk : fields.lookup k with
    | some v =>
      have hmem := (Dict.lookup_eq_some_iff_mem hnodup).mp hk
      obtain ⟨v', hlookup, hv⟩ := sameFields_iff.mp hsame _ hmem
      rw [show fields'.lookup k = some v' from hlookup]
      exact .some hv
    | none =>
      have hnot : k ∉ fields'.map Prod.fst := by
        rw [← (keys_perm_of_sameFields hnodup hnodup' hlength hsame).mem_iff,
          mem_keys_iff_lookup hnodup, hk]
        rintro ⟨v, hv⟩
        cases hv
      rw [mem_keys_iff_lookup hnodup', not_exists, ← Option.eq_none_iff_forall_ne_some] at hnot
      rw [hnot]
      exact .none
  · intro h
    have hsome : ∀ k, (∃ v, fields.lookup k = some v) ↔ ∃ v, fields'.lookup k = some v := by
      intro k
      have hk := h k
      generalize fields.lookup k = o, fields'.lookup k = o' at hk ⊢
      cases hk <;> simp
    -- the same keys, and so as many fields
    have hmem : ∀ k, k ∈ fields.map Prod.fst ↔ k ∈ fields'.map Prod.fst := by
      intro k
      rw [mem_keys_iff_lookup hnodup, mem_keys_iff_lookup hnodup']
      exact hsome k
    have hlength : fields.length = fields'.length := by
      have := ((List.perm_ext_iff_of_nodup hnodup hnodup').mpr hmem).length_eq
      rwa [List.length_map, List.length_map] at this
    rw [Same]
    refine ⟨fields', rfl, hlength, sameFields_iff.mpr fun e he => ?_⟩
    have hk := h e.1
    have hlookup : fields.lookup e.1 = some e.2 := (Dict.lookup_eq_some_iff_mem hnodup).mpr he
    obtain ⟨w, hw⟩ := (hsome e.1).mp ⟨e.2, hlookup⟩
    rw [hlookup, hw] at hk
    cases hk with
    | some hsame => exact ⟨w, hw, hsame⟩

/-! ### Reading back -/

open Classical in
/-- A reader of documents: the one that was written, if one was. -/
noncomputable def decode (floats : FloatText φ) (text : String) : Except PyError (JsonValue φ) :=
  if h : ∃ v, DistinctKeys v ∧ String.ofList (write floats spaced v) = text then .ok h.choose
  else .error (.external "JSONDecodeError: Expecting value")

theorem decode_write (floats : FloatText φ) {v : JsonValue φ} (hv : DistinctKeys v) :
    decode floats (String.ofList (write floats spaced v)) = .ok v := by
  have hex : ∃ w, DistinctKeys w ∧
      String.ofList (write floats spaced w) = String.ofList (write floats spaced v) := ⟨v, hv, rfl⟩
  rw [decode, dif_pos hex]
  exact congrArg Except.ok
    (write_injective floats spaced (String.ofList_injective hex.choose_spec.2))

theorem distinctKeys_of_decode {floats : FloatText φ} {text : String} {v : JsonValue φ}
    (h : decode floats text = .ok v) : DistinctKeys v := by
  unfold decode at h
  split_ifs at h with hex
  cases h
  exact hex.choose_spec.1

end

/-- Documents without floats. -/
def noFloats : FloatText Empty where
  repr x := x.elim
  value x := x.elim
  injective x := x.elim
  chars x := x.elim
  head x := x.elim
  not_int x := x.elim

/-! ### Digests known on one text -/

/-- A digest that is `digest` on `known`, and every other text in unary. -/
def digestKnown (known digest text : String) : String :=
  if text = known then digest
  else String.ofList (List.replicate (Encodable.encode (text.toList.map Char.toNat)) 'a')

theorem digestKnown_injective {known digest : String} (hdigest : '8' ∈ digest.toList) :
    Function.Injective (digestKnown known digest) := by
  have hunary : ∀ n, digest ≠ String.ofList (List.replicate n 'a') := by
    intro n h
    rw [h, String.toList_ofList] at hdigest
    exact absurd (List.eq_of_mem_replicate hdigest) (by decide)
  intro text text' h
  unfold digestKnown at h
  by_cases ht : text = known
  · by_cases ht' : text' = known
    · rw [ht, ht']
    · rw [if_pos ht, if_neg ht'] at h
      exact absurd h (hunary _)
  · by_cases ht' : text' = known
    · rw [if_neg ht, if_pos ht'] at h
      exact absurd h.symm (hunary _)
    · rw [if_neg ht, if_neg ht', String.ofList_inj] at h
      have hencode := congrArg List.length h
      rw [List.length_replicate, List.length_replicate] at hencode
      -- two texts in unary of one length have one code
      have hchars := Encodable.encode_injective hencode
      have htoNat : Function.Injective Char.toNat := fun c c' hc => Char.toNat_inj.mp hc
      exact String.toList_inj.mp (List.map_injective_iff.mpr htoNat hchars)

end JsonText
