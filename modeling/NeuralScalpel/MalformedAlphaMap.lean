/-
What a malformed `--module-alpha-map` leaves behind.

The parser fills the map item by item and catches the exception of a malformed
item outside its loop, so the entries of the items before it stay in force.

* `readAlphaMapBy` — the loop, for any way of reading numbers;
* `acceptedItems` — the items before the first one that is rejected;
* `foldl_store_eq_empty_iff` — when storing items leaves the map empty;
* `noEffect_iff` — when the option has no effect.

How `float` and `int` read a text is a parameter, so that infinities and digits
outside ASCII are covered.
-/
import NeuralScalpel.AlphaMap
import NeuralScalpel.PortRun

/-! ### The parser -/

/-- What `float` and `int` make of a text. -/
structure NumberReaders (S : Type) where
  float : List Char → Except PyError S
  int : List Char → Except PyError ℤ

/-- The readers of finite ASCII numerals. -/
def NumberReaders.ascii (S : Type) [Field S] : NumberReaders S := ⟨readFloat, readInt⟩

namespace AlphaItem

variable {S : Type}

/-- One item of the map, its numbers read by the readers. -/
def readBy (readers : NumberReaders S) (item : List Char) : Except PyError (AlphaItem S) :=
  match item.splitOn '=' with
  | [spec, value] => do
    let alpha ← readers.float (strip value)
    match (strip spec).splitOn '.' with
    | [name] => pure (.module (String.ofList name) alpha)
    | [name, layers] =>
      match layers.splitOn '-' with
      | [idx] => do
        let idx ← readers.int idx
        pure (.layer (String.ofList name) idx alpha)
      | [first, last] => do
        let first ← readers.int first
        let last ← readers.int last
        pure (.range (String.ofList name) first last alpha)
      | _ => .error unpackError
    | _ => .error unpackError
  | _ => .error unpackError

theorem readBy_ascii [Field S] : readBy (.ascii S) = read := rfl

/-- A range whose last layer comes before its first. -/
def SetsNothing : AlphaItem S → Prop
  | .module _ _ => False
  | .layer _ _ _ => False
  | .range _ first last _ => last < first

/-- Storing an item that sets nothing changes nothing. -/
theorem store_of_setsNothing {item : AlphaItem S} (h : item.SetsNothing)
    (map : Dict AlphaKey S) : item.store map = map := by
  cases item with
  | module name alpha => cases h
  | layer name idx alpha => cases h
  | range name first last alpha =>
    have hcount : (last + 1 - first).toNat = 0 := by
      have hlast : last < first := h
      omega
    rw [store, hcount]
    rfl

/-- Entries are never taken out of the map. -/
theorem get?_store_ne_none {item : AlphaItem S} {map : Dict AlphaKey S} {key : AlphaKey}
    (h : map.get? key ≠ none) : (item.store map).get? key ≠ none := by
  cases key with
  | module name =>
    rw [get?_store_module]
    split_ifs
    · exact Option.some_ne_none _
    · exact h
  | layer name idx =>
    rw [get?_store_layer]
    split_ifs
    · exact Option.some_ne_none _
    · exact h

/-- An item that sets something leaves an entry. -/
theorem exists_get?_store {item : AlphaItem S} (h : ¬ item.SetsNothing) (map : Dict AlphaKey S) :
    ∃ key, (item.store map).get? key ≠ none := by
  cases item with
  | module name alpha =>
    refine ⟨.module name, ?_⟩
    have hsets : setsModule name (.module name alpha) = true := decide_eq_true rfl
    rw [get?_store_module, if_pos hsets]
    exact Option.some_ne_none _
  | layer name idx alpha =>
    refine ⟨.layer name idx, ?_⟩
    have hcovers : covers name idx (.layer name idx alpha) = true := decide_eq_true ⟨rfl, rfl⟩
    rw [get?_store_layer, if_pos hcovers]
    exact Option.some_ne_none _
  | range name first last alpha =>
    refine ⟨.layer name first, ?_⟩
    have hcovers : covers name first (.range name first last alpha) = true :=
      decide_eq_true ⟨rfl, le_rfl, not_lt.mp h⟩
    rw [get?_store_layer, if_pos hcovers]
    exact Option.some_ne_none _

end AlphaItem

section Parser

variable {S : Type}

/-- The loop of the parser: an item that is rejected ends it, and what was set
before remains. -/
def readAlphaMapBy (readers : NumberReaders S) :
    List (List Char) → Dict AlphaKey S → Dict AlphaKey S × Option PyError
  | [], map => (map, none)
  | text :: texts, map =>
    match AlphaItem.readBy readers text with
    | .ok item => readAlphaMapBy readers texts (item.store map)
    | .error e => (map, some e)

theorem readAlphaMapBy_ascii [Field S] : ∀ (texts : List (List Char)) (map : Dict AlphaKey S),
    readAlphaMapBy (.ascii S) texts map = readAlphaMap texts map := by
  intro texts
  induction texts with
  | nil => exact fun _ => rfl
  | cons text texts ih =>
    intro map
    rw [readAlphaMapBy, readAlphaMap, AlphaItem.readBy_ascii]
    cases AlphaItem.read (S := S) text with
    | ok item => exact ih _
    | error e => rfl

/-- `module_alpha_map` after the parser, and the exception it caught. -/
def parseAlphaMap (readers : NumberReaders S) (raw : Option String) :
    Dict AlphaKey S × Option PyError :=
  match raw with
  | none => (.empty, none)
  | some raw =>
    if raw.isEmpty then (.empty, none) else readAlphaMapBy readers (raw.toList.splitOn ',') .empty

/-- With the readers of ASCII numerals this is the map of the model of the run. -/
theorem parseAlphaMap_ascii [Field S] (raw : Option String) :
    (parseAlphaMap (.ascii S) raw).1 = moduleAlphaMap raw := by
  cases raw with
  | none => rfl
  | some raw =>
    unfold parseAlphaMap moduleAlphaMap
    by_cases hempty : raw.isEmpty = true
    · simp only [if_pos hempty]
    · simp only [if_neg hempty, readAlphaMapBy_ascii]

/-- The items before the first one that is rejected. -/
def acceptedItems (readers : NumberReaders S) : List (List Char) → List (AlphaItem S)
  | [] => []
  | text :: texts =>
    match AlphaItem.readBy readers text with
    | .ok item => item :: acceptedItems readers texts
    | .error _ => []

/-- What is in the map comes from the items before the first rejected one. -/
theorem readAlphaMapBy_fst (readers : NumberReaders S) :
    ∀ (texts : List (List Char)) (map : Dict AlphaKey S),
      (readAlphaMapBy readers texts map).1 =
        (acceptedItems readers texts).foldl AlphaItem.store map := by
  intro texts
  induction texts with
  | nil => exact fun _ => rfl
  | cons text texts ih =>
    intro map
    rw [readAlphaMapBy, acceptedItems]
    cases AlphaItem.readBy readers text with
    | ok item => exact ih _
    | error e => rfl

theorem fst_parseAlphaMap (readers : NumberReaders S) (raw : String) :
    (parseAlphaMap readers (some raw)).1 =
      (acceptedItems readers (raw.toList.splitOn ',')).foldl AlphaItem.store .empty := by
  unfold parseAlphaMap
  by_cases hempty : raw.isEmpty = true
  · -- the empty text would be one item without `=`
    rw [String.isEmpty_iff.mp hempty]
    rfl
  · simp only [if_neg hempty]
    exact readAlphaMapBy_fst readers _ _

/-- Items leave the map empty just if each of them sets nothing. -/
theorem foldl_store_eq_empty_iff {items : List (AlphaItem S)} :
    items.foldl AlphaItem.store .empty = .empty ↔ ∀ item ∈ items, item.SetsNothing := by
  induction items using List.reverseRecOn with
  | nil => exact ⟨fun _ item h => absurd h List.not_mem_nil, fun _ => rfl⟩
  | append_singleton items item ih =>
    rw [List.foldl_append, List.foldl_cons, List.foldl_nil]
    constructor
    · intro h
      have hnone : ∀ key, (item.store (items.foldl AlphaItem.store .empty)).get? key = none := by
        intro key
        rw [h]
        exact Dict.get?_empty key
      have hbefore : items.foldl AlphaItem.store .empty = .empty := by
        refine Dict.eq_empty_of_get? fun key => ?_
        by_contra hne
        exact AlphaItem.get?_store_ne_none hne (hnone key)
      intro item' hmem
      rcases List.mem_append.mp hmem with hmem | hmem
      · exact ih.mp hbefore item' hmem
      · rw [List.mem_singleton.mp hmem]
        by_contra hsets
        obtain ⟨key, hkey⟩ := AlphaItem.exists_get?_store hsets
          (items.foldl AlphaItem.store .empty)
        exact hkey (hnone key)
    · intro h
      rw [ih.mpr fun item' hmem => h item' (List.mem_append_left _ hmem)]
      exact AlphaItem.store_of_setsNothing
        (h item (List.mem_append_right _ List.mem_cons_self)) .empty

end Parser

/-! ### The run -/

section NoEffect

variable {S : Type} [Field S] [LinearOrder S]

/-- No entry is in force, and every run writes what it writes without the
option. -/
structure NoEffect (map : Dict AlphaKey S) : Prop where
  entries : map = .empty
  runs : ∀ (R : Type) [CommRing R] [MulActionWithZero S R] (torch : Torch R S) (alpha : S)
    (includeModules : Option (List String)) (adapter : Adapter S)
    (tensor : String → ShapedMatrix R) (fault : Option StreamFault) (keys : List String),
    portRun torch ⟨alpha, map, includeModules⟩ adapter (layerWrites ⟨alpha, map, includeModules⟩)
        tensor fault keys =
      portRun torch ⟨alpha, .empty, includeModules⟩ adapter
        (layerWrites ⟨alpha, .empty, includeModules⟩) tensor fault keys

/-- The option has no effect just if no item before the first rejected one sets
anything: only empty ranges stand there. -/
theorem noEffect_iff (readers : NumberReaders S) (raw : String) :
    NoEffect (parseAlphaMap readers (some raw)).1 ↔
      ∀ item ∈ acceptedItems readers (raw.toList.splitOn ','), item.SetsNothing := by
  rw [← foldl_store_eq_empty_iff, ← fst_parseAlphaMap]
  constructor
  · exact fun h => h.entries
  · intro h
    rw [h]
    exact ⟨rfl, fun _ _ _ _ _ _ _ _ _ _ => rfl⟩

/-- The item before the malformed one takes all keys of a module out of the run. -/
theorem malformed_map_in_force :
    (parseAlphaMap (.ascii ℚ) (some "q_proj=0,k_proj")).2 = some AlphaItem.unpackError ∧
      (parseAlphaMap (.ascii ℚ) (some "q_proj=0,k_proj")).1.get? (.module "q_proj") = some 0 ∧
      shouldIncludeKey ⟨16, (parseAlphaMap (.ascii ℚ) (some "q_proj=0,k_proj")).1, none⟩
        "layers.0.q_proj.lora_A.weight" = false ∧
      shouldIncludeKey (⟨16, .empty, none⟩ : PortConfig ℚ) "layers.0.q_proj.lora_A.weight" = true ∧
      ¬ NoEffect (parseAlphaMap (.ascii ℚ) (some "q_proj=0,k_proj")).1 := by
  have hget : (parseAlphaMap (.ascii ℚ) (some "q_proj=0,k_proj")).1.get? (.module "q_proj") =
      some 0 := by decide +kernel
  refine ⟨by decide +kernel, hget, by decide +kernel, by decide +kernel, fun h => ?_⟩
  rw [h.entries] at hget
  cases hget

end NoEffect
