/-
`--module-alpha-map`: its parser, and what its entries say of a layer.

The text is a list of items `module=alpha`, `module.layer=alpha` or
`module.first-last=alpha`, separated by commas; later items overwrite earlier
ones.

* `readAlphaMap` — the loop of the parser, which stops at the first item it
  cannot read;
* `effectiveAlpha` — the entry of the layer, else that of the module, else the
  global alpha;
* `readAlphaMap_of_items` — a text whose items can be read gives their map;
* `targetAlpha_storeAll` — looked up in the map, the items give the effective
  alpha.

Numbers are exact.
-/
import NeuralScalpel.PortLora
import Mathlib.Data.List.DropRight

/-! ### Reading numbers -/

/-- `str.strip`. -/
def strip (text : List Char) : List Char :=
  ((text.dropWhile isSpace).reverse.dropWhile isSpace).reverse

theorem strip_eq (text : List Char) :
    strip text = (text.dropWhile isSpace).rdropWhile isSpace := rfl

/-- Nothing is stripped between two characters that are not space. -/
theorem strip_of_ends {text : List Char} (hfirst : ∀ c, text.head? = some c → isSpace c = false)
    (hlast : ∀ c, text.getLast? = some c → isSpace c = false) : strip text = text := by
  have hfront : text.dropWhile isSpace = text := by
    cases text with
    | nil => rfl
    | cons c cs =>
      rw [List.dropWhile_cons_of_neg]
      rw [hfirst c rfl]
      decide
  rw [strip_eq, hfront, List.rdropWhile_eq_self_iff]
  intro hne
  rw [hlast _ (List.getLast?_eq_some_getLast hne)]
  decide

/-- Digits, with single underscores between them. -/
def readDigits (text : List Char) : Option (List Char) :=
  let groups := text.splitOn '_'
  if groups.all fun group => !group.isEmpty && group.all Char.isDigit then some groups.flatten
  else none

/-- Whether a numeral is negative, and what follows its sign. -/
def readSign : List Char → Bool × List Char
  | '-' :: rest => (true, rest)
  | '+' :: rest => (false, rest)
  | text => (false, text)

/-- Digits, with a sign before them or none. -/
def readSigned (text : List Char) : Option ℤ :=
  let signed := readSign text
  (readDigits signed.2).map fun digits =>
    if signed.1 then -(digitValue digits : ℤ) else (digitValue digits : ℤ)

/-- `int`. -/
def readInt (text : List Char) : Except PyError ℤ :=
  match readSigned (strip text) with
  | some value => .ok value
  | none => .error (.external "ValueError: invalid literal for int() with base 10")

def floatError : PyError := .external "ValueError: could not convert string to float"

/-- Digits on one side of a point. -/
def readPart (part : List Char) : Except PyError (List Char) :=
  if part.isEmpty then .ok []
  else
    match readDigits part with
    | some digits => .ok digits
    | none => .error floatError

section Float

variable {S : Type} [Field S]

/-- Digits with at most one point; one side of the point may be empty. -/
def readMantissa (text : List Char) : Except PyError S :=
  match text.splitOn '.' with
  | [whole] =>
    match readDigits whole with
    | some digits => .ok (digitValue digits : S)
    | none => .error floatError
  | [whole, fraction] => do
    let left ← readPart whole
    let right ← readPart fraction
    if left.isEmpty && right.isEmpty then .error floatError
    else .ok ((digitValue (left ++ right) : S) / ((10 : ℕ) : S) ^ right.length)
  | _ => .error floatError

/-- The power of ten after the `e`, which no space may precede. -/
def readExponent (text : List Char) : Except PyError ℤ :=
  match readSigned text with
  | some power => .ok power
  | none => .error floatError

/-- `float`, for finite numerals. -/
def readFloat (text : List Char) : Except PyError S := do
  let signed := readSign (strip text)
  let value ← match (signed.2.map Char.toLower).splitOn 'e' with
    | [mantissa] => readMantissa mantissa
    | [mantissa, exponent] => do
      let value : S ← readMantissa mantissa
      let power ← readExponent exponent
      pure (value * ((10 : ℕ) : S) ^ power)
    | _ => .error floatError
  pure (if signed.1 then -value else value)

end Float

/-! ### Items -/

/-- What an item of the map sets. -/
inductive AlphaItem (S : Type)
  | module (name : String) (alpha : S)
  | layer (name : String) (idx : ℤ) (alpha : S)
  | range (name : String) (first last : ℤ) (alpha : S)
  deriving DecidableEq

namespace AlphaItem

variable {S : Type}

def unpackError : PyError := .external "ValueError: values to unpack (expected 2)"

/-- One item: the text before `=` names the layers, the text after it is the
alpha. -/
def read [Field S] (item : List Char) : Except PyError (AlphaItem S) :=
  match item.splitOn '=' with
  | [spec, value] => do
    let alpha ← readFloat (strip value)
    match (strip spec).splitOn '.' with
    | [name] => pure (.module (String.ofList name) alpha)
    | [name, layers] =>
      match layers.splitOn '-' with
      | [idx] => do
        let idx ← readInt idx
        pure (.layer (String.ofList name) idx alpha)
      | [first, last] => do
        let first ← readInt first
        let last ← readInt last
        pure (.range (String.ofList name) first last alpha)
      | _ => .error unpackError
    | _ => .error unpackError
  | _ => .error unpackError

/-- Sets the entries of an item. -/
def store (map : Dict AlphaKey S) : AlphaItem S → Dict AlphaKey S
  | .module name alpha => map.set (.module name) alpha
  | .layer name idx alpha => map.set (.layer name idx) alpha
  | .range name first last alpha =>
    (List.range (last + 1 - first).toNat).foldl
      (fun map (k : ℕ) => map.set (.layer name (first + k)) alpha) map

def alpha : AlphaItem S → S
  | .module _ alpha => alpha
  | .layer _ _ alpha => alpha
  | .range _ _ _ alpha => alpha

/-- The item sets the alpha of a layer of a module. -/
def covers (name : String) (idx : ℤ) : AlphaItem S → Bool
  | .module _ _ => false
  | .layer name' idx' _ => decide (name' = name ∧ idx' = idx)
  | .range name' first last _ => decide (name' = name ∧ first ≤ idx ∧ idx ≤ last)

/-- The item sets the alpha of a module. -/
def setsModule (name : String) : AlphaItem S → Bool
  | .module name' _ => decide (name' = name)
  | .layer _ _ _ => false
  | .range _ _ _ _ => false

theorem get?_store_range (map : Dict AlphaKey S) (name : String) (first : ℤ) (alpha : S)
    (key : AlphaKey) (n : ℕ) :
    ((List.range n).foldl (fun map (k : ℕ) => map.set (.layer name (first + k)) alpha)
      map).get? key =
      if ∃ k < n, key = .layer name (first + (k : ℕ)) then some alpha else map.get? key := by
  induction n with
  | zero => simp
  | succ n ih =>
    rw [List.range_succ, List.foldl_append]
    show (Dict.set _ _ _).get? key = _
    rw [Dict.get?_set, ih]
    by_cases hlast : key = .layer name (first + n)
    · rw [if_pos hlast, if_pos ⟨n, Nat.lt_succ_self n, hlast⟩]
    · have hiff : (∃ k < n + 1, key = .layer name (first + (k : ℕ))) ↔
          ∃ k < n, key = .layer name (first + (k : ℕ)) := by
        constructor
        · rintro ⟨k, hk, heq⟩
          refine ⟨k, ?_, heq⟩
          rcases Nat.lt_succ_iff_lt_or_eq.mp hk with hk | rfl
          · exact hk
          · exact absurd heq hlast
        · rintro ⟨k, hk, heq⟩
          exact ⟨k, Nat.lt_succ_of_lt hk, heq⟩
      rw [if_neg hlast]
      simp only [hiff]

/-- An item sets the layers it covers. -/
theorem get?_store_layer (map : Dict AlphaKey S) (item : AlphaItem S) (name : String) (idx : ℤ) :
    (item.store map).get? (.layer name idx) =
      if item.covers name idx then some item.alpha else map.get? (.layer name idx) := by
  cases item with
  | module name' alpha =>
    rw [store, Dict.get?_set_of_ne (by simp)]
    rfl
  | layer name' idx' alpha =>
    rw [store, Dict.get?_set]
    simp only [covers, AlphaItem.alpha, AlphaKey.layer.injEq, decide_eq_true_eq]
    simp only [eq_comm]
  | range name' first last alpha =>
    rw [store, get?_store_range]
    have hiff : (∃ k < (last + 1 - first).toNat,
        AlphaKey.layer name idx = .layer name' (first + (k : ℕ))) ↔
          (name' = name ∧ first ≤ idx ∧ idx ≤ last) := by
      constructor
      · rintro ⟨k, hk, heq⟩
        obtain ⟨rfl, rfl⟩ := AlphaKey.layer.inj heq
        refine ⟨rfl, ?_, ?_⟩
        · omega
        · omega
      · rintro ⟨rfl, hfirst, hlast⟩
        refine ⟨(idx - first).toNat, ?_, ?_⟩
        · omega
        · rw [Int.toNat_of_nonneg (by omega)]
          congr 1
          omega
    simp only [hiff, covers, decide_eq_true_eq, AlphaItem.alpha]

/-- An item sets the module it is about. -/
theorem get?_store_module (map : Dict AlphaKey S) (item : AlphaItem S) (name : String) :
    (item.store map).get? (.module name) =
      if item.setsModule name then some item.alpha else map.get? (.module name) := by
  cases item with
  | module name' alpha =>
    rw [store, Dict.get?_set]
    simp only [setsModule, AlphaItem.alpha, AlphaKey.module.injEq, decide_eq_true_eq]
    simp only [eq_comm]
  | layer name' idx' alpha =>
    rw [store, Dict.get?_set_of_ne (by simp)]
    rfl
  | range name' first last alpha =>
    rw [store, get?_store_range, if_neg]
    · rfl
    · rintro ⟨k, -, heq⟩
      cases heq

end AlphaItem

/-! ### The map -/

section Map

variable {S : Type}

/-- Items overwrite the entries of earlier ones. -/
def storeAll (items : List (AlphaItem S)) : Dict AlphaKey S :=
  items.foldl AlphaItem.store .empty

/-- The loop of the parser: an item that cannot be read ends it, and what was set
before remains. -/
def readAlphaMap [Field S] :
    List (List Char) → Dict AlphaKey S → Dict AlphaKey S × Option PyError
  | [], map => (map, none)
  | text :: texts, map =>
    match AlphaItem.read text with
    | .ok item => readAlphaMap texts (item.store map)
    | .error e => (map, some e)

/-- The items of a text, if all can be read. -/
def readItems [Field S] (raw : String) : Except PyError (List (AlphaItem S)) :=
  (raw.toList.splitOn ',').mapM AlphaItem.read

/-- `module_alpha_map`, for the value of the option. -/
def moduleAlphaMap [Field S] (raw : Option String) : Dict AlphaKey S :=
  match raw with
  | none => .empty
  | some raw =>
    if raw.isEmpty then .empty else (readAlphaMap (raw.toList.splitOn ',') .empty).1

/-- The last item that sets a layer of a module. -/
def layerEntry (items : List (AlphaItem S)) (name : String) (idx : ℤ) : Option S :=
  (items.reverse.find? fun item => item.covers name idx).map AlphaItem.alpha

/-- The last item that sets a module. -/
def moduleEntry (items : List (AlphaItem S)) (name : String) : Option S :=
  (items.reverse.find? fun item => item.setsModule name).map AlphaItem.alpha

/-- The alpha of a layer of a module: its own entry, else that of the module,
else the global alpha. -/
def effectiveAlpha (items : List (AlphaItem S)) (global : S) (name : String) (idx : ℤ) : S :=
  (layerEntry items name idx).getD ((moduleEntry items name).getD global)

theorem readAlphaMap_of_mapM [Field S] : ∀ {texts : List (List Char)}
    {items : List (AlphaItem S)} (map : Dict AlphaKey S),
    texts.mapM AlphaItem.read = .ok items →
      readAlphaMap texts map = (items.foldl AlphaItem.store map, none) := by
  intro texts
  induction texts with
  | nil =>
    intro items map h
    cases h
    rfl
  | cons text texts ih =>
    intro items map h
    rw [List.mapM_cons] at h
    obtain ⟨item, hitem, h⟩ := Effect.bind_eq_ok.mp h
    obtain ⟨rest, hrest, h⟩ := Effect.bind_eq_ok.mp h
    cases h
    rw [readAlphaMap, hitem]
    exact ih _ hrest

/-- The empty text is one item that cannot be read. -/
theorem isEmpty_of_readItems [Field S] {raw : String} {items : List (AlphaItem S)}
    (h : readItems raw = .ok items) : ¬raw.isEmpty = true := by
  intro hempty
  have hfail : (readItems "" : Except PyError (List (AlphaItem S))) =
      .error AlphaItem.unpackError := rfl
  rw [String.isEmpty_iff.mp hempty, hfail] at h
  cases h

/-- A text whose items can be read gives their map. -/
theorem moduleAlphaMap_of_items [Field S] {raw : String} {items : List (AlphaItem S)}
    (h : readItems raw = .ok items) : moduleAlphaMap (some raw) = storeAll items := by
  unfold moduleAlphaMap
  simp only [if_neg (isEmpty_of_readItems h)]
  rw [readAlphaMap_of_mapM _ h]
  rfl

theorem get?_storeAll_layer (items : List (AlphaItem S)) (name : String) (idx : ℤ) :
    (storeAll items).get? (.layer name idx) = layerEntry items name idx := by
  unfold storeAll layerEntry
  induction items using List.reverseRecOn with
  | nil => rfl
  | append_singleton items item ih =>
    rw [List.foldl_append, List.reverse_append]
    show (item.store _).get? _ = _
    rw [AlphaItem.get?_store_layer, ih, List.reverse_singleton, List.singleton_append,
      List.find?_cons]
    rcases item.covers name idx with _ | _
    · rfl
    · rfl

theorem get?_storeAll_module (items : List (AlphaItem S)) (name : String) :
    (storeAll items).get? (.module name) = moduleEntry items name := by
  unfold storeAll moduleEntry
  induction items using List.reverseRecOn with
  | nil => rfl
  | append_singleton items item ih =>
    rw [List.foldl_append, List.reverse_append]
    show (item.store _).get? _ = _
    rw [AlphaItem.get?_store_module, ih, List.reverse_singleton, List.singleton_append,
      List.find?_cons]
    rcases item.setsModule name with _ | _
    · rfl
    · rfl

/-- Scaling looks the effective alpha up. -/
theorem targetAlpha_storeAll (items : List (AlphaItem S)) (global : S) (name : String)
    (idx : ℕ) :
    (targetAlpha (storeAll items) name (some idx)).getD global =
      effectiveAlpha items global name idx := by
  unfold targetAlpha effectiveAlpha
  rw [Option.bind_some, get?_storeAll_layer, get?_storeAll_module]
  rcases layerEntry items name idx with _ | alpha
  · rfl
  · rfl

end Map
