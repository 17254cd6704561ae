/-
JSON documents in memory.

A document is a tree whose objects list their fields in the order of
insertion.  Integers and floats are different values; the floats are a
parameter, and `value` says which number a float is.

* `JsonValue.induct` — induction over the elements and the fields;
* `getField`, `truthy`, `equal` — what a program can ask of a document;
* `equal_self_iff` — every document is equal to itself, except the number NaN.
-/
import NeuralScalpel.Dict
import NeuralScalpel.FailurePolicy
import NeuralScalpel.Tensor

/-- A JSON document; integers and floats are different values. -/
inductive JsonValue (φ : Type)
  | null
  | bool (b : Bool)
  | int (n : ℤ)
  | float (x : φ)
  | str (s : String)
  | arr (elems : List (JsonValue φ))
  | obj (fields : List (String × JsonValue φ))

namespace JsonValue

variable {φ : Type}

/-- A property of documents that passes from the elements of a list and the
fields of an object to the whole. -/
theorem induct {P : JsonValue φ → Prop} (null : P .null) (bool : ∀ b, P (.bool b))
    (int : ∀ n, P (.int n)) (float : ∀ x, P (.float x)) (str : ∀ s, P (.str s))
    (arr : ∀ elems, (∀ v ∈ elems, P v) → P (.arr elems))
    (obj : ∀ fields, (∀ e ∈ fields, P e.2) → P (.obj fields)) (v : JsonValue φ) : P v := by
  refine JsonValue.rec (motive_1 := P) (motive_2 := fun elems => ∀ v ∈ elems, P v)
    (motive_3 := fun fields => ∀ e ∈ fields, P e.2) (motive_4 := fun e => P e.2)
    null bool int float str arr obj ?_ ?_ ?_ ?_ ?_ v
  · intro v hv
    exact absurd hv List.not_mem_nil
  -- a list of elements
  · intro head tail hhead htail v hv
    rcases List.mem_cons.mp hv with h | h
    · exact h ▸ hhead
    · exact htail v h
  · intro e he
    exact absurd he List.not_mem_nil
  -- a list of fields
  · intro head tail hhead htail e he
    rcases List.mem_cons.mp he with h | h
    · exact h ▸ hhead
    · exact htail e h
  · intro k v hv
    exact hv

/-! ### Distinct keys -/

mutual

/-- No object of the document has a key twice, as no dictionary has. -/
def DistinctKeys : JsonValue φ → Prop
  | .arr elems => DistinctElems elems
  | .obj fields => (fields.map Prod.fst).Nodup ∧ DistinctFields fields
  | _ => True

def DistinctElems : List (JsonValue φ) → Prop
  | [] => True
  | v :: rest => DistinctKeys v ∧ DistinctElems rest

def DistinctFields : List (String × JsonValue φ) → Prop
  | [] => True
  | (_, v) :: rest => DistinctKeys v ∧ DistinctFields rest

end

theorem distinctElems_iff {elems : List (JsonValue φ)} :
    DistinctElems elems ↔ ∀ v ∈ elems, DistinctKeys v := by
  induction elems with
  | nil => simp [DistinctElems]
  | cons v rest ih => rw [DistinctElems, ih, List.forall_mem_cons]

theorem distinctFields_iff {fields : List (String × JsonValue φ)} :
    DistinctFields fields ↔ ∀ e ∈ fields, DistinctKeys e.2 := by
  induction fields with
  | nil => simp [DistinctFields]
  | cons e rest ih => rw [DistinctFields, ih, List.forall_mem_cons]

/-! ### Fields -/

/-- `value.get(key)`, which only objects have. -/
def getField (key : String) : JsonValue φ → Except PyError (Option (JsonValue φ))
  | .obj fields => .ok (fields.lookup key)
  | _ => .error (.attributeError "object has no attribute 'get'")

/-- `value.get(key, default)`. -/
def getFieldD (key : String) (default v : JsonValue φ) : Except PyError (JsonValue φ) :=
  (getField key v).map fun field => field.getD default

def isStr (s : String) : JsonValue φ → Bool
  | .str s' => s' == s
  | _ => false

theorem isStr_iff {s : String} {v : JsonValue φ} : isStr s v = true ↔ v = .str s := by
  cases v <;> simp [isStr]

/-- Only objects have fields. -/
theorem getFieldD_eq_ok {key : String} {default v field : JsonValue φ} :
    getFieldD key default v = .ok field ↔
      ∃ fields, v = .obj fields ∧ (fields.lookup key).getD default = field := by
  cases v <;> simp [getFieldD, getField, Except.map]

/-! ### Truth and equality -/

section

variable (value : φ → Scalar)

/-- `bool(value)`. -/
def truthy : JsonValue φ → Bool
  | .null => false
  | .bool b => b
  | .int n => n != 0
  | .float x => value x != .finite 0
  | .str s => s != ""
  | .arr elems => !elems.isEmpty
  | .obj fields => !fields.isEmpty

/-- The number a value is, truth values included. -/
def number : JsonValue φ → Option Scalar
  | .bool b => some (.finite (if b then 1 else 0))
  | .int n => some (.finite n)
  | .float x => some (value x)
  | _ => none

/-- Numbers are equal by value, and NaN is equal to nothing. -/
def equalNumbers (a : Scalar) : Option Scalar → Bool
  | some b => a != .nan && a == b
  | none => false

/-- The value is the number NaN. -/
def isNan (v : JsonValue φ) : Bool := number value v == some .nan

mutual

/-- `v == w`, for values from the JSON reader. -/
def equal : JsonValue φ → JsonValue φ → Bool
  | .null, w => match w with
    | .null => true
    | _ => false
  -- `True == 1`, and an integer is equal to the float of its value
  | .bool b, w => equalNumbers (.finite (if b then 1 else 0)) (number value w)
  | .int n, w => equalNumbers (.finite n) (number value w)
  | .float x, w => equalNumbers (value x) (number value w)
  | .str s, w => isStr s w
  | .arr elems, w => match w with
    | .arr elems' => equalElems elems elems'
    | _ => false
  | .obj fields, w => match w with
    | .obj fields' => fields.length == fields'.length && equalFields fields fields'
    | _ => false

/-- Inside a container identity comes first, and the reader has one NaN. -/
def equalElems : List (JsonValue φ) → List (JsonValue φ) → Bool
  | [], elems' => elems'.isEmpty
  | v :: rest, elems' => match elems' with
    | [] => false
    | v' :: rest' =>
      ((isNan value v && isNan value v') || equal v v') && equalElems rest rest'

def equalFields : List (String × JsonValue φ) → List (String × JsonValue φ) → Bool
  | [], _ => true
  | (k, v) :: rest, fields' => (match fields'.lookup k with
    | some v' => (isNan value v && isNan value v') || equal v v'
    | none => false) && equalFields rest fields'

end

end

variable {value : φ → Scalar}

theorem equalNumbers_self (a : Scalar) : equalNumbers a (some a) = (a != .nan) := by
  rw [equalNumbers, beq_self_eq_true, Bool.and_true]

/-- Inside a container every document is found equal to itself. -/
theorem sameInContainer_self {v : JsonValue φ} (h : equal value v v = !isNan value v) :
    ((isNan value v && isNan value v) || equal value v v) = true := by
  rw [h, Bool.and_self]
  cases isNan value v <;> rfl

theorem equalNumbers_number {v : JsonValue φ} {a : Scalar} (h : number value v = some a) :
    equalNumbers a (number value v) = !isNan value v := by
  rw [isNan, h, equalNumbers_self]
  cases a <;> rfl

theorem equalElems_self {elems : List (JsonValue φ)}
    (h : ∀ v ∈ elems, equal value v v = !isNan value v) : equalElems value elems elems = true := by
  induction elems with
  | nil => rfl
  | cons v rest ih =>
    rw [equalElems, sameInContainer_self (h v List.mem_cons_self), Bool.true_and]
    exact ih fun w hw => h w (List.mem_cons_of_mem _ hw)

/-- Every field of a part of an object is found in the whole object. -/
theorem equalFields_of_subset {fields : List (String × JsonValue φ)}
    (hnodup : (fields.map Prod.fst).Nodup)
    (h : ∀ e ∈ fields, equal value e.2 e.2 = !isNan value e.2)
    {part : List (String × JsonValue φ)} (hsub : part ⊆ fields) :
    equalFields value part fields = true := by
  induction part with
  | nil => rfl
  | cons e rest ih =>
    -- the key is found, and the value under it is the field's own
    have he : e ∈ fields := hsub List.mem_cons_self
    rw [equalFields, (Dict.lookup_eq_some_iff_mem hnodup).mpr he]
    simp only
    rw [sameInContainer_self (h e he), Bool.true_and]
    exact ih fun w hw => hsub (List.mem_cons_of_mem _ hw)

/-- A document is equal to itself unless it is the number NaN. -/
theorem equal_self {v : JsonValue φ} : DistinctKeys v → equal value v v = !isNan value v := by
  induction v using JsonValue.induct with
  | null => exact fun _ => rfl
  | bool | int | float =>
    intro _
    rw [equal]
    exact equalNumbers_number rfl
  | str s =>
    intro _
    have hstr : isStr s (.str s : JsonValue φ) = true := isStr_iff.mpr rfl
    rw [equal, hstr]
    rfl
  | arr elems ih =>
    intro hdistinct
    rw [DistinctKeys, distinctElems_iff] at hdistinct
    exact equalElems_self fun v hv => ih v hv (hdistinct v hv)
  | obj fields ih =>
    intro hdistinct
    rw [DistinctKeys, distinctFields_iff] at hdistinct
    obtain ⟨hnodup, hdistinct⟩ := hdistinct
    show (fields.length == fields.length && equalFields value fields fields) = true
    rw [equalFields_of_subset hnodup (fun e he => ih e he (hdistinct e he)) (List.Subset.refl _),
      beq_self_eq_true, Bool.and_true]

/-- Only the absent value is equal to the absent value. -/
theorem equal_null_iff {v : JsonValue φ} : equal value v .null = true ↔ v = .null := by
  cases v with
  | null => exact iff_of_true rfl rfl
  | _ => exact iff_of_false (fun h => by cases h) (fun h => by cases h)

end JsonValue
