/-
JSON documents as a dynamically typed program sees them.

A parsed document is a tree of values.  Asking a value for something it does
not have raises, and the kind of the error depends on the value:

* `getField` — `value.get(key)`, which only objects have;
* `item` — `value[key]`, which also raises when the key is absent;
* `elements` — what a `for` loop over the value visits;
* `hashKey?` — the key a value becomes in a dictionary; lists and objects have
  none, and a truth value is the number it is equal to.

Numbers are compared by value, as the interpreter compares them.
-/
import NeuralScalpel.FailurePolicy
import Mathlib.Algebra.Ring.Rat

/-- A parsed JSON document. -/
inductive Json
  | null
  | bool (b : Bool)
  | num (q : ℚ)
  | str (s : String)
  | arr (elems : List Json)
  | obj (fields : List (String × Json))

/-- A value that may stand as the key of a dictionary. -/
inductive JsonKey
  | null
  | num (q : ℚ)
  | str (s : String)
  deriving DecidableEq

namespace Json

/-- `bool(value)`. -/
def truthy : Json → Bool
  | null => false
  | bool b => b
  | num q => decide (q ≠ 0)
  | str s => s != ""
  | arr elems => !elems.isEmpty
  | obj fields => !fields.isEmpty

def isStr (s : String) : Json → Bool
  | str s' => s' == s
  | _ => false

/-- `value.get(key)`. -/
def getField (value : Json) (key : String) : Except PyError (Option Json) :=
  match value with
  | obj fields => .ok (fields.lookup key)
  | _ => .error (.attributeError "object has no attribute 'get'")

/-- `value.get(key, default)`. -/
def getFieldD (value : Json) (key : String) (default : Json) : Except PyError Json := do
  let field ← value.getField key
  pure (field.getD default)

/-- `value[key]`, for an object. -/
def item (value : Json) (key : String) : Except PyError Json := do
  match ← value.getField key with
  | some field => pure field
  | none => throw (.keyError key)

/-- What iterating over a value gives: the elements of a list, the characters
of a string, the keys of an object. -/
def elements : Json → Except PyError (List Json)
  | arr elems => .ok elems
  | str s => .ok (s.toList.map fun c => str (String.ofList [c]))
  | obj fields => .ok (fields.map fun field => str field.1)
  | _ => .error (.external "TypeError: object is not iterable")

/-- The key a value becomes in a dictionary. -/
def hashKey? : Json → Option JsonKey
  | null => some .null
  | bool b => some (.num (if b then 1 else 0))
  | num q => some (.num q)
  | str s => some (.str s)
  | arr _ => none
  | obj _ => none

def hashKey (value : Json) : Except PyError JsonKey :=
  match value.hashKey? with
  | some key => .ok key
  | none => .error (.external "TypeError: unhashable type")

theorem hashKey_eq_ok {value : Json} {key : JsonKey} :
    value.hashKey = .ok key ↔ value.hashKey? = some key := by
  unfold hashKey
  cases value.hashKey? <;> simp

theorem isStr_iff {s : String} {value : Json} : value.isStr s = true ↔ value = .str s := by
  cases value <;> simp [isStr]

theorem item_eq_ok {value field : Json} {key : String} :
    value.item key = .ok field ↔ value.getField key = .ok (some field) := by
  unfold item
  rw [Effect.bind_eq_ok]
  constructor
  · rintro ⟨o, ho, h⟩
    cases o with
    | none => simp [throw, throwThe, MonadExceptOf.throw] at h
    | some field' =>
      cases h
      exact ho
  · intro h
    exact ⟨some field, h, rfl⟩

end Json
