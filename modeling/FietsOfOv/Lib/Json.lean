import FietsOfOv.Lib.Dict
import FietsOfOv.Lib.Loop
import Mathlib.Data.Rat.Defs

/-!
# Decoded JSON, read the way Python does

A decoded value is whatever the text held, and each way to look into it raises its
own exception on a value of the wrong type: `get` an `AttributeError`, subscripting a
`TypeError` or a `KeyError`, iteration a `TypeError`, and a typed model field a
validation error.  A number is an `int` of any size, or a `float`; a literal beyond
every float, such as `1e400`, is read as an infinity.
-/

/-- The floats that are no numbers. -/
inductive Json.NonFinite where
  | nan
  | infinity (negative : Bool)
deriving DecidableEq

inductive Json where
  | null
  | bool (value : Bool)
  | int (value : Int)
  | float (value : ℚ)
  | nonFinite (value : Json.NonFinite)
  | str (value : String)
  | arr (items : List Json)
  | obj (fields : List (String × Json))

namespace Json

/-- What looking into a value can raise. -/
inductive Error where
  | attributeError
  | keyError
  | typeError
  | validationError
deriving DecidableEq

def isNull : Json → Bool
  | .null => true
  | _ => false

def isObject : Json → Bool
  | .obj _ => true
  | _ => false

/-- `bool(value)`. -/
def truthy : Json → Bool
  | .null => false
  | .bool value => value
  | .int value => value ≠ 0
  | .float value => value ≠ 0
  | .nonFinite _ => true
  | .str value => value ≠ ""
  | .arr items => ¬ items.isEmpty
  | .obj fields => ¬ fields.isEmpty

/-- `value or default`. -/
def orElse (value default : Json) : Json := if value.truthy then value else default

/-- `value.get(key)`. -/
def get (value : Json) (key : String) : Except Error Json :=
  match value with
  | .obj fields => .ok ((Dict.get fields key).getD .null)
  | _ => .error .attributeError

/-- `value.get(key, default)`. -/
def getD (value : Json) (key : String) (default : Json) : Except Error Json :=
  match value with
  | .obj fields => .ok ((Dict.get fields key).getD default)
  | _ => .error .attributeError

/-- `value[key]`. -/
def index (value : Json) (key : String) : Except Error Json :=
  match value with
  | .obj fields =>
      match Dict.get fields key with
      | some found => .ok found
      | none => .error .keyError
  | _ => .error .typeError

/-- What `for x in value` goes through: elements, characters or keys. -/
def elements : Json → Except Error (List Json)
  | .arr items => .ok items
  | .str value => .ok (value.toList.map fun c => .str (String.singleton c))
  | .obj fields => .ok (fields.map fun field => .str field.1)
  | _ => .error .typeError

section Fields

variable {α : Type}

/-- A model field of a type that `read` validates. -/
def required (read : Json → Option α) (value : Json) : Except Error α :=
  match read value with
  | some a => .ok a
  | none => .error .validationError

/-- A model field of type `T | None`. -/
def optional (read : Json → Option α) (value : Json) : Except Error (Option α) :=
  if value.isNull then .ok none else (required read value).map some

end Fields

/-! ## Where nothing is raised -/

/-- The value under a key of an object, null where there is none. -/
def field (value : Json) (key : String) : Json :=
  match value with
  | .obj fields => (Dict.get fields key).getD .null
  | _ => .null

/-- The object has the key. -/
def has (value : Json) (key : String) : Bool :=
  match value with
  | .obj fields => (Dict.get fields key).isSome
  | _ => false

/-- What an iteration goes through, nothing where it raises. -/
def parts (value : Json) : Option (List Json) := value.elements.toOption

/-- `(value or {}).get` does not raise. -/
def gettable (value : Json) : Bool := value.isObject || !value.truthy

section Access

variable {value found : Json} {key : String} {items : List Json}

@[simp] theorem get_eq_ok :
    value.get key = .ok found ↔ value.isObject = true ∧ found = value.field key := by
  cases value <;> simp [get, isObject, field, eq_comm]

theorem get_eq_error {e : Error} :
    value.get key = .error e ↔ value.isObject = false ∧ e = .attributeError := by
  cases value <;> simp [get, isObject, eq_comm]

@[simp] theorem get_eq_attributeError :
    value.get key = .error .attributeError ↔ value.isObject = false := by
  cases value <;> simp [get, isObject]

theorem field_of_not_truthy (h : value.truthy = false) : value.field key = .null := by
  cases value with
  | obj fields =>
      cases fields with
      | nil => rfl
      | cons => cases h
  | null | bool | int | float | nonFinite | str | arr => rfl

@[simp] theorem isObject_orElse : (value.orElse (.obj [])).isObject = value.gettable := by
  by_cases htruthy : value.truthy = true
  · simp [orElse, gettable, htruthy]
  · simp [orElse, gettable, htruthy, isObject]

@[simp] theorem field_orElse : (value.orElse (.obj [])).field key = value.field key := by
  by_cases htruthy : value.truthy = true
  · simp [orElse, htruthy]
  · have hfalse : value.truthy = false := by simpa using htruthy
    rw [orElse, if_neg htruthy, field_of_not_truthy hfalse]
    rfl

@[simp] theorem index_eq_ok :
    value.index key = .ok found ↔ value.has key = true ∧ found = value.field key := by
  cases value with
  | obj fields =>
      simp only [index, has, field]
      cases Dict.get fields key <;> simp [eq_comm]
  | null | bool | int | float | nonFinite | str | arr => simp [index, has]

@[simp] theorem index_ne_attributeError : value.index key ≠ .error .attributeError := by
  cases value with
  | obj fields =>
      simp only [index]
      cases Dict.get fields key <;> simp
  | null | bool | int | float | nonFinite | str | arr => simp [index]

@[simp] theorem elements_eq_ok : value.elements = .ok items ↔ value.parts = some items := by
  cases value <;> simp [parts, elements, Except.toOption]

@[simp] theorem elements_ne_attributeError : value.elements ≠ .error .attributeError := by
  cases value <;> simp [elements]

variable {α : Type} {read : Json → Option α}

@[simp] theorem required_eq_ok {a : α} : value.required read = .ok a ↔ read value = some a := by
  unfold required
  cases read value <;> simp

@[simp] theorem required_ne_attributeError : value.required read ≠ .error .attributeError := by
  unfold required
  cases read value <;> simp

@[simp] theorem optional_ne_attributeError : value.optional read ≠ .error .attributeError := by
  unfold optional required
  cases value.isNull <;> cases read value <;> simp [Except.map]

@[simp] theorem exists_optional_eq_ok :
    (∃ a, value.optional read = .ok a) ↔ value.isNull = true ∨ (read value).isSome = true := by
  unfold optional required
  cases value.isNull <;> cases read value <;> simp [Except.map]

end Access

end Json
