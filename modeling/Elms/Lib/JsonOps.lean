import Elms.Lib.Json

/-!
# Python operations on JSON values

The methods and operators that code applies to what `json.loads` returned,
with the exceptions that they raise on values of another type.
-/

namespace Json

inductive OpError where
  | attributeError
  | typeError
  | valueError
  | overflowError
deriving DecidableEq, Repr

/-! ## §1  Members -/

/-- `value.get(key, default)`: only an object has the method. -/
def dictGet (value : Json) (key : String) (dflt : Json := .null) :
    Except OpError Json :=
  match value with
  | .object members => .ok ((get? members (text key)).getD dflt)
  | _ => .error .attributeError

/-- What `for` goes through: the elements of an array, the keys of an object,
the characters of a string. -/
def iterate : Json → Except OpError (List Json)
  | .array elements => .ok elements
  | .object members => .ok (members.map fun p => .str p.1)
  | .str s => .ok (s.map fun c => .str [c])
  | _ => .error .typeError

/-- It has members, so that `get` can be called on it. -/
def IsObject (value : Json) : Prop := ∃ members, value = .object members

theorem dictGet_of_not_isObject {value : Json} (h : ¬ value.IsObject)
    (key : String) (dflt : Json) :
    value.dictGet key dflt = .error .attributeError := by
  cases value with
  | object members => exact absurd ⟨members, rfl⟩ h
  | _ => rfl

/-- A member by its name, where everything without one has the default. -/
def member (value : Json) (key : String) (dflt : Json := .null) : Json :=
  match value with
  | .object members => (get? members (text key)).getD dflt
  | _ => dflt

theorem dictGet_of_isObject {value : Json} (h : value.IsObject) (key : String)
    (dflt : Json) : value.dictGet key dflt = .ok (value.member key dflt) := by
  obtain ⟨members, rfl⟩ := h
  rfl

/-! ## §2  Truth and numbers -/

/-- `bool(value)` -/
def truth (py : Interpreter) : Json → Bool
  | .null => false
  | .bool b => b
  | .int n => n ≠ 0
  | .float literal => py.floatRepr literal ≠ "0.0" && py.floatRepr literal ≠ "-0.0"
  | .str s => !s.isEmpty
  | .array elements => !elements.isEmpty
  | .object members => !members.isEmpty

/-- What `int` takes from the interpreter: the readings of a float's literal
and of a string. -/
structure IntReader where
  ofFloat : String → Except OpError Int
  ofText : Text → Except OpError Int

/-- `int(value)` -/
def toInt (read : IntReader) : Json → Except OpError Int
  | .bool b => .ok (if b then 1 else 0)
  | .int n => .ok n
  | .float literal => read.ofFloat literal
  | .str s => read.ofText s
  | _ => .error .typeError

/-- `value == text` -/
def isText (value : Json) (t : Text) : Bool :=
  match value with
  | .str s => s = t
  | _ => false

end Json
