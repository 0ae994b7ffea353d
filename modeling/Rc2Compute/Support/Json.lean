import Rc2Compute.Support.Exceptions
import Mathlib.Algebra.Group.Int.Defs
import Mathlib.Algebra.Group.Nat.Defs

/-!
# JSON values

A JSON document as the json library hands it to the program, and the library's
accessors.  An accessor of the wrong type throws `std::domain_error`, which is
not a `std::runtime_error`.
-/

namespace Rc2Compute

/-- A JSON value.  A `float` is a finite double; the fields of an object have
distinct names. -/
inductive Json where
  | null
  | boolean (b : Bool)
  | integer (n : ℤ)
  | float (value : Rat)
  | string (s : String)
  | array (elems : List Json)
  | object (fields : List (String × Json))
deriving Repr

/-- What the parser makes of a text. -/
inductive ParseOutcome where
  | parsed (doc : Json)
  | invalidArgument
  | otherException
deriving Repr

namespace Json

/-- `type_name()`. -/
def typeName : Json → String
  | .null => "null"
  | .object _ => "object"
  | .array _ => "array"
  | .string _ => "string"
  | .boolean _ => "boolean"
  | .integer _ | .float _ => "number"

def domainError (what : String) : CxxException where
  type := .domainError
  what := what

/-- The field of an object, as `find` sees it. -/
def find? (j : Json) (key : String) : Option Json :=
  match j with
  | .object fields => fields.lookup key
  | _ => none

/-! ## Conversions -/

def getString : Json → Except CxxException String
  | .string s => .ok s
  | j => .error (domainError ("type must be string, but is " ++ j.typeName))

def getBool : Json → Except CxxException Bool
  | .boolean b => .ok b
  | j => .error (domainError ("type must be boolean, but is " ++ j.typeName))

/-- `get<int>()`: an integer keeps its low 32 bits, a double loses its
fraction.  (The conversion of a double beyond `int` is not defined in C++.) -/
def getInt : Json → Except CxxException ℤ
  | .integer n => .ok (n.bmod (2 ^ 32))
  | .float value => .ok ((value.num.tdiv value.den).bmod (2 ^ 32))
  | j => .error (domainError ("type must be number, but is " ++ j.typeName))

/-! ## Fields -/

/-- `value(key, default_value)`. -/
def value {α : Type} (get : Json → Except CxxException α) (j : Json)
    (key : String) (default : α) : Except CxxException α :=
  match j with
  | .object fields =>
      match fields.lookup key with
      | some v => get v
      | none => .ok default
  | _ => .error (domainError ("cannot use value() with " ++ j.typeName))

/-- `operator[]` on a value that is not const: a field that is missing is
added as null. -/
def index (j : Json) (key : String) : Except CxxException Json :=
  match j with
  | .object fields => .ok ((fields.lookup key).getD .null)
  | .null => .ok .null
  | _ => .error (domainError ("cannot use operator[] with " ++ j.typeName))

section Errors

variable {α : Type} {j : Json} {key : String} {default : α}
  {get : Json → Except CxxException α} {e : CxxException}

theorem type_of_getString (h : j.getString = .error e) :
    e.type = .domainError := by
  cases j with
  | string s => cases h
  | _ =>
      cases h
      rfl

theorem type_of_getInt (h : j.getInt = .error e) : e.type = .domainError := by
  cases j with
  | integer n => cases h
  | float value => cases h
  | _ =>
      cases h
      rfl

theorem type_of_getBool (h : j.getBool = .error e) :
    e.type = .domainError := by
  cases j with
  | boolean b => cases h
  | _ =>
      cases h
      rfl

theorem type_of_value
    (hget : ∀ v e, get v = .error e → e.type = .domainError)
    (h : value get j key default = .error e) : e.type = .domainError := by
  cases j with
  | object fields =>
      rw [value] at h
      cases hv : fields.lookup key with
      | some v =>
          rw [hv] at h
          exact hget v e h
      | none =>
          rw [hv] at h
          cases h
  | _ =>
      cases h
      rfl

theorem type_of_index (h : j.index key = .error e) :
    e.type = .domainError := by
  cases j with
  | object fields => cases h
  | null => cases h
  | _ =>
      cases h
      rfl

end Errors

end Json

end Rc2Compute
