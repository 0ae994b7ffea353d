import Rc2Compute.Support.Json
import Mathlib.Data.Nat.Notation

/-!
# R objects

The part of R's memory the variable watcher reads: objects at addresses, with
their data, their attributes as `Rf_getAttrib` reports them, and the bits for
classes.  Objects refer to each other by address, so they may be shared and
may refer to themselves.
-/

namespace Rc2Compute.Environment

/-- The address of an object; 0 is `R_NilValue`. -/
abbrev SEXP := ℕ

/-- A double.  `R_NaN` and `NA_real_` differ in the payload only. -/
inductive Double where
  | finite (value : Rat)
  | nan (payload : ℕ)
  | posInf
  | negInf
deriving DecidableEq, Repr

def R_NaN : Double := .nan 0

def NA_INTEGER : ℤ := -2 ^ 31

/-- `R_NaReal` for `NA_INTEGER`. -/
def Double.ofInteger (value : ℤ) : Double :=
  if value = NA_INTEGER then .nan 1954 else .finite value

/-- `==` on doubles. -/
def Double.equals : Double → Double → Bool
  | .finite a, .finite b => a = b
  | .posInf, .posInf | .negInf, .negInf => true
  | _, _ => false

/-- The json library makes null of a number that is not finite. -/
def Double.toJson : Double → Json
  | .finite value => .float value
  | _ => .null

/-- A variable: its name and its object. -/
abbrev Variable := String × SEXP

/-- The data of an object, by its type.  Logical and integer vectors hold
`int`s.  Complex numbers are only ever coerced to strings, so their texts
stand for them. -/
inductive RData where
  | null
  | logical (values : List ℤ)
  | integer (values : List ℤ)
  | real (values : List Double)
  | complex (texts : List String)
  | string (values : List String)
  | raw (bytes : List ℕ)
  | list (elements : List SEXP)
  | environment (bindings : List Variable)
  | closure
  | special
  | builtin
  | other (length : ℕ)
deriving DecidableEq, Repr

/-- `LENGTH`. -/
def RData.length : RData → ℕ
  | .logical values | .integer values => values.length
  | .real values => values.length
  | .complex texts | .string texts => texts.length
  | .raw bytes => bytes.length
  | .list elements => elements.length
  | .other length => length
  | .null | .environment _ | .closure | .special | .builtin => 0

/-- An object, with the `OBJECT` bit and the S4 bit. -/
structure RObject where
  data : RData
  attributes : List Variable
  isObject : Bool
  isS4 : Bool
deriving DecidableEq, Repr

/-- An object without attributes. -/
def RObject.plain (data : RData) : RObject where
  data := data
  attributes := []
  isObject := false
  isS4 := false

/-- R's memory. -/
structure Heap where
  objects : List RObject
deriving DecidableEq, Repr

namespace Heap

variable (heap : Heap)

def object (s : SEXP) : RObject :=
  heap.objects.getD s (.plain .null)

/-- `robj.attr(name)`, which is `R_NilValue` without the attribute. -/
def attr (robj : RObject) (name : String) : RObject :=
  heap.object ((robj.attributes.lookup name).getD 0)

/-- The bindings of an environment. -/
def bindings (env : SEXP) : List Variable :=
  match (heap.object env).data with
  | .environment bindings => bindings
  | _ => []

/-- `ls(false)`, which leaves out the names that begin with a dot. -/
def ls (env : SEXP) : List String :=
  ((heap.bindings env).map Prod.fst).filter fun name =>
    name.toList.head? ≠ some '.'

/-- `Environment::get`, which is `R_NilValue` for a name without a binding. -/
def get (env : SEXP) (name : String) : SEXP :=
  ((heap.bindings env).lookup name).getD 0

/-- `inherits`. -/
def inherits (robj : RObject) (name : String) : Bool :=
  match (heap.attr robj "class").data with
  | .string classNames => name ∈ classNames
  | _ => false

/-- `Rf_isFactor`. -/
def isFactor (robj : RObject) : Bool :=
  match robj.data with
  | .integer _ => heap.inherits robj "factor"
  | _ => false

/-- The dim attribute of an array. -/
def dim (robj : RObject) : Option (List ℤ) :=
  match (heap.attr robj "dim").data with
  | .integer dims => some dims
  | _ => none

/-- `Rf_isArray`, for data that is a vector. -/
def isArray (robj : RObject) : Bool :=
  match heap.dim robj with
  | some dims => 1 ≤ dims.length
  | none => false

/-- `Rf_isMatrix`, for data that is a vector. -/
def isMatrix (robj : RObject) : Bool :=
  match heap.dim robj with
  | some dims => dims.length = 2
  | none => false

end Heap

/-! ## Conversions -/

/-- What R does for the watcher. -/
structure Engine where
  /-- `as.character` of a vector of logical values, numbers or bytes. -/
  asCharacter : RData → List String
  /-- `as.integer` of a vector of doubles, complex numbers or bytes. -/
  asInteger : RData → List ℤ
  /-- The text of a day, in the form of `%4d-%02d-%02d`. -/
  formatDate : Double → String
  /-- `parseEval` of a command in the global environment.  There is no value
  when the command is not complete, is no command or ends in an error. -/
  parseEval : String → Option RData
  /-- The lines of `rc2.defineFunction`. -/
  defineFunction : SEXP → Except CxxException (List String)

/-- R without a library. -/
def bareEngine : Engine where
  asCharacter _ := []
  asInteger _ := []
  formatDate _ := ""
  parseEval _ := some (.string [])
  defineFunction _ := .ok []

def notCompatible (what : String) : CxxException where
  type := .rcppException
  what := what

section Conversions

variable (R : Engine)

/-- `Rcpp::StringVector(robj)`. -/
def stringVector : RData → Except CxxException (List String)
  | .string values => .ok values
  | .complex texts => .ok texts
  | .logical values => .ok (R.asCharacter (.logical values))
  | .integer values => .ok (R.asCharacter (.integer values))
  | .real values => .ok (R.asCharacter (.real values))
  | .raw bytes => .ok (R.asCharacter (.raw bytes))
  | _ => .error (notCompatible "not compatible with STRSXP")

/-- `Rcpp::IntegerVector(robj)`. -/
def integerVector : RData → Except CxxException (List ℤ)
  | .integer values | .logical values => .ok values
  | .real values => .ok (R.asInteger (.real values))
  | .complex texts => .ok (R.asInteger (.complex texts))
  | .raw bytes => .ok (R.asInteger (.raw bytes))
  | _ => .error (notCompatible "not compatible with INTSXP")

/-- `Rcpp::as<double>(robj)`, for the objects of dates. -/
def asDouble : RData → Except CxxException Double
  | .real [value] => .ok value
  | .integer [value] | .logical [value] => .ok (.ofInteger value)
  | _ => .error (notCompatible "expecting a single value")

end Conversions

/-! ## Fields of a JSON object -/

/-- The fields of an object, in the order of their names. -/
abbrev Fields := List (String × Json)

/-- `jobj[name] = value`. -/
def Fields.set (name : String) (value : Json) : Fields → Fields
  | [] => [(name, value)]
  | (key, old) :: rest =>
      if name < key then (name, value) :: (key, old) :: rest
      else if name = key then (name, value) :: rest
      else (key, old) :: Fields.set name value rest

@[simp] theorem Fields.lookup_set_self (name : String) (value : Json)
    (jobj : Fields) : (Fields.set name value jobj).lookup name = some value := by
  induction jobj with
  | nil => simp [Fields.set]
  | cons field rest ih =>
      obtain ⟨key, old⟩ := field
      rw [Fields.set]
      split
      · simp
      split
      · simp
      next hne =>
        rw [List.lookup_cons, beq_false_of_ne hne]
        exact ih

@[simp] theorem Fields.lookup_set_of_ne {name other : String}
    (h : other ≠ name) (value : Json) (jobj : Fields) :
    (Fields.set name value jobj).lookup other = jobj.lookup other := by
  induction jobj with
  | nil => simp [Fields.set, List.lookup_cons, beq_false_of_ne h]
  | cons field rest ih =>
      obtain ⟨key, old⟩ := field
      rw [Fields.set]
      split
      · rw [List.lookup_cons, beq_false_of_ne h]
      split
      next heq =>
        rw [List.lookup_cons, List.lookup_cons, ← heq, beq_false_of_ne h]
      · rw [List.lookup_cons, List.lookup_cons, ih]

/-- An array that elements have been pushed to, null if there were none. -/
def pushed : List Json → Json
  | [] => .null
  | elems => .array elems

theorem pushed_of_ne_nil {elems : List Json} (h : elems ≠ []) :
    pushed elems = .array elems := by
  obtain ⟨elem, rest, rfl⟩ := List.exists_cons_of_ne_nil h
  rfl

theorem eq_of_pushed_eq_array {elems elems' : List Json}
    (h : pushed elems = .array elems') : elems = elems' := by
  match elems with
  | [] => cases h
  | _ :: _ => exact Json.array.inj h

end Rc2Compute.Environment
