import Rc2Compute.Environment.RObject
import Rc2Compute.Support.Action
import Rc2Compute.Support.SortedDifference

/-!
# EnvironmentWatcher

How the watcher encodes R objects as JSON and compares an environment with
the one it has captured.  Reading behind the end of a vector, and reading a
value that evaluating a command has not given, is undefined.  The recursion
over objects runs on fuel: `Halt.outOfFuel` says that it was deeper.
-/

namespace Rc2Compute.Environment

/-- Why the watcher has stopped. -/
inductive Halt where
  | exception (error : CxxException)
  | outOfFuel
deriving DecidableEq, Repr

/-- A command `addSummary` has had evaluated, and the object the result is
added to. -/
structure Evaluation where
  object : SEXP
  command : String
deriving DecidableEq, Repr

/-- `_lastVars`, and the commands evaluated so far. -/
structure Watcher where
  lastVars : List Variable
  evaluations : List Evaluation
deriving DecidableEq, Repr

abbrev Encoder := Act Watcher Halt

def kMaxLen : ℕ := 100

/-! ## Comparing variables -/

def compareVariablesByName (v1 v2 : Variable) : Bool :=
  v1.1 < v2.1

/-- `operator<` of pairs, on the names and then on the addresses. -/
def lessThan (v1 v2 : Variable) : Bool :=
  v1.1 < v2.1 || (!decide (v2.1 < v1.1) && decide (v1.2 < v2.2))

/-! ## Reading -/

/-- The value of a conversion, or its exception. -/
def converted {α : Type} : Except CxxException α → Encoder α
  | .ok a => pure a
  | .error e => Act.throw (.exception e)

/-- `values[i]`, without a check. -/
def element {α : Type} (values : List α) (i : ℕ) : Encoder α :=
  match values[i]? with
  | some value => pure value
  | none => Act.undefined

/-- `VECTOR_ELT(robj, i)`. -/
def vectorElt (robj : RObject) (i : ℕ) : Encoder SEXP :=
  match robj.data with
  | .list elements => element elements i
  | _ => Act.undefined

def strings (values : List String) : Json :=
  .array (values.map .string)

def integers (values : List ℤ) : Json :=
  .array (values.map .integer)

/-- What `rvectorToJsonArray` makes of an object's data. -/
def rvectorToJsonArray : RData → Json
  | .logical values | .integer values => integers values
  | .real values => .array (values.map Double.toJson)
  | .string values => strings values
  | _ => .null

/-- `nameArray[i]`, which is null behind the end. -/
def nameAt (nameArray : Json) (i : ℕ) : Json :=
  match nameArray with
  | .array names => names.getD i .null
  | _ => .null

section Watching

variable (R : Engine) (heap : Heap)

/-! ## Summaries -/

def StripQuotes (str : String) : String :=
  String.ofList (str.toList.filter (· ≠ '"'))

/-- The command `addSummary` has evaluated. -/
def summaryCommand (varName : String) : String :=
  "capture.output(str(" ++ StripQuotes varName ++ "))"

/-- The lines of a summary in one text. -/
def joinLines (strs : List String) : String :=
  strs.foldl
    (fun summary str =>
      (if summary.length > 0 then summary ++ "\n" else summary) ++ str) ""

/-- `addSummary` for the object `robj`.  The status of the callback is not
looked at, and without a value there is nothing in `result`. -/
def addSummary (varName : String) (robj : SEXP) (jobj : Fields) :
    Encoder Fields := do
  Act.modify fun w => { w with
    evaluations := w.evaluations ++ [⟨robj, summaryCommand varName⟩] }
  match R.parseEval (summaryCommand varName) with
  | none => Act.undefined
  | some result =>
      match stringVector R result with
      | .ok strs =>
          pure (jobj |> Fields.set "summary" (.string (joinLines strs)))
      | .error _ => pure jobj

/-! ## Data frames -/

def isOrderedFactor : List String → Bool
  | first :: second :: _ => first = "ordered" && second = "factor"
  | _ => false

/-- `columnType`.  (It returns before the lines that would set the levels of a
factor.) -/
def columnType (robj : RObject) : Encoder String :=
  if heap.isFactor robj then do
    let classVal ←
      converted (stringVector R (heap.attr robj "class").data)
    pure (if isOrderedFactor classVal then "of" else "f")
  else
    match robj.data with
    | .logical _ => pure "b"
    | .integer _ => pure "i"
    | .real _ => pure "d"
    | .string _ => pure "s"
    | _ => pure "-"

/-- A column, with complex numbers coerced to strings. -/
def column (s : SEXP) : RObject :=
  match (heap.object s).data with
  | .complex texts => { heap.object s with data := .string texts }
  | _ => heap.object s

/-- The columns of a data frame. -/
def columns (robj : RObject) : Encoder (List RObject) :=
  match robj.data with
  | .list elements => pure (elements.map (column heap))
  | data => if data.length = 0 then pure [] else Act.undefined

/-- The entry of a column in a row. -/
def cell (val : RObject) (row : ℕ) : Encoder Json :=
  match val.data with
  | .logical values | .integer values => do
      let value ← element values row
      pure (.integer value)
  | .real values => do
      let value ← element values row
      pure value.toJson
  | .string values => do
      let value ← element values 0
      pure (.string value)
  | _ => pure .null

/-- The rows of a data frame. -/
def frameRows (colObjs : List RObject) (colCount rowCount : ℕ) :
    Encoder (List Json) :=
  Act.mapEach (List.range (min kMaxLen rowCount)) fun row => do
    let aRow ← Act.mapEach (List.range colCount) fun col => do
      let val ← element colObjs col
      cell val row
    pure (pushed aRow)

/-- The field of the row names, if there are any. -/
def rowNames (robj : RObject) (jobj : Fields) : Encoder Fields :=
  let rowList := (heap.attr robj "row.names").data
  if rowList.length > 0 then do
    let names ← converted (stringVector R rowList)
    pure (jobj |> Fields.set "row.names" (strings names))
  else
    pure jobj

def setDataFrameData (robj : RObject) (jobj : Fields) : Encoder Fields := do
  let colCount := robj.data.length
  let colNames ← converted (stringVector R (heap.attr robj "names").data)
  let jobj ← rowNames R heap robj (jobj
    |> Fields.set "cols" (strings colNames)
    |> Fields.set "ncol" (.integer colCount))
  let colObjs ← columns heap robj
  let colTypes ← Act.mapEach colObjs (columnType R heap)
  let first ← element colObjs 0
  let rowCount := first.data.length
  let rows ← frameRows colObjs colNames.length rowCount
  pure (jobj
    |> Fields.set "types" (pushed (colTypes.map .string))
    |> Fields.set "nrow" (.integer rowCount)
    |> Fields.set "rows" (pushed rows))

/-! ## Arrays and vectors -/

/-- The `i`th entry of `dimnames`. -/
def dimName (mlist : RObject) (i : ℕ) : Encoder Json := do
  let cl ← vectorElt mlist i
  pure (rvectorToJsonArray (heap.object cl).data)

def setDimNames (robj : RObject) (jobj : Fields) : Encoder Fields := do
  let dims ← converted (integerVector R (heap.attr robj "dim").data)
  let nrow ← element dims 0
  let ncol ← element dims 1
  let jobj := jobj
    |> Fields.set "nrow" (.integer nrow)
    |> Fields.set "ncol" (.integer ncol)
  let jobj :=
    if dims.length > 2 then
      jobj |> Fields.set "dims" (rvectorToJsonArray robj.data)
    else jobj
  if (robj.attributes.lookup "dimnames").isSome then do
    let mlist := heap.attr robj "dimnames"
    let dnames ← Act.mapEach (List.range robj.data.length) (dimName heap mlist)
    pure (jobj |> Fields.set "dimnames" (pushed dnames))
  else
    pure jobj

/-- The entry of a double in a value. -/
def doubleEntry (d : Double) : Json :=
  if d.equals R_NaN then .string "NaN"
  else if d.equals .posInf then .string "Inf"
  else if d.equals .negInf then .string "-Inf"
  else d.toJson

/-- The class, type and value of a vector, and whether it is one. -/
def primitiveFields : RData → Fields × Bool
  | .null => ([("class", .string "NULL"), ("type", .string "n")], false)
  | .logical values =>
      ([("class", .string "logical"), ("type", .string "b"),
        ("value", .array (values.map fun v => .boolean (v ≠ 0)))], true)
  | .integer values =>
      ([("class", .string "integer vector"), ("type", .string "i"),
        ("value", integers values)], true)
  | .real values =>
      ([("class", .string "numeric vector"), ("type", .string "d"),
        ("value", pushed (values.map doubleEntry))], true)
  | .string values =>
      ([("class", .string "string"), ("type", .string "s"),
        ("value", strings values)], true)
  | .complex texts =>
      ([("class", .string "complex"), ("type", .string "c"),
        ("value", strings texts)], true)
  | .raw _ => ([("class", .string "raw"), ("type", .string "r")], true)
  | _ => ([("class", .string "unsupported type")], false)

/-- Whether the type is one of those `setPrimitiveData` knows. -/
def isSupported : RData → Bool
  | .list _ | .environment _ | .closure | .special | .builtin
  | .other _ => false
  | _ => true

/-- The part of `setPrimitiveData` before the dimensions. -/
def vectorFields (data : RData) (jobj : Fields) : Fields :=
  let jobj := (primitiveFields data).1.foldl
    (fun jobj field => jobj |> Fields.set field.1 field.2)
    (jobj |> Fields.set "primitive" (.boolean (isSupported data)))
  if (primitiveFields data).2 then
    jobj |> Fields.set "length" (.integer data.length)
  else
    jobj |> Fields.set "notAVector" (.boolean true)

def setPrimitiveData (robj : RObject) (jobj : Fields) : Encoder Fields := do
  let jobj := vectorFields robj.data jobj
  if heap.isArray robj then do
    let jobj ← setDimNames R heap robj
      (jobj |> Fields.set "primitive" (.boolean false))
    pure (jobj |> Fields.set "class"
      (.string (if heap.isMatrix robj then "matrix" else "array")))
  else
    pure jobj

/-! ## Functions and factors -/

def setFunctionData (robj : SEXP) (jobj : Fields) : Encoder Fields :=
  let jobj := jobj
    |> Fields.set "class" (.string "function")
    |> Fields.set "notAVector" (.boolean true)
    |> Fields.set "primitive" (.boolean false)
  match R.defineFunction robj with
  | .ok lines =>
      pure (jobj |> Fields.set "body"
        (.string (String.join (lines.map (· ++ "\n")))))
  | .error e =>
      if e.type.isStdException then pure jobj
      else Act.throw (.exception e)

def setFactorData (robj : RObject) (jobj : Fields) : Encoder Fields := do
  let levs ← converted (stringVector R (heap.attr robj "levels").data)
  let value ← converted (integerVector R robj.data)
  pure (jobj
    |> Fields.set "type" (.string "f")
    |> Fields.set "levels" (strings levs)
    |> Fields.set "value" (integers value))

/-! ## Dates -/

def setDate (robj : RObject) (jobj : Fields) : Encoder Fields := do
  let date ← converted (asDouble robj.data)
  pure (jobj
    |> Fields.set "value" (.string (R.formatDate date))
    |> Fields.set "type" (.string "date"))

/-- `REAL(robj)[0]`. -/
def setPOSIXct (robj : RObject) (jobj : Fields) : Encoder Fields :=
  match robj.data with
  | .real values => do
      let value ← element values 0
      pure (jobj
        |> Fields.set "value" value.toJson
        |> Fields.set "type" (.string "date"))
  | _ => Act.undefined

def setPOSIXlt (robj : RObject) (jobj : Fields) : Encoder Fields := do
  let dt ← converted (asDouble robj.data)
  pure (jobj
    |> Fields.set "value" dt.toJson
    |> Fields.set "type" (.string "date"))

/-! ## The recursion -/

/-- A call of `valueToJson`: the name, the object, and whether the children of
a list are included. -/
structure ValueCall where
  varName : String
  robj : SEXP
  includeListChildren : Bool
deriving DecidableEq, Repr

section Recursion

variable (valueToJson : ValueCall → Fields → Encoder Fields)

/-- The attributes `setGenericObjectData` encodes. -/
def genericNames (robj : RObject) : List String :=
  (robj.attributes.map Prod.fst).filter (· ≠ "class")

/-- The call for an attribute. -/
def attributeCall (robj : RObject) (aName : String) : ValueCall :=
  ⟨aName, (robj.attributes.lookup aName).getD 0, true⟩

def setGenericObjectData (robj : RObject) (jobj : Fields) :
    Encoder Fields := do
  let nameArray := genericNames robj
  let valueArray ← Act.mapEach nameArray fun aName => do
    let attrJval ← valueToJson (attributeCall robj aName) []
    pure (Json.object (attrJval |> Fields.set "name" (.string aName)))
  pure (jobj
    |> Fields.set "generic" (.boolean true)
    |> Fields.set "names" (pushed (nameArray.map .string))
    |> Fields.set "value" (pushed valueArray)
    |> Fields.set "length" (.integer valueArray.length))

/-- The call for a binding of an environment. -/
def bindingCall (env : SEXP) (varName : String) : ValueCall :=
  ⟨varName, heap.get env varName, true⟩

def setEnvironmentData (robj : SEXP) (jobj : Fields) : Encoder Fields := do
  let childArray ← Act.mapEach ((heap.ls robj).take kMaxLen) fun varName => do
    let cobj ← valueToJson (bindingCall heap robj varName)
      [("name", .string varName)]
    pure (Json.object cobj)
  pure (jobj |> Fields.set "value" (pushed childArray))

/-- The call for an element of a list. -/
def childCall (child : SEXP) : ValueCall :=
  ⟨"", child, false⟩

def setListData (robj : RObject) (elements : List SEXP) (jobj : Fields)
    (includeListChildren : Bool) : Encoder Fields := do
  let nameArray := rvectorToJsonArray (heap.attr robj "names").data
  let jobj := jobj
    |> Fields.set "class" (.string "list")
    |> Fields.set "names" nameArray
    |> Fields.set "length" (.integer elements.length)
  if includeListChildren then do
    let children ← Act.mapEach (elements.take kMaxLen).zipIdx fun child => do
      let childObj ← valueToJson (childCall child.1) []
      pure (Json.object (childObj |> Fields.set "name"
        (nameAt nameArray child.2)))
    pure (jobj |> Fields.set "value" (pushed children))
  else
    pure jobj

/-- The class a value reports. -/
def className (klazzNames : List String) : Encoder String :=
  if isOrderedFactor klazzNames then pure "ordered factor"
  else element klazzNames 0

def setObjectData (robj : RObject) (jobj : Fields) : Encoder Fields := do
  let klazzNames ← converted (stringVector R (heap.attr robj "class").data)
  let klazz ← className klazzNames
  let jobj := jobj |> Fields.set "class" (.string klazz)
  let jobj :=
    if robj.isS4 then jobj |> Fields.set "S4" (.boolean true) else jobj
  if heap.isFactor robj then setFactorData R heap robj jobj
  else if klazz = "Date" then setDate R robj jobj
  else if klazz = "POSIXct" then setPOSIXct robj jobj
  else if klazz = "POSIXlt" then setPOSIXlt robj jobj
  else if klazz = "data.frame" then setDataFrameData R heap robj jobj
  else setGenericObjectData valueToJson robj jobj

/-- The body of `valueToJson`. -/
def valueBody (c : ValueCall) (jobj : Fields) : Encoder Fields := do
  let jobj := jobj |> Fields.set "name" (.string c.varName)
  let robj := heap.object c.robj
  if robj.isObject then do
    let jobj ← setObjectData R heap valueToJson robj jobj
    addSummary R c.varName c.robj jobj
  else
    match robj.data with
    | .list elements => do
        let jobj ← setListData heap valueToJson robj elements jobj
          c.includeListChildren
        addSummary R c.varName c.robj jobj
    | .environment _ => setEnvironmentData heap valueToJson c.robj jobj
    | .closure | .special | .builtin => setFunctionData R c.robj jobj
    | _ => setPrimitiveData R heap robj jobj

end Recursion

def valueToJson : ℕ → ValueCall → Fields → Encoder Fields
  | 0, _, _ => Act.throw .outOfFuel
  | fuel + 1, c, jobj => valueBody R heap (valueToJson fuel) c jobj

/-! ## The environment -/

variable (fuel : ℕ) (env : SEXP)

/-- `toJson(varName)`. -/
def toJsonOf (varName : String) : Encoder Json := do
  let results ← valueToJson R heap fuel (bindingCall heap env varName) []
  pure (.object results)

/-- An object that fields have been set in, null if there were none. -/
def assembled : Fields → Json
  | [] => .null
  | fields => .object
      (fields.foldl (fun jobj field => jobj |> Fields.set field.1 field.2) [])

def toJson : Encoder Json := do
  let results ← Act.mapEach (heap.ls env) fun aName => do
    let value ← toJsonOf R heap fuel env aName
    pure (aName, value)
  pure (assembled results)

/-- The variables of the environment, as `ls` lists them. -/
def listedVariables : List Variable :=
  (heap.ls env).map fun aName => (aName, heap.get env aName)

def captureEnvironment : Encoder Unit :=
  Act.modify fun w => { w with
    lastVars := sortBy compareVariablesByName (listedVariables heap env) }

/-- The names `jsonDelta` reports as removed, from variables that are
sorted. -/
def removedNames (lastVars newVars : List Variable) : List String :=
  (setDifference compareVariablesByName lastVars newVars).map Prod.fst

/-- The call for a variable that has been assigned. -/
def assignedCall (aVar : Variable) : ValueCall :=
  ⟨aVar.1, aVar.2, false⟩

/-- The field of an assigned variable. -/
def encodeAssigned (aVar : Variable) : Encoder (String × Json) := do
  let varValue ← valueToJson R heap fuel (assignedCall aVar) []
  pure (aVar.1, .object varValue)

/-- The end of `jsonDelta`, which crafts the JSON. -/
def craftDelta (removed : List String) (added : List Variable) :
    Encoder Json := do
  let jsonAdded ← Act.mapEach added (encodeAssigned R heap fuel)
  pure (.object
    [("assigned", assembled jsonAdded), ("removed", strings removed)])

def jsonDelta : Encoder Json := do
  let newVars := sortBy compareVariablesByName (listedVariables heap env)
  Act.modify fun w => { w with
    lastVars := sortBy compareVariablesByName w.lastVars }
  let w ← Act.get
  craftDelta R heap fuel (removedNames w.lastVars newVars)
    (setDifference lessThan newVars w.lastVars)

end Watching

end Rc2Compute.Environment
