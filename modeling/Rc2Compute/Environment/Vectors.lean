import Rc2Compute.Environment.Encoding

/-!
# Vectors

Which logical vectors and vectors of doubles the encoding determines.  A
logical value is encoded by whether it is zero, so a missing one cannot be
told from `TRUE`; no double equals `R_NaN`, so a NaN is encoded as null, and
so is a vector of doubles without an element.
-/

namespace Rc2Compute.Environment

/-! ## What a vector is -/

/-- `TRUE` in a logical vector. -/
def TRUE : ℤ := 1

/-- A logical vector, or a vector of doubles. -/
def IsLogicalOrReal : RData → Prop
  | .logical values => ∀ v ∈ values, v = 0 ∨ v = TRUE ∨ v = NA_INTEGER
  | .real _ => True
  | _ => False

/-- Both are logical, or both are vectors of doubles. -/
def SameType : RData → RData → Prop
  | .logical _, .logical _ | .real _, .real _ => True
  | _, _ => False

/-- Every NaN is the same. -/
def Double.withoutPayload : Double → Double
  | .nan _ => R_NaN
  | d => d

def RData.withoutPayload : RData → RData
  | .real values => .real (values.map Double.withoutPayload)
  | data => data

/-- The entry that tells a double from every other. -/
def Double.entry : Double → Json
  | .finite value => .float value
  | .nan _ => .string "NaN"
  | .posInf => .string "Inf"
  | .negInf => .string "-Inf"

variable (R : Engine)

/-- `fields` report the length, have an entry for each element, and determine
the vector. -/
structure VectorEncoded (data : RData) (fields : Fields) : Prop where
  length : fields.lookup "length" = some (.integer data.length)
  entries : ∃ entries, fields.lookup "value" = some (.array entries) ∧
    entries.length = data.length
  doubles : ∀ values, data = .real values →
    fields.lookup "value" = some (.array (values.map Double.entry))
  determines : ∀ (heap : Heap) robj jobj fields',
    Yields (setPrimitiveData R heap robj jobj) fields' →
      IsLogicalOrReal robj.data → SameType data robj.data →
      fields'.lookup "value" = fields.lookup "value" →
      robj.data.withoutPayload = data.withoutPayload

/-! ## What the function yields -/

/-- The fields `setDimNames` sets. -/
def IsDimField (name : String) : Prop :=
  name = "nrow" ∨ name = "ncol" ∨ name = "dims" ∨ name = "dimnames"

section Fields

variable {R} {heap : Heap} {robj : RObject} {jobj fields : Fields}

theorem setDimNames_lookup (h : Yields (setDimNames R heap robj jobj) fields)
    {name : String} (hname : ¬IsDimField name) :
    fields.lookup name = jobj.lookup name := by
  simp only [IsDimField, not_or] at hname
  obtain ⟨hnrow, hncol, hdims, hdimnames⟩ := hname
  obtain ⟨dims, -, hrest⟩ := h.returns.bind
  obtain ⟨nrow, -, hrest⟩ := hrest.bind
  obtain ⟨ncol, -, hrest⟩ := hrest.bind
  dsimp only at hrest
  have hset : ∀ fields' : Fields, fields' =
      (if dims.length > 2 then
        jobj |> Fields.set "nrow" (.integer nrow)
          |> Fields.set "ncol" (.integer ncol)
          |> Fields.set "dims" (rvectorToJsonArray robj.data)
      else
        jobj |> Fields.set "nrow" (.integer nrow)
          |> Fields.set "ncol" (.integer ncol)) →
      fields'.lookup name = jobj.lookup name := by
    rintro fields' rfl
    split
    · rw [Fields.lookup_set_of_ne hdims, Fields.lookup_set_of_ne hncol,
        Fields.lookup_set_of_ne hnrow]
    · rw [Fields.lookup_set_of_ne hncol, Fields.lookup_set_of_ne hnrow]
  split at hrest
  · obtain ⟨dnames, -, hpure⟩ := hrest.bind
    rw [← yields_pure.mp ((Confined.pure _).yields hpure),
      Fields.lookup_set_of_ne hdimnames]
    exact hset _ rfl
  · exact hset _ (yields_pure.mp ((Confined.pure _).yields hrest)).symm

/-- The dimensions change neither the length nor the value. -/
theorem setPrimitiveData_lookup
    (h : Yields (setPrimitiveData R heap robj jobj) fields) {name : String}
    (hname : name = "length" ∨ name = "value") :
    fields.lookup name = (vectorFields robj.data jobj).lookup name := by
  have hdim : ¬IsDimField name := by
    rcases hname with rfl | rfl <;> simp [IsDimField]
  have hclass : name ≠ "class" := by
    rcases hname with rfl | rfl <;> decide
  have hprimitive : name ≠ "primitive" := by
    rcases hname with rfl | rfl <;> decide
  unfold setPrimitiveData at h
  dsimp only at h
  split at h
  · obtain ⟨dimmed, hdimmed, hpure⟩ := h.returns.bind
    have hdimmed := (setDimNames_confined R heap robj _).yields hdimmed
    rw [← yields_pure.mp ((Confined.pure _).yields hpure),
      Fields.lookup_set_of_ne hclass, setDimNames_lookup hdimmed hdim,
      Fields.lookup_set_of_ne hprimitive]
  · rw [yields_pure.mp h]

/-- A vector that is no array is always encoded. -/
theorem setPrimitiveData_yields (h : heap.isArray robj = false) :
    ∃ fields, Yields (setPrimitiveData R heap robj jobj) fields := by
  refine ⟨vectorFields robj.data jobj, ?_⟩
  unfold setPrimitiveData
  rw [h]
  exact yields_pure.mpr rfl

theorem setPrimitiveData_length (hdata : IsLogicalOrReal robj.data)
    (h : Yields (setPrimitiveData R heap robj jobj) fields) :
    fields.lookup "length" = some (.integer robj.data.length) := by
  rw [setPrimitiveData_lookup h (.inl rfl)]
  cases hvalues : robj.data with
  | logical values | real values =>
      simp [vectorFields, primitiveFields]
  | _ =>
      rw [hvalues] at hdata
      exact hdata.elim

/-- The entry of a logical value. -/
def logicalEntry (value : ℤ) : Json :=
  .boolean (value ≠ 0)

theorem setPrimitiveData_logical {values : List ℤ}
    (hdata : robj.data = .logical values)
    (h : Yields (setPrimitiveData R heap robj jobj) fields) :
    fields.lookup "value" = some (.array (values.map logicalEntry)) := by
  rw [setPrimitiveData_lookup h (.inr rfl), hdata]
  simp [vectorFields, primitiveFields, logicalEntry]

theorem setPrimitiveData_real {values : List Double}
    (hdata : robj.data = .real values)
    (h : Yields (setPrimitiveData R heap robj jobj) fields) :
    fields.lookup "value" = some (pushed (values.map doubleEntry)) := by
  rw [setPrimitiveData_lookup h (.inr rfl), hdata]
  simp [vectorFields, primitiveFields]

end Fields

/-! ## Logical vectors -/

/-- A missing value for `TRUE`, and `TRUE` for a missing value. -/
def exchanged (value : ℤ) : ℤ :=
  if value = TRUE then NA_INTEGER
  else if value = NA_INTEGER then TRUE
  else value

theorem exchanged_logical {v : ℤ} (h : v = 0 ∨ v = TRUE ∨ v = NA_INTEGER) :
    exchanged v = 0 ∨ exchanged v = TRUE ∨ exchanged v = NA_INTEGER := by
  rcases h with rfl | rfl | rfl <;> decide

theorem logicalEntry_exchanged {v : ℤ}
    (h : v = 0 ∨ v = TRUE ∨ v = NA_INTEGER) :
    logicalEntry (exchanged v) = logicalEntry v := by
  unfold logicalEntry
  congr 1
  rcases h with rfl | rfl | rfl <;> decide

theorem eq_zero_of_exchanged {v : ℤ} (h : v = 0 ∨ v = TRUE ∨ v = NA_INTEGER)
    (heq : exchanged v = v) : v = 0 := by
  rcases h with rfl | rfl | rfl
  · rfl
  · revert heq
    decide
  · revert heq
    decide

/-- Reads an entry back, when no value is missing. -/
def logicalOfEntry : Json → ℤ
  | .boolean true => TRUE
  | _ => 0

theorem logicalOfEntry_logicalEntry {v : ℤ} (h : v = 0 ∨ v = TRUE) :
    logicalOfEntry (logicalEntry v) = v := by
  rcases h with rfl | rfl <;> rfl

/-- Logical vectors without a missing value have different entries. -/
theorem eq_of_logicalEntries {values values' : List ℤ}
    (h : ∀ v ∈ values, v = 0 ∨ v = TRUE)
    (h' : ∀ v ∈ values', v = 0 ∨ v = TRUE)
    (heq : values.map logicalEntry = values'.map logicalEntry) :
    values = values' := by
  have hread : ∀ vs : List ℤ, (∀ v ∈ vs, v = 0 ∨ v = TRUE) →
      (vs.map logicalEntry).map logicalOfEntry = vs := by
    intro vs hvs
    calc
      (vs.map logicalEntry).map logicalOfEntry =
          vs.map (logicalOfEntry ∘ logicalEntry) := List.map_map
      _ = vs.map id := List.map_congr_left fun v hv =>
          logicalOfEntry_logicalEntry (hvs v hv)
      _ = vs := List.map_id vs
  rw [← hread values h, heq, hread values' h']

/-! ## Vectors of doubles -/

/-- Reads an entry of a double back. -/
def doubleOfEntry : Json → Double
  | .float value => .finite value
  | .string "Inf" => .posInf
  | .string "-Inf" => .negInf
  | _ => R_NaN

/-- No double equals `R_NaN`. -/
theorem doubleEntry_nan (payload : ℕ) :
    doubleEntry (.nan payload) = .null := rfl

theorem doubleEntry_eq_entry {d : Double} :
    doubleEntry d = d.entry ↔ ∀ payload, d ≠ .nan payload := by
  cases d with
  | finite value => exact iff_of_true rfl nofun
  | nan payload =>
      apply iff_of_false
      · rw [doubleEntry_nan]
        exact nofun
      · intro h
        exact h payload rfl
  | posInf | negInf => exact iff_of_true rfl nofun

theorem doubleOfEntry_doubleEntry (d : Double) :
    doubleOfEntry (doubleEntry d) = d.withoutPayload := by
  cases d with
  | finite value | nan payload | posInf | negInf => rfl

/-- The entries of doubles determine them up to the payload. -/
theorem withoutPayload_eq_of_entries {values values' : List Double}
    (heq : values.map doubleEntry = values'.map doubleEntry) :
    values.map Double.withoutPayload = values'.map Double.withoutPayload := by
  have hread : ∀ ds : List Double,
      (ds.map doubleEntry).map doubleOfEntry =
        ds.map Double.withoutPayload := by
    intro ds
    rw [List.map_map]
    exact List.map_congr_left fun d _ => doubleOfEntry_doubleEntry d
  rw [← hread values, heq, hread values']

/-! ## Vectors that are determined -/

/-- A logical vector with no element but `FALSE`, or a vector of doubles with
an element and without a NaN. -/
def IsOrdinary : RData → Prop
  | .logical values => ∀ v ∈ values, v = 0
  | .real values => values ≠ [] ∧ ∀ d ∈ values, ∀ payload, d ≠ .nan payload
  | _ => False

section Encoded

variable {R} {heap : Heap} {robj : RObject} {jobj fields : Fields}

/-- An encoded logical vector is equal to the one with `TRUE` and the missing
values exchanged. -/
theorem isOrdinary_of_logical {values : List ℤ}
    (hdata : robj.data = .logical values)
    (hlogical : ∀ v ∈ values, v = 0 ∨ v = TRUE ∨ v = NA_INTEGER)
    (h : Yields (setPrimitiveData R heap robj jobj) fields)
    (hencoded : VectorEncoded R (.logical values) fields) :
    ∀ v ∈ values, v = 0 := by
  let other : RObject := .plain (.logical (values.map exchanged))
  have hother : IsLogicalOrReal other.data := by
    intro v hv
    obtain ⟨u, hu, rfl⟩ := List.mem_map.mp hv
    exact exchanged_logical (hlogical u hu)
  obtain ⟨fields', h'⟩ : ∃ fields',
      Yields (setPrimitiveData R ⟨[]⟩ other []) fields' :=
    setPrimitiveData_yields rfl
  have hentries : (values.map exchanged).map logicalEntry =
      values.map logicalEntry := by
    rw [List.map_map]
    exact List.map_congr_left fun v hv => logicalEntry_exchanged (hlogical v hv)
  have hvalue : fields'.lookup "value" = fields.lookup "value" := by
    rw [setPrimitiveData_logical rfl h', setPrimitiveData_logical hdata h,
      hentries]
  have hsame := hencoded.determines ⟨[]⟩ other [] fields' h' hother trivial
    hvalue
  have hmap : values.map exchanged = values.map id := by
    rw [List.map_id]
    exact RData.logical.inj hsame
  intro v hv
  exact eq_zero_of_exchanged (hlogical v hv) (List.map_inj_left.mp hmap v hv)

theorem isOrdinary_of_real {values : List Double}
    (hdata : robj.data = .real values)
    (h : Yields (setPrimitiveData R heap robj jobj) fields)
    (hencoded : VectorEncoded R (.real values) fields) :
    IsOrdinary (.real values) := by
  have hvalue := setPrimitiveData_real hdata h
  rw [hencoded.doubles values rfl, Option.some.injEq] at hvalue
  constructor
  · rintro rfl
    cases hvalue
  · intro d hd
    have hentries := eq_of_pushed_eq_array hvalue.symm
    exact doubleEntry_eq_entry.mp (List.map_inj_left.mp hentries d hd)

/-- A vector with the same value as one without `TRUE` or a missing value
has none either. -/
theorem encoded_of_logical {values : List ℤ}
    (hdata : robj.data = .logical values) (hzero : ∀ v ∈ values, v = 0)
    (h : Yields (setPrimitiveData R heap robj jobj) fields) :
    VectorEncoded R (.logical values) fields where
  length := by
    rw [setPrimitiveData_length (hdata ▸ fun v hv => .inl (hzero v hv)) h,
      hdata]
  entries := ⟨_, setPrimitiveData_logical hdata h, List.length_map _⟩
  doubles := nofun
  determines := by
    intro heap' robj' jobj' fields' h' _ hsame hvalue
    cases hdata' : robj'.data with
    | logical values' =>
        rw [setPrimitiveData_logical hdata' h',
          setPrimitiveData_logical hdata h, Option.some.injEq,
          Json.array.injEq] at hvalue
        have hzero' : ∀ v ∈ values', v = 0 := by
          intro v hv
          have hentry : logicalEntry v ∈ values.map logicalEntry := by
            rw [← hvalue]
            exact List.mem_map_of_mem hv
          obtain ⟨u, hu, heq⟩ := List.mem_map.mp hentry
          rw [hzero u hu] at heq
          simpa [logicalEntry] using heq
        have hvalues := eq_of_logicalEntries
          (fun v hv => .inl (hzero' v hv)) (fun v hv => .inl (hzero v hv))
          hvalue
        rw [hvalues]
    | _ =>
        rw [hdata'] at hsame
        exact hsame.elim

theorem encoded_of_real {values : List Double}
    (hdata : robj.data = .real values) (hordinary : IsOrdinary (.real values))
    (h : Yields (setPrimitiveData R heap robj jobj) fields) :
    VectorEncoded R (.real values) fields := by
  obtain ⟨hne, hnan⟩ := hordinary
  have hvalue := setPrimitiveData_real hdata h
  rw [pushed_of_ne_nil (by simpa using hne)] at hvalue
  constructor
  · rw [setPrimitiveData_length (by rw [hdata]; trivial) h, hdata]
  · exact ⟨_, hvalue, List.length_map _⟩
  · rintro _ ⟨⟩
    rw [hvalue, List.map_congr_left fun d hd =>
      doubleEntry_eq_entry.mpr (hnan d hd)]
  · intro heap' robj' jobj' fields' h' _ hsame hvalue'
    cases hdata' : robj'.data with
    | real values' =>
        rw [setPrimitiveData_real hdata' h', setPrimitiveData_real hdata h,
          Option.some.injEq] at hvalue'
        have hentries := pushed_injective hvalue'
        exact congrArg RData.real (withoutPayload_eq_of_entries hentries)
    | _ =>
        rw [hdata'] at hsame
        exact hsame.elim

end Encoded

variable (heap : Heap)

/-- The encoding of a vector determines it exactly when it is a logical vector
with no element but `FALSE`, or a vector of doubles with an element and
without a NaN. -/
theorem vector_encoded_iff {robj : RObject} (hdata : IsLogicalOrReal robj.data)
    (jobj : Fields) :
    (heap.isArray robj = false →
      ∃ fields, Yields (setPrimitiveData R heap robj jobj) fields) ∧
    ∀ fields, Yields (setPrimitiveData R heap robj jobj) fields →
      (VectorEncoded R robj.data fields ↔ IsOrdinary robj.data) := by
  refine ⟨setPrimitiveData_yields, ?_⟩
  intro fields h
  cases hvalues : robj.data with
  | logical values =>
      rw [hvalues] at hdata
      constructor
      · exact isOrdinary_of_logical hvalues hdata h
      · intro hzero
        exact encoded_of_logical hvalues hzero h
  | real values =>
      constructor
      · exact isOrdinary_of_real hvalues h
      · intro hordinary
        exact encoded_of_real hvalues hordinary h
  | _ =>
      rw [hvalues] at hdata
      exact hdata.elim

/-- One and infinity. -/
def oneAndInfinity : RObject :=
  .plain (.real [.finite 1, .posInf])

theorem vector_encoded_oneAndInfinity :
    ∃ fields,
      Yields (setPrimitiveData bareEngine ⟨[]⟩ oneAndInfinity []) fields ∧
        VectorEncoded bareEngine oneAndInfinity.data fields := by
  have hiff := vector_encoded_iff bareEngine ⟨[]⟩
    (show IsLogicalOrReal oneAndInfinity.data from trivial) []
  obtain ⟨fields, h⟩ := hiff.1 rfl
  refine ⟨fields, h, (hiff.2 fields h).mpr ⟨by decide, ?_⟩⟩
  intro d hd payload
  rcases List.mem_pair.mp hd with rfl | rfl
  · exact nofun
  · exact nofun

/-- `c(TRUE, NA)`. -/
def trueAndMissing : RObject :=
  .plain (.logical [TRUE, NA_INTEGER])

/-- A missing value is encoded as `TRUE`, and a NaN is not encoded as a
text. -/
theorem vector_encoded_fails_on_missing :
    (∃ fields,
      Yields (setPrimitiveData bareEngine ⟨[]⟩ trueAndMissing []) fields ∧
        ¬VectorEncoded bareEngine trueAndMissing.data fields) ∧
    ∃ fields,
      Yields (setPrimitiveData bareEngine ⟨[]⟩ (.plain (.real [R_NaN])) [])
          fields ∧
        ¬VectorEncoded bareEngine (.real [R_NaN]) fields := by
  constructor
  · obtain ⟨fields, h⟩ : ∃ fields,
        Yields (setPrimitiveData bareEngine ⟨[]⟩ trueAndMissing []) fields :=
      setPrimitiveData_yields rfl
    refine ⟨fields, h, ?_⟩
    intro hencoded
    have hzero := isOrdinary_of_logical rfl (by decide) h hencoded TRUE
      (List.mem_cons_self ..)
    revert hzero
    decide
  · obtain ⟨fields, h⟩ : ∃ fields, Yields
        (setPrimitiveData bareEngine ⟨[]⟩ (.plain (.real [R_NaN])) []) fields :=
      setPrimitiveData_yields rfl
    refine ⟨fields, h, ?_⟩
    intro hencoded
    have hordinary := isOrdinary_of_real rfl h hencoded
    exact hordinary.2 R_NaN (List.mem_cons_self ..) 0 rfl

end Rc2Compute.Environment
