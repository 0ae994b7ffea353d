import Rc2Compute.Environment.Encoding
import Mathlib.Algebra.Ring.Int.Defs

/-!
# Arrays

When `setDimNames` encodes the dimensions of an array.  It reads a second
dimension without asking whether there is one, it puts the data in the place
of the dimensions, and it takes as many dimnames as the data has elements.
-/

namespace Rc2Compute.Environment

variable (R : Engine) (heap : Heap)

/-! ## What an array is -/

def IsAtomic : RData → Prop
  | .logical _ | .integer _ | .real _ | .complex _ | .string _ | .raw _ => True
  | _ => False

/-- The names of one dimension. -/
def IsDimName : RData → Prop
  | .null | .string _ => True
  | _ => False

/-- The dimnames attribute, if there is one. -/
def HasDimNames (robj : RObject) : Option (List SEXP) → Prop
  | none => robj.attributes.lookup "dimnames" = none
  | some names => (robj.attributes.lookup "dimnames").isSome ∧
      (heap.attr robj "dimnames").data = .list names

/-- An atomic array with the dimensions `d`. -/
structure IsArray (robj : RObject) (d : List ℤ)
    (dimnames : Option (List SEXP)) : Prop where
  atomic : IsAtomic robj.data
  dim : (heap.attr robj "dim").data = .integer d
  rank : 1 ≤ d.length
  nonneg : ∀ n ∈ d, 0 ≤ n
  volume : d.prod = robj.data.length
  names : HasDimNames heap robj dimnames
  length : ∀ names ∈ dimnames, names.length = d.length
  entries : ∀ names ∈ dimnames, ∀ s ∈ names, IsDimName (heap.object s).data

/-- The encoding of the names of one dimension. -/
def dimNameEntry (s : SEXP) : Json :=
  match (heap.object s).data with
  | .string names => strings names
  | _ => .null

/-- The dimensions are encoded within bounds. -/
structure DimsEncoded (d : List ℤ) (dimnames : Option (List SEXP))
    (fields : Fields) : Prop where
  nrow : fields.lookup "nrow" = d[0]?.map .integer
  ncol : 2 ≤ d.length → fields.lookup "ncol" = d[1]?.map .integer
  dims : 2 < d.length → fields.lookup "dims" = some (integers d)
  dimnames : ∀ names ∈ dimnames, fields.lookup "dimnames" =
    some (.array (names.map (dimNameEntry heap)))

/-! ## What the function yields -/

/-- The fields of an array before its dimnames. -/
def arrayFields (robj : RObject) (d : List ℤ) (nrow ncol : ℤ)
    (jobj : Fields) : Fields :=
  let jobj := jobj
    |> Fields.set "nrow" (.integer nrow)
    |> Fields.set "ncol" (.integer ncol)
  if d.length > 2 then
    jobj |> Fields.set "dims" (rvectorToJsonArray robj.data)
  else jobj

theorem yields_dimName {mlist : RObject} {names : List SEXP}
    (h : mlist.data = .list names) {i : ℕ} {j : Json} :
    Yields (dimName heap mlist i) j ↔
      (names.map fun s => rvectorToJsonArray (heap.object s).data)[i]? =
        some j := by
  rw [dimName, vectorElt, h, List.getElem?_map]
  exact yields_element_map

/-- The loop over the dimnames reads as many as the data has elements. -/
theorem yields_dimNames {mlist : RObject} {names : List SEXP}
    (h : mlist.data = .list names) {n : ℕ} {dnames : List Json} :
    Yields (Act.mapEach (List.range n) (dimName heap mlist)) dnames ↔
      n ≤ names.length ∧ dnames =
        (names.map fun s => rvectorToJsonArray (heap.object s).data).take n := by
  rw [yields_mapEach_range (dimName_confined heap mlist)]
  simp only [yields_dimName heap h]
  constructor
  · rintro ⟨hlength, hall⟩
    have hle : n ≤ names.length := by
      by_contra hlt
      obtain ⟨j, -, hj⟩ := hall names.length (by omega)
      rw [List.getElem?_eq_none (Nat.le_of_eq (List.length_map _))] at hj
      cases hj
    refine ⟨hle, ?_⟩
    apply List.ext_getElem?
    intro i
    by_cases hi : i < n
    · obtain ⟨j, hj, hname⟩ := hall i hi
      rw [List.getElem?_take_of_lt hi, hj, hname]
    · rw [List.getElem?_eq_none (by omega), List.getElem?_eq_none
        (by rw [List.length_take]; omega)]
  · rintro ⟨hle, rfl⟩
    constructor
    · rw [List.length_take, List.length_map, Nat.min_eq_left hle]
    · intro i hi
      have hi' : i < (names.map fun s =>
          rvectorToJsonArray (heap.object s).data).length := by
        rw [List.length_map]
        exact Nat.lt_of_lt_of_le hi hle
      have hj := List.getElem?_eq_getElem hi'
      exact ⟨_, (List.getElem?_take_of_lt hi).trans hj, hj⟩

variable {robj : RObject} {d : List ℤ} {dimnames : Option (List SEXP)}

/-- The end of `setDimNames`. -/
def NamesAdded (robj : RObject) (dimnames : Option (List SEXP))
    (jobj fields : Fields) : Prop :=
  match dimnames with
  | none => fields = jobj
  | some names => robj.data.length ≤ names.length ∧
      fields = (jobj |> Fields.set "dimnames"
        (pushed ((names.map fun s =>
          rvectorToJsonArray (heap.object s).data).take robj.data.length)))

/-- `setDimNames` reads two dimensions. -/
theorem yields_setDimNames (h : IsArray heap robj d dimnames)
    {jobj fields : Fields} :
    Yields (setDimNames R heap robj jobj) fields ↔
      ∃ nrow ncol, d[0]? = some nrow ∧ d[1]? = some ncol ∧
        NamesAdded heap robj dimnames (arrayFields robj d nrow ncol jobj)
          fields := by
  have hconverted : Yields
      (converted (integerVector R (heap.attr robj "dim").data)) d :=
    yields_converted.mpr (by rw [h.dim]; rfl)
  have hnames := h.names
  constructor
  · intro hyields
    obtain ⟨dims, hdims, hrest⟩ := hyields.returns.bind
    obtain rfl := ((Confined.converted _).yields hdims).unique hconverted
    obtain ⟨nrow, hnrow, hrest⟩ := hrest.bind
    obtain ⟨ncol, hncol, hrest⟩ := hrest.bind
    have hnrow := yields_element.mp ((Confined.element _ _).yields hnrow)
    have hncol := yields_element.mp ((Confined.element _ _).yields hncol)
    refine ⟨nrow, ncol, hnrow, hncol, ?_⟩
    match dimnames with
    | none =>
        rw [hnames] at hrest
        exact (yields_pure.mp ((Confined.pure _).yields hrest)).symm
    | some names =>
        dsimp only at hrest
        rw [if_pos hnames.1] at hrest
        obtain ⟨dnames, hdnames, hpure⟩ := hrest.bind
        have hindependent : Independent (Act.mapEach
            (List.range robj.data.length)
            (dimName heap (heap.attr robj "dimnames"))) :=
          Confined.mapEach (dimName_confined heap _) _
        obtain ⟨hle, rfl⟩ := (yields_dimNames heap hnames.2).mp
          (hindependent.yields hdnames)
        exact ⟨hle, (yields_pure.mp ((Confined.pure _).yields hpure)).symm⟩
  · rintro ⟨nrow, ncol, hnrow, hncol, hadded⟩
    apply hconverted.bind
    apply (yields_element.mpr hnrow).bind
    apply (yields_element.mpr hncol).bind
    match dimnames with
    | none =>
        dsimp only
        rw [hnames]
        exact yields_pure.mpr hadded.symm
    | some names =>
        dsimp only
        rw [if_pos hnames.1]
        apply Yields.bind ((yields_dimNames heap hnames.2).mpr ⟨hadded.1, rfl⟩)
        exact yields_pure.mpr hadded.2.symm

theorem arrayFields_nrow (nrow ncol : ℤ) (jobj : Fields) :
    (arrayFields robj d nrow ncol jobj).lookup "nrow" =
      some (.integer nrow) := by
  unfold arrayFields
  dsimp only
  split
  · rw [Fields.lookup_set_of_ne (by decide),
      Fields.lookup_set_of_ne (by decide), Fields.lookup_set_self]
  · rw [Fields.lookup_set_of_ne (by decide), Fields.lookup_set_self]

theorem arrayFields_ncol (nrow ncol : ℤ) (jobj : Fields) :
    (arrayFields robj d nrow ncol jobj).lookup "ncol" =
      some (.integer ncol) := by
  unfold arrayFields
  dsimp only
  split
  · rw [Fields.lookup_set_of_ne (by decide), Fields.lookup_set_self]
  · rw [Fields.lookup_set_self]

theorem arrayFields_dims (h : 2 < d.length) (nrow ncol : ℤ) (jobj : Fields) :
    (arrayFields robj d nrow ncol jobj).lookup "dims" =
      some (rvectorToJsonArray robj.data) := by
  unfold arrayFields
  dsimp only
  rw [if_pos h, Fields.lookup_set_self]

/-- Adding the dimnames changes no other field. -/
theorem NamesAdded.lookup {jobj fields : Fields}
    (h : NamesAdded heap robj dimnames jobj fields) {name : String}
    (hne : name ≠ "dimnames") : fields.lookup name = jobj.lookup name := by
  match dimnames with
  | none =>
      obtain rfl : fields = jobj := h
      rfl
  | some names => rw [h.2, Fields.lookup_set_of_ne hne]

/-! ## Arrays that are encoded -/

/-- The elements of the data are the dimensions. -/
def HoldsDims (data : RData) (d : List ℤ) : Prop :=
  match data with
  | .logical values | .integer values => values = d
  | _ => False

/-- The arrays `setDimNames` encodes as it should. -/
structure DimsEncodable (robj : RObject) (d : List ℤ)
    (dimnames : Option (List SEXP)) : Prop where
  rank : 2 ≤ d.length
  dims : 2 < d.length → HoldsDims robj.data d
  length : dimnames.isSome → robj.data.length = d.length

theorem integers_injective : Function.Injective integers := by
  intro values values' h
  exact List.map_injective_iff.mpr (fun _ _ => Json.integer.inj)
    (Json.array.inj h)

theorem array_ne_integers {α : Type} {f : α → Json}
    (hf : ∀ a n, f a ≠ .integer n) (values : List α) (hd : d ≠ []) :
    .array (values.map f) ≠ integers d := by
  intro h
  have hmap : values.map f = d.map .integer := Json.array.inj h
  obtain ⟨n, rest, rfl⟩ := List.exists_cons_of_ne_nil hd
  obtain ⟨a, _, -, ha, -⟩ := List.map_eq_cons_iff.mp hmap
  exact hf a n ha

theorem rvectorToJsonArray_eq_integers (hatomic : IsAtomic robj.data)
    (hd : d ≠ []) :
    rvectorToJsonArray robj.data = integers d ↔ HoldsDims robj.data d := by
  cases hdata : robj.data with
  | logical values | integer values => exact integers_injective.eq_iff
  | real values =>
      apply iff_of_false _ id
      apply array_ne_integers _ values hd
      intro value n h
      unfold Double.toJson at h
      split at h
      · cases h
      · cases h
  | string values =>
      apply iff_of_false _ id
      apply array_ne_integers _ values hd
      intro value n
      exact nofun
  | complex texts | raw bytes => exact iff_of_false nofun id
  | _ =>
      rw [hdata] at hatomic
      exact hatomic.elim

theorem dimNameEntry_eq {s : SEXP} (h : IsDimName (heap.object s).data) :
    rvectorToJsonArray (heap.object s).data = dimNameEntry heap s := by
  unfold dimNameEntry
  cases hdata : (heap.object s).data with
  | null | string names => rfl
  | _ =>
      rw [hdata] at h
      exact h.elim

/-- Dimensions that are encoded within bounds are two or more, and the data
has the elements and the length of the dimensions where these are shown. -/
theorem dimsEncodable_of_encoded (h : IsArray heap robj d dimnames)
    {jobj fields : Fields}
    (hyields : Yields (setDimNames R heap robj jobj) fields)
    (hencoded : DimsEncoded heap d dimnames fields) :
    DimsEncodable robj d dimnames := by
  obtain ⟨nrow, ncol, hnrow, hncol, hadded⟩ :=
    (yields_setDimNames R heap h).mp hyields
  have hrank : 1 < d.length := (List.getElem?_eq_some_iff.mp hncol).1
  have hne : d ≠ [] := List.ne_nil_of_length_pos (by omega)
  constructor
  · exact hrank
  · intro hlength
    have hdims := hencoded.dims hlength
    rw [hadded.lookup heap (by decide), arrayFields_dims hlength,
      Option.some.injEq] at hdims
    exact (rvectorToJsonArray_eq_integers h.atomic hne).mp hdims
  · intro hsome
    obtain ⟨names, rfl⟩ := Option.isSome_iff_exists.mp hsome
    have hdimnames := hencoded.dimnames names rfl
    obtain ⟨hle, rfl⟩ := hadded
    rw [Fields.lookup_set_self, Option.some.injEq] at hdimnames
    have hnames := h.length names rfl
    have hlength := congrArg List.length
      (eq_of_pushed_eq_array hdimnames)
    rw [List.length_take, List.length_map, List.length_map,
      Nat.min_eq_left hle] at hlength
    exact hlength.trans hnames

/-- Such dimensions are encoded within bounds. -/
theorem encoded_of_dimsEncodable (h : IsArray heap robj d dimnames)
    (hencodable : DimsEncodable robj d dimnames) (jobj : Fields) :
    ∃ fields, Yields (setDimNames R heap robj jobj) fields ∧
      DimsEncoded heap d dimnames fields := by
  obtain ⟨hrank, hdims, hlength⟩ := hencodable
  have hne : d ≠ [] := List.ne_nil_of_length_pos (by omega)
  have hnrow : d[0]? = some d[0] := List.getElem?_eq_getElem _
  have hncol : d[1]? = some d[1] := List.getElem?_eq_getElem _
  obtain ⟨fields, hadded⟩ : ∃ fields, NamesAdded heap robj dimnames
      (arrayFields robj d d[0] d[1] jobj) fields := by
    match dimnames with
    | none => exact ⟨_, rfl⟩
    | some names =>
        have hle : robj.data.length ≤ names.length :=
          Nat.le_of_eq ((hlength rfl).trans (h.length names rfl).symm)
        exact ⟨_, hle, rfl⟩
  refine ⟨fields, (yields_setDimNames R heap h).mpr
    ⟨d[0], d[1], hnrow, hncol, hadded⟩, ?_⟩
  constructor
  · rw [hadded.lookup heap (by decide), arrayFields_nrow, hnrow,
      Option.map_some]
  · intro _
    rw [hadded.lookup heap (by decide), arrayFields_ncol, hncol,
      Option.map_some]
  · intro hlt
    rw [hadded.lookup heap (by decide), arrayFields_dims hlt,
      (rvectorToJsonArray_eq_integers h.atomic hne).mpr (hdims hlt)]
  · rintro names rfl
    have hentries : (names.map fun s =>
        rvectorToJsonArray (heap.object s).data) =
          names.map (dimNameEntry heap) :=
      List.map_congr_left fun s hs => dimNameEntry_eq heap (h.entries names rfl s hs)
    have hall : (names.map (dimNameEntry heap)).take robj.data.length =
        names.map (dimNameEntry heap) := by
      apply List.take_of_length_le
      rw [List.length_map, hlength rfl]
      exact Nat.le_of_eq (h.length names rfl)
    have hnames : names.map (dimNameEntry heap) ≠ [] := by
      apply List.ne_nil_of_length_pos
      rw [List.length_map, h.length names rfl]
      exact h.rank
    rw [hadded.2, Fields.lookup_set_self, hentries, hall, pushed_of_ne_nil hnames]

/-- The dimensions of an array are encoded within bounds exactly when there
are two or more, when the data holds them if there are more than two, and when
it has as many elements as there are dimensions if these have names. -/
theorem dims_encoded_iff (h : IsArray heap robj d dimnames) (jobj : Fields) :
    (∃ fields, Yields (setDimNames R heap robj jobj) fields ∧
      DimsEncoded heap d dimnames fields) ↔
      DimsEncodable robj d dimnames := by
  constructor
  · rintro ⟨fields, hyields, hencoded⟩
    exact dimsEncodable_of_encoded R heap h hyields hencoded
  · intro hencodable
    exact encoded_of_dimsEncodable R heap h hencodable jobj

/-! ## Matrices -/

/-- A matrix at address 1 whose dimnames are at 3. -/
def namedMatrix (values d : List ℤ) (dimnames : List SEXP) : Heap where
  objects := [.plain .null,
    { data := .integer values
      attributes := [("dim", 2), ("dimnames", 3)]
      isObject := false
      isS4 := false },
    .plain (.integer d), .plain (.list dimnames),
    .plain (.string ["a", "b"]), .plain (.string ["c", "d"])]

theorem isArray_namedMatrix {values d : List ℤ} {names : List SEXP}
    (hrank : 1 ≤ d.length) (hnonneg : ∀ n ∈ d, 0 ≤ n)
    (hvolume : d.prod = values.length) (hlength : names.length = d.length)
    (hnames : ∀ s ∈ names, s = 0 ∨ s = 4 ∨ s = 5) :
    IsArray (namedMatrix values d names)
      ((namedMatrix values d names).object 1) d (some names) where
  atomic := trivial
  dim := rfl
  rank := hrank
  nonneg := hnonneg
  volume := hvolume
  names := ⟨rfl, rfl⟩
  length := by
    intro names' h
    obtain rfl := Option.some.inj h
    exact hlength
  entries := by
    intro names' h s hs
    obtain rfl := Option.some.inj h
    obtain rfl | rfl | rfl := hnames s hs
    · trivial
    · trivial
    · trivial

/-- Two rows with names, and one column without. -/
def namedColumn : Heap :=
  namedMatrix [5, 6] [2, 1] [4, 0]

theorem dims_encoded_iff_column :
    ∃ fields, Yields (setDimNames bareEngine namedColumn
        (namedColumn.object 1) []) fields ∧
      DimsEncoded namedColumn [2, 1] (some [4, 0]) fields :=
  (dims_encoded_iff bareEngine namedColumn
    (isArray_namedMatrix (by decide) (by decide) (by decide) (by decide)
      (by decide)) []).mpr
    ⟨by decide, fun h => absurd h (by decide), fun _ => rfl⟩

/-- Two rows and two columns, both with names. -/
def namedSquare : Heap :=
  namedMatrix [1, 2, 3, 4] [2, 2] [4, 5]

/-- The third of two dimnames is read. -/
theorem dims_encoded_fails_on_square :
    IsArray namedSquare (namedSquare.object 1) [2, 2] (some [4, 5]) ∧
      ¬∃ fields, Yields (setDimNames bareEngine namedSquare
          (namedSquare.object 1) []) fields ∧
        DimsEncoded namedSquare [2, 2] (some [4, 5]) fields := by
  have hsquare : IsArray namedSquare (namedSquare.object 1) [2, 2]
      (some [4, 5]) :=
    isArray_namedMatrix (by decide) (by decide) (by decide) (by decide)
      (by decide)
  refine ⟨hsquare, ?_⟩
  rintro ⟨fields, hyields, hencoded⟩
  have hencodable := dimsEncodable_of_encoded bareEngine namedSquare hsquare
    hyields hencoded
  have hlength := hencodable.length rfl
  revert hlength
  decide

end Rc2Compute.Environment
