import Rc2Compute.Environment.Encoding

/-!
# Data frames

When `setDataFrameData` encodes a data frame cell by cell.  It reads the first
column without asking whether there is one, it takes the first string of a
column for every row, and it returns from `columnType` before the levels of a
factor are set.
-/

namespace Rc2Compute.Environment

variable (R : Engine) (heap : Heap)

/-! ## What a data frame is -/

/-- The columns the program knows, of some length. -/
def IsColumn (robj : RObject) (nrow : ℕ) : Prop :=
  robj.data.length = nrow ∧
    match robj.data with
    | .logical _ | .integer _ | .real _ | .string _ | .complex _ => True
    | _ => False

/-- The row names of a frame: texts, numbers, or none. -/
def IsRowNames : RData → Prop
  | .string _ | .integer _ | .null => True
  | _ => False

/-- A data frame with the columns at `elements`. -/
structure IsDataFrame (robj : RObject) (elements : List SEXP) (nrow : ℕ) :
    Prop where
  data : robj.data = .list elements
  names : ∃ colNames, (heap.attr robj "names").data = .string colNames ∧
    colNames.length = elements.length
  rowNames : IsRowNames (heap.attr robj "row.names").data
  columns : ∀ s ∈ elements, IsColumn (heap.object s) nrow
  levels : ∀ s ∈ elements, heap.isFactor (heap.object s) = true →
    ∃ levs, (heap.attr (heap.object s) "levels").data = .string levs

/-- The encoding of element `r` of a column. -/
def entry (data : RData) (r : ℕ) : Option Json :=
  match data with
  | .logical values | .integer values => values[r]?.map .integer
  | .real values => values[r]?.map Double.toJson
  | .string values | .complex values => values[r]?.map .string
  | _ => none

/-- The levels of a factor. -/
def levels (robj : RObject) : Option Json :=
  match stringVector R (heap.attr robj "levels").data with
  | .ok levs => some (strings levs)
  | .error _ => none

/-- The frame is encoded cell by cell. -/
structure FrameEncoded (elements : List SEXP) (nrow : ℕ) (fields : Fields) :
    Prop where
  colCount : fields.lookup "ncol" = some (.integer elements.length)
  rowCount : fields.lookup "nrow" = some (.integer nrow)
  rows : ∃ rows, fields.lookup "rows" = some (pushed rows) ∧
    rows.length = min nrow kMaxLen ∧
    ∀ r < rows.length, ∃ cells, rows[r]? = some (pushed cells) ∧
      cells.length = elements.length ∧
      ∀ (c : ℕ) (s : SEXP), elements[c]? = some s →
        cells[c]? = entry (heap.object s).data r
  levels : ∀ (c : ℕ) (s : SEXP), elements[c]? = some s →
    heap.isFactor (heap.object s) = true →
    fields.lookup ("f" ++ toString c) = levels R heap (heap.object s)

/-! ## What the functions yield -/

/-- The entry `cell` makes. -/
def cellEntry (data : RData) (r : ℕ) : Option Json :=
  match data with
  | .logical values | .integer values => values[r]?.map .integer
  | .real values => values[r]?.map Double.toJson
  | .string values => values[0]?.map .string
  | _ => some .null

theorem yields_cell {val : RObject} {row : ℕ} {j : Json} :
    Yields (cell val row) j ↔ cellEntry val.data row = some j := by
  unfold cell cellEntry
  cases val.data with
  | logical values => exact yields_element_map
  | integer values => exact yields_element_map
  | real values => exact yields_element_map
  | string values => exact yields_element_map
  | _ => exact yields_pure.trans Option.some_inj.symm

/-- The entries of a row. -/
def RowOf (colObjs : List RObject) (colCount row : ℕ) (cells : List Json) :
    Prop :=
  cells.length = colCount ∧ ∀ c < colCount, ∃ j, cells[c]? = some j ∧
    ∃ val, colObjs[c]? = some val ∧ cellEntry val.data row = some j

theorem yields_frameRows {colObjs : List RObject} {colCount rowCount : ℕ}
    {rows : List Json} :
    Yields (frameRows colObjs colCount rowCount) rows ↔
      rows.length = min kMaxLen rowCount ∧ ∀ r < min kMaxLen rowCount,
        ∃ cells, rows[r]? = some (pushed cells) ∧
          RowOf colObjs colCount r cells := by
  have hcell : ∀ row col, Independent (do
      let val ← element colObjs col
      cell val row) :=
    fun row col => (Confined.element _ _).bind fun val =>
      cell_confined val row
  have hrow : ∀ row, Independent (do
      let aRow ← Act.mapEach (List.range colCount) fun col => do
        let val ← element colObjs col
        cell val row
      pure (pushed aRow)) :=
    fun row => (Confined.mapEach (hcell row) _).bind fun _ =>
      Confined.pure _
  rw [frameRows, yields_mapEach_range hrow]
  apply and_congr_right
  intro _
  apply forall₂_congr
  intro r _
  constructor
  · rintro ⟨b, hb, hyields⟩
    rw [yields_bind (Confined.mapEach (hcell r) _) fun _ =>
      Confined.pure _] at hyields
    obtain ⟨cells, hcells, hpushed⟩ := hyields
    obtain rfl := yields_pure.mp hpushed
    obtain ⟨hlength, hall⟩ := (yields_mapEach_range (hcell r)).mp hcells
    refine ⟨cells, hb, hlength, ?_⟩
    intro c hc
    obtain ⟨j, hj, hyields⟩ := hall c hc
    rw [yields_bind (Confined.element _ _) fun val =>
      cell_confined val r] at hyields
    obtain ⟨val, hval, hentry⟩ := hyields
    exact ⟨j, hj, val, yields_element.mp hval, yields_cell.mp hentry⟩
  · rintro ⟨cells, hcells, hlength, hall⟩
    refine ⟨pushed cells, hcells, ?_⟩
    rw [yields_bind (Confined.mapEach (hcell r) _) fun _ =>
      Confined.pure _]
    refine ⟨cells, (yields_mapEach_range (hcell r)).mpr ⟨hlength, ?_⟩,
      yields_pure.mpr rfl⟩
    intro c hc
    obtain ⟨j, hj, val, hval, hentry⟩ := hall c hc
    refine ⟨j, hj, ?_⟩
    rw [yields_bind (Confined.element _ _) fun val =>
      cell_confined val r]
    exact ⟨val, yields_element.mpr hval, yields_cell.mpr hentry⟩

theorem exists_yields_columnType (robj : RObject) :
    ∃ t, Yields (columnType R heap robj) t := by
  unfold columnType
  split
  next hfactor =>
    have hclass : ∃ names, (heap.attr robj "class").data = .string names := by
      unfold Heap.isFactor Heap.inherits at hfactor
      split at hfactor
      · split at hfactor
        next names hnames => exact ⟨names, hnames⟩
        next => cases hfactor
      · cases hfactor
    obtain ⟨names, hnames⟩ := hclass
    rw [hnames]
    exact ⟨_, (yields_bind (Confined.converted _) fun _ =>
      Confined.pure _).mpr ⟨names, yields_converted.mpr rfl,
        yields_pure.mpr rfl⟩⟩
  · split
    all_goals exact ⟨_, yields_pure.mpr rfl⟩

/-- The fields of a frame, from the columns on. -/
def frameFields (jobj : Fields) (colTypes : List String) (rowCount : ℕ)
    (rows : List Json) : Fields :=
  jobj
    |> Fields.set "types" (pushed (colTypes.map .string))
    |> Fields.set "nrow" (.integer rowCount)
    |> Fields.set "rows" (pushed rows)

/-- The fields of a frame before the columns. -/
def FrameHead (robj : RObject) (elements : List SEXP) (colNames : List String)
    (jobj jobj' : Fields) : Prop :=
  Yields (rowNames R heap robj (jobj
    |> Fields.set "cols" (strings colNames)
    |> Fields.set "ncol" (.integer elements.length))) jobj'

theorem exists_frameHead {robj : RObject} {elements : List SEXP} {nrow : ℕ}
    (h : IsDataFrame heap robj elements nrow) (colNames : List String)
    (jobj : Fields) :
    ∃ jobj', FrameHead R heap robj elements colNames jobj jobj' := by
  have hnames : ∃ names, stringVector R (heap.attr robj "row.names").data =
      .ok names ∨ (heap.attr robj "row.names").data = .null := by
    have hrow := h.rowNames
    cases hdata : (heap.attr robj "row.names").data with
    | null => exact ⟨[], Or.inr rfl⟩
    | string values => exact ⟨values, Or.inl rfl⟩
    | integer values => exact ⟨_, Or.inl rfl⟩
    | _ =>
        rw [hdata] at hrow
        exact hrow.elim
  obtain ⟨names, hnames | hnull⟩ := hnames
  · unfold FrameHead rowNames
    dsimp only
    split
    · rw [hnames]
      exact ⟨_, (yields_bind (Confined.converted _) fun _ =>
        Confined.pure _).mpr ⟨names, yields_converted.mpr rfl,
          yields_pure.mpr rfl⟩⟩
    · exact ⟨_, yields_pure.mpr rfl⟩
  · unfold FrameHead rowNames
    rw [hnull]
    exact ⟨_, yields_pure.mpr rfl⟩

/-- The fields before the columns, and those that were there. -/
theorem FrameHead.lookup {robj : RObject} {elements : List SEXP}
    {colNames : List String} {jobj jobj' : Fields}
    (h : FrameHead R heap robj elements colNames jobj jobj') {name : String}
    (hcols : name ≠ "cols") (hrow : name ≠ "row.names") :
    jobj'.lookup name = if name = "ncol" then some (.integer elements.length)
      else jobj.lookup name := by
  have hstart : (jobj |> Fields.set "cols" (strings colNames)
      |> Fields.set "ncol" (.integer elements.length)).lookup name =
        if name = "ncol" then some (.integer elements.length)
        else jobj.lookup name := by
    split
    next heq => rw [heq, Fields.lookup_set_self]
    next hne =>
      rw [Fields.lookup_set_of_ne hne, Fields.lookup_set_of_ne hcols]
  unfold FrameHead rowNames at h
  dsimp only at h
  split at h
  · rw [yields_bind (Confined.converted _) fun _ => Confined.pure _] at h
    obtain ⟨names, -, hpure⟩ := h
    obtain rfl := yields_pure.mp hpure
    rw [Fields.lookup_set_of_ne hrow, hstart]
  · obtain rfl := yields_pure.mp h
    exact hstart

/-- Coercing a column keeps its length. -/
theorem length_column {s : SEXP} {nrow : ℕ}
    (h : IsColumn (heap.object s) nrow) :
    (column heap s).data.length = nrow := by
  unfold column
  split
  next texts htexts =>
    rw [← h.1, htexts]
    rfl
  next => exact h.1

/-- What `setDataFrameData` yields. -/
theorem yields_setDataFrameData {robj : RObject} {elements : List SEXP}
    {nrow : ℕ} (h : IsDataFrame heap robj elements nrow)
    {jobj fields : Fields} :
    Yields (setDataFrameData R heap robj jobj) fields ↔
      elements ≠ [] ∧ ∃ colNames jobj' colTypes rows,
        (heap.attr robj "names").data = .string colNames ∧
        FrameHead R heap robj elements colNames jobj jobj' ∧
        Yields (Act.mapEach (elements.map (column heap)) (columnType R heap))
          colTypes ∧
        Yields (frameRows (elements.map (column heap)) elements.length nrow)
          rows ∧
        fields = frameFields jobj' colTypes nrow rows := by
  obtain ⟨names, hnames, hlength⟩ := h.names
  have hcount : robj.data.length = elements.length := by rw [h.data]; rfl
  have hcolumns : ∀ colObjs, Yields (columns heap robj) colObjs ↔
      elements.map (column heap) = colObjs := by
    intro colObjs
    rw [columns, h.data]
    exact yields_pure
  constructor
  · intro hyields
    obtain ⟨colNames, hcolNames, hrest⟩ := hyields.returns.bind
    have hcolNames := yields_converted.mp
      ((Confined.converted _).yields hcolNames)
    rw [hnames] at hcolNames
    obtain rfl := Except.ok.inj hcolNames
    obtain ⟨jobj', hhead, hrest⟩ := hrest.bind
    have hhead := (rowNames_confined R heap robj _).yields hhead
    rw [hcount] at hhead
    obtain ⟨colObjs, hcolObjs, hrest⟩ := hrest.bind
    obtain rfl := (hcolumns colObjs).mp
      ((columns_confined heap robj).yields hcolObjs)
    obtain ⟨colTypes, hcolTypes, hrest⟩ := hrest.bind
    obtain ⟨first, hfirst, hrest⟩ := hrest.bind
    obtain ⟨rows, hrows, hpure⟩ := hrest.bind
    have hfirst := yields_element.mp ((Confined.element _ _).yields hfirst)
    have hrows := (frameRows_confined _ _ _).yields hrows
    obtain rfl := yields_pure.mp ((Confined.pure _).yields hpure)
    cases elements with
    | nil => cases hfirst
    | cons s rest =>
        obtain rfl : column heap s = first := Option.some.inj hfirst
        rw [hlength, length_column heap (h.columns s List.mem_cons_self)]
          at hrows
        have htypes : Independent (Act.mapEach
            ((s :: rest).map (column heap)) (columnType R heap)) :=
          Confined.mapEach (columnType_confined R heap) _
        refine ⟨List.cons_ne_nil s rest, _, jobj', colTypes, rows, hnames,
          hhead, htypes.yields hcolTypes, hrows, ?_⟩
        rw [length_column heap (h.columns s List.mem_cons_self)]
        rfl
  · rintro ⟨hne, colNames, jobj', colTypes, rows, hcolNames, hhead, htypes,
      hrows, rfl⟩
    rw [hnames] at hcolNames
    obtain rfl := RData.string.inj hcolNames
    have hconverted : Yields
        (converted (stringVector R (heap.attr robj "names").data)) names :=
      yields_converted.mpr (by rw [hnames]; rfl)
    rw [FrameHead, ← hcount] at hhead
    cases elements with
    | nil => exact absurd rfl hne
    | cons s rest =>
        have hnrow := length_column heap (h.columns s List.mem_cons_self)
        have hfirst : Yields (element ((s :: rest).map (column heap)) 0)
            (column heap s) := yields_element.mpr rfl
        rw [← hlength, ← hnrow] at hrows
        have hfields := yields_pure.mpr (Eq.refl
          (frameFields jobj' colTypes (column heap s).data.length rows))
        rw [← hnrow]
        exact hconverted.bind (hhead.bind (((hcolumns _).mpr rfl).bind
          (htypes.bind (hfirst.bind (hrows.bind hfields)))))

/-! ## Frames that are encoded -/

/-- The first `n` texts of a column are all the same. -/
def SameText (data : RData) (n : ℕ) : Prop :=
  match data with
  | .string values | .complex values => ∀ r < n, values[r]? = values[0]?
  | _ => True

/-- The frames `setDataFrameData` encodes as it should. -/
structure Encodable (elements : List SEXP) (nrow : ℕ) : Prop where
  ne_nil : elements ≠ []
  noFactor : ∀ s ∈ elements, heap.isFactor (heap.object s) = false
  sameText : ∀ s ∈ elements, SameText (heap.object s).data (min nrow kMaxLen)

variable {robj : RObject} {elements : List SEXP} {nrow : ℕ}

theorem exists_entry {s : SEXP} (h : IsColumn (heap.object s) nrow) {r : ℕ}
    (hr : r < nrow) : ∃ j, entry (heap.object s).data r = some j := by
  obtain ⟨hlength, hkind⟩ := h
  cases hdata : (heap.object s).data with
  | logical values | integer values | real values | string values
  | complex values =>
      rw [hdata] at hlength
      have hr' : r < values.length := hr.trans_eq hlength.symm
      exact ⟨_, by rw [entry, List.getElem?_eq_getElem hr']; rfl⟩
  | _ =>
      rw [hdata] at hkind
      exact hkind.elim

/-- The entries of a row are right when the texts are the same. -/
theorem cellEntry_of_sameText {s : SEXP}
    (h : IsColumn (heap.object s) nrow) {n r : ℕ}
    (hsame : SameText (heap.object s).data n) (hr : r < n) :
    cellEntry (column heap s).data r = entry (heap.object s).data r := by
  obtain ⟨-, hkind⟩ := h
  unfold column
  cases hdata : (heap.object s).data with
  | logical values | integer values | real values =>
      rw [hdata]
      rfl
  | string values =>
      rw [hdata] at hsame ⊢
      rw [cellEntry, entry, hsame r hr]
  | complex values =>
      rw [hdata] at hsame
      change values[0]?.map _ = values[r]?.map _
      rw [hsame r hr]
  | _ =>
      rw [hdata] at hkind
      exact hkind.elim

theorem sameText_of_cellEntry {s : SEXP} {n : ℕ}
    (h : ∀ r < n,
      cellEntry (column heap s).data r = entry (heap.object s).data r) :
    SameText (heap.object s).data n := by
  have htexts : ∀ (values : List String) (r : ℕ),
      values[0]?.map Json.string = values[r]?.map Json.string →
      values[r]? = values[0]? := by
    intro values r hmap
    exact (Option.map_injective (fun _ _ => Json.string.inj) hmap).symm
  unfold column at h
  cases hdata : (heap.object s).data with
  | string values =>
      intro r hr
      have hentry := h r hr
      rw [hdata] at hentry
      dsimp only at hentry
      rw [hdata] at hentry
      exact htexts values r hentry
  | complex values =>
      intro r hr
      have hentry := h r hr
      rw [hdata] at hentry
      exact htexts values r hentry
  | _ => trivial

/-- No field of a frame has the name of a factor's levels. -/
theorem frameFields_lookup_levels {colNames : List String}
    {jobj jobj' : Fields} {colTypes : List String} {rows : List Json}
    (hhead : FrameHead R heap robj elements colNames jobj jobj') (c : ℕ) :
    (frameFields jobj' colTypes nrow rows).lookup ("f" ++ toString c) =
      jobj.lookup ("f" ++ toString c) := by
  have hne : ∀ name : String, name.toList.head? ≠ some 'f' →
      "f" ++ toString c ≠ name := by
    rintro name hname rfl
    rw [String.toList_append] at hname
    exact hname rfl
  have hhead := hhead.lookup R heap (hne "cols" (by decide))
    (hne "row.names" (by decide))
  rw [if_neg (hne "ncol" (by decide))] at hhead
  rw [frameFields, Fields.lookup_set_of_ne (hne "rows" (by decide)),
    Fields.lookup_set_of_ne (hne "nrow" (by decide)),
    Fields.lookup_set_of_ne (hne "types" (by decide)), hhead]

theorem frameFields_lookup {colNames : List String}
    {jobj jobj' : Fields} {colTypes : List String} {rows : List Json}
    (hhead : FrameHead R heap robj elements colNames jobj jobj') :
    (frameFields jobj' colTypes nrow rows).lookup "ncol" =
        some (.integer elements.length) ∧
      (frameFields jobj' colTypes nrow rows).lookup "nrow" =
        some (.integer nrow) ∧
      (frameFields jobj' colTypes nrow rows).lookup "rows" =
        some (pushed rows) := by
  have hncol : jobj'.lookup "ncol" = some (.integer elements.length) := by
    rw [hhead.lookup R heap (by decide) (by decide), if_pos rfl]
  refine ⟨?_, ?_, ?_⟩
  · rw [frameFields, Fields.lookup_set_of_ne (by decide),
      Fields.lookup_set_of_ne (by decide),
      Fields.lookup_set_of_ne (by decide), hncol]
  · rw [frameFields, Fields.lookup_set_of_ne (by decide),
      Fields.lookup_set_self]
  · rw [frameFields, Fields.lookup_set_self]

/-- The entries the code makes are the right ones. -/
theorem rowOf_iff (h : IsDataFrame heap robj elements nrow) {r : ℕ}
    (hr : r < nrow) {cells : List Json}
    (hright : ∀ s ∈ elements,
      cellEntry (column heap s).data r = entry (heap.object s).data r) :
    RowOf (elements.map (column heap)) elements.length r cells ↔
      cells.length = elements.length ∧ ∀ (c : ℕ) (s : SEXP),
        elements[c]? = some s → cells[c]? = entry (heap.object s).data r := by
  have hcolumn : ∀ (c : ℕ) (s : SEXP), elements[c]? = some s →
      (elements.map (column heap))[c]? = some (column heap s) := by
    intro c s hs
    rw [List.getElem?_map, hs, Option.map_some]
  apply and_congr_right
  intro hlength
  constructor
  · intro hall c s hs
    have hc : c < elements.length := (List.getElem?_eq_some_iff.mp hs).1
    obtain ⟨j, hj, val, hval, hentry⟩ := hall c hc
    rw [hcolumn c s hs, Option.some.injEq] at hval
    rw [hj, ← hentry, ← hval, hright s (List.mem_of_getElem? hs)]
  · intro hall c hc
    have hs : elements[c]? = some elements[c] := List.getElem?_eq_getElem hc
    have hmem := List.mem_of_getElem? hs
    obtain ⟨j, hj⟩ := exists_entry heap (h.columns _ hmem) hr
    refine ⟨j, (hall c _ hs).trans hj, column heap elements[c],
      hcolumn c _ hs, ?_⟩
    rw [hright _ hmem, hj]

/-- The entries of a row. -/
def rightCells (elements : List SEXP) (r : ℕ) : List Json :=
  elements.map fun s => (entry (heap.object s).data r).getD .null

/-- The rows of a frame. -/
def rightRows (elements : List SEXP) (nrow : ℕ) : List Json :=
  (List.range (min kMaxLen nrow)).map fun r =>
    pushed (rightCells heap elements r)

theorem rightRows_spec (h : IsDataFrame heap robj elements nrow) {r : ℕ}
    (hr : r < min kMaxLen nrow) :
    ∃ cells, (rightRows heap elements nrow)[r]? = some (pushed cells) ∧
      cells.length = elements.length ∧ ∀ (c : ℕ) (s : SEXP),
        elements[c]? = some s → cells[c]? = entry (heap.object s).data r := by
  refine ⟨rightCells heap elements r, ?_, List.length_map _, ?_⟩
  · rw [rightRows, List.getElem?_map, List.getElem?_range hr, Option.map_some]
  · intro c s hs
    obtain ⟨j, hj⟩ := exists_entry heap
      (h.columns s (List.mem_of_getElem? hs))
      (Nat.lt_of_lt_of_le hr (Nat.min_le_right _ _))
    rw [rightCells, List.getElem?_map, hs, Option.map_some, hj,
      Option.getD_some]

/-- A frame that is encoded cell by cell has a column, no factor, and columns
of texts that do not change. -/
theorem encodable_of_encoded (h : IsDataFrame heap robj elements nrow)
    {jobj fields : Fields}
    (hjobj : ∀ c : ℕ, jobj.lookup ("f" ++ toString c) = none)
    (hyields : Yields (setDataFrameData R heap robj jobj) fields)
    (hencoded : FrameEncoded R heap elements nrow fields) :
    Encodable heap elements nrow := by
  obtain ⟨hne, colNames, jobj', colTypes, rows, -, hhead, -, hrows, rfl⟩ :=
    (yields_setDataFrameData R heap h).mp hyields
  constructor
  · exact hne
  · intro s hs
    apply Bool.eq_false_iff.mpr
    intro hfactor
    obtain ⟨c, hc⟩ := List.mem_iff_getElem?.mp hs
    obtain ⟨levs, hlevs⟩ := h.levels s hs hfactor
    have hlevels := hencoded.levels c s hc hfactor
    rw [frameFields_lookup_levels R heap hhead, hjobj, levels, hlevs]
      at hlevels
    cases hlevels
  · intro s hs
    obtain ⟨c, hc⟩ := List.mem_iff_getElem?.mp hs
    obtain ⟨rows', hrows', hlength, hright⟩ := hencoded.rows
    rw [(frameFields_lookup R heap hhead).2.2, Option.some.injEq] at hrows'
    obtain rfl := pushed_injective hrows'
    apply sameText_of_cellEntry
    intro r hr
    obtain ⟨cells, hcells, -, hall⟩ := hright r (hlength.symm ▸ hr)
    obtain ⟨cells', hcells', -, hall'⟩ :=
      (yields_frameRows.mp hrows).2 r (Nat.min_comm nrow kMaxLen ▸ hr)
    rw [hcells, Option.some.injEq] at hcells'
    obtain rfl := pushed_injective hcells'
    have hlt : c < elements.length := (List.getElem?_eq_some_iff.mp hc).1
    obtain ⟨j, hj, val, hval, hentry⟩ := hall' c hlt
    rw [List.getElem?_map, hc, Option.map_some, Option.some.injEq] at hval
    rw [hval, hentry, ← hj, hall c s hc]

/-- Such a frame is encoded cell by cell. -/
theorem encoded_of_encodable (h : IsDataFrame heap robj elements nrow)
    (hencodable : Encodable heap elements nrow) (jobj : Fields) :
    ∃ fields, Yields (setDataFrameData R heap robj jobj) fields ∧
      FrameEncoded R heap elements nrow fields := by
  obtain ⟨hne, hnoFactor, hsameText⟩ := hencodable
  obtain ⟨colNames, hcolNames, -⟩ := h.names
  obtain ⟨jobj', hhead⟩ := exists_frameHead R heap h colNames jobj
  obtain ⟨colTypes, hcolTypes⟩ := exists_yields_mapEach fun robj
    (_ : robj ∈ elements.map (column heap)) =>
      exists_yields_columnType R heap robj
  have hrows : Yields
      (frameRows (elements.map (column heap)) elements.length nrow)
      (rightRows heap elements nrow) := by
    apply yields_frameRows.mpr
    refine ⟨by simp [rightRows], ?_⟩
    intro r hr
    obtain ⟨cells, hcells, hright⟩ := rightRows_spec heap h hr
    refine ⟨cells, hcells, (rowOf_iff heap h
      (Nat.lt_of_lt_of_le hr (Nat.min_le_right _ _)) ?_).mpr hright⟩
    intro s hs
    exact cellEntry_of_sameText heap (h.columns s hs) (hsameText s hs)
      (Nat.min_comm kMaxLen nrow ▸ hr)
  refine ⟨_, (yields_setDataFrameData R heap h).mpr ⟨hne, colNames, jobj',
    colTypes, _, hcolNames, hhead, hcolTypes, hrows, rfl⟩, ?_⟩
  constructor
  · exact (frameFields_lookup R heap hhead).1
  · exact (frameFields_lookup R heap hhead).2.1
  · have hlength : (rightRows heap elements nrow).length =
        min kMaxLen nrow := by simp [rightRows]
    refine ⟨_, (frameFields_lookup R heap hhead).2.2,
      hlength.trans (Nat.min_comm _ _), ?_⟩
    intro r hr
    exact rightRows_spec heap h (hlength ▸ hr)
  · intro c s hs hfactor
    rw [hnoFactor s (List.mem_of_getElem? hs)] at hfactor
    cases hfactor

/-- A data frame is encoded cell by cell exactly when it has a column, no
factor, and columns of texts that do not change. -/
theorem frame_encoded_iff (h : IsDataFrame heap robj elements nrow)
    {jobj : Fields} (hjobj : ∀ c : ℕ, jobj.lookup ("f" ++ toString c) = none) :
    (∃ fields, Yields (setDataFrameData R heap robj jobj) fields ∧
      FrameEncoded R heap elements nrow fields) ↔
      Encodable heap elements nrow := by
  constructor
  · rintro ⟨fields, hyields, hencoded⟩
    exact encodable_of_encoded R heap h hjobj hyields hencoded
  · intro hencodable
    exact encoded_of_encodable R heap h hencodable jobj

/-! ## Two columns -/

/-- The fields `setObjectData` starts a frame with. -/
def frameStart : Fields :=
  [("class", .string "data.frame"), ("name", .string "df")]

theorem lookup_frameStart (c : ℕ) :
    frameStart.lookup ("f" ++ toString c) = none := by
  apply List.lookup_eq_none_iff.mpr
  intro field hfield
  have hhead : ∀ field ∈ frameStart, field.1.toList.head? ≠ some 'f' := by
    decide
  apply bne_iff_ne.mpr
  intro heq
  apply hhead field hfield
  rw [← heq, String.toList_append]
  rfl

/-- A frame at address 1 with the columns at 2 and 3, both with two rows. -/
def twoColumns (first second : RData) : Heap where
  objects := [.plain .null,
    { data := .list [2, 3]
      attributes := [("names", 4), ("class", 5), ("row.names", 6)]
      isObject := true
      isS4 := false },
    .plain first, .plain second, .plain (.string ["a", "b"]),
    .plain (.string ["data.frame"]), .plain (.integer [1, 2])]

theorem isDataFrame_twoColumns {first second : RData}
    (hfirst : IsColumn (.plain first) 2) (hsecond : IsColumn (.plain second) 2) :
    IsDataFrame (twoColumns first second) ((twoColumns first second).object 1)
      [2, 3] 2 := by
  have hnoFactor : ∀ data, (twoColumns first second).isFactor
      (.plain data) = false := by
    intro data
    cases data with
    | _ => rfl
  refine ⟨rfl, ⟨["a", "b"], rfl, rfl⟩, trivial, ?_, ?_⟩
  · intro s hs
    rcases List.mem_cons.mp hs with rfl | hs
    · exact hfirst
    · obtain rfl := List.mem_singleton.mp hs
      exact hsecond
  · intro s hs hfactor
    rcases List.mem_cons.mp hs with rfl | hs
    · cases (hnoFactor first).symm.trans hfactor
    · obtain rfl := List.mem_singleton.mp hs
      cases (hnoFactor second).symm.trans hfactor

/-- Two columns of numbers. -/
def numberFrame : Heap :=
  twoColumns (.real [.finite 58, .finite 59]) (.real [.finite 115, .finite 117])

theorem encodable_numberFrame : Encodable numberFrame [2, 3] 2 where
  ne_nil := by decide
  noFactor := by decide
  sameText := by
    intro s hs
    rcases List.mem_cons.mp hs with rfl | hs
    · trivial
    · obtain rfl := List.mem_singleton.mp hs
      trivial

theorem frame_encoded_iff_numbers :
    ∃ fields, Yields (setDataFrameData bareEngine numberFrame
        (numberFrame.object 1) frameStart) fields ∧
      FrameEncoded bareEngine numberFrame [2, 3] 2 fields :=
  (frame_encoded_iff bareEngine numberFrame
    (isDataFrame_twoColumns ⟨rfl, trivial⟩ ⟨rfl, trivial⟩)
    lookup_frameStart).mpr encodable_numberFrame

/-- A column of texts that differ. -/
def textFrame : Heap :=
  twoColumns (.integer [1, 2]) (.string ["x", "y"])

theorem frame_encoded_fails_on_texts :
    ¬∃ fields, Yields (setDataFrameData bareEngine textFrame
        (textFrame.object 1) frameStart) fields ∧
      FrameEncoded bareEngine textFrame [2, 3] 2 fields := by
  rintro ⟨fields, hyields, hencoded⟩
  have hencodable := encodable_of_encoded bareEngine textFrame
    (isDataFrame_twoColumns ⟨rfl, trivial⟩ ⟨rfl, trivial⟩)
    lookup_frameStart hyields hencoded
  have hsame := hencodable.sameText 3 (by decide) 1 (by decide)
  revert hsame
  decide

end Rc2Compute.Environment
