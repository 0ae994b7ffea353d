import Rc2Compute.Environment.EnvironmentWatcher
import Mathlib.Data.List.Forall2

/-!
# Encoding reads no state

Encoding an object reads R's memory only.  How it ends, and which commands it
has evaluated, is the same for every state of the watcher, and it leaves the
captured variables alone.
-/

namespace Rc2Compute.Environment

/-- The watcher after some commands have been evaluated. -/
def Watcher.evaluating (w : Watcher) (log : List Evaluation) : Watcher :=
  { w with evaluations := w.evaluations ++ log }

@[simp] theorem Watcher.evaluating_lastVars (w : Watcher)
    (log : List Evaluation) : (w.evaluating log).lastVars = w.lastVars := rfl

@[simp] theorem Watcher.evaluating_nil (w : Watcher) :
    w.evaluating [] = w := by
  simp [Watcher.evaluating]

@[simp] theorem Watcher.evaluating_append (w : Watcher)
    (log rest : List Evaluation) :
    (w.evaluating log).evaluating rest = w.evaluating (log ++ rest) := by
  simp [Watcher.evaluating]

/-- `x` ends in `o` from every state, after evaluating `log`. -/
def Computes {α : Type} (x : Encoder α) (o : Outcome Halt α)
    (log : List Evaluation) : Prop :=
  ∀ w, x w = (o, w.evaluating log)

/-- `x` reads no state.  It evaluates only commands in `L`, and it runs out of
fuel only if it is `deep`. -/
def Confined {α : Type} (L : Evaluation → Prop) (deep : Prop)
    (x : Encoder α) : Prop :=
  ∃ o log, Computes x o log ∧ (∀ e ∈ log, L e) ∧
    (o = .threw .outOfFuel → deep)

/-- `x` reads no state. -/
abbrev Independent {α : Type} (x : Encoder α) : Prop :=
  Confined (fun _ => True) True x

namespace Computes

variable {α β : Type} {x : Encoder α} {o : Outcome Halt α}
  {log : List Evaluation}

theorem pure (a : α) : Computes (Pure.pure a) (.returned a) [] := by
  intro w
  rw [Act.pure_apply, Watcher.evaluating_nil]

theorem throw (h : Halt) :
    Computes (Act.throw h : Encoder α) (.threw h) [] := by
  intro w
  rw [Act.throw_apply, Watcher.evaluating_nil]

theorem undefined : Computes (Act.undefined : Encoder α) .undefined [] := by
  intro w
  rw [Act.undefined_apply, Watcher.evaluating_nil]

theorem bind_returned {a : α} {f : α → Encoder β} {o : Outcome Halt β}
    {rest : List Evaluation} (hx : Computes x (.returned a) log)
    (hf : Computes (f a) o rest) : Computes (x >>= f) o (log ++ rest) := by
  intro w
  rw [Act.bind_apply_returned (hx w), hf, Watcher.evaluating_append]

theorem bind_threw {h : Halt} (f : α → Encoder β)
    (hx : Computes x (.threw h) log) :
    Computes (x >>= f) (.threw h) log := by
  intro w
  rw [Act.bind_apply_threw (hx w)]

theorem bind_undefined (f : α → Encoder β)
    (hx : Computes x .undefined log) :
    Computes (x >>= f) .undefined log := by
  intro w
  rw [Act.bind_apply_undefined (hx w)]

end Computes

namespace Confined

variable {α β : Type} {L : Evaluation → Prop} {deep : Prop}

theorem pure (a : α) : Confined L deep (Pure.pure a : Encoder α) :=
  ⟨_, _, Computes.pure a, nofun, nofun⟩

theorem exception (error : CxxException) :
    Confined L deep (Act.throw (.exception error) : Encoder α) :=
  ⟨_, _, Computes.throw _, nofun, nofun⟩

theorem outOfFuel (h : deep) :
    Confined L deep (Act.throw .outOfFuel : Encoder α) :=
  ⟨_, _, Computes.throw _, nofun, fun _ => h⟩

theorem undefined : Confined L deep (Act.undefined : Encoder α) :=
  ⟨_, _, Computes.undefined, nofun, nofun⟩

theorem bind {x : Encoder α} {f : α → Encoder β} (hx : Confined L deep x)
    (hf : ∀ a, Confined L deep (f a)) : Confined L deep (x >>= f) := by
  obtain ⟨o, log, ho, hlog, hdeep⟩ := hx
  cases o with
  | returned a =>
      obtain ⟨o', rest, ho', hrest, hdeep'⟩ := hf a
      refine ⟨o', log ++ rest, ho.bind_returned ho', ?_, hdeep'⟩
      intro e he
      exact (List.mem_append.mp he).elim (hlog e) (hrest e)
  | threw h =>
      refine ⟨_, _, ho.bind_threw f, hlog, ?_⟩
      rintro ⟨⟩
      exact hdeep rfl
  | undefined => exact ⟨_, _, ho.bind_undefined f, hlog, nofun⟩

theorem ite {c : Prop} [Decidable c] {x y : Encoder α}
    (hx : Confined L deep x) (hy : Confined L deep y) :
    Confined L deep (if c then x else y) := by
  split
  · exact hx
  · exact hy

theorem mapEach {f : α → Encoder β} (hf : ∀ a, Confined L deep (f a))
    (as : List α) : Confined L deep (Act.mapEach as f) := by
  induction as with
  | nil => exact pure []
  | cons a as ih => exact (hf a).bind fun _ => ih.bind fun _ => pure _

theorem converted (x : Except CxxException α) :
    Confined L deep (Environment.converted x) := by
  cases x with
  | ok a => exact pure a
  | error e => exact exception e

theorem element (values : List α) (i : ℕ) :
    Confined L deep (Environment.element values i) := by
  unfold Environment.element
  split
  · exact pure _
  · exact undefined

end Confined

/-! ## What an encoding yields -/

/-- `x` returns `a` from every state. -/
def Yields {α : Type} (x : Encoder α) (a : α) : Prop :=
  ∃ log, Computes x (.returned a) log

section Yields

variable {α β : Type} {x : Encoder α} {f : α → Encoder β}

theorem Confined.yields_of_apply (hx : Independent x) {a : α}
    {w w' : Watcher} (h : x w = (.returned a, w')) : Yields x a := by
  obtain ⟨o, log, ho, -⟩ := hx
  obtain rfl : o = .returned a := (Prod.mk.inj ((ho w).symm.trans h)).1
  exact ⟨log, ho⟩

theorem Yields.apply {a : α} (h : Yields x a) (w : Watcher) :
    (x w).1 = .returned a := by
  obtain ⟨log, hlog⟩ := h
  rw [hlog w]

theorem Yields.unique {a b : α} (h : Yields x a) (h' : Yields x b) :
    a = b := by
  have hreturned := (h.apply ⟨[], []⟩).symm.trans (h'.apply ⟨[], []⟩)
  exact Outcome.returned.inj hreturned

theorem yields_pure {a b : α} : Yields (pure a) b ↔ a = b := by
  constructor
  · intro h
    exact Yields.unique ⟨[], Computes.pure a⟩ h
  · rintro rfl
    exact ⟨[], Computes.pure a⟩

theorem not_yields_throw {h : Halt} {a : α} :
    ¬Yields (Act.throw h : Encoder α) a := by
  intro hyields
  cases hyields.apply ⟨[], []⟩

theorem not_yields_undefined {a : α} :
    ¬Yields (Act.undefined : Encoder α) a := by
  intro hyields
  cases hyields.apply ⟨[], []⟩

theorem Yields.bind {a : α} {b : β} (hx : Yields x a)
    (hf : Yields (f a) b) : Yields (x >>= f) b := by
  obtain ⟨log, hlog⟩ := hx
  obtain ⟨rest, hrest⟩ := hf
  exact ⟨log ++ rest, hlog.bind_returned hrest⟩

/-- `x` returns `a` from some state. -/
def Returns {α : Type} (x : Encoder α) (a : α) : Prop :=
  ∃ w w', x w = (.returned a, w')

theorem Yields.returns {a : α} (h : Yields x a) : Returns x a :=
  ⟨⟨[], []⟩, _, Prod.ext (h.apply _) rfl⟩

theorem Confined.yields (hx : Independent x) {a : α} (h : Returns x a) :
    Yields x a := by
  obtain ⟨w, w', h⟩ := h
  exact hx.yields_of_apply h

theorem Returns.bind {b : β} (h : Returns (x >>= f) b) :
    ∃ a, Returns x a ∧ Returns (f a) b := by
  obtain ⟨w, w', h⟩ := h
  rw [Act.bind_apply] at h
  match hx : x w with
  | (.returned a, w₁) =>
      rw [hx] at h
      exact ⟨a, ⟨w, w₁, hx⟩, w₁, w', h⟩
  | (.threw _, _) =>
      rw [hx] at h
      cases h
  | (.undefined, _) =>
      rw [hx] at h
      cases h

theorem yields_bind (hx : Independent x) (hf : ∀ a, Independent (f a))
    {b : β} : Yields (x >>= f) b ↔ ∃ a, Yields x a ∧ Yields (f a) b := by
  constructor
  · intro h
    obtain ⟨a, ha, hb⟩ := h.returns.bind
    exact ⟨a, hx.yields ha, (hf a).yields hb⟩
  · rintro ⟨a, ha, hb⟩
    exact ha.bind hb

theorem yields_converted {x : Except CxxException α} {a : α} :
    Yields (converted x) a ↔ x = .ok a := by
  cases x with
  | ok b => rw [converted, yields_pure, Except.ok.injEq]
  | error e =>
      apply iff_of_false not_yields_throw
      intro h
      cases h

theorem yields_element {values : List α} {i : ℕ} {a : α} :
    Yields (element values i) a ↔ values[i]? = some a := by
  unfold element
  split
  next value h => rw [h, yields_pure, Option.some.injEq]
  next h =>
    apply iff_of_false not_yields_undefined
    rw [h]
    exact nofun

theorem yields_element_map {values : List α} {i : ℕ}
    {f : α → β} {b : β} :
    Yields (do
      let value ← element values i
      pure (f value)) b ↔ values[i]?.map f = some b := by
  rw [yields_bind (Confined.element _ _) fun _ => Confined.pure _,
    Option.map_eq_some_iff]
  simp only [yields_element, yields_pure]

theorem yields_mapEach {f : α → Encoder β} (hf : ∀ a, Independent (f a))
    {as : List α} {bs : List β} : Yields (Act.mapEach as f) bs ↔
      List.Forall₂ (fun a b => Yields (f a) b) as bs := by
  induction as generalizing bs with
  | nil => rw [Act.mapEach, yields_pure, List.forall₂_nil_left_iff, eq_comm]
  | cons a as ih =>
      have hrest : ∀ b, Independent (Act.mapEach as f >>= fun bs =>
          pure (b :: bs) : Encoder (List β)) :=
        fun b => (Confined.mapEach hf as).bind fun _ => Confined.pure _
      rw [Act.mapEach_cons, yields_bind (hf a) hrest,
        List.forall₂_cons_left_iff]
      apply exists_congr
      intro b
      rw [yields_bind (Confined.mapEach hf as) fun _ => Confined.pure _]
      simp only [ih, yields_pure, eq_comm]
      constructor
      · rintro ⟨hb, bs', hbs', heq⟩
        exact ⟨bs', hb, hbs', heq⟩
      · rintro ⟨bs', hb, hbs', heq⟩
        exact ⟨hb, bs', hbs', heq⟩

theorem exists_yields_mapEach {f : α → Encoder β} {as : List α}
    (h : ∀ a ∈ as, ∃ b, Yields (f a) b) : ∃ bs, Yields (Act.mapEach as f) bs := by
  induction as with
  | nil => exact ⟨[], yields_pure.mpr rfl⟩
  | cons a as ih =>
      obtain ⟨ha, has⟩ := List.forall_mem_cons.mp h
      obtain ⟨b, hb⟩ := ha
      obtain ⟨bs, hbs⟩ := ih has
      exact ⟨b :: bs, hb.bind (hbs.bind (yields_pure.mpr rfl))⟩

/-- A loop over indices. -/
theorem yields_mapEach_range {f : ℕ → Encoder β}
    (hf : ∀ i, Independent (f i)) {n : ℕ} {bs : List β} :
    Yields (Act.mapEach (List.range n) f) bs ↔
      bs.length = n ∧ ∀ i < n, ∃ b, bs[i]? = some b ∧ Yields (f i) b := by
  rw [yields_mapEach hf, List.forall₂_iff_get]
  have hrange : (List.range n).length = n := List.length_range
  constructor
  · rintro ⟨hlength, hall⟩
    refine ⟨hlength.symm.trans hrange, ?_⟩
    intro i hi
    have hi' : i < bs.length := by omega
    have hb := hall i (by omega) hi'
    rw [List.get_eq_getElem, List.getElem_range] at hb
    exact ⟨bs.get ⟨i, hi'⟩, List.getElem?_eq_getElem hi', hb⟩
  · rintro ⟨hlength, hall⟩
    refine ⟨hrange.trans hlength.symm, ?_⟩
    intro i hi hi'
    obtain ⟨b, hb, hyields⟩ := hall i (by omega)
    rw [List.get_eq_getElem, List.getElem_range]
    rw [List.getElem?_eq_getElem hi', Option.some.injEq] at hb
    rw [List.get_eq_getElem, hb]
    exact hyields

theorem pushed_injective : Function.Injective pushed := by
  intro elems elems' h
  match elems, elems' with
  | [], [] => rfl
  | _ :: _, _ :: _ => exact Json.array.inj h

end Yields

section Functions

variable (R : Engine) (heap : Heap) {L : Evaluation → Prop} {deep : Prop}

theorem vectorElt_confined (robj : RObject) (i : ℕ) :
    Confined L deep (vectorElt robj i) := by
  unfold vectorElt
  split
  · exact Confined.element _ i
  · exact Confined.undefined

theorem columnType_confined (robj : RObject) :
    Confined L deep (columnType R heap robj) := by
  apply Confined.ite
  · exact (Confined.converted _).bind fun _ => Confined.pure _
  · split
    all_goals exact Confined.pure _

theorem columns_confined (robj : RObject) :
    Confined L deep (columns heap robj) := by
  unfold columns
  split
  · exact Confined.pure _
  · exact Confined.ite (Confined.pure _) Confined.undefined

theorem cell_confined (val : RObject) (row : ℕ) :
    Confined L deep (cell val row) := by
  unfold cell
  split
  · exact (Confined.element _ _).bind fun _ => Confined.pure _
  · exact (Confined.element _ _).bind fun _ => Confined.pure _
  · exact (Confined.element _ _).bind fun _ => Confined.pure _
  · exact (Confined.element _ _).bind fun _ => Confined.pure _
  · exact Confined.pure _

theorem frameRows_confined (colObjs : List RObject)
    (colCount rowCount : ℕ) :
    Confined L deep (frameRows colObjs colCount rowCount) := by
  apply Confined.mapEach
  intro row
  apply Confined.bind
  · apply Confined.mapEach
    intro col
    exact (Confined.element _ _).bind fun val => cell_confined val row
  · intro aRow
    exact Confined.pure _

theorem rowNames_confined (robj : RObject) (jobj : Fields) :
    Confined L deep (rowNames R heap robj jobj) :=
  Confined.ite
    ((Confined.converted _).bind fun _ => Confined.pure _)
    (Confined.pure _)

theorem setDataFrameData_confined (robj : RObject) (jobj : Fields) :
    Confined L deep (setDataFrameData R heap robj jobj) := by
  apply (Confined.converted _).bind
  intro colNames
  apply (rowNames_confined R heap robj _).bind
  intro jobj
  apply (columns_confined heap robj).bind
  intro colObjs
  apply (Confined.mapEach (columnType_confined R heap) colObjs).bind
  intro colTypes
  apply (Confined.element _ _).bind
  intro first
  apply (frameRows_confined _ _ _).bind
  intro rows
  exact Confined.pure _

theorem dimName_confined (mlist : RObject) (i : ℕ) :
    Confined L deep (dimName heap mlist i) :=
  (vectorElt_confined mlist i).bind fun _ => Confined.pure _

theorem setDimNames_confined (robj : RObject) (jobj : Fields) :
    Confined L deep (setDimNames R heap robj jobj) := by
  apply (Confined.converted _).bind
  intro dims
  apply (Confined.element _ _).bind
  intro nrow
  apply (Confined.element _ _).bind
  intro ncol
  apply Confined.ite
  · apply Confined.bind
    · exact Confined.mapEach (dimName_confined heap _) _
    · intro dnames
      exact Confined.pure _
  · exact Confined.pure _

theorem setPrimitiveData_confined (robj : RObject) (jobj : Fields) :
    Confined L deep (setPrimitiveData R heap robj jobj) := by
  apply Confined.ite
  · exact (setDimNames_confined R heap robj _).bind fun _ =>
      Confined.pure _
  · exact Confined.pure _

theorem setFunctionData_confined (robj : SEXP) (jobj : Fields) :
    Confined L deep (setFunctionData R robj jobj) := by
  unfold setFunctionData
  dsimp only
  split
  · exact Confined.pure _
  · exact Confined.ite (Confined.pure _) (Confined.exception _)

theorem setFactorData_confined (robj : RObject) (jobj : Fields) :
    Confined L deep (setFactorData R heap robj jobj) :=
  (Confined.converted _).bind fun _ => (Confined.converted _).bind
    fun _ => Confined.pure _

theorem setDate_confined (robj : RObject) (jobj : Fields) :
    Confined L deep (setDate R robj jobj) :=
  (Confined.converted _).bind fun _ => Confined.pure _

theorem setPOSIXct_confined (robj : RObject) (jobj : Fields) :
    Confined L deep (setPOSIXct robj jobj) := by
  unfold setPOSIXct
  split
  · exact (Confined.element _ _).bind fun _ => Confined.pure _
  · exact Confined.undefined

theorem setPOSIXlt_confined (robj : RObject) (jobj : Fields) :
    Confined L deep (setPOSIXlt robj jobj) :=
  (Confined.converted _).bind fun _ => Confined.pure _

theorem addSummary_independent (varName : String) (robj : SEXP)
    (jobj : Fields) : Independent (addSummary R varName robj jobj) := by
  apply Confined.bind
  · exact ⟨.returned (), [⟨robj, summaryCommand varName⟩], fun _ => rfl,
      fun _ _ => trivial, nofun⟩
  intro _
  split
  · exact Confined.undefined
  split
  · exact Confined.pure _
  · exact Confined.pure _

variable {rec : ValueCall → Fields → Encoder Fields}

theorem setGenericObjectData_independent
    (hrec : ∀ c jobj, Independent (rec c jobj)) (robj : RObject)
    (jobj : Fields) : Independent (setGenericObjectData rec robj jobj) := by
  apply Confined.bind
  · apply Confined.mapEach
    intro aName
    exact (hrec _ _).bind fun _ => Confined.pure _
  · intro valueArray
    exact Confined.pure _

theorem setEnvironmentData_independent
    (hrec : ∀ c jobj, Independent (rec c jobj)) (robj : SEXP)
    (jobj : Fields) :
    Independent (setEnvironmentData heap rec robj jobj) := by
  apply Confined.bind
  · apply Confined.mapEach
    intro varName
    exact (hrec _ _).bind fun _ => Confined.pure _
  · intro childArray
    exact Confined.pure _

theorem setListData_independent
    (hrec : ∀ c jobj, Independent (rec c jobj)) (robj : RObject)
    (elements : List SEXP) (jobj : Fields) (includeListChildren : Bool) :
    Independent (setListData heap rec robj elements jobj
      includeListChildren) := by
  apply Confined.ite
  · apply Confined.bind
    · apply Confined.mapEach
      intro child
      exact (hrec _ _).bind fun _ => Confined.pure _
    · intro children
      exact Confined.pure _
  · exact Confined.pure _

theorem setObjectData_independent
    (hrec : ∀ c jobj, Independent (rec c jobj)) (robj : RObject)
    (jobj : Fields) : Independent (setObjectData R heap rec robj jobj) := by
  apply (Confined.converted _).bind
  intro klazzNames
  apply Confined.bind
  · exact Confined.ite (Confined.pure _) (Confined.element _ _)
  intro klazz
  apply Confined.ite (setFactorData_confined R heap robj _)
  apply Confined.ite (setDate_confined R robj _)
  apply Confined.ite (setPOSIXct_confined robj _)
  apply Confined.ite (setPOSIXlt_confined robj _)
  apply Confined.ite (setDataFrameData_confined R heap robj _)
  exact setGenericObjectData_independent hrec robj _

theorem valueBody_independent (hrec : ∀ c jobj, Independent (rec c jobj))
    (c : ValueCall) (jobj : Fields) :
    Independent (valueBody R heap rec c jobj) := by
  apply Confined.ite
  · exact (setObjectData_independent R heap hrec _ _).bind fun _ =>
      addSummary_independent R _ _ _
  · split
    · exact (setListData_independent heap hrec _ _ _ _).bind fun _ =>
        addSummary_independent R _ _ _
    · exact setEnvironmentData_independent heap hrec _ _
    · exact setFunctionData_confined R _ _
    · exact setFunctionData_confined R _ _
    · exact setFunctionData_confined R _ _
    · exact setPrimitiveData_confined R heap _ _

theorem valueToJson_independent (fuel : ℕ) (c : ValueCall) (jobj : Fields) :
    Independent (valueToJson R heap fuel c jobj) := by
  induction fuel generalizing c jobj with
  | zero => exact Confined.outOfFuel trivial
  | succ fuel ih => exact valueBody_independent R heap ih c jobj

end Functions

end Rc2Compute.Environment
