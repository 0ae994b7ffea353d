import Rc2Compute.Environment.Encoding
import Mathlib.Data.Prod.Lex
import Mathlib.Data.String.Basic

/-!
# The delta of two environments

What `jsonDelta` reports after `captureEnvironment`: the names that are gone
and the variables that are new or bound to another object.  Both are set
differences of lists sorted by name, one by a comparison of names and one by a
comparison of names and addresses.
-/

namespace Rc2Compute.Environment

/-! ## What an environment binds -/

section Bindings

variable (heap : Heap) (env : SEXP)

/-- The object a listed name is bound to. -/
def Heap.bound (name : String) : Option SEXP :=
  if name ∈ heap.ls env then some (heap.get env name) else none

/-- The names of an environment are distinct. -/
def Heap.Distinct : Prop :=
  ((heap.bindings env).map Prod.fst).Nodup

variable {heap env}

theorem mem_listedVariables {name : String} {s : SEXP} :
    (name, s) ∈ listedVariables heap env ↔ heap.bound env name = some s := by
  rw [listedVariables, List.mem_map, Heap.bound]
  constructor
  · rintro ⟨aName, hmem, hpair⟩
    obtain ⟨rfl, rfl⟩ := Prod.mk.inj hpair
    exact if_pos hmem
  · intro hbound
    split at hbound
    next hmem => exact ⟨name, hmem, Prod.ext rfl (Option.some.inj hbound)⟩
    next => cases hbound

theorem map_fst_listedVariables :
    (listedVariables heap env).map Prod.fst = heap.ls env := by
  rw [listedVariables, List.map_map]
  exact List.map_id _

theorem nodup_listedVariables (h : heap.Distinct env) :
    ((listedVariables heap env).map Prod.fst).Nodup := by
  rw [map_fst_listedVariables]
  exact h.filter _

end Bindings

/-! ## The comparisons -/

theorem compareVariablesByName_comparesBy :
    ComparesBy compareVariablesByName Prod.fst := by
  intro v1 v2
  exact decide_eq_true_iff

theorem lessThan_comparesBy :
    ComparesBy lessThan (toLex : Variable → Lex Variable) := by
  intro v1 v2
  rw [Prod.Lex.toLex_lt_toLex]
  simp only [lessThan, Bool.or_eq_true, Bool.and_eq_true, Bool.not_eq_true',
    decide_eq_true_iff, decide_eq_false_iff_not]
  constructor
  · rintro (hlt | ⟨hle, haddress⟩)
    · exact Or.inl hlt
    · rcases lt_or_eq_of_le (not_lt.mp hle) with hlt | heq
      · exact Or.inl hlt
      · exact Or.inr ⟨heq, haddress⟩
  · rintro (hlt | ⟨heq, haddress⟩)
    · exact Or.inl hlt
    · exact Or.inr ⟨heq ▸ lt_irrefl v1.1, haddress⟩

/-- What is sorted by name is sorted by name and address. -/
theorem sortedBy_toLex {vars : List Variable} (h : SortedBy Prod.fst vars) :
    SortedBy (toLex : Variable → Lex Variable) vars := by
  apply h.imp
  intro v1 v2 hlt
  exact Prod.Lex.toLex_lt_toLex.mpr (Or.inl hlt)

/-! ## Exact deltas -/

/-- What a delta from `E₀` to `E₁` should report. -/
structure ExactDelta (E₀ E₁ : String → Option SEXP) (removed : List String)
    (assigned : List Variable) : Prop where
  removed_nodup : removed.Nodup
  mem_removed : ∀ name, name ∈ removed ↔ (E₀ name).isSome ∧ E₁ name = none
  assigned_nodup : (assigned.map Prod.fst).Nodup
  mem_assigned : ∀ name s,
    (name, s) ∈ assigned ↔ E₁ name = some s ∧ E₀ name ≠ some s

/-- Variables less the removed ones, overwritten with the assigned ones. -/
def applyDelta (removed : List String) (assigned : List Variable)
    (E : String → Option SEXP) (name : String) : Option SEXP :=
  (assigned.lookup name).or (if name ∈ removed then none else E name)

section Lookup

variable {β : Type} {fields : List (String × β)} {name : String} {value : β}

/-- A list without two entries of one name. -/
theorem lookup_eq_some_iff_mem (h : (fields.map Prod.fst).Nodup) :
    fields.lookup name = some value ↔ (name, value) ∈ fields := by
  constructor
  · intro hlookup
    obtain ⟨before, after, rfl, -⟩ := List.lookup_eq_some_iff.mp hlookup
    simp
  · intro hmem
    obtain ⟨before, after, rfl⟩ := List.append_of_mem hmem
    apply List.lookup_eq_some_iff.mpr
    refine ⟨before, after, rfl, ?_⟩
    intro field hfield
    rw [List.map_append, List.nodup_append] at h
    have hne := h.2.2 field.1 (List.mem_map_of_mem hfield) name (by simp)
    exact bne_iff_ne.mpr hne.symm

theorem lookup_eq_none (h : ∀ value, (name, value) ∉ fields) :
    fields.lookup name = none := by
  apply List.lookup_eq_none_iff.mpr
  rintro ⟨key, value⟩ hmem
  apply bne_iff_ne.mpr
  rintro rfl
  exact h value hmem

end Lookup

namespace ExactDelta

variable {E₀ E₁ : String → Option SEXP} {removed : List String}
  {assigned : List Variable}

/-- Applying the delta gives the new environment. -/
theorem applied (h : ExactDelta E₀ E₁ removed assigned) :
    applyDelta removed assigned E₀ = E₁ := by
  funext name
  by_cases hsame : E₀ name = E₁ name
  · have hnone : assigned.lookup name = none := by
      apply lookup_eq_none
      intro s hmem
      obtain ⟨hnew, hold⟩ := (h.mem_assigned name s).mp hmem
      exact hold (hsame.trans hnew)
    have hkept : (if name ∈ removed then none else E₀ name) = E₀ name := by
      split
      next hmem => exact (hsame.trans ((h.mem_removed name).mp hmem).2).symm
      next => rfl
    rw [applyDelta, hnone, Option.none_or, hkept, hsame]
  · cases hnew : E₁ name with
    | none =>
        have hnone : assigned.lookup name = none := by
          apply lookup_eq_none
          intro s hmem
          have hsome := ((h.mem_assigned name s).mp hmem).1
          rw [hnew] at hsome
          cases hsome
        have hold : (E₀ name).isSome := by
          rw [hnew] at hsame
          exact Option.isSome_iff_ne_none.mpr hsame
        rw [applyDelta, hnone, Option.none_or,
          if_pos ((h.mem_removed name).mpr ⟨hold, hnew⟩)]
    | some s =>
        have hmem : (name, s) ∈ assigned := by
          apply (h.mem_assigned name s).mpr
          exact ⟨hnew, hnew ▸ hsame⟩
        rw [applyDelta, (lookup_eq_some_iff_mem h.assigned_nodup).mpr hmem,
          Option.some_or]

/-- A delta is empty when nothing has changed. -/
theorem empty_iff (h : ExactDelta E₀ E₁ removed assigned) :
    removed = [] ∧ assigned = [] ↔ E₀ = E₁ := by
  constructor
  · rintro ⟨rfl, rfl⟩
    rw [← h.applied]
    funext name
    rw [applyDelta, List.lookup_nil, Option.none_or, if_neg List.not_mem_nil]
  · rintro rfl
    constructor
    · apply List.eq_nil_iff_forall_not_mem.mpr
      intro name hmem
      obtain ⟨hsome, hnone⟩ := (h.mem_removed name).mp hmem
      rw [hnone] at hsome
      cases hsome
    · apply List.eq_nil_iff_forall_not_mem.mpr
      rintro ⟨name, s⟩ hmem
      obtain ⟨hnew, hold⟩ := (h.mem_assigned name s).mp hmem
      exact hold hnew

end ExactDelta

/-- The differences of two sorted lists of variables. -/
theorem exactDelta_of_sorted {old new : List Variable}
    (hold : SortedBy Prod.fst old) (hnew : SortedBy Prod.fst new)
    {E₀ E₁ : String → Option SEXP}
    (hE₀ : ∀ name s, (name, s) ∈ old ↔ E₀ name = some s)
    (hE₁ : ∀ name s, (name, s) ∈ new ↔ E₁ name = some s) :
    ExactDelta E₀ E₁ (removedNames old new)
      (setDifference lessThan new old) := by
  have hdistinct : ∀ {vars : List Variable}, SortedBy Prod.fst vars →
      (vars.map Prod.fst).Nodup := by
    intro vars hvars
    exact List.pairwise_map.mpr (hvars.imp fun hlt => ne_of_lt hlt)
  have hremoved : ∀ v, v ∈ setDifference compareVariablesByName old new ↔
      v ∈ old ∧ ∀ y ∈ new, y.1 ≠ v.1 :=
    fun v => mem_setDifference compareVariablesByName_comparesBy hold hnew
  have hadded : ∀ v, v ∈ setDifference lessThan new old ↔
      v ∈ new ∧ ∀ y ∈ old, toLex y ≠ toLex v :=
    fun v => mem_setDifference lessThan_comparesBy (sortedBy_toLex hnew)
      (sortedBy_toLex hold)
  constructor
  · exact hdistinct (sortedBy_setDifference hold new)
  · intro name
    rw [removedNames, List.mem_map]
    constructor
    · rintro ⟨⟨key, s⟩, hmem, rfl⟩
      obtain ⟨hs, hnone⟩ := (hremoved _).mp hmem
      refine ⟨by rw [(hE₀ _ _).mp hs]; rfl, ?_⟩
      apply Option.eq_none_iff_forall_not_mem.mpr
      intro s' hs'
      exact hnone (key, s') ((hE₁ _ _).mpr hs') rfl
    · rintro ⟨hsome, hnone⟩
      obtain ⟨s, hs⟩ := Option.isSome_iff_exists.mp hsome
      refine ⟨(name, s), (hremoved _).mpr ⟨(hE₀ _ _).mpr hs, ?_⟩, rfl⟩
      rintro ⟨key, s'⟩ hs' rfl
      have hbound := (hE₁ _ _).mp hs'
      rw [hnone] at hbound
      cases hbound
  · exact hdistinct (hnew.sublist (setDifference_sublist _ _ _))
  · intro name s
    rw [hadded, hE₁]
    apply and_congr_right
    intro _
    constructor
    · intro hne hs
      exact hne (name, s) ((hE₀ _ _).mpr hs) rfl
    · rintro hne ⟨key, s'⟩ hs' heq
      obtain ⟨rfl, rfl⟩ := Prod.mk.inj (toLex_inj.mp heq)
      exact hne ((hE₀ _ _).mp hs')

/-! ## The report -/

section Report

variable (R : Engine) (heap : Heap) (fuel : ℕ) (env : SEXP)

/-- `json` reports a delta, with the assigned variables as they are encoded
now. -/
structure Reports (removed : List String) (assigned : List Variable)
    (json : Json) : Prop where
  removed : json.find? "removed" = some (strings removed)
  assigned : ∃ values, json.find? "assigned" = some values ∧
    ∀ name value, values.find? name = some value ↔
      ∃ s fields, (name, s) ∈ assigned ∧
        Yields (valueToJson R heap fuel ⟨name, s, false⟩ []) fields ∧
        value = .object fields

theorem lookup_foldl_set {fields : Fields}
    (h : (fields.map Prod.fst).Nodup) (jobj : Fields) (name : String) :
    (fields.foldl (fun jobj field => jobj |> Fields.set field.1 field.2)
      jobj).lookup name = (fields.lookup name).or (jobj.lookup name) := by
  induction fields generalizing jobj with
  | nil => rw [List.foldl_nil, List.lookup_nil, Option.none_or]
  | cons field rest ih =>
      obtain ⟨key, value⟩ := field
      obtain ⟨hkey, hrest⟩ := List.nodup_cons.mp h
      rw [List.foldl_cons, ih hrest, List.lookup_cons]
      by_cases heq : name = key
      · subst heq
        have hnone : rest.lookup name = none := by
          apply lookup_eq_none
          intro other hmem
          exact hkey (List.mem_map.mpr ⟨_, hmem, rfl⟩)
        simp [hnone]
      · rw [Fields.lookup_set_of_ne heq, beq_false_of_ne heq]

theorem find?_assembled {fields : Fields}
    (h : (fields.map Prod.fst).Nodup) (name : String) :
    (assembled fields).find? name = fields.lookup name := by
  cases fields with
  | nil => rfl
  | cons field rest =>
      change (List.foldl _ [] (field :: rest)).lookup name = _
      rw [lookup_foldl_set h, List.lookup_nil, Option.or_none]

theorem encodeAssigned_independent (aVar : Variable) :
    Independent (encodeAssigned R heap fuel aVar) :=
  (valueToJson_independent R heap fuel _ _).bind fun _ => Confined.pure _

theorem craftDelta_independent (removed : List String)
    (assigned : List Variable) :
    Independent (craftDelta R heap fuel removed assigned) :=
  (Confined.mapEach (encodeAssigned_independent R heap fuel) assigned).bind
    fun _ => Confined.pure _

theorem yields_craftDelta {removed : List String} {assigned : List Variable}
    {json : Json} : Yields (craftDelta R heap fuel removed assigned) json ↔
      ∃ values, List.Forall₂
          (fun aVar value => Yields (encodeAssigned R heap fuel aVar) value)
          assigned values ∧
        json = .object [("assigned", assembled values),
          ("removed", strings removed)] := by
  have hindependent := encodeAssigned_independent R heap fuel
  rw [craftDelta, yields_bind (Confined.mapEach hindependent assigned)
    fun _ => Confined.pure _]
  apply exists_congr
  intro values
  rw [yields_pure, eq_comm]
  exact and_congr_left' (yields_mapEach hindependent)

theorem yields_encodeAssigned {aVar : Variable} {value : String × Json} :
    Yields (encodeAssigned R heap fuel aVar) value ↔
      ∃ fields, Yields (valueToJson R heap fuel (assignedCall aVar) []) fields ∧
        value = (aVar.1, .object fields) := by
  rw [encodeAssigned, yields_bind (valueToJson_independent R heap fuel _ _)
    fun _ => Confined.pure _]
  simp only [yields_pure, eq_comm]

/-- The encoded values go with the names of the variables. -/
theorem names_of_encoded {assigned : List Variable} {values : Fields}
    (h : List.Forall₂ (fun aVar value =>
      Yields (encodeAssigned R heap fuel aVar) value) assigned values) :
    values.map Prod.fst = assigned.map Prod.fst := by
  induction h with
  | nil => rfl
  | cons hvalue hrest ih =>
      obtain ⟨fields, -, rfl⟩ := (yields_encodeAssigned R heap fuel).mp hvalue
      rw [List.map_cons, List.map_cons, ih]

theorem mem_of_encoded {assigned : List Variable} {values : Fields}
    (h : List.Forall₂ (fun aVar value =>
      Yields (encodeAssigned R heap fuel aVar) value) assigned values)
    {name : String} {value : Json} :
    (name, value) ∈ values ↔ ∃ s fields, (name, s) ∈ assigned ∧
      Yields (valueToJson R heap fuel ⟨name, s, false⟩ []) fields ∧
      value = .object fields := by
  induction h with
  | nil => simp
  | @cons aVar field assigned values hfield hrest ih =>
      obtain ⟨fields, hfields, rfl⟩ :=
        (yields_encodeAssigned R heap fuel).mp hfield
      rw [List.mem_cons, ih]
      constructor
      · rintro (heq | ⟨s, fields', hmem, hyields, hvalue⟩)
        · obtain ⟨rfl, rfl⟩ := Prod.mk.inj heq
          exact ⟨aVar.2, fields, List.mem_cons_self, hfields, rfl⟩
        · exact ⟨s, fields', List.mem_cons_of_mem _ hmem, hyields, hvalue⟩
      · rintro ⟨s, fields', hmem, hyields, rfl⟩
        rcases List.mem_cons.mp hmem with rfl | hmem
        · obtain rfl := hyields.unique hfields
          exact Or.inl rfl
        · exact Or.inr ⟨s, fields', hmem, hyields, rfl⟩

/-- What `craftDelta` yields is a report. -/
theorem Reports.of_yields {removed : List String} {assigned : List Variable}
    (hnodup : (assigned.map Prod.fst).Nodup) {json : Json}
    (h : Yields (craftDelta R heap fuel removed assigned) json) :
    Reports R heap fuel removed assigned json := by
  obtain ⟨values, hvalues, rfl⟩ := (yields_craftDelta R heap fuel).mp h
  have hkeys : (values.map Prod.fst).Nodup := by
    rw [names_of_encoded R heap fuel hvalues]
    exact hnodup
  refine ⟨rfl, assembled values, rfl, ?_⟩
  intro name value
  rw [find?_assembled hkeys, lookup_eq_some_iff_mem hkeys]
  exact mem_of_encoded R heap fuel hvalues

/-- A report is made when every assigned variable can be encoded. -/
theorem exists_yields_craftDelta {assigned : List Variable}
    (h : ∀ aVar ∈ assigned, ∃ fields,
      Yields (valueToJson R heap fuel (assignedCall aVar) []) fields)
    (removed : List String) :
    ∃ json, Yields (craftDelta R heap fuel removed assigned) json := by
  have hencoded : ∀ aVar ∈ assigned, ∃ field,
      Yields (encodeAssigned R heap fuel aVar) field := by
    intro aVar haVar
    obtain ⟨fields, hfields⟩ := h aVar haVar
    exact ⟨_, (yields_encodeAssigned R heap fuel).mpr ⟨fields, hfields, rfl⟩⟩
  obtain ⟨values, hvalues⟩ := exists_yields_mapEach hencoded
  exact ⟨_, hvalues.bind (yields_pure.mpr rfl)⟩

/-- `jsonDelta` on captured variables, which are sorted already. -/
theorem jsonDelta_apply {w : Watcher} (hw : SortedBy Prod.fst w.lastVars) :
    jsonDelta R heap fuel env w =
      craftDelta R heap fuel
        (removedNames w.lastVars
          (sortBy compareVariablesByName (listedVariables heap env)))
        (setDifference lessThan
          (sortBy compareVariablesByName (listedVariables heap env))
          w.lastVars) w := by
  have hsame : { w with
      lastVars := sortBy compareVariablesByName w.lastVars } = w := by
    rw [sortBy_of_sortedBy compareVariablesByName_comparesBy hw]
  rw [jsonDelta, Act.bind_apply_returned (Act.modify_apply _ _), hsame,
    Act.bind_apply_returned (Act.get_apply _)]

theorem sortedBy_captured (h : heap.Distinct env) (w : Watcher) :
    SortedBy Prod.fst (captureEnvironment heap env w).2.lastVars :=
  sortedBy_sortBy compareVariablesByName_comparesBy (nodup_listedVariables h)

theorem mem_captured (w : Watcher) (name : String) (s : SEXP) :
    (name, s) ∈ (captureEnvironment heap env w).2.lastVars ↔
      heap.bound env name = some s := by
  have hperm := sortBy_perm compareVariablesByName (listedVariables heap env)
  exact hperm.mem_iff.trans mem_listedVariables

end Report

/-- The delta after a capture is the exact one, and asking again gives the
same. -/
theorem jsonDelta_exact (R : Engine) (heap₀ heap₁ : Heap) (fuel : ℕ)
    (env : SEXP) (w : Watcher) (h₀ : heap₀.Distinct env)
    (h₁ : heap₁.Distinct env) :
    let captured := (captureEnvironment heap₀ env w).2
    let delta := jsonDelta R heap₁ fuel env
    ∃ removed assigned,
      ExactDelta (heap₀.bound env) (heap₁.bound env) removed assigned ∧
      applyDelta removed assigned (heap₀.bound env) = heap₁.bound env ∧
      (removed = [] ∧ assigned = [] ↔
        heap₀.bound env = heap₁.bound env) ∧
      (∀ json, (delta captured).1 = .returned json →
        Reports R heap₁ fuel removed assigned json) ∧
      ((∀ aVar ∈ assigned, ∃ fields,
          Yields (valueToJson R heap₁ fuel (assignedCall aVar) []) fields) →
        ∃ json, (delta captured).1 = .returned json) ∧
      (delta captured).2.lastVars = captured.lastVars ∧
      (delta (delta captured).2).1 = (delta captured).1 := by
  intro captured delta
  have hold : SortedBy Prod.fst captured.lastVars :=
    sortedBy_captured heap₀ env h₀ w
  have hnew := sortedBy_captured heap₁ env h₁ w
  let newVars := (captureEnvironment heap₁ env w).2.lastVars
  let removed := removedNames captured.lastVars newVars
  let assigned := setDifference lessThan newVars captured.lastVars
  have hexact : ExactDelta (heap₀.bound env) (heap₁.bound env) removed
      assigned :=
    exactDelta_of_sorted hold hnew (mem_captured heap₀ env w)
      (mem_captured heap₁ env w)
  have hdelta : ∀ w', w'.lastVars = captured.lastVars → delta w' =
      craftDelta R heap₁ fuel removed assigned w' := by
    intro w' hw'
    have happly := jsonDelta_apply R heap₁ fuel env (w := w') (hw' ▸ hold)
    rw [hw'] at happly
    exact happly
  obtain ⟨o, log, ho, -⟩ :=
    craftDelta_independent R heap₁ fuel removed assigned
  have hfirst : delta captured = (o, captured.evaluating log) :=
    (hdelta captured rfl).trans (ho captured)
  have hsecond : delta (captured.evaluating log) =
      (o, (captured.evaluating log).evaluating log) :=
    (hdelta (captured.evaluating log) rfl).trans (ho _)
  refine ⟨removed, assigned, hexact, hexact.applied, hexact.empty_iff, ?_, ?_,
    ?_, ?_⟩
  · intro json hjson
    rw [hfirst] at hjson
    obtain rfl : o = .returned json := hjson
    exact Reports.of_yields R heap₁ fuel hexact.assigned_nodup ⟨log, ho⟩
  · intro hencoded
    obtain ⟨json, hjson⟩ := exists_yields_craftDelta R heap₁ fuel hencoded _
    refine ⟨json, ?_⟩
    rw [hdelta captured rfl]
    exact hjson.apply captured
  · rw [hfirst]
    rfl
  · rw [hfirst, hsecond]

/-- Two numbers, and an environment at address 1. -/
def heapOfBindings (bindings : List Variable) : Heap where
  objects := [.plain .null, .plain (.environment bindings),
    .plain (.integer [1]), .plain (.integer [2])]

/-- `y` is removed, `x` is bound to another object and `z` is new. -/
theorem jsonDelta_exact_rebound :
    ∃ removed assigned,
      ExactDelta ((heapOfBindings [("y", 3), ("x", 2)]).bound 1)
        ((heapOfBindings [("x", 3), ("z", 2)]).bound 1) removed assigned ∧
      applyDelta removed assigned
          ((heapOfBindings [("y", 3), ("x", 2)]).bound 1) =
        (heapOfBindings [("x", 3), ("z", 2)]).bound 1 := by
  obtain ⟨removed, assigned, hexact, happlied, -⟩ :=
    jsonDelta_exact bareEngine (heapOfBindings [("y", 3), ("x", 2)])
      (heapOfBindings [("x", 3), ("z", 2)]) 1 1 ⟨[], []⟩
      (by unfold Heap.Distinct; decide) (by unfold Heap.Distinct; decide)
  exact ⟨removed, assigned, hexact, happlied⟩

end Rc2Compute.Environment
