import Rc2Compute.Environment.Encoding
import Rc2Compute.Support.Recursion

/-!
# What the encoder visits

`valueToJson` is a recursion over the graph of R's objects.  A call first
encodes what belongs to its object alone, then calls itself for the elements,
bindings or attributes, and then adds a summary to a list or an object with a
class.  Its ending, and the commands it has evaluated, are those of that
recursion.
-/

namespace Rc2Compute.Environment

/-- A call of `valueToJson` and the fields it starts from. -/
abbrev Visit := ValueCall × Fields

section Visiting

variable (R : Engine) (heap : Heap)

/-- The class an object reports, if it has one. -/
def klazz (robj : RObject) : Option String :=
  match stringVector R (heap.attr robj "class").data with
  | .ok klazzNames =>
      if isOrderedFactor klazzNames then some "ordered factor"
      else klazzNames[0]?
  | .error _ => none

/-- The objects that are encoded by their attributes. -/
def isGeneric (robj : RObject) : Bool :=
  !heap.isFactor robj &&
    match klazz R heap robj with
    | some klazz => klazz ∉ ["Date", "POSIXct", "POSIXlt", "data.frame"]
    | none => false

/-- The calls a call makes, in order. -/
def calls (k : Visit) : List Visit :=
  let robj := heap.object k.1.robj
  if robj.isObject then
    if isGeneric R heap robj then
      (genericNames robj).map fun aName => (attributeCall robj aName, [])
    else []
  else
    match robj.data with
    | .list elements =>
        if k.1.includeListChildren then
          (elements.take kMaxLen).map fun child => (childCall child, [])
        else []
    | .environment _ =>
        ((heap.ls k.1.robj).take kMaxLen).map fun varName =>
          (bindingCall heap k.1.robj varName, [("name", .string varName)])
    | _ => []

/-- What a call does when the calls it makes return at once, without the
summary. -/
def ownData (k : Visit) : Encoder Fields :=
  let jobj := k.2 |> Fields.set "name" (.string k.1.varName)
  let robj := heap.object k.1.robj
  if robj.isObject then
    setObjectData R heap (fun _ _ => pure []) robj jobj
  else
    match robj.data with
    | .list _ | .environment _ => pure jobj
    | .closure | .special | .builtin => setFunctionData R k.1.robj jobj
    | _ => setPrimitiveData R heap robj jobj

/-- Whether a call gets to the calls it makes. -/
def halts (k : Visit) : Bool :=
  match (ownData R heap k ⟨[], []⟩).1 with
  | .returned _ => false
  | _ => true

/-- Whether a summary is added. -/
def isSummarised (k : Visit) : Bool :=
  (heap.object k.1.robj).isObject ||
    match (heap.object k.1.robj).data with
    | .list _ => true
    | _ => false

/-- `valueToJson` as a recursion over the objects. -/
def encoding : Recursion Visit where
  halts := halts R heap
  callees := calls R heap
  fails k := isSummarised heap k &&
    (R.parseEval (summaryCommand k.1.varName)).isNone

/-- The command a call has evaluated for its summary. -/
def evaluationOf (k : Visit) : Evaluation :=
  ⟨k.1.robj, summaryCommand k.1.varName⟩

/-- The commands of these calls. -/
def evaluationsOf (log : List Visit) : List Evaluation :=
  (log.filter (isSummarised heap)).map evaluationOf

theorem evaluationsOf_append (log rest : List Visit) :
    evaluationsOf heap (log ++ rest) =
      evaluationsOf heap log ++ evaluationsOf heap rest := by
  rw [evaluationsOf, List.filter_append, List.map_append]
  rfl

/-! ## One call -/

/-- The end of a call. -/
def close (k : Visit) (jobj : Fields) : Encoder Fields :=
  if isSummarised heap k then addSummary R k.1.varName k.1.robj jobj
  else pure jobj

variable (rec : ValueCall → Fields → Encoder Fields)

/-- The calls a call makes, one after the other. -/
def callAll (ks : List Visit) : Encoder (List Fields) :=
  Act.mapEach ks fun k => rec k.1 k.2

/-- Encoders that evaluate no command and need no fuel. -/
abbrev Quiet {α : Type} (x : Encoder α) : Prop :=
  Confined (fun _ => False) False x

theorem Quiet.eq_pure {α : Type} {x : Encoder α} (hx : Quiet x) {a : α}
    (h : (x ⟨[], []⟩).1 = .returned a) : x = pure a := by
  obtain ⟨o, log, ho, hlog, -⟩ := hx
  obtain rfl := List.eq_nil_iff_forall_not_mem.mpr hlog
  rw [ho] at h
  obtain rfl : o = .returned a := h
  funext w
  rw [ho, Watcher.evaluating_nil]
  rfl

/-- A loop that calls and does something with each result. -/
theorem callAll_map {α : Type} (as : List α) (g : α → Visit)
    (p : α → Fields → Json) (q : List Json → Fields) :
    (Act.mapEach as (fun a => rec (g a).1 (g a).2 >>= fun b =>
        pure (p a b)) >>= fun values => pure (q values)) =
      (callAll rec (as.map g) >>= fun results =>
        pure (q (as.zipWith p results))) := by
  have hmap := Act.mapEach_bind_pure as g (fun k : Visit => rec k.1 k.2) p
  rw [hmap, Act.bind_assoc]
  rfl

/-- What a call makes of the results of the calls it makes. -/
abbrev Finish := List Fields → Fields

theorem setGenericObjectData_eq (robj : RObject) (jobj : Fields) :
    ∃ finish : Finish, ∀ rec, setGenericObjectData rec robj jobj =
      (callAll rec ((genericNames robj).map fun aName =>
        (attributeCall robj aName, [])) >>= fun results =>
          pure (finish results)) :=
  ⟨_, fun rec => callAll_map rec (genericNames robj)
    (fun aName => (attributeCall robj aName, [])) _ _⟩

theorem setEnvironmentData_eq (robj : SEXP) (jobj : Fields) :
    ∃ finish : Finish, ∀ rec, setEnvironmentData heap rec robj jobj =
      (callAll rec (((heap.ls robj).take kMaxLen).map fun varName =>
        (bindingCall heap robj varName, [("name", .string varName)])) >>=
          fun results => pure (finish results)) :=
  ⟨_, fun rec => callAll_map rec ((heap.ls robj).take kMaxLen)
    (fun varName =>
      (bindingCall heap robj varName, [("name", .string varName)])) _ _⟩

theorem setListData_eq (robj : RObject) (elements : List SEXP) (jobj : Fields)
    (includeListChildren : Bool) :
    ∃ finish : Finish, ∀ rec,
      setListData heap rec robj elements jobj includeListChildren =
        (callAll rec (if includeListChildren then
            (elements.take kMaxLen).map fun child => (childCall child, [])
          else []) >>= fun results => pure (finish results)) := by
  cases includeListChildren with
  | false => exact ⟨fun _ => _, fun rec => rfl⟩
  | true =>
      have hcalls : (elements.take kMaxLen).map
          (fun child => ((childCall child, []) : Visit)) =
            (elements.take kMaxLen).zipIdx.map fun child =>
              (childCall child.1, []) := by
        conv_lhs => rw [← List.zipIdx_map_fst 0 (elements.take kMaxLen)]
        rw [List.map_map]
        rfl
      rw [if_pos rfl, hcalls]
      exact ⟨_, fun rec => callAll_map rec (elements.take kMaxLen).zipIdx
        (fun child => (childCall child.1, [])) _ _⟩

/-- The end of `setObjectData`, for an object of the class `klazz`. -/
def objectData (robj : RObject) (klazz : String) (jobj : Fields) :
    Encoder Fields :=
  let jobj := jobj |> Fields.set "class" (.string klazz)
  let jobj :=
    if robj.isS4 then jobj |> Fields.set "S4" (.boolean true) else jobj
  if heap.isFactor robj then setFactorData R heap robj jobj
  else if klazz = "Date" then setDate R robj jobj
  else if klazz = "POSIXct" then setPOSIXct robj jobj
  else if klazz = "POSIXlt" then setPOSIXlt robj jobj
  else if klazz = "data.frame" then setDataFrameData R heap robj jobj
  else setGenericObjectData rec robj jobj

theorem setObjectData_eq {robj : RObject} {klazzNames : List String}
    (h : stringVector R (heap.attr robj "class").data = .ok klazzNames)
    (jobj : Fields) :
    setObjectData R heap rec robj jobj = (className klazzNames >>=
      fun klazz => objectData R heap rec robj klazz jobj) := by
  rw [setObjectData, h]
  rfl

/-- Without a class to report, `setObjectData` does not get to the data. -/
theorem setObjectData_of_none {robj : RObject} (h : klazz R heap robj = none)
    (jobj : Fields) :
    ∃ x : Encoder Fields, Quiet x ∧
      ∀ rec, setObjectData R heap rec robj jobj = x := by
  unfold klazz at h
  split at h
  next klazzNames hnames =>
    split at h
    · cases h
    next hordered =>
      refine ⟨Act.undefined, Confined.undefined, ?_⟩
      intro rec
      have hclass : className klazzNames = Act.undefined := by
        rw [className, if_neg hordered, element, h]
      rw [setObjectData_eq R heap rec hnames, hclass]
      rfl
  next error herror =>
    refine ⟨Act.throw (.exception error), Confined.exception error, ?_⟩
    intro rec
    rw [setObjectData, herror]
    rfl

theorem setObjectData_of_some {robj : RObject} {klazzName : String}
    (h : klazz R heap robj = some klazzName) (jobj : Fields) :
    setObjectData R heap rec robj jobj =
      objectData R heap rec robj klazzName jobj := by
  unfold klazz at h
  split at h
  next klazzNames hnames =>
    have hclass : className klazzNames = pure klazzName := by
      rw [className]
      split at h
      next hordered => rw [if_pos hordered, Option.some.inj h]
      next hordered => rw [if_neg hordered, element, h]
    rw [setObjectData_eq R heap rec hnames, hclass]
    rfl
  next => cases h

/-- Objects that are not generic are encoded without further calls. -/
theorem setObjectData_of_not_generic {robj : RObject}
    (h : isGeneric R heap robj = false) (jobj : Fields) :
    ∃ x : Encoder Fields, Quiet x ∧
      ∀ rec, setObjectData R heap rec robj jobj = x := by
  cases hklazz : klazz R heap robj with
  | none =>
      exact setObjectData_of_none R heap hklazz jobj
  | some klazzName =>
      simp only [setObjectData_of_some R heap _ hklazz]
      unfold isGeneric at h
      rw [hklazz] at h
      unfold objectData
      by_cases hfactor : heap.isFactor robj = true
      · simp only [hfactor]
        exact ⟨_, setFactorData_confined R heap robj _, fun _ => rfl⟩
      have hspecial : klazzName ∈
          ["Date", "POSIXct", "POSIXlt", "data.frame"] := by
        rw [Bool.not_eq_true] at hfactor
        simpa [hfactor, imp_iff_not_or] using h
      simp only [hfactor]
      simp only [List.mem_cons, List.not_mem_nil, or_false] at hspecial
      obtain rfl | rfl | rfl | rfl := hspecial
      · exact ⟨_, setDate_confined R robj _, fun _ => rfl⟩
      · exact ⟨_, setPOSIXct_confined robj _, fun _ => rfl⟩
      · exact ⟨_, setPOSIXlt_confined robj _, fun _ => rfl⟩
      · exact ⟨_, setDataFrameData_confined R heap robj _, fun _ => rfl⟩

/-- Generic objects are encoded by their attributes. -/
theorem setObjectData_of_generic {robj : RObject}
    (h : isGeneric R heap robj = true) (jobj : Fields) :
    ∃ finish : Finish, ∀ rec, setObjectData R heap rec robj jobj =
      (callAll rec ((genericNames robj).map fun aName =>
        (attributeCall robj aName, [])) >>= fun results =>
          pure (finish results)) := by
  unfold isGeneric at h
  rw [Bool.and_eq_true, Bool.not_eq_true'] at h
  obtain ⟨hfactor, hclass⟩ := h
  split at hclass
  next klazzName hklazz =>
    rw [decide_eq_true_eq] at hclass
    simp only [List.mem_cons, List.not_mem_nil, or_false, not_or] at hclass
    obtain ⟨hDate, hct, hlt, hframe⟩ := hclass
    obtain ⟨finish, hfinish⟩ := setGenericObjectData_eq robj
      (if robj.isS4 then
        jobj |> Fields.set "class" (.string klazzName)
          |> Fields.set "S4" (.boolean true)
      else jobj |> Fields.set "class" (.string klazzName))
    refine ⟨finish, ?_⟩
    intro rec
    rw [setObjectData_of_some R heap rec hklazz, objectData, hfactor,
      if_neg (by decide), if_neg hDate, if_neg hct, if_neg hlt, if_neg hframe]
    exact hfinish rec
  next => cases hclass

variable (k : Visit)

theorem callAll_stub (ks : List Visit) :
    callAll (fun _ _ => pure []) ks = pure (ks.map fun _ => []) := by
  induction ks with
  | nil => rfl
  | cons k ks ih =>
      rw [callAll, Act.mapEach_cons]
      rw [callAll] at ih
      rw [ih]
      rfl

/-- A call encodes what belongs to its object alone, and makes no calls. -/
def MakesNoCalls : Prop :=
  calls R heap k = [] ∧ Quiet (ownData R heap k) ∧
    ∀ rec, valueBody R heap rec k.1 k.2 =
      (ownData R heap k >>= close R heap k)

/-- A call makes its calls, and finishes with their results. -/
def MakesCalls : Prop :=
  halts R heap k = false ∧ ∃ finish : Finish, ∀ rec,
    valueBody R heap rec k.1 k.2 =
      (callAll rec (calls R heap k) >>= fun results =>
        close R heap k (finish results))

theorem object_cases (h : (heap.object k.1.robj).isObject = true) :
    MakesNoCalls R heap k ∨ MakesCalls R heap k := by
  have hclose : close R heap k = addSummary R k.1.varName k.1.robj := by
    funext jobj
    rw [close, isSummarised, h, Bool.true_or, if_pos rfl]
  have hbody : ∀ rec, valueBody R heap rec k.1 k.2 =
      (setObjectData R heap rec (heap.object k.1.robj)
        (k.2 |> Fields.set "name" (.string k.1.varName)) >>=
          addSummary R k.1.varName k.1.robj) := by
    intro rec
    rw [valueBody, if_pos h]
  have hown : ownData R heap k = setObjectData R heap (fun _ _ => pure [])
      (heap.object k.1.robj)
      (k.2 |> Fields.set "name" (.string k.1.varName)) := by
    rw [ownData, if_pos h]
  by_cases hgeneric : isGeneric R heap (heap.object k.1.robj) = true
  · have hcalls : calls R heap k =
        (genericNames (heap.object k.1.robj)).map fun aName =>
          (attributeCall (heap.object k.1.robj) aName, []) := by
      rw [calls, if_pos h, if_pos hgeneric]
    obtain ⟨finish, hfinish⟩ := setObjectData_of_generic R heap hgeneric
      (k.2 |> Fields.set "name" (.string k.1.varName))
    right
    constructor
    · rw [halts, hown, hfinish, callAll_stub]
      rfl
    · refine ⟨finish, ?_⟩
      intro rec
      rw [hbody, hfinish, hcalls, hclose, Act.bind_assoc]
      rfl
  · rw [Bool.not_eq_true] at hgeneric
    obtain ⟨x, hx, heq⟩ := setObjectData_of_not_generic R heap hgeneric
      (k.2 |> Fields.set "name" (.string k.1.varName))
    left
    refine ⟨?_, ?_, ?_⟩
    · rw [calls, if_pos h, hgeneric]
      rfl
    · rw [hown, heq]
      exact hx
    · intro rec
      rw [hbody, hown, heq, heq, hclose]

theorem plain_cases (h : (heap.object k.1.robj).isObject = false) :
    MakesNoCalls R heap k ∨ MakesCalls R heap k := by
  have hobject : ¬(heap.object k.1.robj).isObject = true := by
    rw [h]
    decide
  cases hdata : (heap.object k.1.robj).data with
  | list elements =>
      have hclose : close R heap k = addSummary R k.1.varName k.1.robj := by
        funext jobj
        rw [close, isSummarised, hdata, Bool.or_true, if_pos rfl]
      obtain ⟨finish, hfinish⟩ := setListData_eq heap
        (heap.object k.1.robj) elements
        (k.2 |> Fields.set "name" (.string k.1.varName))
        k.1.includeListChildren
      right
      constructor
      · rw [halts, ownData, if_neg hobject, hdata]
        rfl
      · refine ⟨finish, ?_⟩
        intro rec
        rw [valueBody, if_neg hobject, calls, if_neg hobject, hdata, hclose]
        dsimp only
        rw [hfinish, Act.bind_assoc]
        rfl
  | environment bindings =>
      have hclose : close R heap k = pure := by
        funext jobj
        rw [close, isSummarised, h, hdata]
        rfl
      obtain ⟨finish, hfinish⟩ := setEnvironmentData_eq heap k.1.robj
        (k.2 |> Fields.set "name" (.string k.1.varName))
      right
      constructor
      · rw [halts, ownData, if_neg hobject, hdata]
        rfl
      · refine ⟨finish, ?_⟩
        intro rec
        rw [valueBody, if_neg hobject, calls, if_neg hobject, hdata, hclose]
        exact hfinish rec
  | closure | special | builtin =>
      have hclose : close R heap k = pure := by
        funext jobj
        rw [close, isSummarised, h, hdata]
        rfl
      left
      refine ⟨?_, ?_, ?_⟩
      · rw [calls, if_neg hobject, hdata]
      · rw [ownData, if_neg hobject, hdata]
        exact setFunctionData_confined R _ _
      · intro rec
        rw [valueBody, if_neg hobject, ownData, if_neg hobject, hdata, hclose,
          Act.bind_pure]
  | _ =>
      have hclose : close R heap k = pure := by
        funext jobj
        rw [close, isSummarised, h, hdata]
        rfl
      left
      refine ⟨?_, ?_, ?_⟩
      · rw [calls, if_neg hobject, hdata]
      · rw [ownData, if_neg hobject, hdata]
        exact setPrimitiveData_confined R heap _ _
      · intro rec
        rw [valueBody, if_neg hobject, ownData, if_neg hobject, hdata, hclose,
          Act.bind_pure]

theorem call_cases : MakesNoCalls R heap k ∨ MakesCalls R heap k := by
  cases h : (heap.object k.1.robj).isObject with
  | true => exact object_cases R heap k h
  | false => exact plain_cases R heap k h

/-! ## A run -/

/-- How an outcome ends. -/
def endingOf {α : Type} : Outcome Halt α → Ending
  | .returned _ => .returned
  | .threw .outOfFuel => .outOfFuel
  | .threw (.exception _) | .undefined => .stopped

/-- `x` ends as the visits do, and evaluates their commands. -/
def Follows {α : Type} (x : Encoder α) (visits : Ending × List Visit) : Prop :=
  ∃ o, Computes x o (evaluationsOf heap visits.2) ∧ endingOf o = visits.1

theorem Follows.bind_returned {α β : Type} {x : Encoder α}
    {g : α → Encoder β} {log rest : List Visit} {ending : Ending}
    (hx : Follows heap x (.returned, log))
    (hg : ∀ a, Follows heap (g a) (ending, rest)) :
    Follows heap (x >>= g) (ending, log ++ rest) := by
  obtain ⟨o, ho, hending⟩ := hx
  cases o with
  | returned a =>
      obtain ⟨o', ho', hending'⟩ := hg a
      refine ⟨o', ?_, hending'⟩
      rw [evaluationsOf_append]
      exact ho.bind_returned ho'
  | threw h => cases h with
    | _ => cases hending
  | undefined => cases hending

theorem Follows.bind_of_ne {α β : Type} {x : Encoder α} (g : α → Encoder β)
    {visits : Ending × List Visit} (hx : Follows heap x visits)
    (hne : visits.1 ≠ .returned) : Follows heap (x >>= g) visits := by
  obtain ⟨o, ho, hending⟩ := hx
  cases o with
  | returned a => exact absurd hending.symm hne
  | threw h =>
      refine ⟨.threw h, ho.bind_threw g, ?_⟩
      cases h with
      | _ => exact hending
  | undefined => exact ⟨.undefined, ho.bind_undefined g, hending⟩

theorem Follows.bind_pure {α β : Type} {x : Encoder α} (p : α → β)
    {visits : Ending × List Visit} (hx : Follows heap x visits) :
    Follows heap (x >>= fun a => pure (p a)) visits := by
  by_cases h : visits.1 = .returned
  · have hx' : Follows heap x (.returned, visits.2) := h ▸ hx
    have hbind : Follows heap (x >>= fun a => pure (p a))
        (.returned, visits.2 ++ []) :=
      hx'.bind_returned heap
        fun a => ⟨.returned (p a), Computes.pure _, rfl⟩
    rw [List.append_nil, ← h] at hbind
    exact hbind
  · exact hx.bind_of_ne heap _ h

theorem mapEach_follows {α β : Type} {f : Visit → Ending × List Visit}
    {x : α → Encoder β} {g : α → Visit}
    (hx : ∀ a, Follows heap (x a) (f (g a))) (as : List α) :
    Follows heap (Act.mapEach as x) (Recursion.visitAll f (as.map g)) := by
  induction as with
  | nil => exact ⟨.returned [], Computes.pure [], rfl⟩
  | cons a as ih =>
      rw [Act.mapEach_cons, List.map_cons]
      by_cases ha : (f (g a)).1 = .returned
      · rw [Recursion.visitAll_cons_returned ha]
        have hfollows : Follows heap (x a) (.returned, (f (g a)).2) :=
          ha ▸ hx a
        apply hfollows.bind_returned
        intro b
        exact ih.bind_pure heap (b :: ·)
      · rw [Recursion.visitAll_cons_of_ne ha]
        exact (hx a).bind_of_ne heap _ ha

theorem callAll_follows {f : Visit → Ending × List Visit}
    (hrec : ∀ k, Follows heap (rec k.1 k.2) (f k)) (ks : List Visit) :
    Follows heap (callAll rec ks) (Recursion.visitAll f ks) := by
  have hfollows := mapEach_follows heap (g := id) hrec ks
  rw [List.map_id] at hfollows
  exact hfollows

theorem Quiet.follows_stopped {α : Type} {x : Encoder α} (hx : Quiet x)
    (h : ¬∃ a, (x ⟨[], []⟩).1 = .returned a) :
    Follows heap x (.stopped, []) := by
  obtain ⟨o, log, ho, hlog, hdeep⟩ := hx
  obtain rfl := List.eq_nil_iff_forall_not_mem.mpr hlog
  refine ⟨o, ho, ?_⟩
  rw [ho] at h
  cases o with
  | returned a => exact absurd ⟨a, rfl⟩ h
  | threw error =>
      cases error with
      | exception => rfl
      | outOfFuel => exact (hdeep rfl).elim
  | undefined => rfl

/-- The result is read even if there is none. -/
theorem addSummary_failed {varName : String}
    (h : R.parseEval (summaryCommand varName) = none) (robj : SEXP)
    (jobj : Fields) : Computes (addSummary R varName robj jobj) .undefined
      [⟨robj, summaryCommand varName⟩] := by
  intro w
  rw [addSummary, h]
  rfl

theorem addSummary_evaluated {varName : String} {result : RData}
    (h : R.parseEval (summaryCommand varName) = some result) (robj : SEXP)
    (jobj : Fields) :
    ∃ jobj', Computes (addSummary R varName robj jobj) (.returned jobj')
      [⟨robj, summaryCommand varName⟩] := by
  cases hstrs : stringVector R result with
  | ok strs =>
      refine ⟨jobj |> Fields.set "summary" (.string (joinLines strs)), ?_⟩
      intro w
      rw [addSummary, h]
      dsimp only
      rw [hstrs]
      rfl
  | error e =>
      refine ⟨jobj, ?_⟩
      intro w
      rw [addSummary, h]
      dsimp only
      rw [hstrs]
      rfl

theorem close_follows (jobj : Fields) :
    Follows heap (close R heap k jobj)
      (if (encoding R heap).fails k then .stopped else .returned, [k]) := by
  have hfails : (encoding R heap).fails k = (isSummarised heap k &&
      (R.parseEval (summaryCommand k.1.varName)).isNone) := rfl
  by_cases hsummarised : isSummarised heap k = true
  · have hlog : evaluationsOf heap [k] = [evaluationOf k] := by
      rw [evaluationsOf, List.filter_cons_of_pos hsummarised]
      rfl
    rw [close, if_pos hsummarised, hfails, hsummarised, Bool.true_and]
    cases hresult : R.parseEval (summaryCommand k.1.varName) with
    | none =>
        refine ⟨.undefined, ?_, rfl⟩
        rw [hlog]
        exact addSummary_failed R hresult k.1.robj jobj
    | some result =>
        obtain ⟨jobj', hjobj'⟩ :=
          addSummary_evaluated R hresult k.1.robj jobj
        refine ⟨.returned jobj', ?_, rfl⟩
        rw [hlog]
        exact hjobj'
  · rw [Bool.not_eq_true] at hsummarised
    have hlog : evaluationsOf heap [k] = [] := by
      rw [evaluationsOf, List.filter_cons_of_neg (by rw [hsummarised]; decide)]
      rfl
    rw [close, hfails, hsummarised]
    refine ⟨.returned jobj, ?_, rfl⟩
    rw [hlog]
    exact Computes.pure jobj

theorem valueBody_follows {f : Visit → Ending × List Visit}
    (hrec : ∀ k, Follows heap (rec k.1 k.2) (f k)) :
    Follows heap (valueBody R heap rec k.1 k.2)
      ((encoding R heap).body f k) := by
  obtain ⟨hcalls, hquiet, hbody⟩ | ⟨hhalts, finish, hbody⟩ :=
    call_cases R heap k
  · rw [hbody rec]
    have hcallees : (encoding R heap).callees k = [] := hcalls
    by_cases hreturned : ∃ jobj, (ownData R heap k ⟨[], []⟩).1 = .returned jobj
    · obtain ⟨jobj, hjobj⟩ := hreturned
      have hhalts : (encoding R heap).halts k = false := by
        change halts R heap k = false
        rw [halts, hjobj]
      have hall : Recursion.visitAll f ((encoding R heap).callees k) =
          (.returned, []) := by
        rw [hcallees]
        rfl
      rw [Recursion.body_of_returned hhalts (by rw [hall]), hall,
        hquiet.eq_pure hjobj]
      exact close_follows R heap k jobj
    · have hhalts : (encoding R heap).halts k = true := by
        change halts R heap k = true
        rw [halts]
        split
        next jobj hjobj => exact absurd ⟨jobj, hjobj⟩ hreturned
        next => rfl
      rw [Recursion.body_of_halts hhalts]
      exact (hquiet.follows_stopped heap hreturned).bind_of_ne heap _ nofun
  · rw [hbody rec]
    by_cases hall :
        (Recursion.visitAll f ((encoding R heap).callees k)).1 = .returned
    · rw [Recursion.body_of_returned hhalts hall]
      have hfollows : Follows heap (callAll rec (calls R heap k))
          (.returned, (Recursion.visitAll f (calls R heap k)).2) :=
        hall ▸ callAll_follows heap rec hrec (calls R heap k)
      exact hfollows.bind_returned heap fun results =>
        close_follows R heap k (finish results)
    · rw [Recursion.body_of_ne hhalts hall]
      exact (callAll_follows heap rec hrec _).bind_of_ne heap _ hall

/-- `valueToJson` runs as the recursion over the objects does. -/
theorem valueToJson_follows (fuel : ℕ) :
    Follows heap (valueToJson R heap fuel k.1 k.2)
      ((encoding R heap).visit fuel k) := by
  induction fuel generalizing k with
  | zero => exact ⟨.threw .outOfFuel, Computes.throw _, rfl⟩
  | succ fuel ih => exact valueBody_follows R heap _ k ih

/-! ## Requests -/

/-- What the watcher is asked to encode: `toJson(varName)`, `toJson()` or
`jsonDelta()`. -/
inductive Request where
  | value (varName : String)
  | all
  | delta
deriving DecidableEq, Repr

variable (fuel : ℕ) (env : SEXP)

/-- The watcher's answer to a request. -/
def encode : Request → Encoder Json
  | .value varName => toJsonOf R heap fuel env varName
  | .all => toJson R heap fuel env
  | .delta => jsonDelta R heap fuel env

/-- The variables `jsonDelta` finds to have been assigned. -/
def assignedVariables (w : Watcher) : List Variable :=
  setDifference lessThan
    (sortBy compareVariablesByName (listedVariables heap env))
    (sortBy compareVariablesByName w.lastVars)

/-- The calls of `valueToJson` a request makes. -/
def startCalls (w : Watcher) : Request → List Visit
  | .value varName => [(bindingCall heap env varName, [])]
  | .all => (heap.ls env).map fun aName => (bindingCall heap env aName, [])
  | .delta => (assignedVariables heap env w).map fun aVar =>
      (assignedCall aVar, [])

/-- The visits a request makes with some fuel. -/
def visits (w : Watcher) (request : Request) : Ending × List Visit :=
  Recursion.visitAll ((encoding R heap).visit fuel)
    (startCalls heap env w request)

theorem toJsonOf_follows (varName : String) :
    Follows heap (toJsonOf R heap fuel env varName)
      ((encoding R heap).visit fuel (bindingCall heap env varName, [])) :=
  (valueToJson_follows R heap (bindingCall heap env varName, [])
    fuel).bind_pure heap Json.object

theorem toJson_follows : Follows heap (toJson R heap fuel env)
    (Recursion.visitAll ((encoding R heap).visit fuel)
      ((heap.ls env).map fun aName => (bindingCall heap env aName, []))) :=
  Follows.bind_pure heap assembled (mapEach_follows heap
    (fun aName => (toJsonOf_follows R heap fuel env aName).bind_pure heap
      fun value => (aName, value)) (heap.ls env))

theorem craftDelta_follows (removed : List String) (added : List Variable) :
    Follows heap (craftDelta R heap fuel removed added)
      (Recursion.visitAll ((encoding R heap).visit fuel)
        (added.map fun aVar => (assignedCall aVar, []))) :=
  Follows.bind_pure heap _ (mapEach_follows heap
    (fun aVar => (valueToJson_follows R heap (assignedCall aVar, [])
      fuel).bind_pure heap fun varValue => (aVar.1, Json.object varValue))
    added)

/-- A request ends as its visits do, and evaluates their commands. -/
theorem encode_follows (w : Watcher) (request : Request) :
    endingOf (encode R heap fuel env request w).1 =
        (visits R heap fuel env w request).1 ∧
      (encode R heap fuel env request w).2.evaluations = w.evaluations ++
        evaluationsOf heap (visits R heap fuel env w request).2 := by
  cases request with
  | value varName =>
      obtain ⟨o, ho, hending⟩ := toJsonOf_follows R heap fuel env varName
      rw [encode, ho w, visits, startCalls, Recursion.visitAll_singleton]
      exact ⟨hending, rfl⟩
  | all =>
      obtain ⟨o, ho, hending⟩ := toJson_follows R heap fuel env
      rw [encode, ho w]
      exact ⟨hending, rfl⟩
  | delta =>
      obtain ⟨o, ho, hending⟩ := craftDelta_follows R heap fuel
        (removedNames (sortBy compareVariablesByName w.lastVars)
          (sortBy compareVariablesByName (listedVariables heap env)))
        (assignedVariables heap env w)
      have hdelta : jsonDelta R heap fuel env w = _ :=
        ho { w with lastVars := sortBy compareVariablesByName w.lastVars }
      rw [encode, hdelta]
      exact ⟨hending, rfl⟩

end Visiting

end Rc2Compute.Environment
