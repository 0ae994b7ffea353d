import Rc2Compute.Session.Replies
import Rc2Compute.Session.Routine
import Rc2Compute.Environment.Delta
import Rc2Compute.Support.Transition

/-!
# The variables the client sees

While variables are watched, the client is sent the whole global environment
once, and then what each execution has changed.  Its view is in step with R
when every execution either reports its changes or changes nothing: the
variables are captured before every execution, and what changes between a
capture and the next is lost unless it is reported in between.
-/

namespace Rc2Compute.Session

open Files (FileInfo)
open Environment (SEXP Heap Variable applyDelta removedNames lessThan
  compareVariablesByName listedVariables captureEnvironment)

variable {σ : Type} {env : SEXP}

/-! ## Views -/

/-- The names that are gone, and the variables with the objects they are now
bound to.  `Environment.Reports` says how they are encoded. -/
structure Report where
  removed : List String
  assigned : List Variable
deriving DecidableEq, Repr

/-- The names the client knows, and the objects it was last sent for them. -/
abbrev View := String → Option SEXP

/-- What a message does to the view. -/
def receive (view : View) : Message Report → View
  | .variableupdate vars true _ => applyDelta vars.removed vars.assigned view
  | .variableupdate vars false _ => fun name => vars.assigned.lookup name
  | _ => view

/-- The view after some messages. -/
def clientView (messages : List (Message Report)) : View :=
  messages.foldl receive fun _ => none

def Message.isUpdate {ν : Type} : Message ν → Bool
  | .variableupdate _ _ _ => true
  | _ => false

section Views

theorem receive_of_not_update {m : Message Report} (h : m.isUpdate = false)
    (view : View) : receive view m = view := by
  match m with
  | .variableupdate _ _ _ => cases h
  | .results _ _ _ _ | .error _ _ _ | .execComplete _ _ _ _ _ _
  | .showoutput _ | .variablevalue _ _ _ | .help _ _ | .openresponse _ _ =>
      rfl

theorem clientView_append_singleton (messages : List (Message Report))
    (m : Message Report) :
    clientView (messages ++ [m]) = receive (clientView messages) m := by
  rw [clientView, List.foldl_append]
  rfl

/-- Only updates change the view. -/
theorem clientView_append_of_not_update {messages rest : List (Message Report)}
    (h : ∀ m ∈ rest, m.isUpdate = false) :
    clientView (messages ++ rest) = clientView messages := by
  induction rest generalizing messages with
  | nil => rw [List.append_nil]
  | cons m rest ih =>
      have hm : m.isUpdate = false := h m List.mem_cons_self
      have hrest : ∀ m' ∈ rest, m'.isUpdate = false :=
        fun m' hm' => h m' (List.mem_cons_of_mem m hm')
      rw [List.append_cons, ih hrest, clientView_append_singleton,
        receive_of_not_update hm]

theorem Message.isUpdate_of_fromConsole {ν : Type} {m : Message ν}
    (h : m.fromConsole = true) : m.isUpdate = false := by
  match m with
  | .results _ _ _ _ => rfl
  | .variableupdate _ _ _ => cases h
  | .error _ _ _ | .execComplete _ _ _ _ _ _ | .showoutput _
  | .variablevalue _ _ _ | .help _ _ | .openresponse _ _ => rfl

theorem Message.isUpdate_of_ofExecution {ν : Type} {m : Message ν}
    (h : m.ofExecution = true) : m.isUpdate = false := by
  match m with
  | .variableupdate _ _ _ => cases h
  | .results _ _ _ _ | .error _ _ _ | .execComplete _ _ _ _ _ _
  | .showoutput _ | .variablevalue _ _ _ | .help _ _ | .openresponse _ _ =>
      rfl

end Views

/-! ## The global environment and its watcher -/

/-- The global environment of R, whose names are distinct, and what the
watcher has captured of it. -/
structure Globals (env : SEXP) where
  heap : Heap
  distinct : heap.Distinct env
  lastVars : List Variable

namespace Globals

variable (g : Globals env)

/-- The bindings `ls` lists, which are those that are not hidden. -/
def bound : View :=
  g.heap.bound env

/-- The variables as the watcher captures them. -/
def newVars : List Variable :=
  (captureEnvironment g.heap env ⟨g.lastVars, []⟩).2.lastVars

/-- What `toJson` encodes. -/
def listed : Report where
  removed := []
  assigned := listedVariables g.heap env

/-- What `jsonDelta` encodes. -/
def delta : Report :=
  let lastVars := sortBy compareVariablesByName g.lastVars
  { removed := removedNames lastVars g.newVars
    assigned := setDifference lessThan g.newVars lastVars }

/-- The watcher has captured the bindings `E`. -/
structure Captures (E : View) : Prop where
  sorted : SortedBy Prod.fst g.lastVars
  mem : ∀ name s, (name, s) ∈ g.lastVars ↔ E name = some s

variable {g} {E : View}

theorem Captures.of_newVars {g' : Globals env}
    (h : g'.lastVars = g.newVars) : g'.Captures g.bound where
  sorted := by
    rw [h]
    exact Environment.sortedBy_captured g.heap env g.distinct _
  mem := by
    rw [h]
    exact Environment.mem_captured g.heap env _

theorem Captures.congr {g' : Globals env} (h : g.Captures E)
    (hlast : g'.lastVars = g.lastVars) : g'.Captures E where
  sorted := hlast ▸ h.sorted
  mem := hlast ▸ h.mem

theorem Captures.sortBy_lastVars (h : g.Captures E) :
    sortBy compareVariablesByName g.lastVars = g.lastVars :=
  sortBy_of_sortedBy Environment.compareVariablesByName_comparesBy h.sorted

/-- The delta takes what was captured to what is bound now. -/
theorem Captures.delta_applied (h : g.Captures E) :
    applyDelta g.delta.removed g.delta.assigned E = g.bound := by
  rw [delta, h.sortBy_lastVars]
  have hnow : Captures ⟨g.heap, g.distinct, g.newVars⟩ g.bound :=
    Captures.of_newVars rfl
  exact (Environment.exactDelta_of_sorted h.sorted hnow.sorted h.mem
    hnow.mem).applied

/-- The whole list is what is bound. -/
theorem lookup_listed (g : Globals env) :
    (fun name => g.listed.assigned.lookup name) = g.bound := by
  have hnodup := Environment.nodup_listedVariables g.distinct
  funext name
  apply Option.ext
  intro s
  rw [listed, Environment.lookup_eq_some_iff_mem hnodup]
  exact Environment.mem_listedVariables

end Globals

/-- The calls that have R evaluate code.  A summary only looks at an
object. -/
def Call.evaluates : Call → Bool
  | .parseEvalQNT _ | .parseEvalNT _ | .parseEval _ | .parseEvalR _
  | .helpResult => true
  | _ => false

/-- Services behind which there is a global environment.  What R evaluates
may change it in any way; the watcher keeps what it has captured to itself,
and nothing else touches either. -/
structure WatchedServices (σ : Type) (env : SEXP) extends
    Services (σ × Globals env) Report where
  heap_kept : ∀ c, c.evaluates = false → ∀ o, (effect c o).2.heap = o.2.heap
  lastVars_kept : ∀ c, c.readsVariables = false →
    ∀ o, (effect c o).2.lastVars = o.2.lastVars
  captured : throws .captureEnvironment = none →
    ∀ o, (effect .captureEnvironment o).2.lastVars = o.2.newVars
  sorted : throws .jsonDelta = none → ∀ o,
    (effect .jsonDelta o).2.lastVars =
      sortBy compareVariablesByName o.2.lastVars
  resetWatch_globals : ∀ o, (resetWatch o).2 = o.2
  jsonDelta_eq : ∀ o, jsonDelta o = o.2.delta
  toJson_eq : ∀ o, toJson o = o.2.listed

/-- Nothing R evaluates changes what is bound. -/
def WatchedServices.Harmless (svc : WatchedServices σ env) : Prop :=
  ∀ c, c.evaluates = true → ∀ o, (svc.effect c o).2.bound = o.2.bound

/-- A session with a watched environment. -/
abbrev WatchedSession (σ : Type) (env : SEXP) :=
  RSession (σ × Globals env) Report

namespace RSession

variable (s : WatchedSession σ env)

def globals : Globals env :=
  s.outer.2

/-- The client sees what is bound. -/
def InStep : Prop :=
  clientView s.sent = s.globals.bound

/-- Variables are watched, and the client sees what is bound. -/
structure Watching : Prop where
  isOpen : s.isOpen = true
  watchVariables : s.watchVariables = true
  inStep : s.InStep

end RSession

/-! ## What an execution leaves alone -/

/-- The session is as open and watchful as before, and the client sees what it
saw. -/
structure Steady (s s' : WatchedSession σ env) : Prop where
  isOpen : s'.isOpen = s.isOpen
  watchVariables : s'.watchVariables = s.watchVariables
  view : clientView s'.sent = clientView s.sent

/-- The session is as open as before, and `f` of the global environment is
what it was. -/
structure Kept {α : Type} (f : Globals env → α)
    (s s' : WatchedSession σ env) : Prop where
  isOpen : s'.isOpen = s.isOpen
  globals : f s'.globals = f s.globals

section Relations

variable {α : Type} {f : Globals env → α}

instance : Std.Refl (α := WatchedSession σ env) Steady where
  refl _ := ⟨rfl, rfl, rfl⟩

instance : IsTrans (WatchedSession σ env) Steady where
  trans _ _ _ hab hbc :=
    ⟨hbc.isOpen.trans hab.isOpen,
      hbc.watchVariables.trans hab.watchVariables, hbc.view.trans hab.view⟩

instance : Std.Refl (Kept (σ := σ) f) where
  refl _ := ⟨rfl, rfl⟩

instance : IsTrans (WatchedSession σ env) (Kept f) where
  trans _ _ _ hab hbc :=
    ⟨hbc.isOpen.trans hab.isOpen, hbc.globals.trans hab.globals⟩

theorem Steady.trans {s s' s'' : WatchedSession σ env} (h : Steady s s')
    (h' : Steady s' s'') : Steady s s'' :=
  IsTrans.trans _ _ _ h h'

/-- What R writes is no update. -/
theorem Steady.of_progress {s s' : WatchedSession σ env}
    {events : List Deferred} (h : Progress s s' [] events)
    (hwatch : s'.watchVariables = s.watchVariables) : Steady s s' where
  isOpen := h.isOpen
  watchVariables := hwatch
  view := by
    obtain ⟨messages, hsent, hreplies, -⟩ := h.sent
    rw [hsent]
    apply clientView_append_of_not_update
    intro m hm
    apply Message.isUpdate_of_fromConsole
    have hconsole := List.filter_eq_nil_iff.mp hreplies m hm
    simpa using hconsole

theorem Steady.sending {m : Message Report} (h : m.isUpdate = false)
    (s : WatchedSession σ env) : Steady s (s.sending m) where
  isOpen := rfl
  watchVariables := rfl
  view := by
    rw [RSession.sending_sent, clientView_append_singleton,
      receive_of_not_update h]

variable (svc : WatchedServices σ env)

theorem called_steady (c : Call) (s : WatchedSession σ env) :
    Steady s (s.called svc.toServices c) :=
  Steady.of_progress (Progress.called svc.toServices c s) rfl

theorem steady_routine :
    Routine svc.toServices Steady where
  called c _ s := called_steady svc c s
  sending _ hm s := Steady.sending (Message.isUpdate_of_ofExecution hm) s
  bufferFlushed isError s :=
    Steady.of_progress (Progress.bufferFlushed isError s) rfl
  ignoring b s := Steady.of_progress (Progress.ignoring b s) rfl
  capturing b s := Steady.of_progress (Progress.capturing b s) rfl
  sourcing b s := Steady.of_progress (Progress.sourcing b s) rfl
  scheduling event s := Steady.of_progress (Progress.scheduling event s) rfl
  resetWatch s := Steady.of_progress (Progress.moving _ s) rfl

theorem called_kept {c : Call} (h : ∀ o, f (svc.effect c o).2 = f o.2)
    (s : WatchedSession σ env) : Kept f s (s.called svc.toServices c) :=
  ⟨rfl, h s.outer⟩

theorem kept_routine (hf : ∀ c, c.readsVariables = false → ∀ o,
      f (svc.effect c o).2 = f o.2) :
    Routine svc.toServices (Kept (σ := σ) f) where
  called c hc s := called_kept svc (hf c hc) s
  sending _ _ _ := ⟨rfl, rfl⟩
  bufferFlushed _ _ := ⟨rfl, rfl⟩
  ignoring _ _ := ⟨rfl, rfl⟩
  capturing _ _ := ⟨rfl, rfl⟩
  sourcing _ _ := ⟨rfl, rfl⟩
  scheduling _ _ := ⟨rfl, rfl⟩
  resetWatch s := ⟨rfl, congrArg f (svc.resetWatch_globals s.outer)⟩

theorem lastVars_routine :
    Routine svc.toServices (Kept Globals.lastVars) :=
  kept_routine svc svc.lastVars_kept

end Relations

/-! ## Handlers -/

section Handlers

variable (svc : WatchedServices σ env)

/-- The messages an execution sends itself are no updates. -/
theorem dispatchCommand_steady {command : JsonCommand}
    (hexec : IsExecution command) :
    Act.Moves Steady (dispatchCommand svc.toServices command) := by
  have hcapture := called_steady svc .captureEnvironment
  rw [dispatchCommand]
  rcases hexec with htype | htype
  · rw [htype]
    exact (steady_routine svc).handleExecuteScript_moves hcapture command
  · rw [htype]
    exact (steady_routine svc).executeFile_moves
      (fun messages s => Steady.of_progress (Progress.copying messages s) rfl)
      hcapture command

/-- What is captured at the start of a script is kept to its end. -/
theorem handleExecuteScript_captures {command : JsonCommand}
    {s : WatchedSession σ env} (hwatch : s.watchVariables = true) :
    Act.wp (handleExecuteScript svc.toServices command)
      (fun _ s' => s'.globals.Captures s.globals.bound) (fun _ _ => True)
      s := by
  rw [handleExecuteScript]
  apply read_rule
  · intro e _
    trivial
  intro argument _
  rw [Act.wp_bind, Act.wp_get]
  apply read_rule
  · intro e _
    trivial
  intro sendDelta hdelta
  obtain rfl : sendDelta = true := by
    rw [sendsDelta, if_pos hwatch] at hdelta
    exact (Except.ok.inj hdelta).symm
  apply callIf_rule
  · intro e _
    trivial
  intro hcaptured
  have hrest := (lastVars_routine svc).runScript_moves argument true command
    (s.called svc.toServices .captureEnvironment)
  refine hrest.mono ?_ fun _ _ _ => trivial
  intro _ s' hkept
  apply Globals.Captures.of_newVars
  exact hkept.globals.trans (svc.captured hcaptured s.outer)

/-- The same of a file the manager knows. -/
theorem executeKnownFile_captures {fpath : String} {command : JsonCommand}
    {s : WatchedSession σ env} (hwatch : s.watchVariables = true) :
    Act.wp (executeKnownFile svc.toServices fpath command)
      (fun _ s' => s'.globals.Captures s.globals.bound) (fun _ _ => True)
      s := by
  rw [executeKnownFile, Act.wp_bind, Act.wp_modify, Act.wp_bind, Act.wp_get]
  beta_reduce
  have hwatch' : (s.moving svc.resetWatch).watchVariables = true := hwatch
  rw [hwatch']
  apply callIf_rule
  · intro e _
    trivial
  intro hcaptured
  have hrest := (lastVars_routine svc).executeByExtension_moves
    (fun _ _ => ⟨rfl, rfl⟩) fpath command
    ((s.moving svc.resetWatch).called svc.toServices .captureEnvironment)
  refine hrest.mono ?_ fun _ _ _ => trivial
  intro _ s' hkept
  have hstart : (svc.resetWatch s.outer).2 = s.globals :=
    svc.resetWatch_globals s.outer
  rw [← hstart]
  apply Globals.Captures.of_newVars
  exact hkept.globals.trans (svc.captured hcaptured _)

/-- An execution whose changes are to be reported has captured the bindings
before. -/
theorem dispatchCommand_captures {command : JsonCommand}
    {s : WatchedSession σ env} (hexec : IsExecution command)
    (hwatch : s.watchVariables = true) :
    Act.wp (dispatchCommand svc.toServices command)
      (fun _ s' => execAnswer svc.toServices command s = .acknowledged true →
        s'.globals.Captures s.globals.bound)
      (fun _ _ => True) s := by
  rw [dispatchCommand]
  rcases hexec with htype | htype
  · rw [htype]
    refine (handleExecuteScript_captures svc hwatch).mono ?_ fun _ _ h => h
    exact fun _ _ h _ => h
  · have hanswer : execAnswer svc.toServices command s =
        fileAnswer svc.toServices command s := by
      rw [execAnswer, if_neg (by simp [htype])]
    rw [htype, hanswer, fileAnswer, commandFile]
    dsimp only
    rw [executeFile]
    apply read_rule
    · intro e _
      trivial
    intro argument harg
    rw [harg, Act.wp_bind, Act.wp_get]
    dsimp only
    cases svc.filePathForId s.outer (atol argument.toList) with
    | none =>
        rw [wp_sendJsonToClientSource]
        intro hreport
        cases hreport
    | some fpath =>
        refine (executeKnownFile_captures svc hwatch).mono ?_ fun _ _ h => h
        exact fun _ _ h _ => h

/-! ## Listing variables -/

theorem watcherCall_steady (c : Call) :
    Act.Moves Steady (watcherCall svc.toServices c) := by
  have hsummary : Act.Moves Steady
      (ignoringOutput (call svc.toServices .addSummary)) :=
    (steady_routine svc).ignoringOutput_moves
      (Routine.call_moves_of (called_steady svc .addSummary))
  exact Routine.watcherCall_moves_of hsummary
    (Routine.call_moves_of (called_steady svc c))

/-- `jsonDelta` sorts what is sorted already. -/
theorem watcherCall_captures {E : View} {s : WatchedSession σ env}
    (h : s.globals.Captures E) :
    Act.wp (watcherCall svc.toServices .jsonDelta)
      (fun _ s' => s'.globals.Captures E) (fun _ _ => True) s := by
  have hsummary : Act.Moves (Kept Globals.lastVars)
      (ignoringOutput (call svc.toServices .addSummary)) :=
    (lastVars_routine svc).ignoringOutput_moves
      ((lastVars_routine svc).call_moves rfl)
  have hlist : ∀ {s₁ : WatchedSession σ env}, s₁.globals.Captures E →
      Act.wp (call svc.toServices .jsonDelta)
        (fun _ s' => s'.globals.Captures E) (fun _ _ => True) s₁ := by
    intro s₁ h₁
    rw [wp_call]
    split
    next hreturned =>
      apply h₁.congr
      exact (svc.sorted hreturned s₁.outer).trans h₁.sortBy_lastVars
    next => trivial
  rw [watcherCall]
  split
  · rw [Act.wp_bind]
    refine (hsummary s).mono ?_ fun _ _ _ => trivial
    intro _ s₁ hkept
    exact hlist (h.congr hkept.globals)
  · exact hlist h

/-- The client sees what is bound when it is sent the whole list, and when it
is sent what has changed since it saw what was bound. -/
theorem handleListVariablesCommand_inStep (delta : Bool)
    (command : JsonCommand) {s : WatchedSession σ env}
    (h : delta = true → s.globals.Captures (clientView s.sent)) :
    Act.wp (handleListVariablesCommand svc.toServices delta command)
      (fun _ s' => s'.isOpen = s.isOpen ∧
        s'.watchVariables = s.watchVariables ∧ s'.InStep)
      (fun _ => Steady s) s := by
  rw [handleListVariablesCommand, Act.wp_bind]
  have hcaptures : Act.wp (watcherCall svc.toServices
      (if delta then .jsonDelta else .toJson))
      (fun _ s' => delta = true → s'.globals.Captures (clientView s.sent))
      (fun _ _ => True) s := by
    cases delta with
    | false =>
        refine (watcherCall_steady svc .toJson s).mono ?_ fun _ _ _ => trivial
        intro _ _ _ hfalse
        cases hfalse
    | true =>
        refine (watcherCall_captures svc (h rfl)).mono ?_ fun _ _ h => h
        exact fun _ _ hcaptured _ => hcaptured
  refine ((watcherCall_steady svc _ s).and hcaptures).mono ?_
    fun _ _ hboth => hboth.1
  rintro _ s₁ ⟨hsteady, hcaptured⟩
  rw [Act.wp_bind, Act.wp_get]
  beta_reduce
  rw [wp_sendJsonToClientSource]
  refine ⟨hsteady.isOpen, hsteady.watchVariables, ?_⟩
  rw [RSession.InStep, RSession.sending_sent, clientView_append_singleton,
    hsteady.view]
  cases delta with
  | false =>
      rw [if_neg (by decide), svc.toJson_eq]
      exact s₁.globals.lookup_listed
  | true =>
      rw [if_pos rfl, svc.jsonDelta_eq]
      exact (hcaptured rfl).delta_applied

end Handlers

/-! ## Executions -/

/-- The changes an execution makes are reported: its query id can be read, its
handler throws nothing and has the changes listed, and neither the
acknowledgement nor the listing throws. -/
structure ReportsChanges {ν : Type} (svc : Services σ ν)
    (command : JsonCommand) (s : RSession σ ν) : Prop where
  queryId : ∃ queryId, command.queryId = .ok queryId
  returns : dispatchFailure svc command s = none
  answer : execAnswer svc command s = .acknowledged true
  acknowledged : ackFailure svc command = none
  listed : svc.firstFailure (listCalls svc true) = none

/-- The client sees what is bound if the changes have been reported, and what
it saw before if they have not. -/
structure Turned (reported : Prop) (s s' : WatchedSession σ env) : Prop where
  isOpen : s'.isOpen = s.isOpen
  watchVariables : s'.watchVariables = s.watchVariables
  inStep : reported → s'.InStep
  view : ¬reported → clientView s'.sent = clientView s.sent

section Steps

variable {s s' s'' : WatchedSession σ env} {reported reported' : Prop}

theorem Steady.of_querying {queryId : ℤ} (h : Steady (s.querying queryId) s') :
    Steady s s' :=
  ⟨h.isOpen, h.watchVariables, h.view⟩

theorem Steady.caught (h : Steady s s') (e : CxxException) :
    Steady s ((s'.sending (commandError e)).querying 0) :=
  h.trans ((Steady.sending rfl s').trans ⟨rfl, rfl, rfl⟩)

theorem Steady.turned (h : Steady s s') (hnot : ¬reported) :
    Turned reported s s' :=
  ⟨h.isOpen, h.watchVariables, fun hreported => absurd hreported hnot,
    fun _ => h.view⟩

theorem Turned.of_steady (h : Steady s s') (h' : Turned reported s' s'') :
    Turned reported s s'' where
  isOpen := h'.isOpen.trans h.isOpen
  watchVariables := h'.watchVariables.trans h.watchVariables
  inStep := h'.inStep
  view := fun hnot => (h'.view hnot).trans h.view

theorem Turned.congr (h : Turned reported s s') (hiff : reported ↔ reported') :
    Turned reported' s s' where
  isOpen := h.isOpen
  watchVariables := h.watchVariables
  inStep := fun hreported => h.inStep (hiff.mpr hreported)
  view := fun hnot => h.view fun hreported => hnot (hiff.mp hreported)

end Steps

/-! ## Events -/

section Events

variable (svc : WatchedServices σ env) {parser : JsonParser}
  {s : WatchedSession σ env}

/-- The event that lists the changes, after a capture of what the client
sees. -/
theorem delta_turned (hopen : s.isOpen = true)
    (h : s.globals.Captures (clientView s.sent)) :
    Act.wp (handleDelayedCommand svc.toServices parser listVariablesDelta)
      (fun _ => Turned (svc.firstFailure
        (listCalls svc.toServices true) = none) s)
      (fun _ => Turned (svc.firstFailure
        (listCalls svc.toServices true) = none) s) s := by
  rw [handleDelayedCommand]
  apply (requests_delta svc.toServices parser).rule hopen
  · intro e hid _
    cases hid
  intro queryId _
  have hbody : dispatchCommand svc.toServices deltaCommand =
      handleListVariablesCommand svc.toServices true deltaCommand := rfl
  have hlist := handleListVariablesCommand_inStep svc true deltaCommand
    (s := s.querying queryId) fun _ => h
  have hspec := handleListVariablesCommand_spec svc.toServices true
    deltaCommand (s.querying queryId)
  rw [hbody]
  refine (hlist.and hspec).mono ?_ ?_
  · rintro _ s' ⟨⟨hopen', hwatch, hstep⟩, hnone, -⟩
    exact ⟨hopen', hwatch, fun _ => hstep, fun hnot => absurd hnone hnot⟩
  · rintro e s' ⟨hsteady, c, hsome, -⟩
    have hnot : ¬svc.firstFailure (listCalls svc.toServices true) = none := by
      simp [hsome]
    rw [Caught]
    split
    · exact (hsteady.of_querying.caught e).turned hnot
    · exact hsteady.of_querying.turned hnot

/-- The events of an acknowledged execution. -/
theorem events_turned {command : JsonCommand} {queryId : ℤ} {finfo : FileInfo}
    {delta : Bool} (hopen : s.isOpen = true)
    (h : delta = true → s.globals.Captures (clientView s.sent)) :
    Act.wp (Act.forEach (.execComplete command queryId finfo ::
        if delta then [.command listVariablesDelta] else [])
        (runDeferred svc.toServices parser))
      (fun _ => Turned (delta = true ∧
        ackFailure svc.toServices command = none ∧
        svc.firstFailure (listCalls svc.toServices true) = none) s)
      (fun _ => Turned (delta = true ∧
        ackFailure svc.toServices command = none ∧
        svc.firstFailure (listCalls svc.toServices true) = none) s) s := by
  rw [Act.forEach_cons, Act.wp_bind, runDeferred]
  have hsteady := (steady_routine svc).handleExecComplete_moves command
    queryId finfo s
  have hkept := (lastVars_routine svc).handleExecComplete_moves command
    queryId finfo s
  refine (hsteady.and (hkept.and handleExecComplete_sends)).mono ?_ ?_
  · rintro _ s₁ ⟨hsteady₁, hkept₁, hack, -⟩
    cases delta with
    | false =>
        rw [if_neg (by decide), Act.forEach, Act.wp_pure]
        apply hsteady₁.turned
        rintro ⟨hfalse, -⟩
        cases hfalse
    | true =>
        rw [if_pos rfl, Act.forEach_cons, Act.wp_bind, runDeferred]
        have hcaptured : s₁.globals.Captures (clientView s₁.sent) := by
          rw [hsteady₁.view]
          exact (h rfl).congr hkept₁.globals
        have hlast : ∀ s₂, Turned (svc.firstFailure
            (listCalls svc.toServices true) = none) s₁ s₂ →
            Turned (true = true ∧ ackFailure svc.toServices command = none ∧
              svc.firstFailure (listCalls svc.toServices true) = none) s s₂ := by
          intro s₂ hturned
          apply (hturned.of_steady hsteady₁).congr
          simp [hack]
        refine (delta_turned svc (hsteady₁.isOpen.trans hopen)
          hcaptured).mono ?_ ?_
        · exact fun _ => hlast
        · exact fun _ => hlast
  · rintro e s₁ ⟨hsteady₁, -, hack⟩
    exact hsteady₁.turned fun hreported => hack hreported.2.1

end Events

/-! ## From a text to its events -/

/-- What the handler of an execution leaves behind: nothing that is to be
reported, or an acknowledgement, and the bindings it has captured when the
changes are to be listed. -/
structure Handled (svc : WatchedServices σ env) (command : JsonCommand)
    (s s' : WatchedSession σ env) : Prop where
  steady : Steady s s'
  events : ∃ events, s'.deferred = s.deferred ++ events ∧
    ((events = [] ∧ ¬ReportsChanges svc.toServices command s) ∨
      ∃ queryId finfo delta, events =
          .execComplete command queryId finfo ::
            (if delta then [.command listVariablesDelta] else []) ∧
        (delta = true → s'.globals.Captures s.globals.bound) ∧
        (ReportsChanges svc.toServices command s ↔ delta = true ∧
          ackFailure svc.toServices command = none ∧
          svc.firstFailure (listCalls svc.toServices true) = none))

section Requests

variable {svc : WatchedServices σ env} {parser : JsonParser} {json : String}
  {command : JsonCommand} {s : WatchedSession σ env}

theorem dispatchCommand_handled (hexec : IsExecution command)
    (hwatch : s.watchVariables = true) {queryId : ℤ}
    (hid : command.queryId = .ok queryId) :
    Act.wp (dispatchCommand svc.toServices command)
      (fun _ s' => Handled svc command s s')
      (fun _ s' => Handled svc command s s' ∧
        ¬ReportsChanges svc.toServices command s)
      (s.querying queryId) := by
  have hsteady := dispatchCommand_steady svc hexec (s.querying queryId)
  have hcaptures := dispatchCommand_captures svc (s := s.querying queryId)
    hexec hwatch
  have hspec := dispatchCommand_spec svc.toServices command
    (s.querying queryId)
  refine (hsteady.and (hcaptures.and hspec)).mono ?_ ?_
  · rintro _ s' ⟨hsteady', hcaptured, hnone, -, hend⟩
    obtain ⟨replies, events, hprogress, hgiven⟩ :=
      given_of_dispatchEnd hexec hend
    refine ⟨hsteady'.of_querying, events, hprogress.deferred, ?_⟩
    have hsilent : ∀ answer, answer ≠ .acknowledged true →
        execAnswer svc.toServices command s = answer →
        ¬ReportsChanges svc.toServices command s := by
      rintro answer hne rfl hreports
      exact hne hreports.answer
    cases hanswer : execAnswer svc.toServices command s with
    | silent =>
        rw [hanswer] at hgiven
        exact Or.inl ⟨hgiven.2, hsilent _ (by decide) hanswer⟩
    | replied =>
        rw [hanswer] at hgiven
        exact Or.inl ⟨hgiven.2, hsilent _ (by decide) hanswer⟩
    | acknowledged delta =>
        rw [hanswer] at hgiven
        obtain ⟨-, finfo, hevents⟩ := hgiven
        refine Or.inr ⟨queryId, finfo, delta, hevents, ?_, ?_⟩
        · rintro rfl
          exact hcaptured hanswer
        · constructor
          · intro hreports
            have hdelta := hanswer.symm.trans hreports.answer
            cases hdelta
            exact ⟨rfl, hreports.acknowledged, hreports.listed⟩
          · rintro ⟨rfl, hack, hlisted⟩
            exact ⟨⟨queryId, hid⟩, hnone, hanswer, hack, hlisted⟩
  · rintro e s' ⟨hsteady', -, c, hsome, hprogress, -⟩
    have hnot : ¬ReportsChanges svc.toServices command s := by
      intro hreports
      have hnone : dispatchFailure svc.toServices command
          (s.querying queryId) = none := hreports.returns
      rw [hnone] at hsome
      cases hsome
    exact ⟨⟨hsteady'.of_querying, [], hprogress.deferred,
      Or.inl ⟨rfl, hnot⟩⟩, hnot⟩

theorem Handled.querying {s' : WatchedSession σ env}
    (h : Handled svc command s s') (queryId : ℤ) :
    Handled svc command s (s'.querying queryId) :=
  ⟨h.steady.trans ⟨rfl, rfl, rfl⟩, h.events⟩

theorem Handled.caught {s' : WatchedSession σ env}
    (h : Handled svc command s s') (e : CxxException) :
    Handled svc command s ((s'.sending (commandError e)).querying 0) :=
  ⟨h.steady.caught e, h.events⟩

theorem handleJsonStatic_handled
    (h : Requests svc.toServices parser json command)
    (hexec : IsExecution command) (hs : s.Watching) :
    Act.wp (handleJsonStatic svc.toServices parser json)
      (fun _ => Handled svc command s)
      (fun _ s' => Handled svc command s s' ∧
        ¬ReportsChanges svc.toServices command s) s := by
  have hlost : ∀ (e : CxxException) s', Handled svc command s s' →
      ¬ReportsChanges svc.toServices command s →
      Act.wp (if e.type.isStdException then pure ()
          else Act.throw e : Handler (σ × Globals env) Report Unit)
        (fun _ => Handled svc command s)
        (fun _ s' => Handled svc command s s' ∧
          ¬ReportsChanges svc.toServices command s) s' := by
    intro e s' hhandled hnot
    split
    · exact hhandled
    · exact ⟨hhandled, hnot⟩
  rw [handleJsonStatic, Act.wp_tryCatch]
  apply h.rule hs.isOpen
  · intro e hid _
    have hnot : ¬ReportsChanges svc.toServices command s := by
      rintro ⟨⟨queryId, hok⟩, -⟩
      rw [hid] at hok
      cases hok
    apply hlost e s ⟨⟨rfl, rfl, rfl⟩, [], ?_, Or.inl ⟨rfl, hnot⟩⟩ hnot
    exact (List.append_nil _).symm
  intro queryId hid
  refine (dispatchCommand_handled hexec hs.watchVariables hid).mono ?_ ?_
  · intro _ s' hhandled
    exact hhandled.querying 0
  · rintro e s' ⟨hhandled, hnot⟩
    rw [Caught]
    split
    · exact hhandled.caught e
    · exact hlost e s' hhandled hnot

/-- An execution and its events. -/
theorem execute_turned (h : Requests svc.toServices parser json command)
    (hexec : IsExecution command) (hs : s.Watching) :
    Act.wp (execute svc.toServices parser json)
      (fun _ => Turned (ReportsChanges svc.toServices command s) s)
      (fun _ => Turned (ReportsChanges svc.toServices command s) s) s := by
  apply execute_rule
  refine (handleJsonStatic_handled h hexec hs).mono ?_ ?_
  · rintro _ s₁ ⟨hsteady, events, hdeferred, hevents⟩
    refine ⟨events, hdeferred, ?_⟩
    have hempty : Steady s { s₁ with deferred := s.deferred } :=
      hsteady.trans ⟨rfl, rfl, rfl⟩
    rcases hevents with ⟨rfl, hnot⟩ | ⟨queryId, finfo, delta, rfl, hcaptured,
      hreports⟩
    · rw [Act.forEach, Act.wp_pure]
      exact hempty.turned hnot
    · have hview : delta = true → s₁.globals.Captures (clientView s₁.sent) := by
        intro hdelta
        rw [hsteady.view, hs.inStep]
        exact hcaptured hdelta
      refine (events_turned svc (s := { s₁ with deferred := s.deferred })
        (hempty.isOpen.trans hs.isOpen) hview).mono ?_ ?_
      · exact fun _ _ hturned => (hturned.of_steady hempty).congr hreports.symm
      · exact fun _ _ hturned => (hturned.of_steady hempty).congr hreports.symm
  · rintro e s₁ ⟨hhandled, hnot⟩
    exact hhandled.steady.turned hnot

end Requests

/-! ## Executions that change nothing -/

section Harmless

variable {svc : WatchedServices σ env} {parser : JsonParser}
  {s : WatchedSession σ env}

theorem WatchedServices.Harmless.effect_bound (h : svc.Harmless) (c : Call)
    (o : σ × Globals env) : (svc.effect c o).2.bound = o.2.bound := by
  cases hc : c.evaluates with
  | true => exact h c hc o
  | false =>
      rw [Globals.bound, svc.heap_kept c hc o]
      rfl

theorem WatchedServices.Harmless.routine (h : svc.Harmless) :
    Routine svc.toServices (Kept Globals.bound) :=
  kept_routine svc fun c _ => h.effect_bound c

theorem WatchedServices.Harmless.call_moves (h : svc.Harmless) (c : Call) :
    Act.Moves (Kept Globals.bound) (call svc.toServices c) :=
  Routine.call_moves_of (called_kept svc (h.effect_bound c))

/-- A command whose handler leaves something alone. -/
theorem Requests.kept {α : Type} {f : Globals env → α} {json : String}
    {command : JsonCommand} (h : Requests svc.toServices parser json command)
    (hopen : s.isOpen = true)
    (hmoves : Act.Moves (Kept f) (dispatchCommand svc.toServices command)) :
    Act.wp (handleJsonCommand svc.toServices parser json)
      (fun _ => Kept f s) (fun _ => Kept f s) s := by
  apply h.rule hopen
  · intro e _ _
    exact ⟨rfl, rfl⟩
  intro queryId _
  refine (hmoves (s.querying queryId)).mono ?_ ?_
  · intro _ s' hkept
    exact ⟨hkept.isOpen, hkept.globals⟩
  · intro e s' hkept
    rw [Caught]
    split
    · exact ⟨hkept.isOpen, hkept.globals⟩
    · exact ⟨hkept.isOpen, hkept.globals⟩

theorem WatchedServices.Harmless.dispatchCommand_moves (h : svc.Harmless)
    {command : JsonCommand} (hexec : IsExecution command) :
    Act.Moves (Kept Globals.bound)
      (dispatchCommand svc.toServices command) := by
  have hcapture := called_kept svc (h.effect_bound .captureEnvironment)
  rw [dispatchCommand]
  rcases hexec with htype | htype
  · rw [htype]
    exact h.routine.handleExecuteScript_moves hcapture command
  · rw [htype]
    exact h.routine.executeFile_moves (fun _ _ => ⟨rfl, rfl⟩) hcapture command

theorem WatchedServices.Harmless.listing_moves (h : svc.Harmless) :
    Act.Moves (Kept Globals.bound)
      (dispatchCommand svc.toServices deltaCommand) := by
  have hsummary : Act.Moves (Kept Globals.bound)
      (ignoringOutput (call svc.toServices .addSummary)) :=
    h.routine.ignoringOutput_moves (h.call_moves .addSummary)
  apply (Routine.read_moves deltaCommand.delta).bind
  intro delta
  apply Act.Moves.bind
  · exact Routine.watcherCall_moves_of hsummary (h.call_moves _)
  · intro _
    apply Act.Moves.get.bind
    intro s₁
    exact Act.Moves.modify fun _ => ⟨rfl, rfl⟩

theorem WatchedServices.Harmless.events_kept (h : svc.Harmless)
    {command : JsonCommand} {queryId : ℤ} {finfo : FileInfo} {delta : Bool}
    (hopen : s.isOpen = true) :
    Act.wp (Act.forEach (.execComplete command queryId finfo ::
        if delta then [.command listVariablesDelta] else [])
        (runDeferred svc.toServices parser))
      (fun _ => Kept Globals.bound s) (fun _ => Kept Globals.bound s) s := by
  rw [Act.forEach_cons, Act.wp_bind, runDeferred]
  refine (h.routine.handleExecComplete_moves command queryId finfo s).mono ?_
    fun _ _ hkept => hkept
  intro _ s₁ hkept
  cases delta with
  | false => exact hkept
  | true =>
      rw [if_pos rfl, Act.forEach_cons, Act.wp_bind, runDeferred]
      have hlisted := (requests_delta svc.toServices parser).kept
        (hkept.isOpen.trans hopen) h.listing_moves
      refine hlisted.mono ?_ ?_
      · exact fun _ _ hkept' => IsTrans.trans _ _ _ hkept hkept'
      · exact fun _ _ hkept' => IsTrans.trans _ _ _ hkept hkept'

theorem WatchedServices.Harmless.execute_kept (h : svc.Harmless)
    {json : String} {command : JsonCommand}
    (hrequests : Requests svc.toServices parser json command)
    (hexec : IsExecution command) (hs : s.Watching) :
    Act.wp (execute svc.toServices parser json)
      (fun _ => Kept Globals.bound s) (fun _ => Kept Globals.bound s) s := by
  have hstatic : Act.wp (handleJsonStatic svc.toServices parser json)
      (fun _ => Kept Globals.bound s) (fun _ => Kept Globals.bound s) s := by
    rw [handleJsonStatic, Act.wp_tryCatch]
    refine (hrequests.kept hs.isOpen (h.dispatchCommand_moves hexec)).mono
      (fun _ _ hkept => hkept) ?_
    intro e s' hkept
    split
    · exact hkept
    · exact hkept
  have hhandled := handleJsonStatic_handled hrequests hexec hs
  apply execute_rule
  refine (hstatic.and hhandled).mono ?_ fun _ _ hboth => hboth.1
  rintro _ s₁ ⟨hkept, -, events, hdeferred, hevents⟩
  refine ⟨events, hdeferred, ?_⟩
  rcases hevents with ⟨rfl, -⟩ | ⟨queryId, finfo, delta, rfl, -⟩
  · rw [Act.forEach, Act.wp_pure]
    exact ⟨hkept.isOpen, hkept.globals⟩
  · refine (h.events_kept (s := { s₁ with deferred := s.deferred })
      (hkept.isOpen.trans hs.isOpen)).mono ?_ ?_
    · exact fun _ _ hkept' => ⟨hkept'.isOpen.trans hkept.isOpen,
        hkept'.globals.trans hkept.globals⟩
    · exact fun _ _ hkept' => ⟨hkept'.isOpen.trans hkept.isOpen,
        hkept'.globals.trans hkept.globals⟩

end Harmless

/-! ## Runs of executions -/

/-- A text that runs a script or a file, and what the services answer until
the events it leads to have been handled. -/
structure Execution (parser : JsonParser) (σ : Type) (env : SEXP) where
  svc : WatchedServices σ env
  json : String
  command : JsonCommand
  requests : Requests svc.toServices parser json command
  isExecution : IsExecution command

namespace Execution

variable {parser : JsonParser}

/-- The session after an execution and its events. -/
def step (s : WatchedSession σ env) (x : Execution parser σ env) :
    WatchedSession σ env :=
  (execute x.svc.toServices parser x.json s).2

/-- The condition on an execution. -/
def StaysInStep (s : WatchedSession σ env) (x : Execution parser σ env) :
    Prop :=
  ReportsChanges x.svc.toServices x.command s ∨ x.svc.Harmless

variable {s : WatchedSession σ env} {x : Execution parser σ env}

theorem turned_step (hs : s.Watching) :
    Turned (ReportsChanges x.svc.toServices x.command s) s (step s x) :=
  (execute_turned x.requests x.isExecution hs).final

/-- Without a report the client sees what was bound before. -/
theorem inStep_step_iff (hs : s.Watching) :
    (step s x).InStep ↔ ReportsChanges x.svc.toServices x.command s ∨
      (step s x).globals.bound = s.globals.bound := by
  have hturned := turned_step (x := x) hs
  constructor
  · intro hstep
    by_cases hreports : ReportsChanges x.svc.toServices x.command s
    · exact Or.inl hreports
    · right
      rw [← hstep, hturned.view hreports]
      exact hs.inStep
  · intro hmeets
    by_cases hreports : ReportsChanges x.svc.toServices x.command s
    · exact hturned.inStep hreports
    · rw [RSession.InStep, hturned.view hreports, hs.inStep]
      exact (hmeets.resolve_left hreports).symm

theorem watching_step (hs : s.Watching) (hx : StaysInStep s x) :
    (step s x).Watching where
  isOpen := (turned_step hs).isOpen.trans hs.isOpen
  watchVariables := (turned_step hs).watchVariables.trans hs.watchVariables
  inStep := by
    apply (inStep_step_iff hs).mpr
    apply hx.imp_right
    intro hharmless
    exact (hharmless.execute_kept x.requests x.isExecution hs).final.globals

end Execution

/-- In every run of executions that report their changes or make none, the
client sees what is bound after each of them. -/
theorem inStep_of_staysInStep (parser : JsonParser) (s : WatchedSession σ env)
    (executions : List (Execution parser σ env)) (hs : s.Watching)
    (h : Transition.Along Execution.step Execution.StaysInStep s
      executions) :
    Transition.Along Execution.step
      (fun s x => (Execution.step s x).InStep) s executions :=
  Transition.along_of_invariant
    (fun _ _ hwatching hx => Execution.watching_step hwatching hx)
    (fun _ _ hwatching hx => (Execution.watching_step hwatching hx).inStep)
    hs h

/-! ## Switching the watch on -/

/-- After a `toggleVariableWatch` that throws nothing the client sees what is
bound. -/
theorem watching_of_toggle {svc : WatchedServices σ env} {parser : JsonParser}
    {json : String} {command : JsonCommand} {s : WatchedSession σ env}
    (h : Requests svc.toServices parser json command)
    (htype : command.type = .ToggleWatch) (hon : command.watch = .ok true)
    {queryId : ℤ} (hid : command.queryId = .ok queryId)
    (hlisted : svc.firstFailure (listCalls svc.toServices false) = none)
    (hopen : s.isOpen = true) :
    (handleJsonStatic svc.toServices parser json s).2.Watching := by
  have hstatic : Act.wp (handleJsonStatic svc.toServices parser json)
      (fun _ s' => s'.Watching) (fun _ s' => s'.Watching) s := by
    rw [handleJsonStatic, Act.wp_tryCatch]
    apply h.rule hopen
    · intro e hbad _
      rw [hid] at hbad
      cases hbad
    intro queryId' _
    rw [dispatchCommand, htype]
    dsimp only
    rw [handleToggleWatch]
    apply read_rule
    · intro e hbad
      rw [hon] at hbad
      cases hbad
    intro watch hwatch
    obtain rfl : true = watch := Except.ok.inj (hon.symm.trans hwatch)
    rw [Act.wp_bind, Act.wp_modify, if_pos rfl]
    have hnot : false = true → Globals.Captures s.globals
        (clientView s.sent) := fun hfalse => by cases hfalse
    have hlist := handleListVariablesCommand_inStep svc false command
      (s := { s.querying queryId' with watchVariables := true }) hnot
    have hspec := handleListVariablesCommand_spec svc.toServices false command
      { s.querying queryId' with watchVariables := true }
    refine (hlist.and hspec).mono ?_ ?_
    · rintro _ s' ⟨⟨hopen', hwatch', hstep⟩, -⟩
      exact ⟨hopen'.trans hopen, hwatch', hstep⟩
    · rintro e s' ⟨-, c, hsome, -⟩
      rw [hlisted] at hsome
      cases hsome
  exact hstatic.final

/-! ## A script that ends with an error -/

/-- Services whose scripts end with `parseResult` and leave the environment
with some bindings. -/
def bindingScripts (parseResult : ParseEvalResult) (bindings : List Variable)
    (h : (Environment.heapOfBindings bindings).Distinct 1) :
    WatchedServices Unit 1 where
  toServices := { Services.succeeding ⟨[], []⟩ with
    effect := fun c o =>
      match c with
      | .parseEvalR _ =>
          (o.1, { o.2 with
            heap := Environment.heapOfBindings bindings, distinct := h })
      | .captureEnvironment => (o.1, { o.2 with lastVars := o.2.newVars })
      | .jsonDelta =>
          (o.1, { o.2 with
            lastVars := sortBy compareVariablesByName o.2.lastVars })
      | _ => o
    parseResult := parseResult
    jsonDelta := fun o => o.2.delta
    toJson := fun o => o.2.listed }
  heap_kept := by
    intro c hc o
    cases c with
    | parseEvalR => cases hc
    | _ => rfl
  lastVars_kept := by
    intro c hc o
    cases c with
    | captureEnvironment | jsonDelta => cases hc
    | _ => rfl
  captured _ _ := rfl
  sorted _ _ := rfl
  resetWatch_globals _ := rfl
  jsonDelta_eq _ := rfl
  toJson_eq _ := rfl

theorem distinct_x : (Environment.heapOfBindings [("x", 2)]).Distinct 1 := by
  unfold Heap.Distinct
  decide

/-- A script that binds `x`. -/
def bindingScript (parseResult : ParseEvalResult) :
    Execution scriptParser Unit 1 where
  svc := bindingScripts parseResult [("x", 2)] distinct_x
  json := "script"
  command := scriptCommand
  requests := requests_script _
  isExecution := Or.inl rfl

/-- A session that watches an empty environment. -/
def emptySession : WatchedSession Unit 1 :=
  { RSession.fresh ((), ⟨Environment.heapOfBindings [], by
      unfold Heap.Distinct
      decide, []⟩) with
    isOpen := true
    watchVariables := true }

theorem watching_emptySession : emptySession.Watching where
  isOpen := rfl
  watchVariables := rfl
  inStep := by
    have hls : (Environment.heapOfBindings []).ls 1 = [] := rfl
    funext name
    change none = (Environment.heapOfBindings []).bound 1 name
    rw [Heap.bound, hls, if_neg List.not_mem_nil]

theorem inStep_of_staysInStep_success :
    (Execution.step emptySession (bindingScript .PE_SUCCESS)).InStep := by
  have hrun : Transition.Along Execution.step Execution.StaysInStep
      emptySession [bindingScript .PE_SUCCESS] :=
    ⟨Or.inl ⟨⟨3, rfl⟩, rfl, rfl, rfl, rfl⟩, trivial⟩
  exact (inStep_of_staysInStep scriptParser emptySession _
    watching_emptySession hrun).1

/-- What a script has bound before it ends with an error is not reported. -/
theorem inStep_fails_on_error :
    ¬(Execution.step emptySession (bindingScript .PE_EXEC_ERROR)).InStep := by
  intro h
  have hx := congrFun h "x"
  revert hx
  decide

end Rc2Compute.Session
