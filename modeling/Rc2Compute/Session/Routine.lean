import Rc2Compute.Session.Handlers

/-!
# What scripts and files leave alone

The handlers of scripts and files, and of what they put in the queue, are made
of a few kinds of steps: calls of services, replies, what R has written, flags
and events.  A relation between sessions that holds across each of these holds
across the handlers.  The calls that have the watcher read the variables, and
what a copy of the session sends, are left to the caller.
-/

namespace Rc2Compute.Session

open Files (FileInfo)

variable {σ ν : Type}

/-- The calls that have the watcher read the variables. -/
def Call.readsVariables : Call → Bool
  | .captureEnvironment | .toJson | .toJsonOf _ | .jsonDelta => true
  | _ => false

/-- The messages of an execution. -/
def Message.ofExecution : Message ν → Bool
  | .results _ _ _ _ | .error _ _ _ | .execComplete _ _ _ _ _ _
  | .showoutput _ => true
  | _ => false

/-- `R` holds across the steps of an execution. -/
structure Routine (svc : Services σ ν)
    (R : RSession σ ν → RSession σ ν → Prop) : Prop where
  called : ∀ c, c.readsVariables = false → ∀ s, R s (s.called svc c)
  sending : ∀ m : Message ν, m.ofExecution = true → ∀ s, R s (s.sending m)
  bufferFlushed : ∀ isError s, R s (s.bufferFlushed isError)
  ignoring : ∀ b s, R s (s.ignoring b)
  capturing : ∀ b s, R s (s.capturing b)
  sourcing : ∀ b s, R s (s.sourcing b)
  scheduling : ∀ event s, R s (s.scheduling event)
  resetWatch : ∀ s, R s (s.moving svc.resetWatch)

namespace Routine

variable {svc : Services σ ν} {R : RSession σ ν → RSession σ ν → Prop}
  [Std.Refl R] [IsTrans (RSession σ ν) R]

omit [Std.Refl R] [IsTrans (RSession σ ν) R] in
theorem call_moves_of {c : Call} (h : ∀ s, R s (s.called svc c)) :
    Act.Moves R (call svc c) := by
  intro s
  rw [wp_call]
  split
  · exact h s
  · exact h s

omit [IsTrans (RSession σ ν) R] in
theorem read_moves {α : Type} (x : Except CxxException α) :
    Act.Moves R (read x : Handler σ ν α) := by
  cases x with
  | ok a => exact Act.Moves.pure a
  | error e => exact Act.Moves.throw e

omit [Std.Refl R] in
theorem watcherCall_moves_of {c : Call}
    (hsummary : Act.Moves R (ignoringOutput (call svc .addSummary)))
    (hc : Act.Moves R (call svc c)) : Act.Moves R (watcherCall svc c) :=
  Act.Moves.ite (hsummary.bind fun _ => hc) hc

theorem catchRuntimeError_moves {α : Type} {x : Handler σ ν α}
    {handler : CxxException → Handler σ ν α} (hx : Act.Moves R x)
    (hh : ∀ e, Act.Moves R (handler e)) :
    Act.Moves R (catchRuntimeError x handler) :=
  hx.tryCatch fun e => Act.Moves.ite (hh e) (Act.Moves.throw e)

variable (h : Routine svc R)

include h

omit [Std.Refl R] [IsTrans (RSession σ ν) R] in
theorem call_moves {c : Call} (hc : c.readsVariables = false) :
    Act.Moves R (call svc c) :=
  call_moves_of (h.called c hc)

theorem test_moves {c : Call} (hc : c.readsVariables = false) :
    Act.Moves R (test svc c) :=
  Act.Moves.get.bind fun _ => (h.call_moves hc).bind fun _ =>
    Act.Moves.pure _

omit [Std.Refl R] [IsTrans (RSession σ ν) R] in
theorem send_moves {m : Message ν} (hm : m.ofExecution = true) :
    Act.Moves R (sendJsonToClientSource m : Handler σ ν Unit) :=
  Act.Moves.modify (h.sending m hm)

omit [Std.Refl R] in
theorem ignoringOutput_moves {α : Type} {body : Handler σ ν α}
    (hbody : Act.Moves R body) : Act.Moves R (ignoringOutput body) :=
  Act.Moves.ensuring
    ((Act.Moves.modify (h.ignoring true)).bind fun _ => hbody)
    (h.ignoring false)

omit [Std.Refl R] in
theorem flushOutputBuffer_moves : Act.Moves R (flushOutputBuffer svc) := by
  apply (Act.Moves.modify (h.ignoring true)).bind
  intro _
  apply (h.call_moves (c := pngoff) rfl).bind
  intro _
  apply (Act.Moves.modify (h.ignoring false)).bind
  intro _ s
  rw [wp_sendOutputBufferToClient]
  exact h.bufferFlushed false s

theorem scheduleExecComplete_moves (command : JsonCommand)
    (info : FileInfo) :
    Act.Moves R
      (scheduleExecCompleteAcknowledgmenet command info : Handler σ ν Unit) :=
  Act.Moves.get.bind fun _ => Act.Moves.modify (h.scheduling _)

theorem findOrAddFile_moves (fname : String) :
    Act.Moves R (findOrAddFile svc fname) :=
  Act.Moves.get.bind fun _ => (h.call_moves rfl).bind fun _ =>
    Act.Moves.pure _

/-! ## Scripts -/

/-- A script, once the variables are captured. -/
theorem runScript_moves (argument : String) (sendDelta : Bool)
    (command : JsonCommand) :
    Act.Moves R (do
      Act.modify (RSession.moving svc.resetWatch)
      call svc (.parseEvalR argument)
      flushOutputBuffer svc
      match svc.parseResult with
      | .PE_SUCCESS => do
          scheduleExecCompleteAcknowledgmenet command noFile
          if sendDelta then scheduleDelayedCommand
      | .PE_INCOMPLETE => sendTextToClient incompleteStatement true .session
      | _ => pure ()) := by
  apply (Act.Moves.modify h.resetWatch).bind
  intro _
  apply (h.call_moves rfl).bind
  intro _
  apply h.flushOutputBuffer_moves.bind
  intro _
  split
  · apply (h.scheduleExecComplete_moves _ _).bind
    intro _
    exact Act.Moves.ite (Act.Moves.modify (h.scheduling _))
      (Act.Moves.pure _)
  · intro s
    rw [Act.wp, sendTextToClient_apply_of_pos (by decide)]
    exact h.sending _ rfl s
  · exact Act.Moves.pure _

theorem handleExecuteScript_moves
    (hcapture : ∀ s, R s (s.called svc .captureEnvironment))
    (command : JsonCommand) :
    Act.Moves R (handleExecuteScript svc command) := by
  apply (read_moves _).bind
  intro argument
  apply Act.Moves.get.bind
  intro s
  apply (read_moves _).bind
  intro sendDelta
  apply (Act.Moves.ite (call_moves_of hcapture) (Act.Moves.pure _)).bind
  intro _
  exact h.runScript_moves argument sendDelta command

/-! ## Files -/

theorem generated_moves (path : String) :
    Act.Moves R (generated svc path) := by
  apply (h.test_moves rfl).bind
  intro found
  exact Act.Moves.ite (Act.Moves.get.bind fun _ => Act.Moves.pure _)
    (Act.Moves.pure _)

theorem renderMarkdown_moves (fileName tmp htmlPath : String) :
    Act.Moves R (renderMarkdown svc fileName tmp htmlPath) := by
  apply h.ignoringOutput_moves
  apply (Act.Moves.modify (h.capturing true)).bind
  intro _
  apply (h.call_moves (c := renderFile fileName tmp) rfl).bind
  intro _
  apply (Act.Moves.modify (h.capturing false)).bind
  intro _
  apply h.flushOutputBuffer_moves.bind
  intro _
  apply (h.test_moves rfl).bind
  intro hasHtml
  exact Act.Moves.ite ((h.call_moves rfl).bind fun _ => Act.Moves.pure _)
    (Act.Moves.pure _)

theorem reportMarkdown_moves (fileName : String) (generatedHtml : Bool)
    (command : JsonCommand) :
    Act.Moves R (reportMarkdown svc fileName generatedHtml command) := by
  apply Act.Moves.get.bind
  intro s
  apply (h.call_moves (c := resetDirectory s.tmpDir) rfl).bind
  intro _
  apply (h.generated_moves _).bind
  intro fileGenerated
  apply Act.Moves.ite
  · apply h.ignoringOutput_moves
    exact (h.findOrAddFile_moves _).bind fun _ =>
      h.scheduleExecComplete_moves _ _
  · exact Act.Moves.get.bind fun _ => h.send_moves rfl

theorem executeRMarkdown_moves (fileName : String) (command : JsonCommand) :
    Act.Moves R (executeRMarkdown svc fileName command) := by
  apply Act.Moves.get.bind
  intro s
  apply (h.call_moves rfl).bind
  intro _
  apply (h.call_moves rfl).bind
  intro _
  apply (h.renderMarkdown_moves _ _ _).bind
  intro rendered
  exact h.reportMarkdown_moves fileName rendered command

/-- What `collectPdf` does once `texi2pdf` is done. -/
theorem collectResult_moves (srcPath scratchPath baseName tmpDir : String) :
    Act.Moves R (do
      if ← generated svc (append scratchPath (baseName ++ ".pdf")) then do
        call svc (.copyFile (append scratchPath (baseName ++ ".pdf"))
          (append tmpDir (baseName ++ ".pdf")))
        findOrAddFile svc (baseName ++ ".pdf")
      else if ← test svc
          (.pathExists (append scratchPath (baseName ++ ".log"))) then do
        call svc (.copyFile (append scratchPath (baseName ++ ".log"))
          (append (parentPath srcPath) ".log"))
        pure noFile
      else
        pure noFile) := by
  apply (h.generated_moves _).bind
  intro hasPdf
  apply Act.Moves.ite
  · exact (h.call_moves rfl).bind fun _ => h.findOrAddFile_moves _
  · apply (h.test_moves rfl).bind
    intro hasLog
    exact Act.Moves.ite ((h.call_moves rfl).bind fun _ => Act.Moves.pure _)
      (Act.Moves.pure _)

/-- What `finishSweave` does once the result is collected. -/
theorem leaveScratch_moves (scratchPath : String) (command : JsonCommand)
    (finfo : FileInfo) : Act.Moves R (do
      call svc (changeDirectory (parentPath scratchPath))
      Act.modify (RSession.ignoring false)
      flushOutputBuffer svc
      scheduleExecCompleteAcknowledgmenet command finfo) := by
  apply (h.call_moves (c := changeDirectory (parentPath scratchPath))
    rfl).bind
  intro _
  apply (Act.Moves.modify (h.ignoring false)).bind
  intro _
  apply h.flushOutputBuffer_moves.bind
  intro _
  exact h.scheduleExecComplete_moves _ _

theorem executeSource_moves (fpath : String) (command : JsonCommand) :
    Act.Moves R (executeSource svc fpath command) := by
  apply (Act.Moves.modify (h.sourcing true)).bind
  intro _
  apply (h.call_moves (c := sourceFile fpath) rfl).bind
  intro _
  apply h.flushOutputBuffer_moves.bind
  intro _
  apply (Act.Moves.modify (h.sourcing false)).bind
  intro _
  apply (h.scheduleExecComplete_moves _ _).bind
  intro _
  apply Act.Moves.get.bind
  intro s
  exact Act.Moves.ite (Act.Moves.modify (h.scheduling _)) (Act.Moves.pure _)

section copies

variable
  (hcopying : ∀ messages (s : RSession σ ν), R s (s.copying messages))

include hcopying

theorem forkTexi2pdf_moves (texPath : String) :
    Act.Moves R (forkTexi2pdf svc texPath) := by
  apply Act.Moves.get.bind
  intro s
  apply (Act.Moves.modify (hcopying _)).bind
  intro _
  exact h.call_moves rfl

theorem collectPdf_moves (srcPath scratchPath baseName : String) :
    Act.Moves R (collectPdf svc srcPath scratchPath baseName) := by
  apply Act.Moves.get.bind
  intro s
  apply (Act.Moves.modify (h.ignoring true)).bind
  intro _
  apply (h.forkTexi2pdf_moves hcopying _).bind
  intro _
  apply (Act.Moves.modify (h.ignoring false)).bind
  intro _
  exact h.collectResult_moves _ _ _ _

theorem finishSweave_moves (srcPath scratchPath baseName : String)
    (command : JsonCommand) :
    Act.Moves R (finishSweave svc srcPath scratchPath baseName command) := by
  have hcollect : Act.Moves R
      (collectTex svc srcPath scratchPath baseName) := by
    apply (h.test_moves rfl).bind
    intro found
    exact Act.Moves.ite (h.collectPdf_moves hcopying _ _ _) (Act.Moves.pure _)
  exact hcollect.bind fun _ => h.leaveScratch_moves _ _ _

theorem executeSweave_moves (filePath : String) (command : JsonCommand) :
    Act.Moves R (executeSweave svc filePath command) := by
  apply Act.Moves.get.bind
  intro s
  apply (h.call_moves rfl).bind
  intro _
  apply (h.call_moves
    (c := changeDirectory (append s.tmpDir ".rc2sw")) rfl).bind
  intro _
  apply Act.Moves.bind
  · apply catchRuntimeError_moves
    · exact (h.call_moves (c := sweaveFile filePath) rfl).bind fun _ =>
        Act.Moves.pure _
    · intro e
      apply Act.Moves.bind
      · intro s
        rw [wp_sendOutputBufferToClient]
        exact h.bufferFlushed true s
      · intro _
        exact (h.scheduleExecComplete_moves _ _).bind fun _ =>
          Act.Moves.pure _
  · intro returned
    exact Act.Moves.ite (h.finishSweave_moves hcopying _ _ _ _)
      (Act.Moves.pure _)

theorem executeByExtension_moves (fpath : String) (command : JsonCommand) :
    Act.Moves R (executeByExtension svc fpath command) := by
  apply Act.Moves.get.bind
  intro s
  apply Act.Moves.ite (h.executeRMarkdown_moves fpath command)
  apply Act.Moves.ite (h.executeSweave_moves hcopying fpath command)
  apply Act.Moves.ite (h.executeSource_moves fpath command)
  exact h.send_moves rfl

theorem executeFile_moves
    (hcapture : ∀ s, R s (s.called svc .captureEnvironment))
    (command : JsonCommand) : Act.Moves R (executeFile svc command) := by
  apply (read_moves _).bind
  intro argument
  apply Act.Moves.get.bind
  intro s
  split
  · exact h.send_moves rfl
  · apply (Act.Moves.modify h.resetWatch).bind
    intro _
    apply Act.Moves.get.bind
    intro s
    apply (Act.Moves.ite (call_moves_of hcapture) (Act.Moves.pure _)).bind
    intro _
    exact h.executeByExtension_moves hcopying _ command

end copies

/-! ## Acknowledgements -/

theorem handleExecComplete_moves (command : JsonCommand) (queryId : ℤ)
    (finfo : FileInfo) :
    Act.Moves R (handleExecComplete svc command queryId finfo) := by
  rw [handleExecComplete, acknowledgeExecComplete]
  intro s
  simp only [Act.wp_bind, Act.wp_get, Act.wp_pure,
    wp_sendJsonToClientSource]
  refine (h.call_moves (c := .cleanupImageWatch) rfl s).mono ?_
    fun _ _ hmoved => hmoved
  intro _ s₁ h₁
  refine ((read_moves command.startTimeStr).wp_of h₁).mono ?_
    fun _ _ hmoved => hmoved
  intro startTime s₂ h₂
  have hend := IsTrans.trans _ _ _ h₂ (h.sending (.execComplete startTime
    (queryIdField queryId) (clientDataField command.clientData)
    (decide (finfo.id > 0)) (svc.checkWatch s₂.outer).1
    (svc.checkWatch s₂.outer).2) rfl s₂)
  split
  · exact IsTrans.trans _ _ _ hend (h.sending _ rfl _)
  · exact hend

end Routine

/-! ## The other commands -/

/-- The messages that answer a command about variables or help. -/
def Message.ofInspection : Message ν → Bool
  | .variableupdate _ _ _ | .variablevalue _ _ _ | .help _ _ => true
  | _ => false

/-- `R` holds across the steps of every command but `open` and `close`. -/
structure CommandRoutine (svc : Services σ ν)
    (R : RSession σ ν → RSession σ ν → Prop) : Prop
    extends Routine svc R where
  reading : ∀ c s, R s (s.called svc c)
  answering : ∀ m : Message ν, m.ofInspection = true → ∀ s, R s (s.sending m)
  watching : ∀ watch s, R s { s with watchVariables := watch }

namespace CommandRoutine

variable {svc : Services σ ν} {R : RSession σ ν → RSession σ ν → Prop}
  [Std.Refl R] [IsTrans (RSession σ ν) R] (h : CommandRoutine svc R)

include h

omit [Std.Refl R] [IsTrans (RSession σ ν) R] in
theorem anyCall_moves (c : Call) : Act.Moves R (call svc c) :=
  Routine.call_moves_of (h.reading c)

omit [Std.Refl R] [IsTrans (RSession σ ν) R] in
theorem answer_moves {m : Message ν} (hm : m.ofInspection = true) :
    Act.Moves R (sendJsonToClientSource m : Handler σ ν Unit) :=
  Act.Moves.modify (h.answering m hm)

omit [Std.Refl R] in
theorem watcherCall_moves (c : Call) : Act.Moves R (watcherCall svc c) :=
  Routine.watcherCall_moves_of
    (h.ignoringOutput_moves (h.anyCall_moves .addSummary)) (h.anyCall_moves c)

theorem handleListVariables_moves (delta : Bool) (command : JsonCommand) :
    Act.Moves R (handleListVariablesCommand svc delta command) := by
  apply (h.watcherCall_moves _).bind
  intro _
  apply Act.Moves.get.bind
  intro s
  exact h.answer_moves rfl

theorem handleGetVariable_moves (command : JsonCommand) :
    Act.Moves R (handleGetVariableCommand svc command) := by
  apply (Routine.read_moves _).bind
  intro name
  apply (h.watcherCall_moves _).bind
  intro _
  apply Act.Moves.get.bind
  intro s
  apply (Routine.read_moves _).bind
  intro startTime
  exact h.answer_moves rfl

theorem handleHelp_moves (command : JsonCommand) :
    Act.Moves R (handleHelpCommand svc command) := by
  have hlookup : ∀ topic, Act.Moves R (do
      call svc (helpTopic topic)
      call svc .helpResult
      sendJsonToClientSource (.help topic svc.helpPaths)) := by
    intro topic
    apply (h.anyCall_moves _).bind
    intro _
    apply (h.anyCall_moves _).bind
    intro _
    exact h.answer_moves rfl
  apply (Routine.read_moves _).bind
  intro topic
  apply (Act.Moves.modify (h.ignoring true)).bind
  intro _
  apply (Routine.catchRuntimeError_moves (hlookup topic)
    fun _ => Act.Moves.pure _).bind
  intro _
  exact Act.Moves.modify (h.ignoring false)

theorem handleToggleWatch_moves (command : JsonCommand) :
    Act.Moves R (handleToggleWatch svc command) := by
  apply (Routine.read_moves _).bind
  intro watch
  apply (Act.Moves.modify (h.watching watch)).bind
  intro _
  exact Act.Moves.ite (h.handleListVariables_moves _ _) (Act.Moves.pure _)

omit [Std.Refl R] in
theorem handleSaveEnv_moves : Act.Moves R (handleSaveEnvCommand svc) :=
  (h.anyCall_moves _).bind fun _ => h.anyCall_moves _

/-- Closing is left to the caller. -/
theorem dispatchCommand_moves (command : JsonCommand)
    (hclose : command.type = .Close → Act.Moves R (handleCloseCommand svc))
    (hcopying : command.type = .ExecFile →
      ∀ messages (s : RSession σ ν), R s (s.copying messages)) :
    Act.Moves R (dispatchCommand svc command) := by
  have hcapture := h.reading .captureEnvironment
  rw [dispatchCommand]
  split
  next htype => exact hclose htype
  · exact Act.Moves.modify h.resetWatch
  · exact h.handleExecuteScript_moves hcapture command
  next htype => exact h.executeFile_moves (hcopying htype) hcapture command
  · exact h.handleHelp_moves command
  · exact (Routine.read_moves _).bind fun _ =>
      h.handleListVariables_moves _ command
  · exact h.handleGetVariable_moves command
  · exact h.handleToggleWatch_moves command
  · exact h.handleSaveEnv_moves
  · exact Act.Moves.pure _
  · exact Act.Moves.pure _

end CommandRoutine

end Rc2Compute.Session
