import Rc2Compute.Session.RSession

/-!
# Calling services

What a call leaves behind: the texts R wrote, by the flags the session held
them under, and the exception when the call throws.  `Failure` names the call
an exception comes from.
-/

namespace Rc2Compute.Session

open Files (FileInfo)

variable {σ ν : Type}

/-! ## Console output -/

/-- A message R wrote, tagged with the query under way. -/
def Message.fromConsole : Message ν → Bool
  | .results _ _ _ .console => true
  | _ => false

namespace RSession

variable (s : RSession σ ν) (writes : List ConsoleWrite)

/-- Whether nothing R writes reaches the client. -/
def muted : Bool :=
  s.captureStdOut || s.ignoreOutput

/-- The texts added to `stdOutCapture`. -/
def captured : String :=
  if s.captureStdOut then String.join (writes.map ConsoleWrite.text) else ""

/-- The messages for the texts R writes to `stderr`. -/
def errorsSent : List (Message ν) :=
  if s.muted then []
  else (writes.filter fun w => w.isError && decide (0 < w.text.length)).map
    fun w => formatStringAsJson s w.text true .console

/-- The texts added to `consoleOutBuffer`. -/
def buffered : String :=
  if s.muted then ""
  else String.join ((writes.filter fun w =>
    !w.isError && (w.visible || s.sourceInProgress)).map ConsoleWrite.text)

/-- The session after R has written to the console. -/
@[simps] def written : RSession σ ν :=
  { s with
    stdOutCapture := s.stdOutCapture ++ s.captured writes
    sent := s.sent ++ s.errorsSent writes
    consoleOutBuffer := s.consoleOutBuffer ++ s.buffered writes }

/-- The message for the buffered output, if there is any. -/
def bufferSent (isError : Bool) : List (Message ν) :=
  if 0 < s.consoleOutBuffer.length then
    [formatStringAsJson s s.consoleOutBuffer isError .console]
  else []

/-- The session after the buffered output has been sent. -/
@[simps] def bufferFlushed (isError : Bool) : RSession σ ν :=
  { s with
    sent := s.sent ++ s.bufferSent isError
    consoleOutBuffer := "" }

end RSession

namespace RSession

theorem written_nil (s : RSession σ ν) : s.written [] = s := by
  simp [written, captured, errorsSent, buffered, String.join]

theorem captured_append (s : RSession σ ν) (ws rest : List ConsoleWrite) :
    s.captured (ws ++ rest) = s.captured ws ++ s.captured rest := by
  unfold captured
  split
  · rw [List.map_append, String.join_append]
  · simp

theorem errorsSent_append (s : RSession σ ν) (ws rest : List ConsoleWrite) :
    s.errorsSent (ws ++ rest) = s.errorsSent ws ++ s.errorsSent rest := by
  unfold errorsSent
  split
  · rfl
  · rw [List.filter_append, List.map_append]

theorem buffered_append (s : RSession σ ν) (ws rest : List ConsoleWrite) :
    s.buffered (ws ++ rest) = s.buffered ws ++ s.buffered rest := by
  unfold buffered
  split
  · simp
  · rw [List.filter_append, List.map_append, String.join_append]

/-- Writing changes none of the flags the texts are held under. -/
theorem written_append (s : RSession σ ν) (ws rest : List ConsoleWrite) :
    s.written (ws ++ rest) = (s.written ws).written rest := by
  have hcaptured : (s.written ws).captured rest = s.captured rest := rfl
  have herrors : (s.written ws).errorsSent rest = s.errorsSent rest := rfl
  have hbuffered : (s.written ws).buffered rest = s.buffered rest := rfl
  rw [written, written, hcaptured, herrors, hbuffered, captured_append,
    errorsSent_append, buffered_append]
  simp only [written, String.append_assoc, List.append_assoc]

end RSession

theorem sendTextToClient_apply (text : String) (isError : Bool)
    (origin : Origin) (s : RSession σ ν) :
    sendTextToClient text isError origin s =
      (.returned (), { s with sent := s.sent ++
        if 0 < text.length then [formatStringAsJson s text isError origin]
        else [] }) := by
  rw [sendTextToClient, Act.bind_apply_returned (Act.get_apply s)]
  split
  next h => simp [show ¬0 < text.length by omega]
  next h =>
    rw [if_pos (by omega)]
    rfl

theorem sendTextToClient_apply_of_pos {text : String}
    (htext : 0 < text.length) (isError : Bool) (origin : Origin)
    (s : RSession σ ν) :
    sendTextToClient text isError origin s =
      (.returned (), s.sending (formatStringAsJson s text isError origin)) := by
  rw [sendTextToClient_apply, if_pos htext]
  rfl

/-- A text is formatted by the flag and the query id only. -/
theorem formatStringAsJson_congr {s s' : RSession σ ν}
    (hsource : s'.sourceInProgress = s.sourceInProgress)
    (hid : s'.currentQueryId = s.currentQueryId) (input : String)
    (isError : Bool) (origin : Origin) :
    formatStringAsJson s' input isError origin =
      formatStringAsJson s input isError origin := by
  rw [formatStringAsJson, formatStringAsJson, hsource, hid]

theorem consoleCallback_apply (write : ConsoleWrite) (s : RSession σ ν) :
    consoleCallback write s = (.returned (), s.written [write]) := by
  rw [consoleCallback, Act.bind_apply_returned (Act.get_apply s)]
  by_cases hcapture : s.captureStdOut
  · have hmuted : s.muted := by simp [RSession.muted, hcapture]
    simp [hcapture, hmuted, RSession.written, RSession.captured,
      RSession.errorsSent, RSession.buffered, String.join]
  have hcaptured : s.captured [write] = "" := if_neg hcapture
  rw [if_neg hcapture]
  by_cases hignore : s.ignoreOutput
  · have hmuted : s.muted := by simp [RSession.muted, hignore]
    rw [if_pos hignore]
    simp [hmuted, hcaptured, RSession.written, RSession.errorsSent,
      RSession.buffered]
  have hmuted : s.muted = false := by simp [RSession.muted, hcapture, hignore]
  rw [if_neg hignore]
  split
  next herror =>
    rw [sendTextToClient_apply]
    by_cases hlength : 0 < write.text.length
    · simp [herror, hlength, hmuted, hcaptured, RSession.written,
        RSession.errorsSent, RSession.buffered]
    · simp [herror, hlength, hmuted, hcaptured, RSession.written,
        RSession.errorsSent, RSession.buffered]
  next herror =>
    split
    next hvisible =>
      simp [herror, hvisible, hmuted, hcaptured, RSession.written,
        RSession.errorsSent, RSession.buffered, String.join]
    next hvisible =>
      simp [herror, hvisible, hmuted, hcaptured, RSession.written,
        RSession.errorsSent, RSession.buffered, String.join]

theorem forEach_consoleCallback (writes : List ConsoleWrite)
    (s : RSession σ ν) :
    Act.forEach writes consoleCallback s =
      (.returned (), s.written writes) := by
  induction writes generalizing s with
  | nil => rw [RSession.written_nil, Act.forEach_nil]
  | cons write rest ih =>
      rw [Act.forEach_cons,
        Act.bind_apply_returned (consoleCallback_apply write s), ih,
        ← RSession.written_append]
      rfl

theorem sendOutputBufferToClient_apply (isError : Bool) (s : RSession σ ν) :
    sendOutputBufferToClient isError s =
      (.returned (), s.bufferFlushed isError) := by
  rw [sendOutputBufferToClient, Act.bind_apply_returned (Act.get_apply s)]
  split
  next h =>
    rw [Act.bind_apply_returned (sendTextToClient_apply _ _ _ s)]
    simp [RSession.bufferFlushed, RSession.bufferSent, h]
  next h =>
    have hempty : s.consoleOutBuffer = "" :=
      String.length_eq_zero_iff.mp (by omega)
    rw [RSession.bufferFlushed, RSession.bufferSent, if_neg h,
      List.append_nil, ← hempty]
    rfl

/-! ## Calls -/

section Calls

variable (svc : Services σ ν)

namespace RSession

variable (s : RSession σ ν)

/-- The session after a call, however the call ends. -/
@[simps!] def called (c : Call) : RSession σ ν :=
  (s.written (svc.output c)).moving (svc.effect c)

def calledIf (condition : Bool) (c : Call) : RSession σ ν :=
  if condition then s.called svc c else s

section calledIf

variable (condition : Bool) (c : Call)

@[simp] theorem calledIf_currentQueryId :
    (s.calledIf svc condition c).currentQueryId = s.currentQueryId := by
  cases condition with
  | true => rfl
  | false => rfl

@[simp] theorem calledIf_sourceInProgress :
    (s.calledIf svc condition c).sourceInProgress = s.sourceInProgress := by
  cases condition with
  | true => rfl
  | false => rfl

@[simp] theorem calledIf_captureStdOut :
    (s.calledIf svc condition c).captureStdOut = s.captureStdOut := by
  cases condition with
  | true => rfl
  | false => rfl

@[simp] theorem calledIf_watchVariables :
    (s.calledIf svc condition c).watchVariables = s.watchVariables := by
  cases condition with
  | true => rfl
  | false => rfl

@[simp] theorem calledIf_tmpDir :
    (s.calledIf svc condition c).tmpDir = s.tmpDir := by
  cases condition with
  | true => rfl
  | false => rfl

@[simp] theorem calledIf_outer :
    (s.calledIf svc condition c).outer =
      if condition then svc.effect c s.outer else s.outer := by
  cases condition with
  | true => rfl
  | false => rfl

end calledIf

/-- The session after it has waited for `texi2pdf`, or for its copy. -/
@[simps!] def forked (texPath : String) : RSession σ ν :=
  (s.copying (svc.copySends texPath s.outer)).called svc (.texi2pdf texPath)

/-- The session after R has saved its images and the buffer has been sent. -/
@[simps!] def flushed : RSession σ ν :=
  (((s.ignoring true).called svc pngoff).ignoring false).bufferFlushed false

end RSession

variable {svc} {post : Unit → RSession σ ν → Prop}
  {exn : CxxException → RSession σ ν → Prop}

theorem wp_call (c : Call) :
    Act.wp (call svc c) post exn = fun s =>
      match svc.throws c with
      | none => post () (s.called svc c)
      | some e => exn e (s.called svc c) := by
  funext s
  rw [call, Act.wp, Act.bind_apply_returned (forEach_consoleCallback _ s),
    Act.bind_apply_returned (Act.modify_apply _ _)]
  cases svc.throws c with
  | none => rfl
  | some e => rfl

theorem wp_callIf (condition : Bool) (c : Call) :
    Act.wp (callIf svc condition c) post exn = fun s =>
      match if condition then svc.throws c else none with
      | none => post () (s.calledIf svc condition c)
      | some e => exn e (s.called svc c) := by
  cases condition with
  | true => exact wp_call c
  | false => rfl

theorem wp_test {post : Bool → RSession σ ν → Prop} (c : Call) :
    Act.wp (test svc c) post exn = fun s =>
      match svc.throws c with
      | none => post (svc.holds c s.outer) (s.called svc c)
      | some e => exn e (s.called svc c) := by
  funext s
  rw [test, Act.wp_bind, Act.wp_get]
  beta_reduce
  rw [Act.wp_bind, wp_call]
  rfl

theorem wp_forkTexi2pdf (texPath : String) :
    Act.wp (forkTexi2pdf svc texPath) post exn = fun s =>
      match svc.throws (.texi2pdf texPath) with
      | none => post () (s.forked svc texPath)
      | some e => exn e (s.forked svc texPath) := by
  funext s
  rw [forkTexi2pdf, Act.wp_bind, Act.wp_get]
  beta_reduce
  rw [Act.wp_bind, Act.wp_modify, wp_call]
  rfl

theorem wp_findOrAddFile {post : FileInfo → RSession σ ν → Prop}
    (fname : String) :
    Act.wp (findOrAddFile svc fname) post exn = fun s =>
      match svc.throws (.findOrAddFile fname) with
      | none => post (svc.foundFile s.outer fname)
          (s.called svc (.findOrAddFile fname))
      | some e => exn e (s.called svc (.findOrAddFile fname)) := by
  funext s
  rw [findOrAddFile, Act.wp_bind, Act.wp_get]
  beta_reduce
  rw [Act.wp_bind, wp_call]
  rfl

theorem wp_read {α : Type} {post : α → RSession σ ν → Prop}
    (x : Except CxxException α) :
    Act.wp (read x) post exn = fun s =>
      match x with
      | .ok a => post a s
      | .error e => exn e s := by
  cases x with
  | ok a => rfl
  | error e => rfl

theorem wp_catchRuntimeError {α : Type} {post : α → RSession σ ν → Prop}
    (x : Handler σ ν α) (handler : CxxException → Handler σ ν α) :
    Act.wp (catchRuntimeError x handler) post exn =
      Act.wp x post fun e s =>
        if e.type.isRuntimeError then Act.wp (handler e) post exn s
        else exn e s := by
  rw [catchRuntimeError, Act.wp_tryCatch]
  congr 1
  funext e s
  split
  · rfl
  · rfl

theorem wp_ignoringOutput {α : Type} {post : α → RSession σ ν → Prop}
    (body : Handler σ ν α) :
    Act.wp (ignoringOutput body) post exn = fun s =>
      Act.wp body (fun a s' => post a (s'.ignoring false))
        (fun e s' => exn e (s'.ignoring false)) (s.ignoring true) := by
  rw [ignoringOutput, Act.wp_ensuring, Act.wp_bind]
  rfl

theorem wp_sendOutputBufferToClient (isError : Bool) :
    Act.wp (sendOutputBufferToClient isError) post exn =
      fun s => post () (s.bufferFlushed isError) := by
  funext s
  rw [Act.wp, sendOutputBufferToClient_apply]

theorem wp_flushOutputBuffer :
    Act.wp (flushOutputBuffer svc) post exn = fun s =>
      match svc.throws pngoff with
      | none => post () (s.flushed svc)
      | some e => exn e ((s.ignoring true).called svc pngoff) := by
  rw [flushOutputBuffer, Act.wp_bind, Act.wp_modify]
  funext s
  rw [Act.wp_bind, wp_call]
  cases svc.throws pngoff with
  | none =>
      beta_reduce
      rw [Act.wp_bind, Act.wp_modify, wp_sendOutputBufferToClient]
      rfl
  | some e => rfl

theorem wp_sendJsonToClientSource (json : Message ν) :
    Act.wp (sendJsonToClientSource json) post exn =
      fun s => post () (s.sending json) := rfl

theorem wp_schedule (event : Deferred) :
    Act.wp (schedule event) post exn =
      fun s => post () (s.scheduling event) := rfl

theorem wp_scheduleExecComplete (command : JsonCommand) (info : FileInfo) :
    Act.wp (scheduleExecCompleteAcknowledgmenet command info) post exn =
      fun s => post ()
        (s.scheduling (.execComplete command s.currentQueryId info)) := rfl

/-! ## Rules for a call and what follows it -/

section Rules

variable {α β : Type} {s : RSession σ ν} {post : β → RSession σ ν → Prop}

theorem call_rule {c : Call} {f : Unit → Handler σ ν β}
    (hthrows : ∀ e, svc.throws c = some e → exn e (s.called svc c))
    (hreturns : svc.throws c = none →
      Act.wp (f ()) post exn (s.called svc c)) :
    Act.wp (call svc c >>= f) post exn s := by
  rw [Act.wp_bind, wp_call]
  split
  next h => exact hreturns h
  next e h => exact hthrows e h

theorem callIf_rule {condition : Bool} {c : Call} {f : Unit → Handler σ ν β}
    (hthrows : ∀ e, (if condition then svc.throws c else none) = some e →
      exn e (s.called svc c))
    (hreturns : (if condition then svc.throws c else none) = none →
      Act.wp (f ()) post exn (s.calledIf svc condition c)) :
    Act.wp (callIf svc condition c >>= f) post exn s := by
  rw [Act.wp_bind, wp_callIf]
  split
  next h => exact hreturns h
  next e h => exact hthrows e h

theorem test_rule {c : Call} {f : Bool → Handler σ ν β}
    (hthrows : ∀ e, svc.throws c = some e → exn e (s.called svc c))
    (hreturns : svc.throws c = none →
      Act.wp (f (svc.holds c s.outer)) post exn (s.called svc c)) :
    Act.wp (test svc c >>= f) post exn s := by
  rw [Act.wp_bind, wp_test]
  split
  next h => exact hreturns h
  next e h => exact hthrows e h

theorem flush_rule {f : Unit → Handler σ ν β}
    (hthrows : ∀ e, svc.throws pngoff = some e →
      exn e ((s.ignoring true).called svc pngoff))
    (hreturns : svc.throws pngoff = none →
      Act.wp (f ()) post exn (s.flushed svc)) :
    Act.wp (flushOutputBuffer svc >>= f) post exn s := by
  rw [Act.wp_bind, wp_flushOutputBuffer]
  split
  next h => exact hreturns h
  next e h => exact hthrows e h

theorem forkTexi2pdf_rule {texPath : String} {f : Unit → Handler σ ν β}
    (hthrows : ∀ e, svc.throws (.texi2pdf texPath) = some e →
      exn e (s.forked svc texPath))
    (hreturns : svc.throws (.texi2pdf texPath) = none →
      Act.wp (f ()) post exn (s.forked svc texPath)) :
    Act.wp (forkTexi2pdf svc texPath >>= f) post exn s := by
  rw [Act.wp_bind, wp_forkTexi2pdf]
  split
  next h => exact hreturns h
  next e h => exact hthrows e h

theorem read_rule {x : Except CxxException α} {f : α → Handler σ ν β}
    (hthrows : ∀ e, x = .error e → exn e s)
    (hreturns : ∀ a, x = .ok a → Act.wp (f a) post exn s) :
    Act.wp (read x >>= f) post exn s := by
  rw [Act.wp_bind, wp_read]
  cases x with
  | ok a => exact hreturns a rfl
  | error e => exact hthrows e rfl

/-- `fs::exists(path) && fs::file_size(path, ec) > 0`. -/
def Services.isGenerated (svc : Services σ ν) (path : String) (outer : σ) :
    Bool :=
  svc.holds (.pathExists path) outer &&
    svc.sizePositive path (svc.effect (.pathExists path) outer)

theorem generated_rule {path : String} {f : Bool → Handler σ ν β}
    (hthrows : ∀ e, svc.throws (.pathExists path) = some e →
      exn e (s.called svc (.pathExists path)))
    (hreturns : svc.throws (.pathExists path) = none →
      Act.wp (f (svc.isGenerated path s.outer)) post exn
        (s.called svc (.pathExists path))) :
    Act.wp (generated svc path >>= f) post exn s := by
  rw [Act.wp_bind, generated]
  apply test_rule hthrows
  intro hexists
  have hrest := hreturns hexists
  rw [Services.isGenerated] at hrest
  cases hholds : svc.holds (.pathExists path) s.outer with
  | true => simpa [hholds] using hrest
  | false => simpa [hholds] using hrest

theorem findOrAddFile_rule {fname : String} {f : FileInfo → Handler σ ν β}
    (hthrows : ∀ e, svc.throws (.findOrAddFile fname) = some e →
      exn e (s.called svc (.findOrAddFile fname)))
    (hreturns : svc.throws (.findOrAddFile fname) = none →
      Act.wp (f (svc.foundFile s.outer fname)) post exn
        (s.called svc (.findOrAddFile fname))) :
    Act.wp (findOrAddFile svc fname >>= f) post exn s := by
  rw [Act.wp_bind, wp_findOrAddFile]
  split
  next h => exact hreturns h
  next e h => exact hthrows e h

end Rules

end Calls

/-! ## Progress -/

/-- The query id a message carries. -/
def Message.queryId : Message ν → Option ℤ
  | .results _ _ queryId _ | .error _ _ queryId
  | .execComplete _ queryId _ _ _ _ => queryId
  | _ => none

/-- Between `s` and `s'` a handler has sent `replies`, besides what R wrote
under the query of `s`, and has put `events` in the queue. -/
structure Progress (s s' : RSession σ ν) (replies : List (Message ν))
    (events : List Deferred) : Prop where
  isOpen : s'.isOpen = s.isOpen
  currentQueryId : s'.currentQueryId = s.currentQueryId
  deferred : s'.deferred = s.deferred ++ events
  sent : ∃ messages, s'.sent = s.sent ++ messages ∧
    messages.filter (fun m => !m.fromConsole) = replies ∧
    ∀ m ∈ messages, m.fromConsole = true →
      m.queryId = queryIdField s.currentQueryId

namespace Progress

variable {s s' s'' : RSession σ ν} {replies replies' : List (Message ν)}
  {events events' : List Deferred}

theorem refl (s : RSession σ ν) : Progress s s [] [] where
  isOpen := rfl
  currentQueryId := rfl
  deferred := by simp
  sent := ⟨[], by simp⟩

theorem trans (h : Progress s s' replies events)
    (h' : Progress s' s'' replies' events') :
    Progress s s'' (replies ++ replies') (events ++ events') where
  isOpen := h'.isOpen.trans h.isOpen
  currentQueryId := h'.currentQueryId.trans h.currentQueryId
  deferred := by rw [h'.deferred, h.deferred, List.append_assoc]
  sent := by
    obtain ⟨messages, hsent, hreplies, htag⟩ := h.sent
    obtain ⟨messages', hsent', hreplies', htag'⟩ := h'.sent
    refine ⟨messages ++ messages', ?_, ?_, ?_⟩
    · rw [hsent', hsent, List.append_assoc]
    · rw [List.filter_append, hreplies, hreplies']
    · intro m hm
      rcases List.mem_append.mp hm with hm | hm
      · exact htag m hm
      · rw [← h.currentQueryId]
        exact htag' m hm

theorem errorsSent (s : RSession σ ν) (writes : List ConsoleWrite) :
    ∀ m ∈ s.errorsSent writes, m.fromConsole = true ∧
      m.queryId = queryIdField s.currentQueryId := by
  intro m hm
  rw [RSession.errorsSent] at hm
  split at hm
  · cases hm
  · obtain ⟨w, -, rfl⟩ := List.mem_map.mp hm
    exact ⟨rfl, rfl⟩

theorem bufferSent (s : RSession σ ν) (isError : Bool) :
    ∀ m ∈ s.bufferSent isError, m.fromConsole = true ∧
      m.queryId = queryIdField s.currentQueryId := by
  intro m hm
  rw [RSession.bufferSent] at hm
  split at hm
  · obtain rfl := List.mem_singleton.mp hm
    exact ⟨rfl, rfl⟩
  · cases hm

/-- Sending what R wrote is no reply. -/
theorem of_console {messages : List (Message ν)}
    (hmessages : ∀ m ∈ messages, m.fromConsole = true ∧
      m.queryId = queryIdField s.currentQueryId) :
    ∃ new, s.sent ++ messages = s.sent ++ new ∧
      new.filter (fun m => !m.fromConsole) = [] ∧
      ∀ m ∈ new, m.fromConsole = true →
        m.queryId = queryIdField s.currentQueryId := by
  refine ⟨messages, rfl, ?_, fun m hm _ => (hmessages m hm).2⟩
  rw [List.filter_eq_nil_iff]
  intro m hm
  simp [(hmessages m hm).1]

theorem called (svc : Services σ ν) (c : Call) (s : RSession σ ν) :
    Progress s (s.called svc c) [] [] where
  isOpen := rfl
  currentQueryId := rfl
  deferred := by simp
  sent := of_console (errorsSent s _)

theorem calledIf (svc : Services σ ν) (condition : Bool) (c : Call)
    (s : RSession σ ν) : Progress s (s.calledIf svc condition c) [] [] := by
  cases condition with
  | true => exact called svc c s
  | false => exact refl s

theorem bufferFlushed (isError : Bool) (s : RSession σ ν) :
    Progress s (s.bufferFlushed isError) [] [] where
  isOpen := rfl
  currentQueryId := rfl
  deferred := by simp
  sent := of_console (bufferSent s isError)

/-- Steps that send nothing and put nothing in the queue. -/
theorem silent (hopen : s'.isOpen = s.isOpen)
    (hid : s'.currentQueryId = s.currentQueryId)
    (hdeferred : s'.deferred = s.deferred) (hsent : s'.sent = s.sent) :
    Progress s s' [] [] where
  isOpen := hopen
  currentQueryId := hid
  deferred := by simp [hdeferred]
  sent := ⟨[], by simp [hsent]⟩

theorem ignoring (b : Bool) (s : RSession σ ν) :
    Progress s (s.ignoring b) [] [] :=
  silent rfl rfl rfl rfl

theorem capturing (b : Bool) (s : RSession σ ν) :
    Progress s (s.capturing b) [] [] :=
  silent rfl rfl rfl rfl

theorem sourcing (b : Bool) (s : RSession σ ν) :
    Progress s (s.sourcing b) [] [] :=
  silent rfl rfl rfl rfl

theorem moving (f : σ → σ) (s : RSession σ ν) :
    Progress s (s.moving f) [] [] :=
  silent rfl rfl rfl rfl

theorem copying (messages : List (Message ν)) (s : RSession σ ν) :
    Progress s (s.copying messages) [] [] :=
  silent rfl rfl rfl rfl

theorem sending {json reply : Message ν} (hjson : json = reply)
    (h : reply.fromConsole = false) (s : RSession σ ν) :
    Progress s (s.sending json) [reply] [] where
  isOpen := rfl
  currentQueryId := rfl
  deferred := by simp
  sent := by
    refine ⟨[json], rfl, by simp [hjson, h], fun m hm hconsole => ?_⟩
    rw [List.mem_singleton.mp hm, hjson, h] at hconsole
    cases hconsole

theorem scheduling (event : Deferred) (s : RSession σ ν) :
    Progress s (s.scheduling event) [] [event] where
  isOpen := rfl
  currentQueryId := rfl
  deferred := rfl
  sent := ⟨[], by simp⟩

theorem flushed (svc : Services σ ν) (s : RSession σ ν) :
    Progress s (s.flushed svc) [] [] := by
  have hignored := (ignoring true s).trans (called svc pngoff _)
  exact (hignored.trans (ignoring false _)).trans (bufferFlushed false _)

/-- The current query id is the one the handler started under. -/
theorem acknowledged (h : Progress s s' [] []) (command : JsonCommand)
    (info : FileInfo) :
    Progress s
      (s'.scheduling (.execComplete command s'.currentQueryId info)) []
      [.execComplete command s.currentQueryId info] := by
  rw [h.currentQueryId]
  exact h.trans (scheduling _ s')

end Progress

/-! ## Flags -/

/-- No output is muted, captured, or taken for that of a file. -/
structure RSession.Quiet (s : RSession σ ν) : Prop where
  ignoreOutput : s.ignoreOutput = false
  captureStdOut : s.captureStdOut = false
  sourceInProgress : s.sourceInProgress = false

theorem RSession.Quiet.of_flags {s s' : RSession σ ν} (h : s.Quiet)
    (hignore : s'.ignoreOutput = s.ignoreOutput)
    (hcapture : s'.captureStdOut = s.captureStdOut)
    (hsource : s'.sourceInProgress = s.sourceInProgress) : s'.Quiet where
  ignoreOutput := hignore.trans h.ignoreOutput
  captureStdOut := hcapture.trans h.captureStdOut
  sourceInProgress := hsource.trans h.sourceInProgress

theorem RSession.Quiet.scheduling {s : RSession σ ν} (h : s.Quiet)
    (event : Deferred) : (s.scheduling event).Quiet :=
  h.of_flags rfl rfl rfl

theorem RSession.Quiet.scheduling_ignoring {s : RSession σ ν}
    (h : (s.ignoring false).Quiet) (event : Deferred) :
    ((s.scheduling event).ignoring false).Quiet :=
  h.of_flags rfl rfl rfl

theorem RSession.Quiet.sending {s : RSession σ ν} (h : s.Quiet)
    (json : Message ν) : (s.sending json).Quiet :=
  h.of_flags rfl rfl rfl

/-- Between `s` and `s'` a handler has sent no reply, put nothing in the
queue, and raised no flag. -/
structure Calm (s s' : RSession σ ν) : Prop extends Progress s s' [] [] where
  quiet : s.Quiet → s'.Quiet

namespace Calm

variable {s s' s'' : RSession σ ν}

theorem refl (s : RSession σ ν) : Calm s s :=
  ⟨Progress.refl s, fun h => h⟩

theorem trans (h : Calm s s') (h' : Calm s' s'') : Calm s s'' :=
  ⟨h.toProgress.trans h'.toProgress, fun hs => h'.quiet (h.quiet hs)⟩

theorem called (h : Calm s s') (svc : Services σ ν) (c : Call) :
    Calm s (s'.called svc c) :=
  h.trans ⟨Progress.called svc c s', fun hs => hs.of_flags rfl rfl rfl⟩

theorem calledIf (h : Calm s s') (svc : Services σ ν) (condition : Bool)
    (c : Call) : Calm s (s'.calledIf svc condition c) := by
  cases condition with
  | true => exact h.called svc c
  | false => exact h

theorem moving (h : Calm s s') (f : σ → σ) : Calm s (s'.moving f) :=
  h.trans ⟨Progress.moving f s', fun hs => hs.of_flags rfl rfl rfl⟩

theorem bufferFlushed (h : Calm s s') (isError : Bool) :
    Calm s (s'.bufferFlushed isError) :=
  h.trans ⟨Progress.bufferFlushed isError s',
    fun hs => hs.of_flags rfl rfl rfl⟩

/-- Output is no longer ignored. -/
theorem unmuted (h : Calm s s') : Calm s (s'.ignoring false) :=
  h.trans ⟨Progress.ignoring false s',
    fun hs => ⟨rfl, hs.captureStdOut, hs.sourceInProgress⟩⟩

theorem flushed (h : Calm s s') (svc : Services σ ν) :
    Calm s (s'.flushed svc) :=
  h.trans ⟨Progress.flushed svc s',
    fun hs => ⟨rfl, hs.captureStdOut, hs.sourceInProgress⟩⟩

/-- A call made while output is ignored. -/
theorem guarded (h : Calm s s') (svc : Services σ ν) (c : Call) :
    Calm s (((s'.ignoring true).called svc c).ignoring false) :=
  h.trans ⟨((Progress.ignoring true s').trans
    (Progress.called svc c _)).trans (Progress.ignoring false _),
    fun hs => ⟨rfl, hs.captureStdOut, hs.sourceInProgress⟩⟩

end Calm

/-! ## Failures -/

/-- An exception, and the call it comes from; a field of the wrong type comes
from none. -/
structure Failure where
  call : Option Call
  error : CxxException
deriving DecidableEq, Repr

/-- The failure of reading a field. -/
def fieldFailure {α : Type} : Except CxxException α → Option Failure
  | .ok _ => none
  | .error e => some ⟨none, e⟩

namespace Services

variable (svc : Services σ ν)

/-- The failure of a call. -/
def failure (c : Call) : Option Failure :=
  (svc.throws c).map fun e => ⟨some c, e⟩

/-- The first of some calls that throws. -/
def firstFailure (calls : List Call) : Option Failure :=
  calls.findSome? svc.failure

/-- What lies behind the services after some calls. -/
def after (calls : List Call) (outer : σ) : σ :=
  calls.foldl (fun outer c => svc.effect c outer) outer

/-- A call under an `if`. -/
def callsIf (condition : Bool) (c : Call) : List Call :=
  if condition then [c] else []

variable {svc} {c : Call} {e : CxxException} {calls rest : List Call}

@[simp] theorem firstFailure_nil : svc.firstFailure [] = none := rfl

theorem firstFailure_cons_of_none (h : svc.throws c = none) :
    svc.firstFailure (c :: calls) = svc.firstFailure calls := by
  simp [firstFailure, failure, h]

theorem firstFailure_cons_of_some (h : svc.throws c = some e) :
    svc.firstFailure (c :: calls) = some ⟨some c, e⟩ := by
  simp [firstFailure, failure, h]

theorem firstFailure_callsIf_of_none {condition : Bool}
    (h : (if condition then svc.throws c else none) = none) :
    svc.firstFailure (callsIf condition c ++ rest) =
      svc.firstFailure rest := by
  cases condition with
  | true => exact firstFailure_cons_of_none h
  | false => rfl

theorem firstFailure_callsIf_of_some {condition : Bool}
    (h : (if condition then svc.throws c else none) = some e) :
    svc.firstFailure (callsIf condition c ++ rest) = some ⟨some c, e⟩ := by
  cases condition with
  | true => exact firstFailure_cons_of_some h
  | false => cases h

theorem firstFailure_callsIf_singleton_of_none {condition : Bool}
    (h : (if condition then svc.throws c else none) = none) :
    svc.firstFailure (callsIf condition c) = none := by
  cases condition with
  | true => exact firstFailure_cons_of_none h
  | false => rfl

theorem firstFailure_callsIf_singleton_of_some {condition : Bool}
    (h : (if condition then svc.throws c else none) = some e) :
    svc.firstFailure (callsIf condition c) = some ⟨some c, e⟩ := by
  cases condition with
  | true => exact firstFailure_cons_of_some h
  | false => cases h

theorem firstFailure_singleton_of_none (h : svc.throws c = none) :
    svc.firstFailure [c] = none :=
  firstFailure_cons_of_none h

theorem firstFailure_append :
    svc.firstFailure (calls ++ rest) =
      (svc.firstFailure calls).or (svc.firstFailure rest) :=
  List.findSome?_append

@[simp] theorem after_nil (outer : σ) : svc.after [] outer = outer := rfl

@[simp] theorem after_cons (outer : σ) :
    svc.after (c :: calls) outer = svc.after calls (svc.effect c outer) := rfl

@[simp] theorem after_append (outer : σ) :
    svc.after (calls ++ rest) outer =
      svc.after rest (svc.after calls outer) :=
  List.foldl_append

@[simp] theorem after_callsIf (condition : Bool) (outer : σ) :
    svc.after (callsIf condition c) outer =
      if condition then svc.effect c outer else outer := by
  cases condition with
  | true => rfl
  | false => rfl

end Services

/-- From `s`, `x` throws exactly the given failure.  It keeps the session
quiet, unless it throws from a call made with a flag `raised`; and when it
throws it has sent no reply and put nothing in the queue. -/
def Behaves {α : Type} (x : Handler σ ν α) (failure : Option Failure)
    (raised : Option Call → Prop) (post : α → RSession σ ν → Prop)
    (s : RSession σ ν) : Prop :=
  Act.wp x
    (fun a s' => failure = none ∧ (s.Quiet → s'.Quiet) ∧ post a s')
    (fun e s' => ∃ c, failure = some ⟨c, e⟩ ∧ Progress s s' [] [] ∧
      (¬raised c → s.Quiet → s'.Quiet))
    s

/-- The rule for a handler and what follows it. -/
theorem Behaves.rule {α β : Type} {x : Handler σ ν α}
    {f : α → Handler σ ν β} {failure : Option Failure}
    {raised : Option Call → Prop} {post : α → RSession σ ν → Prop}
    {last : β → RSession σ ν → Prop} {exn : CxxException → RSession σ ν → Prop}
    {s : RSession σ ν} (hx : Behaves x failure raised post s)
    (hthrows : ∀ c e s', failure = some ⟨c, e⟩ → Progress s s' [] [] →
      (¬raised c → s.Quiet → s'.Quiet) → exn e s')
    (hreturns : ∀ a s', failure = none → (s.Quiet → s'.Quiet) → post a s' →
      Act.wp (f a) last exn s') :
    Act.wp (x >>= f) last exn s := by
  rw [Act.wp_bind]
  refine hx.mono ?_ ?_
  · rintro a s' ⟨hnone, hquiet, hpost⟩
    exact hreturns a s' hnone hquiet hpost
  · rintro e s' ⟨c, hsome, hprogress, hquiet⟩
    exact hthrows c e s' hsome hprogress hquiet

/-- The rule for a handler at the end of another one. -/
theorem Behaves.from_calm {α : Type} {x : Handler σ ν α}
    {failure : Option Failure} {raised : Option Call → Prop}
    {post last : α → RSession σ ν → Prop} {s s₁ : RSession σ ν}
    (hx : Behaves x failure raised post s₁) (hcalm : Calm s s₁)
    (hpost : ∀ a s', post a s' → last a s') :
    Act.wp x
      (fun a s' => failure = none ∧ (s.Quiet → s'.Quiet) ∧ last a s')
      (fun e s' => ∃ c, failure = some ⟨c, e⟩ ∧ Progress s s' [] [] ∧
        (¬raised c → s.Quiet → s'.Quiet)) s₁ := by
  refine hx.mono ?_ ?_
  · rintro a s' ⟨hnone, hquiet, hend⟩
    exact ⟨hnone, fun h => hquiet (hcalm.quiet h), hpost a s' hend⟩
  · rintro e s' ⟨c, hsome, hprogress, hquiet⟩
    exact ⟨c, hsome, hcalm.toProgress.trans hprogress,
      fun hraised h => hquiet hraised (hcalm.quiet h)⟩

/-- A failure of a calm session. -/
theorem Calm.fails {s s' : RSession σ ν} {c : Option Call}
    {e : CxxException} {failure : Option Failure}
    {raised : Option Call → Prop} (h : Calm s s')
    (hfailure : failure = some ⟨c, e⟩) :
    ∃ c, failure = some ⟨c, e⟩ ∧ Progress s s' [] [] ∧
      (¬raised c → s.Quiet → s'.Quiet) :=
  ⟨c, hfailure, h.toProgress, fun _ => h.quiet⟩

end Rc2Compute.Session
