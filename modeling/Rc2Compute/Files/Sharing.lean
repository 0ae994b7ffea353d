import Rc2Compute.Files.Starting

/-!
# The sessions of a workspace

Every session of a workspace has its own directory, cache and queue, and all
of them share the tables.  A session takes its own steps; what it commits, and
what others commit, is in the tables at once and announced to every session by
messages that each handles when it gets to them.  When nothing is pending
anywhere, all directories hold what the tables hold.
-/

namespace Rc2Compute.Files

open Transition
open Mirroring (Cached Agrees Known InOrder SameFiles Tracking)

/-! ## The system -/

/-- The sessions of a workspace. -/
structure Sharing (ι : Type) where
  session : ι → Mirroring

/-- A session takes a step, whose commits the database announces by messages,
or somebody else commits new contents. -/
inductive ShareOp (ι : Type) where
  | own (who : ι) (op : MirrorOp) (messages : List String)
  | outside (id version lastmod : ℤ) (data : Bytes) (message : String)

/-- The steps a session takes by itself. -/
def MirrorOp.Own : MirrorOp → Prop
  | .remoteUpdate _ _ _ _ _ | .notify _ => False
  | _ => True

/-- Other tables. -/
def World.withTables (w : World) (t : Tables) : World :=
  { w with db := { w.db with committed := t } }

namespace Mirroring

/-- The tables as the session sees them. -/
def tables (s : Mirroring) : Tables := s.world.db.committed

/-- Messages are queued. -/
def hear (s : Mirroring) (messages : List String) : Mirroring :=
  { s with queue := s.queue ++ messages }

/-- Somebody else has committed. -/
def see (s : Mirroring) (t : Tables) (messages : List String) : Mirroring :=
  { world := s.world.withTables t, queue := s.queue ++ messages }

end Mirroring

namespace Sharing

variable {ι : Type} [DecidableEq ι]

def step (s : Sharing ι) : ShareOp ι → Sharing ι
  | .own who op messages =>
      let after := (s.session who).step op
      { session := fun i =>
          if i = who then after.hear messages
          else (s.session i).see after.tables messages }
  | .outside id version lastmod data message =>
      { session := fun i =>
          (s.session i).step (.remoteUpdate id version lastmod data message) }

/-- The messages are about changed files of the workspace, and every file
whose stored bytes have changed is among them. -/
def Announces (wspaceId : ℤ) (before after : Tables)
    (messages : List String) : Prop :=
  (∀ message ∈ messages,
    ∃ id, parseNotification wspaceId message = some ('u', id)) ∧
  ∀ id, after.rcfiledata[id]? ≠ before.rcfiledata[id]? →
    ∃ message ∈ messages, parseNotification wspaceId message = some ('u', id)

/-- The steps of a session are those of one session alone, and the database
announces what they commit. -/
def Valid (s : Sharing ι) : ShareOp ι → Prop
  | .own who op messages =>
      op.Own ∧ (s.session who).Valid op ∧
        Announces (s.session who).world.fm.wspaceId (s.session who).tables
          ((s.session who).step op).tables messages
  | .outside id version lastmod data message =>
      ∀ i, (s.session i).Valid (.remoteUpdate id version lastmod data message)

/-- The session that takes a step does not lose a write by it. -/
def LossFree (s : Sharing ι) : ShareOp ι → Prop
  | .own who op _ => (s.session who).LossFree op
  | .outside _ _ _ _ _ => True

/-- Nothing is pending in any session. -/
def Quiescent (s : Sharing ι) : Prop :=
  ∀ i, (s.session i).Quiescent

theorem session_own_self (s : Sharing ι) (who : ι) (op : MirrorOp)
    (messages : List String) :
    (s.step (.own who op messages)).session who =
      ((s.session who).step op).hear messages :=
  if_pos rfl

theorem session_own_of_ne (s : Sharing ι) {who i : ι} (hne : i ≠ who)
    (op : MirrorOp) (messages : List String) :
    (s.step (.own who op messages)).session i =
      (s.session i).see ((s.session who).step op).tables messages :=
  if_neg hne

end Sharing

namespace Sharing

/-- A step that changes no table has nothing to announce. -/
theorem valid_of_sameTables {ι : Type} [DecidableEq ι] {s : Sharing ι}
    {who : ι} {op : MirrorOp} (hown : op.Own)
    (hvalid : (s.session who).Valid op)
    (htables : ((s.session who).step op).tables = (s.session who).tables) :
    s.Valid (.own who op []) := by
  refine ⟨hown, hvalid, fun _ hm => absurd hm List.not_mem_nil,
    fun id hne => ?_⟩
  exact absurd (by rw [htables]) hne

end Sharing

/-! ## What a session commits -/

/-- One commit of new contents. -/
def Changes (wspaceId : ℤ) (t t' : Tables) : Prop :=
  ∃ id version lastmod data, 0 ≤ id ∧ id < 2 ^ 31 ∧
    fitsInt4 version = true ∧ fitsInt4 lastmod = true ∧
    data.length < 2 ^ 31 ∧
    t' = Commit.execute wspaceId (.change id version lastmod data) t

/-- Any number of commits of new contents. -/
abbrev Rewritten (wspaceId : ℤ) : Tables → Tables → Prop :=
  Relation.ReflTransGen (Changes wspaceId)

namespace Mirroring

/-- A session in order stays so when others change contents. -/
theorem InOrder.rewritten {w : World} {t : Tables} (h : InOrder w)
    (ht : Rewritten w.fm.wspaceId w.db.committed t) :
    InOrder (w.withTables t) := by
  induction ht with
  | refl => exact h
  | tail _ hchange ih =>
      obtain ⟨id, version, lastmod, data, -, -, hversion, hdate, hsize, rfl⟩ :=
        hchange
      exact ih.commit hversion hdate hsize

theorem handleLogged_rewritten {w : World} {event : InotifyEvent}
    (h : InOrder w) (hevent : Known w event) :
    Act.wp (handleLogged event)
      (fun _ w' => Rewritten w.fm.wspaceId w.db.committed w'.db.committed)
      (fun _ _ => False) w := by
  obtain ⟨-, id, r, hr, hwd⟩ := hevent
  have hindex : filesByWatchDescIndex event.wd w =
      (.returned (some r), w) :=
    filesByWatchDescIndex_of_some (hwd ▸ h.laid.byWatch id r hr)
  have hrun : handleLogged event w = (.returned (), w) := by
    simp only [handleLogged, Act.bind_apply, hindex, load_some,
      Act.pure_apply]
  exact Act.wp_of_apply hrun .refl

/-- The end of a write is one commit. -/
theorem handleCloseWrite_rewritten {env : Env} {w : World}
    {event : InotifyEvent} (henv : env.Works) (h : InOrder w)
    (hevent : Known w event) :
    Act.wp (handleCloseWrite env event)
      (fun _ w' => Rewritten w.fm.wspaceId w.db.committed w'.db.committed)
      (fun _ _ => False) w := by
  obtain ⟨-, id, r, hr, hwd⟩ := hevent
  obtain ⟨data, hdata, hsize⟩ := h.onDisk id r hr
  have himage : w.fm.pendingImagesByWatchDesc[event.wd]? = none := by
    rw [h.laid.images]
    simp
  have hindex : filesByWatchDescIndex event.wd w =
      (.returned (some r), w) :=
    filesByWatchDescIndex_of_some (hwd ▸ h.laid.byWatch id r hr)
  simp only [handleCloseWrite, Act.wp_bind, Act.wp_get, himage]
  refine Act.wp_of_apply hindex ?_
  refine Act.wp_of_apply (load_some r w) ?_
  obtain ⟨_, hsome, hid, hpos⟩ := h.laid.file id _ hr
  cases hsome
  obtain ⟨row, hrow, -, hfits, -⟩ := h.inTable id r hr
  have hlt : id < 2 ^ 31 := by
    rw [FetchedFile.fits, Bool.and_eq_true, Bool.and_eq_true,
      Tables.fetch_id hrow] at hfits
    exact (of_decide_eq_true hfits.1.1).2
  refine Act.wp_of_apply (updateDBFile_succeeds henv.toSucceeds hdata hsize)
    (.single ?_)
  exact ⟨(w.fm.objects r).id, toInt32 ((w.fm.objects r).version + 1),
    env.mtime, data, by rwa [hid], by rwa [hid], fitsInt4_toInt32 _, henv.dated,
    hsize, rfl⟩

theorem handleEvent_rewritten {env : Env} {w : World} {event : InotifyEvent}
    (henv : env.Works) (h : InOrder w) (hevent : Known w event) :
    Act.wp (handleEvent env event)
      (fun _ w' => Rewritten w.fm.wspaceId w.db.committed w'.db.committed)
      (fun _ _ => False) w := by
  have hmask := hevent.1
  simp only [List.mem_cons, List.not_mem_nil, or_false] at hmask
  rw [handleEvent, Act.wp_tryCatch]
  rcases hmask with hopen | hmodify | hclose
  · have htype : event.evtype = IN_OPEN := by
      rw [InotifyEvent.evtype, hopen]
      decide
    rw [htype, if_neg (by decide), if_neg (by decide), if_neg (by decide),
      if_pos (by decide)]
    exact (handleLogged_rewritten h hevent).mono (fun _ _ h => h)
      fun _ _ h => h.elim
  · have htype : event.evtype = IN_MODIFY := by
      rw [InotifyEvent.evtype, hmodify]
      decide
    rw [htype, if_neg (by decide), if_neg (by decide), if_neg (by decide),
      if_pos (by decide)]
    exact (handleLogged_rewritten h hevent).mono (fun _ _ h => h)
      fun _ _ h => h.elim
  · have htype : event.evtype = IN_CLOSE_WRITE := by
      rw [InotifyEvent.evtype, hclose]
      decide
    rw [htype, if_neg (by decide), if_pos rfl]
    exact (handleCloseWrite_rewritten henv h hevent).mono (fun _ _ h => h)
      fun _ _ h => h.elim

/-- Handling a batch of events commits nothing but new contents. -/
theorem handleInotifyEvent_rewritten {w : World}
    {batch : List (Env × InotifyEvent)} (h : InOrder w)
    (hbatch : ∀ entry ∈ batch, entry.1.Works ∧ Known w entry.2)
    (hclosed : w.fm.ignoreFSNotifications = false) :
    Act.wp (handleInotifyEvent batch)
      (fun _ w' => SameFiles w w' ∧
        Rewritten w.fm.wspaceId w.db.committed w'.db.committed)
      (fun _ _ => False) w := by
  have hs := sameFiles_windowOpened w
  simp only [handleInotifyEvent, Act.wp_bind, Act.wp_get, hclosed,
    Bool.false_eq_true, if_false]
  refine Act.wp_of_apply (ignoreFSNotifications_apply w) ?_
  refine (Act.wp_forEach (I := fun w' => InOrder w' ∧ SameFiles w w' ∧
    Rewritten w.fm.wspaceId w.db.committed w'.db.committed)
    ?_ ⟨h.windowOpened, hs, by rw [windowOpened_db]⟩).mono
    (fun _ _ h => h.2) fun _ _ h => h
  rintro entry hentry w₁ ⟨h₁, hs₁, hrewritten⟩
  obtain ⟨henv, hknown⟩ := hbatch entry hentry
  have hknown₁ := hknown.of_sameFiles hs₁
  refine ((handleEvent_handled henv h₁ hknown₁).and
    (handleEvent_rewritten henv h₁ hknown₁)).mono ?_ fun _ _ h => h.1
  rintro _ w₂ ⟨⟨⟨h₂, hs₂, -⟩, -⟩, hmore⟩
  rw [hs₁.wspaceId] at hmore
  exact ⟨h₂, hs₁.trans hs₂, hrewritten.trans hmore⟩

end Mirroring

/-! ## Notifications commit nothing -/

/-- The database is the same. -/
def SameDb (w w' : World) : Prop := w'.db = w.db

namespace SameDb

instance : Std.Refl SameDb where
  refl _ := rfl

instance : IsTrans World SameDb where
  trans _ _ _ hab hbc := Eq.trans hbc hab

theorem modify {f : World → World} (h : ∀ w, (f w).db = w.db) :
    Act.Keeps SameDb (Act.modify f : Prog Unit) :=
  h

theorem deref (ptr : DBFileInfoPtr) : Act.Keeps SameDb (deref ptr) := by
  cases ptr with
  | none => exact Act.Keeps.undefined
  | some r => exact Act.Keeps.pure r

theorem load (ptr : DBFileInfoPtr) : Act.Keeps SameDb (load ptr) :=
  (deref ptr).bind fun _ => Act.Keeps.get.bind fun _ => Act.Keeps.pure _

theorem store (ptr : DBFileInfoPtr) (f : DBFileInfo → DBFileInfo) :
    Act.Keeps SameDb (store ptr f) :=
  (deref ptr).bind fun _ => Act.Keeps.modify fun _ => rfl

theorem loadFiles (env : Env) (whereClause : ℤ → FileRow → Bool) :
    Act.Keeps SameDb (loadFiles env whereClause) := by
  have hcache : ∀ row, Act.Keeps SameDb (cacheFile env row) := by
    intro row
    refine Act.Keeps.get.bind fun w => ?_
    split
    · exact store _ _
    · exact Act.Keeps.bind (fun _ => rfl) fun _ => Act.Keeps.modify fun _ => rfl
  refine Act.Keeps.get.bind fun w => Act.Keeps.ite (Act.Keeps.pure _) ?_
  refine Act.Keeps.forEach _ fun row => (hcache row).bind fun _ => ?_
  refine Act.Keeps.modify fun w => ?_
  split
  · rfl
  · rfl

theorem watchFile (env : Env) (file : DBFileInfoPtr) :
    Act.Keeps SameDb (watchFile env file) := by
  have hadd : ∀ path mask,
      Act.Keeps SameDb (inotify_add_watch env path mask) := fun path mask =>
    Act.Keeps.ite (Act.Keeps.pure _)
      (Act.Keeps.bind (Act.Keeps.modify fun _ => rfl) fun _ =>
        Act.Keeps.pure _)
  exact (load file).bind fun _ => Act.Keeps.get.bind fun _ =>
    (Act.Keeps.get.bind fun _ => Act.Keeps.pure _).bind fun _ =>
    (Act.Keeps.throwIf _ _).bind fun _ => (hadd _ _).bind fun _ =>
    (store file _).bind fun _ => (Act.Keeps.throwIf _ _).bind fun _ =>
    Act.Keeps.modify fun _ => rfl

theorem ignoreFSNotifications : Act.Keeps SameDb ignoreFSNotifications :=
  windowOpened_db

theorem processDelete (env : Env) (fileId : ℤ) :
    Act.Keeps SameDb (processDelete env fileId) := by
  have hrm : ∀ wd, Act.Keeps SameDb (inotify_rm_watch wd) := by
    intro wd
    refine Act.Keeps.modify fun w => ?_
    split
    · rfl
    · rfl
  refine Act.Keeps.tryCatch (Act.Keeps.get.bind fun w => ?_) fun _ =>
    Act.Keeps.pure _
  split
  · exact Act.Keeps.throw _
  · refine (load _).bind fun _ => (hrm _).bind fun _ => ?_
    refine Act.Keeps.bind ?_ fun _ => (Act.Keeps.throwIf _ _).bind fun _ => ?_
    · exact modify fun _ => rfl
    · exact modify fun w => removeFile_db w _ _

theorem processDBNotification (env : Env) (message : String) :
    Act.Keeps SameDb (processDBNotification env message) := by
  have hindex : ∀ id, Act.Keeps SameDb (filesByIdIndex id) := by
    intro id w
    rw [SameDb, filesByIdIndex]
    split
    · rfl
    · rfl
  refine Act.Keeps.get.bind fun w => ?_
  split
  · exact Act.Keeps.pure _
  · refine Act.Keeps.tryCatch (Act.Keeps.ite (processDelete _ _)
      (Act.Keeps.ite ?_ ?_)) fun _ => Act.Keeps.pure _
    · exact ignoreFSNotifications.bind fun _ => (loadFiles _ _).bind fun _ =>
        (hindex _).bind fun _ => watchFile _ _
    · exact Act.Keeps.get.bind fun _ => Act.Keeps.ite
        (ignoreFSNotifications.bind fun _ => loadFiles _ _) (Act.Keeps.pure _)

theorem handleDBNotifications (env : Env) (messages : List (Env × String)) :
    Act.Keeps SameDb (handleDBNotifications env messages) :=
  ignoreFSNotifications.bind fun _ => (Act.Keeps.throwIf _ _).bind fun _ =>
    Act.Keeps.get.bind fun _ => Act.Keeps.forEach _ fun _ =>
    Act.Keeps.ite (Act.Keeps.pure _) (processDBNotification _ _)

end SameDb

/-! ## One step of a session -/

/-- A step a session takes by itself keeps its files and commits nothing but
new contents. -/
theorem Mirroring.Tracking.own {s : Mirroring} {op : MirrorOp}
    (h : Tracking s) (hown : op.Own) (hvalid : s.Valid op) :
    SameFiles s.world (s.step op).world ∧
      Rewritten s.world.fm.wspaceId s.tables (s.step op).tables := by
  cases op with
  | rewrite name data =>
      exact ⟨Mirroring.writeFile_sameFiles _ _ _ _, .refl⟩
  | remoteUpdate id version lastmod data message => exact hown.elim
  | notify message => exact hown.elim
  | deliverEvents envs =>
      let w₀ := s.world.readEvents envs.length
      have h₀ : InOrder w₀ :=
        Mirroring.readEvents_inOrder h.inOrder envs.length
      have hs₀ : SameFiles s.world w₀ :=
        ⟨rfl, rfl, rfl, rfl, rfl, fun _ => rfl, fun _ => rfl, fun _ => rfl,
          rfl⟩
      cases hflag : s.world.fm.ignoreFSNotifications with
      | true =>
          have hrun : handleInotifyEvent (envs.zip s.world.inotify.unread)
              w₀ = (.returned (), w₀) := by
            rw [handleInotifyEvent,
              Act.bind_apply_returned (Act.get_apply w₀)]
            exact congrFun (if_pos hflag) w₀
          have hstep : s.step (.deliverEvents envs) =
              { s with world := w₀ } := by
            simp only [Mirroring.step]
            rw [hrun]
          rw [hstep]
          exact ⟨hs₀, .refl⟩
      | false =>
          have hbatch : ∀ entry ∈ envs.zip s.world.inotify.unread,
              entry.1.Works ∧ Known w₀ entry.2 := by
            intro entry hentry
            obtain ⟨henv, hevent⟩ := List.of_mem_zip hentry
            exact ⟨hvalid _ henv, h.inOrder.events _ hevent⟩
          have hrun := Mirroring.handleInotifyEvent_rewritten h₀ hbatch hflag
          obtain ⟨hs, hrewritten⟩ :=
            (hrun.mono (fun _ _ h => h) fun _ _ h => h.elim).final
          exact ⟨hs₀.trans hs, hrewritten⟩
  | deliverNotifications env envs =>
      have hbatch : ∀ entry ∈ envs.zip s.queue, entry.1.Works ∧
          ∃ id, parseNotification s.world.fm.wspaceId entry.2 =
            some ('u', id) := by
        intro entry hentry
        obtain ⟨henv, hmessage⟩ := List.of_mem_zip hentry
        exact ⟨hvalid.2 _ henv, h.messages _ hmessage⟩
      have hrun := Mirroring.handleDBNotifications_notified hvalid.1 h.inOrder
        hbatch
      obtain ⟨⟨-, hs, -⟩, -⟩ :=
        (hrun.mono (fun _ _ h => h) fun _ _ h => h.elim).final
      have hdb := SameDb.handleDBNotifications env (envs.zip s.queue) s.world
      have htables : (s.step (.deliverNotifications env envs)).tables =
          s.tables := congrArg Database.committed hdb
      rw [htables]
      exact ⟨hs, .refl⟩
  | ignoreOff =>
      rw [Mirroring.step]
      split
      · exact ⟨⟨rfl, rfl, rfl, rfl, rfl, fun _ => rfl, fun _ => rfl,
          fun _ => rfl, rfl⟩, .refl⟩
      · exact ⟨SameFiles.refl _, .refl⟩

/-! ## One step of the workspace -/

/-- More messages about changed files. -/
theorem Mirroring.Tracking.hear {s : Mirroring} (h : Tracking s)
    {messages : List String} (hmessages : ∀ message ∈ messages,
      ∃ id, parseNotification s.world.fm.wspaceId message = some ('u', id)) :
    Tracking (s.hear messages) := by
  refine ⟨h.inOrder, fun m hm => ?_, fun id => ?_⟩
  · rcases List.mem_append.mp hm with hm | hm
    · exact h.messages m hm
    · exact hmessages m hm
  · refine (h.pending id).imp_right (Or.imp_left fun hannounced => ?_)
    exact hannounced.mono (fun m hm => List.mem_append_left _ hm) rfl

/-- Others have committed, and have announced it. -/
theorem Mirroring.Tracking.see {s : Mirroring} (h : Tracking s) {t : Tables}
    {messages : List String} (ht : Rewritten s.world.fm.wspaceId s.tables t)
    (hannounces : Sharing.Announces s.world.fm.wspaceId s.tables t messages) :
    Tracking (s.see t messages) := by
  obtain ⟨hmessages, hcovers⟩ := hannounces
  refine ⟨h.inOrder.rewritten ht, fun m hm => ?_, fun id => ?_⟩
  · rcases List.mem_append.mp hm with hm | hm
    · exact h.messages m hm
    · exact hmessages m hm
  · by_cases hsame : t.rcfiledata[id]? = s.tables.rcfiledata[id]?
    · rcases h.pending id with hagrees | hannounced | hwritten
      · exact .inl fun r hr => (hagrees r hr).trans hsame.symm
      · refine .inr (.inl (hannounced.mono ?_ rfl))
        exact fun m hm => List.mem_append_left _ hm
      · exact .inr (.inr hwritten)
    · obtain ⟨message, hmem, hparse⟩ := hcovers id hsame
      exact .inr (.inl ⟨message, List.mem_append_right _ hmem, hparse⟩)

/-- The sessions of a workspace that started with the files `V`: each still
has them under their names, each tracks its own writes and those of the
others, and all see the same tables. -/
structure Joined {ι : Type} (wspaceId : ℤ) (V : Contents) (s : Sharing ι) :
    Prop where
  tracking : ∀ i, Tracking (s.session i)
  wspaceId : ∀ i, (s.session i).world.fm.wspaceId = wspaceId
  shared : ∀ i j, (s.session i).tables = (s.session j).tables
  file : ∀ i id row, V id = some row → ∃ r, Cached (s.session i).world id r ∧
    ((s.session i).world.fm.objects r).path = row.name

namespace Joined

variable {ι : Type} {wspaceId : ℤ} {V : Contents} {s : Sharing ι}

/-- When nothing is pending, every session has what the tables hold. -/
theorem converged (h : Joined wspaceId V s) (hquiescent : s.Quiescent)
    {id : ℤ} {row : FetchedFile} (hrow : V id = some row) (i j : ι) :
    (s.session i).world.disk[row.name]? =
      (s.session j).tables.rcfiledata[id]? := by
  obtain ⟨r, hr, hpath⟩ := h.file i id row hrow
  have hsynced := (h.tracking i).synced (hquiescent i)
  rw [← hpath, hsynced id r hr, ← h.shared i j]
  rfl

/-- A file stays where it is. -/
theorem file_of_sameFiles (h : Joined wspaceId V s) {i : ι} {w : World}
    (hs : SameFiles (s.session i).world w) {id : ℤ} {row : FetchedFile}
    (hrow : V id = some row) :
    ∃ r, Cached w id r ∧ (w.fm.objects r).path = row.name := by
  obtain ⟨r, hr, hpath⟩ := h.file i id row hrow
  exact ⟨r, (Mirroring.Cached.of_sameFiles hs).mpr hr,
    (hs.path r).trans hpath⟩

variable [DecidableEq ι]

theorem own (h : Joined wspaceId V s) {who : ι} {op : MirrorOp}
    {messages : List String} (hvalid : s.Valid (.own who op messages))
    (hfree : s.LossFree (.own who op messages)) :
    Joined wspaceId V (s.step (.own who op messages)) := by
  obtain ⟨hown, hvalid, hannounces⟩ := hvalid
  obtain ⟨hs, hrewritten⟩ := (h.tracking who).own hown hvalid
  have hafter := (h.tracking who).step hvalid hfree
  have hself := s.session_own_self who op messages
  have hother := fun i (hne : i ≠ who) => s.session_own_of_ne hne op messages
  have htables : ∀ i, ((s.step (.own who op messages)).session i).tables =
      ((s.session who).step op).tables := by
    intro i
    by_cases hi : i = who
    · rw [hi, hself]
      rfl
    · rw [hother i hi]
      rfl
  refine ⟨fun i => ?_, fun i => ?_, fun i j => ?_, fun i id row hrow => ?_⟩
  · by_cases hi : i = who
    · rw [hi, hself]
      refine hafter.hear fun m hm => ?_
      rw [hs.wspaceId]
      exact hannounces.1 m hm
    · rw [hother i hi]
      have hws : (s.session who).world.fm.wspaceId =
          (s.session i).world.fm.wspaceId := by
        rw [h.wspaceId, h.wspaceId]
      rw [h.shared who i, hws] at hrewritten hannounces
      exact (h.tracking i).see hrewritten hannounces
  · by_cases hi : i = who
    · rw [hi, hself]
      exact hs.wspaceId.trans (h.wspaceId who)
    · rw [hother i hi]
      exact h.wspaceId i
  · rw [htables, htables]
  · by_cases hi : i = who
    · rw [hi, hself]
      exact h.file_of_sameFiles hs hrow
    · rw [hother i hi]
      exact h.file i id row hrow

theorem outside (h : Joined wspaceId V s) {id version lastmod : ℤ}
    {data : Bytes} {message : String}
    (hvalid : s.Valid (.outside id version lastmod data message)) :
    Joined wspaceId V (s.step (.outside id version lastmod data message)) where
  tracking i := Mirroring.remoteUpdate_tracking (h.tracking i) (hvalid i)
  wspaceId i := h.wspaceId i
  shared i j := by
    have hafter : ∀ k,
        ((s.step (.outside id version lastmod data message)).session k).tables =
          Commit.execute wspaceId (.change id version lastmod data)
            (s.session k).tables := by
      intro k
      rw [← h.wspaceId k]
      rfl
    rw [hafter, hafter, h.shared i j]
  file i id row hrow := h.file i id row hrow

/-- Every step keeps the sessions joined. -/
theorem step (h : Joined wspaceId V s) {op : ShareOp ι} (hvalid : s.Valid op)
    (hfree : s.LossFree op) : Joined wspaceId V (s.step op) := by
  cases op with
  | own who op messages => exact h.own hvalid hfree
  | outside id version lastmod data message => exact h.outside hvalid

end Joined

/-! ## Runs -/

namespace Sharing

variable {ι : Type}

/-- Sessions of one workspace that have just started, each with its own
answers. -/
def start (starts : ι → Startup) (workingDir : ι → String) (wspaceId : ℤ)
    (sessionRecId : ι → ℤ) (t : Tables) : Sharing ι where
  session i :=
    { world := (initFileManager (starts i) (workingDir i) wspaceId
        (sessionRecId i) (World.uninitialised t)).2
      queue := [] }

theorem start_joined {starts : ι → Startup} (workingDir : ι → String)
    {wspaceId : ℤ} (sessionRecId : ι → ℤ) {t : Tables}
    (hready : t.Ready wspaceId)
    (hs : ∀ i, (starts i).Succeeds (t.workspace wspaceId)) :
    Joined wspaceId (t.workspace wspaceId)
      (start starts workingDir wspaceId sessionRecId t) := by
  have hstarted : ∀ i, Started t wspaceId
      ((start starts workingDir wspaceId sessionRecId t).session i).world := by
    intro i
    obtain ⟨w, hrun, hstarted⟩ := (wp_initFileManager (workingDir i)
      (sessionRecId i) hready (hs i)).ends
    change Started t wspaceId (initFileManager _ _ _ _ _).2
    rw [hrun]
    exact hstarted
  refine ⟨fun i => (hstarted i).tracking, fun i => (hstarted i).wspaceId,
    fun i j => ?_, fun i id row hrow => ?_⟩
  · rw [Mirroring.tables, Mirroring.tables, (hstarted i).db, (hstarted j).db]
  · obtain ⟨r, hr, -, -, hpath⟩ :=
      (hstarted i).holds.caches.cached id row hrow
    exact ⟨r, hr, hpath⟩

variable [DecidableEq ι]

/-- Any number of sessions of a workspace, and others, change the contents of
its files.  In every run in which no session drops an event that a file still
needs, whenever nothing is pending in any session every directory holds, under
each file's name, the bytes the database holds. -/
theorem converged_of_lossFree {starts : ι → Startup} {workingDir : ι → String}
    {wspaceId : ℤ} {sessionRecId : ι → ℤ} {t : Tables}
    {ops : List (ShareOp ι)} (hready : t.Ready wspaceId)
    (hstarts : ∀ i, (starts i).Succeeds (t.workspace wspaceId))
    (hvalid : Along step Valid
      (start starts workingDir wspaceId sessionRecId t) ops)
    (hfree : Along step LossFree
      (start starts workingDir wspaceId sessionRecId t) ops) :
    let s := run step (start starts workingDir wspaceId sessionRecId t) ops
    s.Quiescent → ∀ id row, t.workspace wspaceId id = some row → ∀ i j,
      (s.session i).world.disk[row.name]? =
        (s.session j).tables.rcfiledata[id]? := by
  intro s hquiescent id row hrow i j
  have hjoined : Joined wspaceId (t.workspace wspaceId) s :=
    run_invariant (fun _ _ h hg => h.step hg.1 hg.2)
      (start_joined workingDir sessionRecId hready hstarts)
      (along_and.mpr ⟨hvalid, hfree⟩)
  exact hjoined.converged hquiescent hrow i j

/-- Two sessions of the file `a.R`, whose descriptor is 3 in one and 5 in the
other. -/
def oneFile : Sharing Bool :=
  start (fun i => oneFileStartup (if i then 5 else 3)) (fun _ => "wd") 1
    (fun _ => 1) Files.oneFile

theorem oneFile_startups (i : Bool) :
    (oneFileStartup (if i then 5 else 3)).Succeeds
      (Files.oneFile.workspace 1) := by
  cases i with
  | false => exact oneFileStartup_succeeds (by decide)
  | true => exact oneFileStartup_succeeds (by decide)

/-- One session handles the message, drops its events and closes its window. -/
def handling (who : Bool) : List (ShareOp Bool) :=
  let env := Env.succeeding 0 0
  [.own who (.deliverNotifications env [env]) [],
    .own who (.deliverEvents [env, env, env]) [], .own who .ignoreOff []]

/-- Somebody else changes the file, and both sessions handle the message. -/
def outsideChange : List (ShareOp Bool) :=
  .outside 7 2 0 [1] "u7/1/" :: (handling false ++ handling true)

theorem oneFile_agrees {s : Mirroring}
    (hfiles : s.world.fm.filesById =
      (∅ : Map ℤ DBFileInfoPtr).insert 7 (some 0))
    (hsame : s.world.disk[(s.world.fm.objects 0).path]? =
      s.tables.rcfiledata[(7 : ℤ)]?) (id : ℤ) : Agrees s.world id := by
  intro r hr
  rw [Cached, hfiles, Map.getElem?_insert] at hr
  split at hr
  next hid =>
    subst hid
    cases hr
    exact hsame
  next => simp at hr

/-- The directory of the one ends up with what the other sees in the tables. -/
theorem oneFile_converged :
    ((run step oneFile outsideChange).session true).world.disk["a.R"]? =
      ((run step oneFile outsideChange).session
        false).tables.rcfiledata[(7 : ℤ)]? := by
  have hcommit : fitsInt4 2 = true ∧ fitsInt4 0 = true ∧
      ([1] : Bytes).length < 2 ^ 31 ∧
      parseNotification 1 "u7/1/" = some ('u', 7) := by decide
  have hanswers : ∀ n, ∀ env ∈ List.replicate n (Env.succeeding 0 0),
      env.Works := fun _ => Mirroring.works_of_mem_replicate
  have hnotified := And.intro (Env.succeeding_works 0 0) (hanswers 1)
  have hvalid : Along step Valid oneFile outsideChange :=
    ⟨Bool.forall_bool.mpr ⟨hcommit, hcommit⟩,
      valid_of_sameTables trivial hnotified rfl,
      valid_of_sameTables trivial (hanswers 3) rfl,
      valid_of_sameTables trivial trivial rfl,
      valid_of_sameTables trivial hnotified rfl,
      valid_of_sameTables trivial (hanswers 3) rfl,
      valid_of_sameTables trivial trivial rfl, trivial⟩
  have hfree : Along step LossFree oneFile outsideChange := by
    refine ⟨trivial, trivial, fun _ id _ => .inl ?_, trivial, trivial,
      fun _ id _ => .inl ?_, trivial, trivial⟩
    · exact oneFile_agrees rfl (by decide) id
    · exact oneFile_agrees rfl (by decide) id
  have hquiescent : (run step oneFile outsideChange).Quiescent :=
    Bool.forall_bool.mpr ⟨⟨by decide, by decide, by decide⟩,
      ⟨by decide, by decide, by decide⟩⟩
  exact converged_of_lossFree oneFile_ready oneFile_startups hvalid hfree
    hquiescent 7 _ (oneFile_workspace.mpr ⟨rfl, rfl⟩) true false

end Sharing

end Rc2Compute.Files
