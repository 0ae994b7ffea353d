import Rc2Compute.Files.FileManager

/-!
# What the file code leaves alone

Most operations of the manager leave its two maps as they are, and the keys
under which the file objects are stored.  `KeepsIndex` says so; the theorems
below show it for the operations that neither add nor remove a file.
-/

namespace Rc2Compute.Files

/-- The two maps are the same, and the objects allocated before still have
their identifiers and watch descriptors. -/
structure KeepsIndex (w w' : World) : Prop where
  byId : w'.fm.filesById = w.fm.filesById
  byWatch : w'.fm.filesByWatchDesc = w.fm.filesByWatchDesc
  nextObject : w.fm.nextObject ≤ w'.fm.nextObject
  id : ∀ r < w.fm.nextObject, (w'.fm.objects r).id = (w.fm.objects r).id
  watchDescriptor : ∀ r < w.fm.nextObject,
    (w'.fm.objects r).watchDescriptor = (w.fm.objects r).watchDescriptor

namespace KeepsIndex

/-- A change outside the manager's maps and objects. -/
theorem of_eq {w w' : World} (hid : w'.fm.filesById = w.fm.filesById)
    (hwd : w'.fm.filesByWatchDesc = w.fm.filesByWatchDesc)
    (hobj : w'.fm.objects = w.fm.objects)
    (hnext : w'.fm.nextObject = w.fm.nextObject) : KeepsIndex w w' := by
  refine ⟨hid, hwd, hnext.ge, fun r _ => ?_, fun r _ => ?_⟩
  · rw [hobj]
  · rw [hobj]

instance : Std.Refl KeepsIndex where
  refl _ := of_eq rfl rfl rfl rfl

instance : IsTrans World KeepsIndex where
  trans _ _ _ hab hbc :=
    { byId := hbc.byId.trans hab.byId
      byWatch := hbc.byWatch.trans hab.byWatch
      nextObject := hab.nextObject.trans hbc.nextObject
      id := fun r hr =>
        (hbc.id r (hr.trans_le hab.nextObject)).trans (hab.id r hr)
      watchDescriptor := fun r hr =>
        (hbc.watchDescriptor r (hr.trans_le hab.nextObject)).trans
          (hab.watchDescriptor r hr) }

end KeepsIndex

/-! ## Statements -/

/-- A statement returns and changes the database only. -/
theorem executeQuery_returns (env : Env) (call : Call)
    (statement : Tables → Option Tables) (w : World) :
    ∃ ok db, executeQuery env call statement w =
      (.returned ok, { w with db := db }) := by
  unfold executeQuery
  split
  · split
    · exact ⟨_, _, rfl⟩
    · exact ⟨false, w.db, rfl⟩
  · exact ⟨false, w.db, rfl⟩
  · exact ⟨_, _, rfl⟩

theorem commitTransaction_returns (env : Env) (w : World) :
    ∃ ok db, commitTransaction env w = (.returned ok, { w with db := db }) := by
  unfold commitTransaction
  split
  · exact ⟨false, w.db, rfl⟩
  · split
    · exact ⟨_, _, rfl⟩
    · exact ⟨_, _, rfl⟩

/-- Outside a transaction a statement fails without a trace or commits. -/
theorem wp_executeQuery_idle {env : Env} {call : Call}
    {statement : Tables → Option Tables} {post : Bool → World → Prop}
    {exn : CxxException → World → Prop} {w : World}
    (h : w.db.transaction = none) (hno : post false w)
    (hyes : ∀ tables, env.fails call = false →
      statement w.db.committed = some tables →
      post true { w with db := ⟨tables, none⟩ }) :
    Act.wp (executeQuery env call statement) post exn w := by
  cases hfails : env.fails call with
  | true => exact Act.wp_of_apply (by simp [executeQuery, h, hfails]) hno
  | false =>
      cases htables : statement w.db.committed with
      | none =>
          exact Act.wp_of_apply (by simp [executeQuery, h, hfails, htables]) hno
      | some tables =>
          exact Act.wp_of_apply (by simp [executeQuery, h, hfails, htables])
            (hyes tables hfails htables)

theorem executeQuery_keepsIndex (env : Env) (call : Call)
    (statement : Tables → Option Tables) :
    Act.Moves KeepsIndex (executeQuery env call statement) := by
  intro w
  obtain ⟨ok, db, h⟩ := executeQuery_returns env call statement w
  exact Act.wp_of_apply h (KeepsIndex.of_eq rfl rfl rfl rfl)

theorem commitTransaction_keepsIndex (env : Env) :
    Act.Moves KeepsIndex (commitTransaction env) := by
  intro w
  obtain ⟨ok, db, h⟩ := commitTransaction_returns env w
  exact Act.wp_of_apply h (KeepsIndex.of_eq rfl rfl rfl rfl)

theorem beginTransaction_keepsIndex (env : Env) :
    Act.Moves KeepsIndex (beginTransaction env) := by
  refine Act.Moves.modify fun w => ?_
  split
  · exact Std.Refl.refl w
  · exact KeepsIndex.of_eq rfl rfl rfl rfl

theorem rollback_keepsIndex (w : World) : KeepsIndex w (rollback w) :=
  KeepsIndex.of_eq rfl rfl rfl rfl

theorem withTransaction_keepsIndex {α : Type} (env : Env) {body : Prog α}
    (h : Act.Moves KeepsIndex body) :
    Act.Moves KeepsIndex (withTransaction env body) :=
  ((beginTransaction_keepsIndex env).bind fun _ => h).ensuring
    rollback_keepsIndex

theorem longFromQuery_keepsIndex (env : Env) (call : Call) (value : ℤ) :
    Act.Moves KeepsIndex (longFromQuery env call value) :=
  Act.Moves.ite (Act.Moves.throw _) (Act.Moves.pure _)

theorem statFails_keepsIndex (env : Env) (path : String) :
    Act.Moves KeepsIndex (statFails env path) :=
  Act.Moves.get.bind fun _ => Act.Moves.pure _

theorem readFileBlob_keepsIndex (env : Env) (path : String) :
    Act.Moves KeepsIndex (readFileBlob env path) := by
  refine Act.Moves.get.bind fun w => ?_
  split
  · exact Act.Moves.pure _
  · exact Act.Moves.throw _

/-- A name the driver can quote. -/
theorem escapeLiteral_apply {env : Env}
    (h : env.fails .escapeLiteral = false) (inString : String) (w : World) :
    escapeLiteral env inString w = (.returned inString, w) := by
  rw [escapeLiteral, h]
  rfl

theorem escapeLiteral_keepsIndex {env : Env}
    (h : env.fails .escapeLiteral = false) (inString : String) :
    Act.Moves KeepsIndex (escapeLiteral env inString) :=
  fun w => Act.wp_of_apply (escapeLiteral_apply h inString w)
    (Std.Refl.refl w)

theorem insertRows_keepsIndex {env : Env}
    (h : env.fails .escapeLiteral = false) (fname : String) (fileId : ℤ) :
    Act.Moves KeepsIndex (insertRows env fname fileId) :=
  Act.Moves.get.bind fun _ =>
  (statFails_keepsIndex env fname).bind fun _ =>
  (Act.Moves.throwIf _ _).bind fun _ =>
  (readFileBlob_keepsIndex env fname).bind fun _ =>
  (escapeLiteral_keepsIndex h fname).bind fun _ =>
  (executeQuery_keepsIndex env _ _).bind fun _ =>
  (Act.Moves.throwIf _ _).bind fun _ =>
  (executeQuery_keepsIndex env _ _).bind fun _ =>
  (Act.Moves.throwIf _ _).bind fun _ =>
  (commitTransaction_keepsIndex env).bind fun _ =>
  Act.Moves.throwIf _ _

theorem updateRows_keepsIndex (env : Env) (id newVersion : ℤ)
    (data : Bytes) :
    Act.Moves KeepsIndex (updateRows env id newVersion data) :=
  (executeQuery_keepsIndex env _ _).bind fun _ =>
  (Act.Moves.throwIf _ _).bind fun _ =>
  (executeQuery_keepsIndex env _ _).bind fun _ =>
  (Act.Moves.throwIf _ _).bind fun _ =>
  (commitTransaction_keepsIndex env).bind fun _ =>
  Act.Moves.throwIf _ _

/-- The rows after an update of one file. -/
def updatedRows (rows : Map ℤ FileRow) (id version lastmodified size : ℤ) :
    Map ℤ FileRow :=
  rows.modify id fun row =>
    { row with
      version := version
      lastmodified := lastmodified
      filesize := size }

/-! ## Objects -/

theorem load_some (r : ℕ) (w : World) :
    load (some r) w = (.returned (w.fm.objects r), w) := rfl

/-- The state after a change to the object `r`. -/
def World.setObject (w : World) (r : ℕ) (info : DBFileInfo) : World :=
  { w with fm :=
    { w.fm with objects := Function.update w.fm.objects r info } }

theorem store_some (r : ℕ) (f : DBFileInfo → DBFileInfo) (w : World) :
    store (some r) f w =
      (.returned (), w.setObject r (f (w.fm.objects r))) := rfl

theorem load_keepsIndex (r : ℕ) : Act.Moves KeepsIndex (load (some r)) :=
  fun w => Act.wp_of_apply (load_some r w) (Std.Refl.refl w)

theorem setObject_keepsIndex {w : World} {r : ℕ} {info : DBFileInfo}
    (hid : info.id = (w.fm.objects r).id)
    (hwd : info.watchDescriptor = (w.fm.objects r).watchDescriptor) :
    KeepsIndex w (w.setObject r info) := by
  refine ⟨rfl, rfl, le_rfl, fun k _ => ?_, fun k _ => ?_⟩
  · by_cases hk : k = r
    · subst hk
      simpa [World.setObject] using hid
    · simp [World.setObject, hk]
  · by_cases hk : k = r
    · subst hk
      simpa [World.setObject] using hwd
    · simp [World.setObject, hk]

theorem store_keepsIndex (r : ℕ) {f : DBFileInfo → DBFileInfo}
    (hid : ∀ info, (f info).id = info.id)
    (hwd : ∀ info, (f info).watchDescriptor = info.watchDescriptor) :
    Act.Moves KeepsIndex (store (some r) f) :=
  fun w => Act.wp_of_apply (store_some r f w)
    (setObject_keepsIndex (hid _) (hwd _))

theorem updateDBFile_keepsIndex (env : Env) (r : ℕ) :
    Act.Moves KeepsIndex (updateDBFile env (some r)) :=
  (load_keepsIndex r).bind fun _ =>
  (statFails_keepsIndex env _).bind fun _ =>
  (Act.Moves.throwIf _ _).bind fun _ =>
  (readFileBlob_keepsIndex env _).bind fun _ =>
  withTransaction_keepsIndex env <|
    (updateRows_keepsIndex env _ _ _).bind fun _ =>
    store_keepsIndex r (fun _ => rfl) fun _ => rfl

theorem findByName_keepsIndex (fname : String)
    {entries : List (ℤ × DBFileInfoPtr)}
    (h : ∀ entry ∈ entries, ∃ r, entry.2 = some r) :
    Act.Moves KeepsIndex (findByName fname entries) := by
  induction entries with
  | nil => exact Act.Moves.pure _
  | cons entry rest ih =>
      obtain ⟨r, hr⟩ := h entry (by simp)
      rw [findByName, hr]
      refine (load_keepsIndex r).bind fun info => ?_
      exact Act.Moves.ite (Act.Moves.pure _)
        (ih fun e he => h e (by simp [he]))

/-! ## The kernel and the disk -/

@[simp] theorem writeFile_fm (w : World) (writer : Writer) (name : String)
    (data : Bytes) : (w.writeFile writer name data).fm = w.fm := rfl

@[simp] theorem removeFile_fm (w : World) (writer : Writer)
    (name : String) : (w.removeFile writer name).fm = w.fm := by
  unfold World.removeFile
  split <;> rfl

theorem mem_fileEvents {k : Inotify} {writer : Writer} {name : String}
    {masks : List UInt32} {event : InotifyEvent} :
    event ∈ k.fileEvents writer name masks ↔
      ∃ watch, k.watches[event.wd]? = some watch ∧ watch.path = name ∧
        event.mask ∈ masks ∧ event.mask &&& watch.mask ≠ 0 ∧
        event.name = "" ∧ event.writer = writer := by
  simp only [Inotify.fileEvents, List.mem_flatMap, List.mem_filter,
    decide_eq_true_eq, List.mem_map]
  constructor
  · rintro ⟨⟨wd, watch⟩, ⟨hmem, hpath⟩, mask, ⟨hmask, hne⟩, rfl⟩
    exact ⟨watch, (Map.mem_toList _).mp hmem, hpath, hmask, hne, rfl, rfl⟩
  · rintro ⟨watch, hwatch, hpath, hmask, hne, hname, hwriter⟩
    refine ⟨(event.wd, watch), ⟨(Map.mem_toList _).mpr hwatch, hpath⟩,
      event.mask, ⟨hmask, hne⟩, ?_⟩
    rw [← hname, ← hwriter]

theorem keepsIndex_of_fm_eq {w w' : World} (h : w'.fm = w.fm) :
    KeepsIndex w w' :=
  KeepsIndex.of_eq (by rw [h]) (by rw [h]) (by rw [h]) (by rw [h])

theorem inotify_add_watch_keepsIndex (env : Env) (path : String)
    (mask : UInt32) :
    Act.Moves KeepsIndex (inotify_add_watch env path mask) :=
  Act.Moves.ite (Act.Moves.pure _) <|
    Act.Moves.bind (Act.Moves.modify fun _ => keepsIndex_of_fm_eq rfl)
      fun _ => Act.Moves.pure _

/-- The kernel's side only. -/
theorem inotify_rm_watch_spec (wd : ℤ) (w : World) :
    Act.wp (inotify_rm_watch wd)
      (fun _ w' => w'.fm = w.fm ∧ w'.disk = w.disk ∧ w'.db = w.db)
      (fun _ _ => False) w := by
  rw [inotify_rm_watch, Act.wp_modify]
  beta_reduce
  split
  · exact ⟨rfl, rfl, rfl⟩
  · exact ⟨rfl, rfl, rfl⟩

theorem inotify_rm_watch_keepsIndex (wd : ℤ) :
    Act.Moves KeepsIndex (inotify_rm_watch wd) :=
  fun w => (inotify_rm_watch_spec wd w).mono
    (fun _ _ h => keepsIndex_of_fm_eq h.1) fun _ _ h => h.elim

/-! ## Images and the ignore window -/

/-- The state with the ignore window open. -/
def windowOpened (w : World) : World := (ignoreFSNotifications w).2

theorem ignoreFSNotifications_apply (w : World) :
    ignoreFSNotifications w = (.returned (), windowOpened w) := rfl

section windowOpened

variable (w : World)

theorem windowOpened_eq : windowOpened w =
    if w.fm.ignoreFSNotifications then w
    else { w with fm :=
      { w.fm with
        ignoreFSNotifications := true
        ignoreOffTimers := w.fm.ignoreOffTimers + 1 } } := rfl

@[simp] theorem windowOpened_disk : (windowOpened w).disk = w.disk := by
  rw [windowOpened_eq]
  split <;> rfl

@[simp] theorem windowOpened_db : (windowOpened w).db = w.db := by
  rw [windowOpened_eq]
  split <;> rfl

@[simp] theorem windowOpened_inotify :
    (windowOpened w).inotify = w.inotify := by
  rw [windowOpened_eq]
  split <;> rfl

@[simp] theorem windowOpened_objects :
    (windowOpened w).fm.objects = w.fm.objects := by
  rw [windowOpened_eq]
  split <;> rfl

@[simp] theorem windowOpened_pendingImagesByWatchDesc :
    (windowOpened w).fm.pendingImagesByWatchDesc =
      w.fm.pendingImagesByWatchDesc := by
  rw [windowOpened_eq]
  split <;> rfl

@[simp] theorem windowOpened_imageIds :
    (windowOpened w).fm.imageIds = w.fm.imageIds := by
  rw [windowOpened_eq]
  split <;> rfl

theorem windowOpened_keepsIndex : KeepsIndex w (windowOpened w) := by
  rw [windowOpened_eq]
  split
  · exact Std.Refl.refl w
  · exact KeepsIndex.of_eq rfl rfl rfl rfl

end windowOpened

theorem ignoreFSNotifications_keepsIndex :
    Act.Moves KeepsIndex ignoreFSNotifications :=
  fun w => Act.wp_of_apply (ignoreFSNotifications_apply w)
    (windowOpened_keepsIndex w)

/-- A file that can be opened. -/
theorem readFileBlob_of_opens {env : Env} {path : String} {data : Bytes}
    {w : World} (hopens : env.fails .readFile = false)
    (hdata : w.disk[path]? = some data) :
    readFileBlob env path w = (.returned (env.buffer data), w) := by
  simp [readFileBlob, Act.bind_apply, hopens, hdata]

theorem wp_readFileBlob {env : Env} {path : String}
    {post : Bytes → World → Prop} {exn : CxxException → World → Prop}
    {w : World}
    (hno : ∀ e, (env.fails .readFile = false → w.disk[path]? = none) →
      exn e w)
    (hyes : ∀ data, env.fails .readFile = false →
      w.disk[path]? = some data → post (env.buffer data) w) :
    Act.wp (readFileBlob env path) post exn w := by
  rw [readFileBlob, Act.wp_bind, Act.wp_get]
  beta_reduce
  cases hfails : env.fails .readFile with
  | true => exact hno _ fun h => absurd (hfails.symm.trans h) (by decide)
  | false =>
      cases hdata : w.disk[path]? with
      | none => exact hno _ fun _ => hdata
      | some data => exact hyes data hfails hdata

theorem wp_longFromQuery {env : Env} {call : Call} {value : ℤ}
    {post : ℤ → World → Prop} {exn : CxxException → World → Prop} {w : World}
    (hno : env.fails call = true → ∀ e, exn e w)
    (hyes : env.fails call = false → post value w) :
    Act.wp (longFromQuery env call value) post exn w := by
  rw [longFromQuery]
  cases hfails : env.fails call with
  | true => exact hno hfails _
  | false => exact hyes hfails

/-- A session without a batch looks for the last one in the table. -/
theorem startImageBatch_spec (env : Env) (w : World) :
    Act.wp (startImageBatch env)
      (fun _ w' => ∃ batch, w' = { w with fm :=
          { w.fm with sessionImageBatch := batch } } ∧
        ((0 < w.fm.sessionImageBatch ∧ batch = w.fm.sessionImageBatch) ∨
          (w.fm.sessionImageBatch ≤ 0 ∧ env.fails .selectBatch = false ∧
            batch = maxBatch w.db.committed w.fm.sessionRecId + 1)))
      (fun _ w' => w' = w ∧ w.fm.sessionImageBatch ≤ 0 ∧
        env.fails .selectBatch = true) w := by
  rw [startImageBatch, Act.wp_bind, Act.wp_get]
  beta_reduce
  by_cases hbatch : w.fm.sessionImageBatch ≤ 0
  · rw [if_pos hbatch, Act.wp_bind]
    refine wp_longFromQuery (fun hfails _ => ⟨rfl, hbatch, hfails⟩)
      fun hselected => ?_
    rw [Act.wp_modify]
    exact ⟨_, rfl, Or.inr ⟨hbatch, hselected, rfl⟩⟩
  · rw [if_neg hbatch, Act.wp_pure]
    exact ⟨_, rfl, Or.inl ⟨not_le.mp hbatch, rfl⟩⟩

theorem startImageBatch_returns {env : Env} {w : World}
    (h : w.fm.sessionImageBatch ≤ 0 → env.fails .selectBatch = false) :
    ∃ batch, startImageBatch env w =
      (.returned (), { w with fm :=
        { w.fm with sessionImageBatch := batch } }) := by
  by_cases hbatch : w.fm.sessionImageBatch ≤ 0
  · refine ⟨maxBatch w.db.committed w.fm.sessionRecId + 1, ?_⟩
    simp [startImageBatch, Act.bind_apply, hbatch, longFromQuery, h hbatch]
  · refine ⟨w.fm.sessionImageBatch, ?_⟩
    simp [startImageBatch, Act.bind_apply, hbatch]

theorem startImageBatch_keepsIndex (env : Env) :
    Act.Moves KeepsIndex (startImageBatch env) :=
  Act.Moves.get.bind fun _ => Act.Moves.ite
    ((longFromQuery_keepsIndex env _ _).bind fun _ =>
      Act.Moves.modify fun _ => KeepsIndex.of_eq rfl rfl rfl rfl)
    (Act.Moves.pure _)

theorem insertImage_keepsIndex (env : Env) (fname imgNumStr : String) :
    Act.Moves KeepsIndex (insertImage env fname imgNumStr) :=
  (readFileBlob_keepsIndex env fname).bind fun _ =>
  Act.Moves.ite (Act.Moves.pure _) <|
    (longFromQuery_keepsIndex env _ _).bind fun _ =>
    (Act.Moves.throwIf _ _).bind fun _ =>
    (startImageBatch_keepsIndex env).bind fun _ =>
    Act.Moves.get.bind fun _ =>
    (executeQuery_keepsIndex env _ _).bind fun _ =>
    (Act.Moves.throwIf _ _).bind fun _ =>
    Act.Moves.bind
      (Act.Moves.modify fun _ => KeepsIndex.of_eq rfl rfl rfl rfl) fun _ =>
    ignoreFSNotifications_keepsIndex.bind fun _ =>
    (Act.Moves.throwIf _ _).bind fun _ =>
    Act.Moves.modify fun _ => keepsIndex_of_fm_eq (removeFile_fm ..)

theorem startImageWatch_keepsIndex (env : Env) (fname imgNum : String) :
    Act.Moves KeepsIndex (startImageWatch env fname imgNum) :=
  (inotify_add_watch_keepsIndex env _ _).bind fun _ =>
  (Act.Moves.throwIf _ _).bind fun _ =>
  Act.Moves.modify fun _ => KeepsIndex.of_eq rfl rfl rfl rfl

theorem stopImageWatch_keepsIndex (wd : ℤ) :
    Act.Moves KeepsIndex (stopImageWatch wd) :=
  (inotify_rm_watch_keepsIndex wd).bind fun _ =>
  Act.Moves.modify fun _ => KeepsIndex.of_eq rfl rfl rfl rfl

/-! ## Programs that only read -/

section read

variable {R : World → World → Prop} [Std.Refl R] [IsTrans World R]

theorem load_keeps (ptr : DBFileInfoPtr) : Act.Keeps R (load ptr) := by
  cases ptr with
  | none =>
      exact Act.Keeps.undefined.bind fun _ =>
        Act.Keeps.get.bind fun _ => Act.Keeps.pure _
  | some r =>
      exact (Act.Keeps.pure r).bind fun _ =>
        Act.Keeps.get.bind fun _ => Act.Keeps.pure _

theorem findByName_keeps (fname : String)
    (entries : List (ℤ × DBFileInfoPtr)) :
    Act.Keeps R (findByName fname entries) := by
  induction entries with
  | nil => exact Act.Keeps.pure _
  | cons entry rest ih =>
      exact (load_keeps _).bind fun _ => Act.Keeps.ite (Act.Keeps.pure _) ih

theorem fileExistsWithName_keeps (fname : String) :
    Act.Keeps R (fileExistsWithName fname) :=
  Act.Keeps.get.bind fun _ => (findByName_keeps fname _).bind fun _ =>
    Act.Keeps.pure _

omit [IsTrans World R] in
theorem longFromQuery_keeps (env : Env) (call : Call) (value : ℤ) :
    Act.Keeps R (longFromQuery env call value) :=
  Act.Keeps.ite (Act.Keeps.throw _) (Act.Keeps.pure _)

theorem statFails_keeps (env : Env) (path : String) :
    Act.Keeps R (statFails env path) :=
  Act.Keeps.get.bind fun _ => Act.Keeps.pure _

theorem readFileBlob_keeps (env : Env) (path : String) :
    Act.Keeps R (readFileBlob env path) := by
  refine Act.Keeps.get.bind fun w => ?_
  split
  · exact Act.Keeps.pure _
  · exact Act.Keeps.throw _

omit [IsTrans World R] in
theorem escapeLiteral_keeps (env : Env) (inString : String) :
    Act.Keeps R (escapeLiteral env inString) :=
  Act.Keeps.ite Act.Keeps.undefined (Act.Keeps.pure _)

/-- Where the driver cannot quote the name of a new file, its rows are not
inserted and nothing is changed. -/
theorem insertRows_keeps_of_unquotable {env : Env}
    (h : env.fails .escapeLiteral = true) (fname : String) (fileId : ℤ) :
    Act.Keeps R (insertRows env fname fileId) := by
  have hstops : Act.Stops (escapeLiteral env fname) := by
    rw [escapeLiteral, h]
    exact Act.Stops.undefined
  exact Act.Keeps.get.bind fun _ => (statFails_keeps env fname).bind fun _ =>
    (Act.Keeps.throwIf _ _).bind fun _ =>
    (readFileBlob_keeps env fname).bind fun _ =>
    (escapeLiteral_keeps env fname).bind_of_stops hstops _

end read

theorem insertRows_stops_of_unquotable {env : Env}
    (h : env.fails .escapeLiteral = true) (fname : String) (fileId : ℤ) :
    Act.Stops (insertRows env fname fileId) := by
  have hstops : Act.Stops (escapeLiteral env fname) := by
    rw [escapeLiteral, h]
    exact Act.Stops.undefined
  exact .of_bind _ fun _ => .of_bind _ fun _ => .of_bind _ fun _ =>
    .of_bind _ fun _ => hstops.bind _

theorem insertDBFile_stops_of_unquotable {env : Env}
    (h : env.fails .escapeLiteral = true) (fname : String) :
    Act.Stops (insertDBFile env fname) := by
  refine .ensuring (.of_bind _ fun _ => ?_) _
  exact .of_bind _ fun _ => .of_bind _ fun _ =>
    (insertRows_stops_of_unquotable h fname _).bind _

/-! ## Loading one file -/

/-- The row a load of one identifier finds. -/
def Tables.fetch (t : Tables) (id : ℤ) : Option FetchedFile :=
  t.rcfile[id]?.bind fun row =>
    t.rcfiledata[id]?.map fun data =>
      ⟨id, row.version, row.name, row.lastmodified, data⟩

theorem Tables.fetch_id {t : Tables} {id : ℤ} {row : FetchedFile}
    (h : t.fetch id = some row) : row.id = id := by
  simp only [Tables.fetch, Option.bind_eq_some_iff,
    Option.map_eq_some_iff] at h
  obtain ⟨_, -, _, -, rfl⟩ := h
  rfl

theorem selectFiles_whereId (t : Tables) (id : ℤ) :
    t.selectFiles (whereId id) = (t.fetch id).toList := by
  rw [Tables.fetch, ← Map.filterMap_toList_eq]
  refine List.filterMap_congr fun p _ => ?_
  obtain ⟨k, row⟩ := p
  by_cases hk : k = id
  · subst hk
    simp [whereId]
  · simp [whereId, hk]

/-- The row that a load of one identifier brings in, if it brings in any. -/
def loadedRow (env : Env) (w : World) (id : ℤ) : Option FetchedFile :=
  if env.fails .selectFiles then none
  else (w.db.committed.fetch id).filter FetchedFile.fits

theorem loadedRow_spec {env : Env} {w : World} {id : ℤ} {row : FetchedFile}
    (h : loadedRow env w id = some row) :
    row.id = id ∧ row.fits = true ∧ w.db.committed.fetch id = some row := by
  unfold loadedRow at h
  split at h
  · cases h
  · obtain ⟨hfetch, hfits⟩ := Option.filter_eq_some_iff.mp h
    exact ⟨Tables.fetch_id hfetch, hfits, hfetch⟩

theorem forEach_singleton {α : Type} (a : α) (f : α → Prog Unit)
    (w : World) : Act.forEach [a] f w = f a w := by
  rw [Act.forEach_cons, Act.bind_apply]
  rcases f a w with ⟨_ | _ | _, w'⟩ <;> rfl

theorem loadFiles_whereId (env : Env) (id : ℤ) (w : World) :
    loadFiles env (whereId id) w =
      match loadedRow env w id with
      | some row => loadFile env row w
      | none => (.returned (), w) := by
  have hload : loadFiles env (whereId id) w =
      (if env.fails .selectFiles ||
          !(w.db.committed.fetch id).toList.all FetchedFile.fits then pure ()
        else Act.forEach (w.db.committed.fetch id).toList (loadFile env) :
        Prog Unit) w := by
    rw [← selectFiles_whereId]
    rfl
  rw [hload, loadedRow]
  cases hselect : env.fails .selectFiles with
  | true => rfl
  | false =>
      cases w.db.committed.fetch id with
      | none => rfl
      | some row =>
          cases hfits : row.fits with
          | false =>
              rw [if_pos (by simp [hfits])]
              simp [Option.filter, hfits]
          | true =>
              rw [if_neg (by simp [hfits]), Option.toList,
                forEach_singleton]
              simp [Option.filter, hfits]

end Rc2Compute.Files
