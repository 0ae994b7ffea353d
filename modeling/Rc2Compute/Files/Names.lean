import Rc2Compute.Files.Transactions
import Rc2Compute.Files.Replication

/-!
# One file for each name

Rows are inserted by two paths, one behind a created file and one behind a
command, each after its own look at the cache.  As long as the session is the
only one that writes to its workspace, the cache holds exactly the rows of the
workspace, and no name is used twice in either.
-/

namespace Rc2Compute.Files

open Transition

/-- The row `id` of the table belongs to the session's workspace. -/
def World.HasFile (w : World) (id : ℤ) (row : FileRow) : Prop :=
  w.db.committed.rcfile[id]? = some row ∧ row.wspaceid = w.fm.wspaceId

/-- No two rows of the workspace and no two non-null entries of the cache have
the same name. -/
structure OneFilePerName (w : World) : Prop where
  rows : ∀ id id' row row', w.HasFile id row → w.HasFile id' row' →
    row.name = row'.name → id = id'
  entries : ∀ (id id' : ℤ) r r', w.fm.filesById[id]? = some (some r) →
    w.fm.filesById[id']? = some (some r') →
    (w.fm.objects r).name = (w.fm.objects r').name → id = id'

/-- What `findOrAddFile` returns is about the only entry of that name.  The
identifier of a cached file is a `uint32_t`. -/
def ReportsUnique (env : Env) (w : World) (fname : String) : Prop :=
  ∀ info w', findOrAddFile env fname w = (.returned info, w') →
    ∃ id r, w'.fm.filesById[id]? = some (some r) ∧
      (w'.fm.objects r).name = fname ∧ info.name = fname ∧
      info.id = toUInt32 id ∧
      ∀ (id' : ℤ) r', w'.fm.filesById[id']? = some (some r') →
        (w'.fm.objects r').name = fname → id' = id

/-! ## Runs -/

/-- A session and the notifications its own commits have caused. -/
structure Naming where
  world : World
  caused : Char → ℤ → Prop

/-- R changes the working directory, the session handles an inotify event,
looks for a file, resets its watch, opens or closes its ignore window or
processes a notification, and other sessions change the rows of other
workspaces.  An event that is dropped is not handled at all. -/
inductive NameOp where
  | create (name : String) (data : Bytes)
  | delete (name : String)
  | event (env : Env) (event : InotifyEvent)
  | findOrAddFile (env : Env) (fname : String)
  | resetWatch
  | ignore
  | ignoreOff
  | notification (env : Env) (message : String)
  | others (rows : Map ℤ FileRow)

namespace Naming

/-- The operation, as far as it is an action of the session. -/
def act : NameOp → Prog Unit
  | .create name data => Act.modify fun w => w.writeFile .other name data
  | .delete name => Act.modify fun w => w.removeFile .other name
  | .event env event => handleEvent env event
  | .findOrAddFile env fname => do
      let _ ← Files.findOrAddFile env fname
      pure ()
  | .resetWatch => Files.resetWatch
  | .ignore => ignoreFSNotifications
  | .ignoreOff => handleIgnoreFSNotesOff
  | .notification env message => processDBNotification env message
  | .others rows => Act.modify fun w =>
      { w with db :=
        { w.db with committed := { w.db.committed with rcfile := rows } } }

/-- The notifications of the commits between two states. -/
def causedBetween (w w' : World) (type : Char) (id : ℤ) : Prop :=
  let before := ∃ row, w.HasFile id row
  let after := ∃ row, w'.HasFile id row
  (type = 'i' ∧ ¬before ∧ after) ∨ (type = 'd' ∧ before ∧ ¬after) ∨
    (type = 'u' ∧ before ∧ after)

def step (s : Naming) (op : NameOp) : Naming :=
  let w := (act op s.world).2
  { world := w
    caused := fun type id => s.caused type id ∨ causedBetween s.world w type id }

/-- The sequence yields no identifier twice, and a failed `begin` means a dead
connection. -/
def Fresh (s : Naming) (env : Env) : Prop :=
  0 ≤ env.newId ∧ (∀ type, ¬ s.caused type env.newId) ∧ env.BeginsAlive

/-- The session alone writes to its workspace: notifications are those of its
commits, and other sessions neither touch its rows nor use their identifiers.
The run ends where a handler crashes. -/
def Allowed (s : Naming) (op : NameOp) : Prop :=
  (act op s.world).1 ≠ .undefined ∧
    match op with
    | .event env _ => s.Fresh env
    | .findOrAddFile env _ => s.Fresh env
    | .notification _ message => ∀ type id,
        parseNotification s.world.fm.wspaceId message = some (type, id) →
          s.caused type id
    | .others rows =>
        (∀ (id : ℤ) row, row.wspaceid = s.world.fm.wspaceId →
          (rows[id]? = some row ↔
            s.world.db.committed.rcfile[id]? = some row)) ∧
        ∀ type id, s.caused type id →
          rows[id]? = s.world.db.committed.rcfile[id]?
    | _ => True

end Naming

/-! ## The cache and the rows -/

/-- Cached entries point to different allocated objects, each of a row of the
workspace, and the names of these rows are distinct. -/
structure Sound (w : World) : Prop where
  idle : w.db.transaction = none
  pointer : ∀ id ptr, w.fm.filesById[id]? = some ptr →
    ∃ r row, ptr = some r ∧ r < w.fm.nextObject ∧ w.HasFile id row ∧
      (w.fm.objects r).name = row.name ∧
      (w.fm.objects r).id = toUInt32 id ∧ 0 ≤ id
  inj : ∀ (id id' : ℤ) r, w.fm.filesById[id]? = some (some r) →
    w.fm.filesById[id']? = some (some r) → id = id'
  names : ∀ id id' row row', w.HasFile id row → w.HasFile id' row' →
    row.name = row'.name → id = id'

/-- Moreover, every row of the workspace is cached. -/
structure Synced (w : World) : Prop extends Sound w where
  cached : ∀ id row, w.HasFile id row → w.fm.filesById[id]? ≠ none

theorem Sound.oneFilePerName {w : World} (h : Sound w) : OneFilePerName w := by
  constructor
  · exact h.names
  · intro id id' r r' hr hr' hname
    obtain ⟨k, row, hk, -, hrow, hkname, -⟩ := h.pointer id _ hr
    obtain ⟨k', row', hk', -, hrow', hkname', -⟩ := h.pointer id' _ hr'
    obtain rfl := Option.some.inj hk
    obtain rfl := Option.some.inj hk'
    apply h.names id id' row row' hrow hrow'
    rw [← hkname, ← hkname', hname]

/-! ## Steps that keep all names -/

/-- What identifies a row. -/
def FileRow.key (row : FileRow) : ℤ × String :=
  (row.wspaceid, row.name)

/-- The rows of the table, the entries of the cache, and the identifiers and
names of the cached objects are the same. -/
structure SameNames (w w' : World) : Prop where
  byId : w'.fm.filesById = w.fm.filesById
  nextObject : w.fm.nextObject ≤ w'.fm.nextObject
  id : ∀ r < w.fm.nextObject, (w'.fm.objects r).id = (w.fm.objects r).id
  name : ∀ r < w.fm.nextObject, (w'.fm.objects r).name = (w.fm.objects r).name
  wspaceId : w'.fm.wspaceId = w.fm.wspaceId
  row : ∀ k : ℤ, w'.db.committed.rcfile[k]?.map FileRow.key =
    w.db.committed.rcfile[k]?.map FileRow.key
  idle : w.db.transaction = none → w'.db.transaction = none

namespace SameNames

theorem of_eq {w w' : World} (hid : w'.fm.filesById = w.fm.filesById)
    (hnext : w'.fm.nextObject = w.fm.nextObject)
    (hobj : w'.fm.objects = w.fm.objects)
    (hwspace : w'.fm.wspaceId = w.fm.wspaceId)
    (hrow : w'.db.committed.rcfile = w.db.committed.rcfile)
    (hidle : w'.db.transaction = w.db.transaction) : SameNames w w' where
  byId := hid
  nextObject := hnext.ge
  id _ _ := by rw [hobj]
  name _ _ := by rw [hobj]
  wspaceId := hwspace
  row _ := by rw [hrow]
  idle h := hidle.trans h

instance : Std.Refl SameNames where
  refl _ := of_eq rfl rfl rfl rfl rfl rfl

instance : IsTrans World SameNames where
  trans _ _ _ hab hbc :=
    { byId := hbc.byId.trans hab.byId
      nextObject := hab.nextObject.trans hbc.nextObject
      id := fun r hr =>
        (hbc.id r (hr.trans_le hab.nextObject)).trans (hab.id r hr)
      name := fun r hr =>
        (hbc.name r (hr.trans_le hab.nextObject)).trans (hab.name r hr)
      wspaceId := hbc.wspaceId.trans hab.wspaceId
      row := fun k => (hbc.row k).trans (hab.row k)
      idle := fun h => hbc.idle (hab.idle h) }

/-- Rows of the second world were rows of the first. -/
theorem hasFile {w w' : World} (h : SameNames w w') {id : ℤ} {row' : FileRow}
    (hrow : w'.HasFile id row') :
    ∃ row, w.HasFile id row ∧ row.name = row'.name := by
  have hmap := h.row id
  rw [hrow.1, Option.map_some] at hmap
  obtain ⟨row, hold, hkey⟩ := Option.map_eq_some_iff.mp hmap.symm
  obtain ⟨hwspace, hname⟩ := Prod.mk.inj hkey
  refine ⟨row, ⟨hold, ?_⟩, hname⟩
  rw [hwspace, hrow.2, h.wspaceId]

/-- Rows of the first world are rows of the second. -/
theorem hasFile' {w w' : World} (h : SameNames w w') {id : ℤ} {row : FileRow}
    (hrow : w.HasFile id row) :
    ∃ row', w'.HasFile id row' ∧ row'.name = row.name := by
  have hmap := h.row id
  rw [hrow.1, Option.map_some] at hmap
  obtain ⟨row', hnew, hkey⟩ := Option.map_eq_some_iff.mp hmap
  obtain ⟨hwspace, hname⟩ := Prod.mk.inj hkey
  refine ⟨row', ⟨hnew, ?_⟩, hname⟩
  rw [hwspace, hrow.2, h.wspaceId]

theorem sound {w w' : World} (h : SameNames w w') (hw : Sound w) :
    Sound w' := by
  constructor
  · exact h.idle hw.idle
  · intro id ptr hptr
    rw [h.byId] at hptr
    obtain ⟨r, row, rfl, hlt, hrow, hname, hid, hpos⟩ := hw.pointer id ptr hptr
    obtain ⟨row', hrow', hname'⟩ := h.hasFile' hrow
    refine ⟨r, row', rfl, hlt.trans_le h.nextObject, hrow', ?_, ?_, hpos⟩
    · rw [h.name r hlt, hname, hname']
    · rw [h.id r hlt, hid]
  · rw [h.byId]
    exact hw.inj
  · intro id id' row₁ row₂ h₁ h₂ hname
    obtain ⟨row₁', h₁', hname₁⟩ := h.hasFile h₁
    obtain ⟨row₂', h₂', hname₂⟩ := h.hasFile h₂
    exact hw.names id id' row₁' row₂' h₁' h₂' (by rw [hname₁, hname₂, hname])

theorem synced {w w' : World} (h : SameNames w w') (hw : Synced w) :
    Synced w' where
  toSound := h.sound hw.toSound
  cached id row hrow := by
    obtain ⟨row', hrow', -⟩ := h.hasFile hrow
    rw [h.byId]
    exact hw.cached id row' hrow'

end SameNames

/-! ## Programs that keep all names -/

theorem sameNames_executeQuery (env : Env) (call : Call)
    {statement : Tables → Option Tables}
    (h : ∀ t t', statement t = some t' → t'.rcfile = t.rcfile) :
    Act.Keeps SameNames (executeQuery env call statement) := by
  intro w
  unfold executeQuery
  split
  · split
    next tables htables =>
      split at htables
      · cases htables
      · exact SameNames.of_eq rfl rfl rfl rfl (h _ _ htables) rfl
    · exact Std.Refl.refl w
  · exact Std.Refl.refl w
  next working hworking =>
    refine ⟨rfl, le_rfl, fun _ _ => rfl, fun _ _ => rfl, rfl, fun _ => rfl,
      fun hidle => ?_⟩
    rw [hworking] at hidle
    cases hidle

theorem sameNames_store (ptr : DBFileInfoPtr) {f : DBFileInfo → DBFileInfo}
    (hid : ∀ info, (f info).id = info.id)
    (hname : ∀ info, (f info).name = info.name) :
    Act.Keeps SameNames (store ptr f) := by
  cases ptr with
  | none => exact fun w => Std.Refl.refl w
  | some r =>
      intro w
      rw [store_some]
      refine ⟨rfl, le_rfl, fun k _ => ?_, fun k _ => ?_, rfl, fun _ => rfl, id⟩
      · by_cases hk : k = r
        · subst hk
          simp [World.setObject, hid]
        · simp [World.setObject, hk]
      · by_cases hk : k = r
        · subst hk
          simp [World.setObject, hname]
        · simp [World.setObject, hk]

/-- A change of the kernel's and the disk's state. -/
theorem SameNames.of_fm_db {w w' : World} (hfm : w'.fm = w.fm)
    (hdb : w'.db = w.db) : SameNames w w' := by
  apply SameNames.of_eq
  · rw [hfm]
  · rw [hfm]
  · rw [hfm]
  · rw [hfm]
  · rw [hdb]
  · rw [hdb]

theorem sameNames_removeFile (w : World) (writer : Writer) (name : String) :
    SameNames w (w.removeFile writer name) :=
  SameNames.of_fm_db (removeFile_fm w writer name)
    (removeFile_db w writer name)

theorem sameNames_inotify_rm_watch (wd : ℤ) :
    Act.Keeps SameNames (inotify_rm_watch wd) := by
  apply Act.Keeps.modify
  intro w
  split
  · exact SameNames.of_fm_db rfl rfl
  · exact Std.Refl.refl w

theorem sameNames_inotify_add_watch (env : Env) (path : String)
    (mask : UInt32) :
    Act.Keeps SameNames (inotify_add_watch env path mask) := by
  refine Act.Keeps.ite (Act.Keeps.pure _) ?_
  refine Act.Keeps.bind (Act.Keeps.modify fun w => ?_) fun _ => Act.Keeps.pure _
  exact SameNames.of_fm_db rfl rfl

theorem sameNames_ignoreFSNotifications :
    Act.Keeps SameNames ignoreFSNotifications := by
  apply Act.Keeps.modify
  intro w
  split
  · exact Std.Refl.refl w
  · exact SameNames.of_eq rfl rfl rfl rfl rfl rfl

theorem sameNames_watchFile (env : Env) (file : DBFileInfoPtr) :
    Act.Keeps SameNames (watchFile env file) := by
  refine (load_keeps file).bind fun info => ?_
  refine Act.Keeps.get.bind fun w => ?_
  refine (statFails_keeps env _).bind fun failed => ?_
  refine (Act.Keeps.throwIf _ _).bind fun _ => ?_
  refine (sameNames_inotify_add_watch env _ _).bind fun wd => ?_
  refine (sameNames_store file ?_ ?_).bind fun _ => ?_
  · exact fun _ => rfl
  · exact fun _ => rfl
  refine (Act.Keeps.throwIf _ _).bind fun _ => ?_
  exact Act.Keeps.modify fun _ => SameNames.of_eq rfl rfl rfl rfl rfl rfl

theorem sameNames_filesByWatchDescIndex (wd : ℤ) :
    Act.Keeps SameNames (filesByWatchDescIndex wd) := by
  intro w
  unfold filesByWatchDescIndex
  split
  · exact Std.Refl.refl w
  · exact SameNames.of_eq rfl rfl rfl rfl rfl rfl

theorem sameNames_startImageBatch (env : Env) :
    Act.Keeps SameNames (startImageBatch env) := by
  refine Act.Keeps.get.bind fun w => ?_
  refine Act.Keeps.ite ?_ (Act.Keeps.pure _)
  refine (longFromQuery_keeps env _ _).bind fun batch => ?_
  exact Act.Keeps.modify fun _ => SameNames.of_eq rfl rfl rfl rfl rfl rfl

theorem sameNames_insertImage (env : Env) (fname imgNumStr : String) :
    Act.Keeps SameNames (insertImage env fname imgNumStr) := by
  refine (readFileBlob_keeps env fname).bind fun data => ?_
  refine Act.Keeps.ite (Act.Keeps.pure _) ?_
  refine (longFromQuery_keeps env _ _).bind fun imgId => ?_
  refine (Act.Keeps.throwIf _ _).bind fun _ => ?_
  refine (sameNames_startImageBatch env).bind fun _ => ?_
  refine Act.Keeps.get.bind fun w => ?_
  refine (sameNames_executeQuery env _ ?_).bind fun res => ?_
  · intro t t' ht
    split at ht
    · cases ht
    · obtain ⟨_, -, rfl⟩ := Option.map_eq_some_iff.mp ht
      rfl
  refine (Act.Keeps.throwIf _ _).bind fun _ => ?_
  refine Act.Keeps.bind (Act.Keeps.modify fun w => ?_) fun _ => ?_
  · exact SameNames.of_eq rfl rfl rfl rfl rfl rfl
  refine sameNames_ignoreFSNotifications.bind fun _ => ?_
  refine (Act.Keeps.throwIf _ _).bind fun _ => ?_
  exact Act.Keeps.modify fun w => sameNames_removeFile w _ _

theorem sameNames_startImageWatch (env : Env) (fname imgNum : String) :
    Act.Keeps SameNames (startImageWatch env fname imgNum) := by
  refine (sameNames_inotify_add_watch env _ _).bind fun wd => ?_
  refine (Act.Keeps.throwIf _ _).bind fun _ => ?_
  exact Act.Keeps.modify fun _ => SameNames.of_eq rfl rfl rfl rfl rfl rfl

theorem sameNames_stopImageWatch (wd : ℤ) :
    Act.Keeps SameNames (stopImageWatch wd) :=
  (sameNames_inotify_rm_watch wd).bind fun _ =>
    Act.Keeps.modify fun _ => SameNames.of_eq rfl rfl rfl rfl rfl rfl

theorem sameNames_handleLogged (event : InotifyEvent) :
    Act.Keeps SameNames (handleLogged event) :=
  (sameNames_filesByWatchDescIndex _).bind fun _ =>
    (load_keeps _).bind fun _ => Act.Keeps.pure _

/-! ## Steps of a synced session -/

/-- A synced session stays synced, and a row that is new has the identifier
`newId` and belongs to the workspace. -/
def Advances (newId : ℤ) (w w' : World) : Prop :=
  Synced w → Synced w' ∧ w'.fm.wspaceId = w.fm.wspaceId ∧
    ∀ (id : ℤ) row', w'.db.committed.rcfile[id]? = some row' →
      (∃ row, w.db.committed.rcfile[id]? = some row ∧
        row.wspaceid = row'.wspaceid) ∨
      (id = newId ∧ row'.wspaceid = w.fm.wspaceId)

namespace Advances

variable {newId : ℤ}

instance : Std.Refl (Advances newId) where
  refl _ h := ⟨h, rfl, fun _ row hrow => Or.inl ⟨row, hrow, rfl⟩⟩

instance : IsTrans World (Advances newId) where
  trans a b c hab hbc h := by
    obtain ⟨hb, hwspace, hrows⟩ := hab h
    obtain ⟨hc, hwspace', hrows'⟩ := hbc hb
    refine ⟨hc, hwspace'.trans hwspace, fun id row'' hrow'' => ?_⟩
    rcases hrows' id row'' hrow'' with ⟨row', hrow', heq⟩ | ⟨hid, hnew⟩
    · rcases hrows id row' hrow' with ⟨row, hrow, heq'⟩ | ⟨hid, hnew⟩
      · exact Or.inl ⟨row, hrow, heq'.trans heq⟩
      · exact Or.inr ⟨hid, heq.symm.trans hnew⟩
    · exact Or.inr ⟨hid, hnew.trans hwspace⟩

theorem of_sameNames {w w' : World} (h : Synced w → SameNames w w') :
    Advances newId w w' := by
  intro hw
  have hsame := h hw
  refine ⟨hsame.synced hw, hsame.wspaceId, fun id row' hrow' => Or.inl ?_⟩
  have hmap := hsame.row id
  rw [hrow', Option.map_some] at hmap
  obtain ⟨row, hold, hkey⟩ := Option.map_eq_some_iff.mp hmap.symm
  exact ⟨row, hold, (Prod.mk.inj hkey).1⟩

theorem of_keeps {α : Type} {x : Prog α} (h : Act.Keeps SameNames x) :
    Act.Keeps (Advances newId) x :=
  fun w => of_sameNames fun _ => h w

end Advances

theorem Untouched.sameNames {w w' : World} (h : Untouched w w') :
    SameNames w w' where
  byId := h.filesById
  nextObject := h.nextObject
  id r hr := by rw [h.objects r hr]
  name r hr := by rw [h.objects r hr]
  wspaceId := h.wspaceId
  row k := by rw [h.db]
  idle _ := by rw [h.db]

theorem sameNames_updated (w : World) (r : ℕ) (mtime : ℤ)
    (data bindata : Bytes) :
    SameNames w (w.updated r mtime data bindata) := by
  have hobject : ∀ k,
      ((w.updated r mtime data bindata).fm.objects k).id =
        (w.fm.objects k).id ∧
      ((w.updated r mtime data bindata).fm.objects k).name =
        (w.fm.objects k).name := by
    intro k
    by_cases hk : k = r
    · subst hk
      simp [World.updated, World.setObject]
    · simp [World.updated, World.setObject, hk]
  constructor
  · rfl
  · exact le_rfl
  · exact fun k _ => (hobject k).1
  · exact fun k _ => (hobject k).2
  · rfl
  · intro k
    change (updatedRows w.db.committed.rcfile _ _ _ _)[k]?.map _ = _
    rw [updatedRows, Map.getElem?_modify]
    split
    next =>
      rw [Option.map_map]
      rfl
    next => rfl
  · exact fun _ => rfl

theorem updateDBFile_advances {env : Env} (hbegin : env.BeginsAlive)
    (fobj : DBFileInfoPtr) {newId : ℤ} :
    Act.Keeps (Advances newId) (updateDBFile env fobj) := by
  intro w
  apply Advances.of_sameNames
  intro hw
  cases fobj with
  | none => exact Std.Refl.refl w
  | some r =>
      refine ((updateDBFile_spec hw.idle hbegin).mono ?_ ?_).final
      · rintro _ w' ⟨data, bindata, -, -, rfl⟩
        exact sameNames_updated w r env.mtime data bindata
      · exact fun _ w' h => h.sameNames

/-! ## Looking for a name -/

/-- No cached file is called `fname`. -/
def Unused (w : World) (fname : String) : Prop :=
  ∀ (id : ℤ) r, w.fm.filesById[id]? = some (some r) →
    (w.fm.objects r).name ≠ fname

/-- The loop over the cache finds a file of that name if there is one. -/
theorem findByName_spec {w : World} {fname : String}
    {entries : List (ℤ × DBFileInfoPtr)}
    (hptr : ∀ entry ∈ entries, ∃ r, entry.2 = some r) :
    ∃ ptr, findByName fname entries w = (.returned ptr, w) ∧
      match ptr with
      | some r => (w.fm.objects r).name = fname ∧ ∃ id, (id, some r) ∈ entries
      | none => ∀ id r, (id, some r) ∈ entries →
          (w.fm.objects r).name ≠ fname := by
  induction entries with
  | nil =>
      refine ⟨none, rfl, fun id r hmem => ?_⟩
      cases hmem
  | cons entry rest ih =>
      obtain ⟨r, hr⟩ := hptr entry (by simp)
      obtain ⟨id, ptr⟩ := entry
      obtain rfl : ptr = some r := hr
      have hload := Act.bind_apply_returned
        (f := fun info : DBFileInfo =>
          if info.name = fname then (pure (some r) : Prog DBFileInfoPtr)
          else findByName fname rest) (load_some r w)
      by_cases hname : (w.fm.objects r).name = fname
      · refine ⟨some r, ?_, hname, id, by simp⟩
        rw [findByName, hload, if_pos hname]
        rfl
      · obtain ⟨ptr, hrest, hspec⟩ := ih fun e he => hptr e (by simp [he])
        refine ⟨ptr, ?_, ?_⟩
        · rw [findByName, hload, if_neg hname, hrest]
        · cases ptr with
          | some k =>
              obtain ⟨hk, id', hmem⟩ := hspec
              exact ⟨hk, id', by simp [hmem]⟩
          | none =>
              intro id' k hmem
              rcases List.mem_cons.mp hmem with heq | hmem
              · cases heq
                exact hname
              · exact hspec id' k hmem

/-- What a synced session finds in its cache. -/
theorem Sound.findByName {w : World} (h : Sound w) (fname : String) :
    ∃ ptr, findByName fname w.fm.filesById.toList w = (.returned ptr, w) ∧
      match ptr with
      | some r => (w.fm.objects r).name = fname ∧
          ∃ id : ℤ, w.fm.filesById[id]? = some (some r)
      | none => Unused w fname := by
  have hptr : ∀ entry ∈ w.fm.filesById.toList, ∃ r, entry.2 = some r := by
    rintro ⟨id, ptr⟩ hmem
    obtain ⟨r, -, rfl, -⟩ := h.pointer id ptr ((Map.mem_toList _).mp hmem)
    exact ⟨r, rfl⟩
  obtain ⟨ptr, hfind, hspec⟩ := findByName_spec (w := w) hptr
  refine ⟨ptr, hfind, ?_⟩
  cases ptr with
  | some r =>
      obtain ⟨hname, id, hmem⟩ := hspec
      exact ⟨hname, id, (Map.mem_toList _).mp hmem⟩
  | none => exact fun id r hr => hspec id r ((Map.mem_toList _).mpr hr)

/-! ## Inserting and deleting rows -/

/-- A new object enters the cache for a row of the workspace. -/
theorem Sound.withEntry {w w' : World} {id : ℤ} {row : FileRow} (h : Sound w)
    (hentry : ∀ k : ℤ, w'.fm.filesById[k]? =
      if id = k then some (some w.fm.nextObject) else w.fm.filesById[k]?)
    (hnext : w'.fm.nextObject = w.fm.nextObject + 1)
    (hobject : ∀ r < w.fm.nextObject, w'.fm.objects r = w.fm.objects r)
    (hname : (w'.fm.objects w.fm.nextObject).name = row.name)
    (hid : (w'.fm.objects w.fm.nextObject).id = toUInt32 id) (hpos : 0 ≤ id)
    (hrow : w'.HasFile id row)
    (hold : ∀ k row, w.HasFile k row → w'.HasFile k row)
    (hnames : ∀ k k' row row', w'.HasFile k row → w'.HasFile k' row' →
      row.name = row'.name → k = k')
    (hidle : w'.db.transaction = none) : Sound w' := by
  have hlt : ∀ (k : ℤ) r, w.fm.filesById[k]? = some (some r) →
      r < w.fm.nextObject := by
    intro k r hk
    obtain ⟨r', -, heq, hlt, -⟩ := h.pointer k _ hk
    rwa [Option.some.inj heq]
  constructor
  · exact hidle
  · intro k ptr hptr
    rw [hentry] at hptr
    split at hptr
    next heq =>
      cases hptr
      subst heq
      refine ⟨_, row, rfl, ?_, hrow, hname, hid, hpos⟩
      rw [hnext]
      exact Nat.lt_succ_self _
    next =>
      obtain ⟨r, row', rfl, hr, hfile, hname', hid', hpos'⟩ :=
        h.pointer k _ hptr
      refine ⟨r, row', rfl, ?_, hold k row' hfile, ?_, ?_, hpos'⟩
      · rw [hnext]
        exact hr.trans (Nat.lt_succ_self _)
      · rw [hobject r hr, hname']
      · rw [hobject r hr, hid']
  · intro k k' r hr hr'
    rw [hentry] at hr hr'
    split at hr
    next heq =>
      split at hr'
      next heq' => rw [← heq, ← heq']
      next =>
        cases hr
        exact absurd (hlt k' _ hr') (lt_irrefl _)
    next =>
      split at hr'
      next =>
        cases hr'
        exact absurd (hlt k _ hr) (lt_irrefl _)
      next => exact h.inj k k' r hr hr'
  · exact hnames

/-- A row of a synced session is cached under its name. -/
theorem Synced.entry {w : World} (h : Synced w) {id : ℤ} {row : FileRow}
    (hrow : w.HasFile id row) :
    ∃ r, w.fm.filesById[id]? = some (some r) ∧
      (w.fm.objects r).name = row.name := by
  obtain ⟨ptr, hptr⟩ := Option.ne_none_iff_exists'.mp (h.cached id row hrow)
  obtain ⟨r, row', rfl, -, hrow', hname, -⟩ := h.pointer id ptr hptr
  refine ⟨r, hptr, ?_⟩
  rw [hname, Option.some.inj (hrow'.1.symm.trans hrow.1)]

/-- Inserting a row under a name that no cached file has. -/
theorem Synced.inserted {env : Env} {w : World} {fname : String}
    {data bindata : Bytes} (h : Synced w) (hnew : 0 ≤ env.newId)
    (hrow : w.db.committed.rcfile[env.newId]? = none)
    (hunused : Unused w fname) :
    Synced (w.inserted env fname data bindata) := by
  have hfresh : w.fm.filesById[env.newId]? = none := by
    by_contra hne
    obtain ⟨ptr, hptr⟩ := Option.ne_none_iff_exists'.mp hne
    obtain ⟨r, row, -, -, hfile, -⟩ := h.pointer _ ptr hptr
    rw [hfile.1] at hrow
    cases hrow
  have hentry : ∀ id : ℤ, (w.inserted env fname data bindata).fm.filesById[
      id]? = if env.newId = id then some (some w.fm.nextObject)
        else w.fm.filesById[id]? := fun id =>
    Map.getElem?_insertIfNew_of_none _ _ hfresh
  have hrows : ∀ id : ℤ, (w.inserted env fname data
      bindata).db.committed.rcfile[id]? =
        if env.newId = id then
          some ⟨1, w.fm.wspaceId, fname, data.length, env.mtime⟩
        else w.db.committed.rcfile[id]? := fun id =>
    Map.getElem?_insert _ _ _ _
  have hobject : (w.inserted env fname data bindata).fm.objects
      w.fm.nextObject =
        ⟨toUInt32 env.newId, 1, fname, fname, env.uninitialised⟩ :=
    Function.update_self _ _ _
  have hfile : (w.inserted env fname data bindata).HasFile env.newId
      ⟨1, w.fm.wspaceId, fname, data.length, env.mtime⟩ :=
    ⟨Map.getElem?_insert_self _ _ _, rfl⟩
  have hcases : ∀ id row,
      (w.inserted env fname data bindata).HasFile id row →
      (id = env.newId ∧ row.name = fname) ∨
        (id ≠ env.newId ∧ w.HasFile id row) := by
    rintro id row ⟨hfile, hwspace⟩
    rw [hrows] at hfile
    split at hfile
    next heq =>
      cases hfile
      exact Or.inl ⟨heq.symm, rfl⟩
    next hne => exact Or.inr ⟨fun heq => hne heq.symm, hfile, hwspace⟩
  constructor
  · refine h.withEntry hentry rfl ?_ ?_ ?_ hnew hfile ?_ ?_ rfl
    · exact fun r hr => Function.update_of_ne hr.ne _ _
    · rw [hobject]
    · rw [hobject]
    · intro id row hfile'
      refine ⟨?_, hfile'.2⟩
      rw [hrows, if_neg, hfile'.1]
      rintro rfl
      rw [hfile'.1] at hrow
      cases hrow
    · -- an older row of that name would be cached under it
      have hnone : ∀ id row, w.HasFile id row → row.name ≠ fname := by
        intro id row hfile' hname
        obtain ⟨r, hr, hname'⟩ := h.entry hfile'
        exact hunused id r hr (hname'.trans hname)
      intro id id' row row' hrow₁ hrow₂ hname
      rcases hcases id row hrow₁ with ⟨rfl, hfname⟩ | ⟨-, hrow₁⟩
      · rcases hcases id' row' hrow₂ with ⟨rfl, -⟩ | ⟨-, hrow₂⟩
        · rfl
        · exact absurd (hname.symm.trans hfname) (hnone id' row' hrow₂)
      · rcases hcases id' row' hrow₂ with ⟨rfl, hfname⟩ | ⟨-, hrow₂⟩
        · exact absurd (hname.trans hfname) (hnone id row hrow₁)
        · exact h.names id id' row row' hrow₁ hrow₂ hname
  · intro id row hfile'
    rw [hentry]
    split
    next => exact Option.some_ne_none _
    next hne =>
      rcases hcases id row hfile' with ⟨rfl, -⟩ | ⟨-, hfile'⟩
      · exact absurd rfl hne
      · exact h.cached id row hfile'

/-- `insertDBFile` under an unused name, and the entry it leaves. -/
theorem insertDBFile_advances {env : Env} {w : World} {fname : String}
    (hquoted : env.fails .escapeLiteral = false) (hbegin : env.BeginsAlive)
    (hnew : 0 ≤ env.newId) (hw : Synced w) (hunused : Unused w fname) :
    Act.wp (insertDBFile env fname)
      (fun id w' => Advances env.newId w w' ∧ id = env.newId ∧
        ∃ r, w'.fm.filesById[id]? = some (some r) ∧
          (w'.fm.objects r).name = fname)
      (fun _ w' => Advances env.newId w w') w := by
  refine (insertDBFile_spec (fun _ => hquoted) hbegin).mono ?_ ?_
  · rintro id w' ⟨rfl, data, bindata, -, -, hnone, rfl⟩
    have hsynced : Synced (w.inserted env fname data bindata) :=
      hw.inserted hnew hnone hunused
    refine ⟨fun _ => ⟨hsynced, rfl, fun id row' hrow' => ?_⟩, rfl, ?_⟩
    · have hrows : (w.db.committed.rcfile.insert env.newId
          ⟨1, w.fm.wspaceId, fname, data.length, env.mtime⟩)[id]? = some row' := hrow'
      rw [Map.getElem?_insert] at hrows
      split at hrows
      next heq =>
        cases hrows
        exact Or.inr ⟨heq.symm, rfl⟩
      next => exact Or.inl ⟨row', hrows, rfl⟩
    · have hfile : (w.inserted env fname data bindata).HasFile env.newId
          ⟨1, w.fm.wspaceId, fname, data.length, env.mtime⟩ :=
        ⟨Map.getElem?_insert_self _ _ _, rfl⟩
      exact hsynced.entry hfile
  · exact fun _ w' h => Advances.of_sameNames fun _ => h.sameNames

theorem insertDBFile_advances_of_unquotable {env : Env}
    (h : env.fails .escapeLiteral = true) (fname : String) {newId : ℤ} :
    Act.Keeps (Advances newId) (insertDBFile env fname) :=
  fun w => Advances.of_sameNames fun _ =>
    (insertDBFile_untouched h fname w).sameNames

/-- The row and the entry of one identifier go together. -/
theorem Synced.removed {w : World} (h : Synced w) (id : ℤ) :
    Synced { w with
      fm := { w.fm with filesById := w.fm.filesById.erase id }
      db := { w.db with committed :=
        { w.db.committed with rcfile := w.db.committed.rcfile.erase id } } } := by
  let w' : World := { w with
    fm := { w.fm with filesById := w.fm.filesById.erase id }
    db := { w.db with committed :=
      { w.db.committed with rcfile := w.db.committed.rcfile.erase id } } }
  have hentry : ∀ k ptr, w'.fm.filesById[k]? = some ptr ↔
      id ≠ k ∧ w.fm.filesById[k]? = some ptr := by
    intro k ptr
    change (w.fm.filesById.erase id)[k]? = _ ↔ _
    rw [Map.getElem?_erase]
    split
    next heq => simp [heq]
    next hne => simp [hne]
  have hfile : ∀ k row, w'.HasFile k row ↔ id ≠ k ∧ w.HasFile k row := by
    intro k row
    change (w.db.committed.rcfile.erase id)[k]? = _ ∧ _ ↔ _ ∧ _ ∧ _
    rw [Map.getElem?_erase]
    split
    next heq => simp [heq]
    next hne => simp [hne, w']
  constructor
  · constructor
    · exact h.idle
    · intro k ptr hptr
      obtain ⟨hne, hptr⟩ := (hentry k ptr).mp hptr
      obtain ⟨r, row, rfl, hlt, hrow, hobject⟩ := h.pointer k ptr hptr
      exact ⟨r, row, rfl, hlt, (hfile k row).mpr ⟨hne, hrow⟩, hobject⟩
    · intro k k' r hr hr'
      exact h.inj k k' r ((hentry k _).mp hr).2 ((hentry k' _).mp hr').2
    · intro k k' row row' hrow hrow' hname
      exact h.names k k' row row' ((hfile k row).mp hrow).2
        ((hfile k' row').mp hrow').2 hname
  · intro k row hrow
    obtain ⟨hne, hrow⟩ := (hfile k row).mp hrow
    obtain ⟨ptr, hptr⟩ := Option.ne_none_iff_exists'.mp (h.cached k row hrow)
    rw [(hentry k ptr).mpr ⟨hne, hptr⟩]
    exact Option.some_ne_none ptr

theorem removeDBFile_advances (env : Env) (fobj : DBFileInfoPtr)
    {newId : ℤ} : Act.Keeps (Advances newId) (removeDBFile env fobj) := by
  intro w hw
  cases fobj with
  | none => exact Std.Refl.refl (r := Advances newId) w hw
  | some r =>
      let id := (w.fm.objects r).id
      have hdelete : deleteRow env id w =
          if env.fails .deleteFile then (.returned false, w)
          else (.returned true, { w with db := { w.db with committed :=
            { w.db.committed with
              rcfile := w.db.committed.rcfile.erase id } } }) := by
        rw [deleteRow, executeQuery, hw.idle]
        cases env.fails .deleteFile <;> rfl
      rw [removeDBFile, Act.bind_apply_returned (load_some r w)]
      by_cases hfails : env.fails .deleteFile = true
      · rw [if_pos hfails] at hdelete
        rw [Act.bind_apply_returned hdelete]
        exact Std.Refl.refl (r := Advances newId) w hw
      · rw [if_neg hfails] at hdelete
        rw [Act.bind_apply_returned hdelete]
        refine ⟨hw.removed id, rfl, fun k row' hrow' => Or.inl ⟨row', ?_, rfl⟩⟩
        have hrows : (w.db.committed.rcfile.erase id)[k]? = some row' := hrow'
        rw [Map.getElem?_erase] at hrows
        split at hrows
        · cases hrows
        · exact hrows

/-! ## Events -/

section event

variable {env : Env} (hbegin : env.BeginsAlive) (hnew : 0 ≤ env.newId)

include hbegin hnew in
/-- A created file is inserted under an unused name only. -/
theorem handleCreate_advances (event : InotifyEvent) :
    Act.Keeps (Advances env.newId) (handleCreate env event) := by
  refine Act.Keeps.ite (Act.Keeps.pure _) ?_
  cases matchImage event.name with
  | some imgNum =>
      exact Advances.of_keeps (sameNames_startImageWatch env _ _)
  | none =>
      refine Act.Keeps.get.bind fun _ => ?_
      refine Act.Keeps.ite (Act.Keeps.pure _) ?_
      by_cases hquoted : env.fails .escapeLiteral = true
      · refine (fileExistsWithName_keeps event.name).bind fun found => ?_
        refine Act.Keeps.ite (Act.Keeps.pure _) ?_
        exact (insertDBFile_advances_of_unquotable hquoted
          event.name).bind_of_stops
          (insertDBFile_stops_of_unquotable hquoted event.name) _
      rw [Bool.not_eq_true] at hquoted
      intro w hw
      obtain ⟨ptr, hfind, hspec⟩ := hw.findByName event.name
      have hexists : fileExistsWithName event.name w =
          (.returned ptr.isSome, w) := by
        rw [fileExistsWithName, Act.bind_apply_returned (Act.get_apply w),
          Act.bind_apply_returned hfind]
        rfl
      rw [Act.bind_apply_returned hexists]
      cases ptr with
      | some r => exact Std.Refl.refl (r := Advances env.newId) w hw
      | none =>
          have hinsert := insertDBFile_advances hquoted hbegin hnew hw hspec
          rcases hinsert.cases with ⟨id, hret, hadv, -, r, hr, -⟩ |
            ⟨e, hthrew, hadv⟩
          · have hrun : insertDBFile env event.name w =
                (.returned id, (insertDBFile env event.name w).2) :=
              Prod.ext hret rfl
            rw [if_neg (by decide), Act.bind_apply_returned hrun]
            refine IsTrans.trans (r := Advances env.newId) _ _ _ hadv ?_ hw
            by_cases hpos : id > 0
            · rw [if_pos hpos,
                Act.bind_apply_returned (filesByIdIndex_of_some hr)]
              exact Advances.of_keeps (sameNames_watchFile env _) _
            · rw [if_neg hpos]
              exact Std.Refl.refl _
          · have hrun : insertDBFile env event.name w =
                (.threw e, (insertDBFile env event.name w).2) :=
              Prod.ext hthrew rfl
            rw [if_neg (by decide), Act.bind_apply, hrun]
            exact hadv hw

include hbegin in
theorem handleCloseWrite_advances (event : InotifyEvent) :
    Act.Keeps (Advances env.newId) (handleCloseWrite env event) := by
  refine Act.Keeps.get.bind fun w => ?_
  cases w.fm.pendingImagesByWatchDesc[event.wd]? with
  | some image =>
      refine Act.Keeps.bind
        (Advances.of_keeps (sameNames_insertImage env _ _)) fun _ => ?_
      exact Advances.of_keeps (sameNames_stopImageWatch event.wd)
  | none =>
      refine Act.Keeps.bind
        (Advances.of_keeps (sameNames_filesByWatchDescIndex _)) fun _ => ?_
      refine (load_keeps _).bind fun _ => ?_
      exact updateDBFile_advances hbegin _

theorem handleDeleteSelf_advances (event : InotifyEvent) :
    Act.Keeps (Advances env.newId) (handleDeleteSelf env event) := by
  refine Act.Keeps.bind
    (Advances.of_keeps (sameNames_filesByWatchDescIndex _)) fun fobj => ?_
  refine (load_keeps _).bind fun info => ?_
  refine (removeDBFile_advances env fobj).bind fun _ => ?_
  refine Act.Keeps.bind (Advances.of_keeps
    (Act.Keeps.modify fun w => ?_)) fun _ => ?_
  · exact SameNames.of_eq rfl rfl rfl rfl rfl rfl
  · exact Advances.of_keeps (sameNames_inotify_rm_watch event.wd)

include hbegin hnew in
theorem handleEvent_advances (event : InotifyEvent) :
    Act.Keeps (Advances env.newId) (handleEvent env event) := by
  refine Act.Keeps.tryCatch ?_ fun _ => Act.Keeps.pure _
  refine Act.Keeps.ite (handleCreate_advances hbegin hnew event) ?_
  refine Act.Keeps.ite (handleCloseWrite_advances hbegin event) ?_
  refine Act.Keeps.ite (handleDeleteSelf_advances event) ?_
  refine Act.Keeps.ite ?_ (Act.Keeps.pure _)
  exact Advances.of_keeps (sameNames_handleLogged event)

/-! ## Looking for a file -/

include hbegin hnew in
/-- `findOrAddFile` keeps the session synced, and what it returns is about an
entry of that name. -/
theorem findOrAddFile_spec {w : World} (hw : Synced w) {fname : String}
    (hquoted : Unused w fname → env.fails .escapeLiteral = false) :
    Act.wp (findOrAddFile env fname)
      (fun info w' => Advances env.newId w w' ∧ ∃ (id : ℤ) (r : ℕ),
        w'.fm.filesById[id]? = some (some r) ∧
        (w'.fm.objects r).name = fname ∧ info.name = fname ∧
        info.id = (w'.fm.objects r).id)
      (fun _ w' => Advances env.newId w w') w := by
  obtain ⟨ptr, hfind, hspec⟩ := hw.findByName fname
  rw [findOrAddFile, Act.wp_bind, Act.wp_get]
  beta_reduce
  rw [Act.wp_bind]
  refine Act.wp_of_apply hfind ?_
  cases ptr with
  | some r =>
      obtain ⟨hname, id, hr⟩ := hspec
      rw [if_pos Option.isSome_some, fileInfoForDBPtr, Act.wp_bind]
      refine Act.wp_of_apply (load_some r w) ?_
      exact ⟨Std.Refl.refl (r := Advances env.newId) w, id, r, hr, hname,
        hname, rfl⟩
  | none =>
      rw [if_neg (by decide), Act.wp_bind]
      refine (insertDBFile_advances (hquoted hspec) hbegin hnew hw hspec).mono
        ?_ fun _ _ h => h
      rintro id w₁ ⟨hadv, -, r, hr, hname⟩
      rw [Act.wp_bind, Act.wp_modify, Act.wp_bind]
      refine Act.wp_of_apply (filesByIdIndex_of_some hr) ?_
      rw [fileInfoForDBPtr, Act.wp_bind]
      refine Act.wp_of_apply (load_some r _) ?_
      refine ⟨IsTrans.trans (r := Advances env.newId) _ _ _ hadv ?_, id, r, hr,
        hname, hname, rfl⟩
      exact Advances.of_sameNames fun _ =>
        SameNames.of_eq rfl rfl rfl rfl rfl rfl

include hbegin hnew in
theorem findOrAddFile_advances (fname : String) :
    Act.Keeps (Advances env.newId) (findOrAddFile env fname) := by
  by_cases hquoted : env.fails .escapeLiteral = true
  · refine Act.Keeps.get.bind fun w =>
      (findByName_keeps fname _).bind fun ptr => .ite ?_ ?_
    · exact (load_keeps ptr).bind fun _ => .pure _
    · exact (insertDBFile_advances_of_unquotable hquoted fname).bind_of_stops
        (insertDBFile_stops_of_unquotable hquoted fname) _
  · rw [Bool.not_eq_true] at hquoted
    intro w hw
    exact ((findOrAddFile_spec hbegin hnew hw fun _ => hquoted).mono
      (fun _ _ h => h.1) fun _ _ h => h).final hw

/-- A name that has to be inserted and cannot be quoted: nothing is
returned. -/
theorem quotable_of_findOrAddFile {w w' : World} {fname : String}
    {info : FileInfo} (hw : Synced w)
    (hrun : findOrAddFile env fname w = (.returned info, w'))
    (hunused : Unused w fname) : env.fails .escapeLiteral = false := by
  rw [← Bool.not_eq_true]
  intro hunquotable
  obtain ⟨ptr, hfind, hspec⟩ := hw.findByName fname
  rw [findOrAddFile, Act.bind_apply_returned (Act.get_apply w),
    Act.bind_apply_returned hfind] at hrun
  cases ptr with
  | some r =>
      obtain ⟨hname, id, hr⟩ := hspec
      exact hunused id r hr hname
  | none =>
      rw [if_neg (by decide)] at hrun
      exact (insertDBFile_stops_of_unquotable hunquotable fname).bind _ w info
        (congrArg Prod.fst hrun)

end event

/-! ## Loading rows -/

/-- The row to be loaded is one of the workspace. -/
structure LoadsOwn (w : World) (row : FetchedFile) : Prop where
  id : 0 ≤ row.id
  fits : row.fits = true
  file : ∃ r, w.HasFile row.id r ∧ r.name = row.name

/-- Loading a row of the workspace makes sure that it is cached. -/
theorem Sound.cacheFile {env : Env} {w : World} {row : FetchedFile}
    (h : Sound w) (hrow : LoadsOwn w row) :
    Act.wp (cacheFile env row)
      (fun _ w' => Sound w' ∧ w'.db = w.db ∧
        w'.fm.wspaceId = w.fm.wspaceId ∧ w'.fm.filesById[row.id]? ≠ none ∧
        ∀ k : ℤ, w.fm.filesById[k]? ≠ none → w'.fm.filesById[k]? ≠ none)
      (fun _ _ => False) w := by
  have hlt : row.id < 2 ^ 31 := by
    have hfits := hrow.fits
    simp only [FetchedFile.fits, fitsInt4, Bool.and_eq_true,
      decide_eq_true_eq] at hfits
    exact hfits.1.1.2
  have hpid : toUInt32 row.id = row.id :=
    toUInt32_of_lt hrow.id (hlt.trans (by decide))
  obtain ⟨fileRow, hfile, hname⟩ := hrow.file
  simp only [Files.cacheFile, Act.wp_bind, Act.wp_get, hpid]
  cases hid : w.fm.filesById[row.id]? with
  | some ptr =>
      obtain ⟨r, row', rfl, -, hfile', hname', -⟩ := h.pointer _ ptr hid
      have hsame : (w.fm.objects r).name = row.name := by
        rw [hname', Option.some.inj (hfile'.1.symm.trans hfile.1), hname]
      refine Act.wp_of_apply (store_some r _ w) ⟨?_, rfl, rfl, ?_, ?_⟩
      · apply SameNames.sound _ h
        refine ⟨rfl, le_rfl, fun k _ => ?_, fun k _ => ?_, rfl, fun _ => rfl,
          fun hidle => hidle⟩
        · by_cases hk : k = r
          · subst hk
            simp [World.setObject]
          · simp [World.setObject, hk]
        · by_cases hk : k = r
          · subst hk
            simp [World.setObject, hsame]
          · simp [World.setObject, hk]
      · change w.fm.filesById[row.id]? ≠ none
        rw [hid]
        exact Option.some_ne_none _
      · exact fun k hk => hk
  | none =>
      refine ⟨?_, rfl, rfl, ?_, ?_⟩
      · refine h.withEntry (fun k => Map.getElem?_insert _ _ _ _) rfl ?_ ?_ ?_
          hrow.id hfile ?_ h.names h.idle
        · exact fun r hr => Function.update_of_ne hr.ne _ _
        · simp [hname]
        · simp
        · exact fun k row' hrow' => hrow'
      · rw [Map.getElem?_insert_self]
        exact Option.some_ne_none _
      · intro k hk
        rw [Map.getElem?_insert]
        split
        next => exact Option.some_ne_none _
        next => exact hk

theorem Sound.loadFile {env : Env} {w : World} {row : FetchedFile}
    (h : Sound w) (hrow : LoadsOwn w row) :
    Act.wp (loadFile env row)
      (fun _ w' => Sound w' ∧ w'.db = w.db ∧
        w'.fm.wspaceId = w.fm.wspaceId ∧ w'.fm.filesById[row.id]? ≠ none ∧
        ∀ k : ℤ, w.fm.filesById[k]? ≠ none → w'.fm.filesById[k]? ≠ none)
      (fun _ _ => False) w := by
  rw [Files.loadFile, Act.wp_bind]
  refine (h.cacheFile hrow).mono ?_ fun _ _ h => h
  rintro _ w₁ ⟨hsound, hdb, hwspace, hcached, hkept⟩
  rw [Act.wp_modify]
  split
  · exact ⟨hsound, hdb, hwspace, hcached, hkept⟩
  · refine ⟨?_, hdb, hwspace, hcached, hkept⟩
    have hnames :
        SameNames w₁ (w₁.writeFile .loadFiles row.name row.bindata) :=
      SameNames.of_fm_db rfl rfl
    exact hnames.sound hsound

/-- Loading a row of the workspace keeps the session synced. -/
theorem Synced.loadFile {env : Env} {w : World} {row : FetchedFile}
    (h : Synced w) (hrow : LoadsOwn w row) :
    Act.wp (loadFile env row) (fun _ w' => Synced w' ∧ w'.db = w.db ∧
      w'.fm.wspaceId = w.fm.wspaceId) (fun _ _ => False) w := by
  refine (h.toSound.loadFile hrow).mono ?_ fun _ _ h => h
  rintro _ w' ⟨hsound, hdb, hwspace, -, hkept⟩
  refine ⟨⟨hsound, fun id row' hrow' => hkept id ?_⟩, hdb, hwspace⟩
  rw [World.HasFile, hdb, hwspace] at hrow'
  exact h.cached id row' hrow'

/-- The row of `id`, if there is one, belongs to the workspace. -/
def OwnId (w : World) (id : ℤ) : Prop :=
  ∀ row, w.db.committed.rcfile[id]? = some row → row.wspaceid = w.fm.wspaceId

/-- Loading a row by its identifier. -/
theorem Synced.loadFiles_whereId {env : Env} {w : World} {id : ℤ}
    (h : Synced w) (hown : OwnId w id) :
    Act.wp (loadFiles env (whereId id)) (fun _ w' => Synced w' ∧
      w'.db = w.db ∧ w'.fm.wspaceId = w.fm.wspaceId)
      (fun _ _ => False) w := by
  have hrun := Files.loadFiles_whereId env id w
  cases hloaded : loadedRow env w id with
  | none =>
      rw [hloaded] at hrun
      exact Act.wp_of_apply hrun ⟨h, rfl, rfl⟩
  | some row =>
      rw [hloaded] at hrun
      obtain ⟨hid, hfits, hfetch⟩ := loadedRow_spec hloaded
      obtain ⟨r, hr, hdata⟩ := Option.bind_eq_some_iff.mp hfetch
      obtain ⟨data, -, hrow⟩ := Option.map_eq_some_iff.mp hdata
      have hfile : w.HasFile id r := ⟨hr, hown r hr⟩
      obtain ⟨k, hk, -⟩ := h.entry hfile
      obtain ⟨-, -, -, -, -, -, -, hpos⟩ := h.pointer id _ hk
      have hloads : LoadsOwn w row := by
        constructor
        · rwa [hid]
        · exact hfits
        · refine ⟨r, ?_, ?_⟩
          · rwa [hid]
          · rw [← hrow]
      rw [Act.wp, hrun]
      exact h.loadFile hloads

theorem Advances.of_synced {newId : ℤ} {w w' : World} (h : Synced w')
    (hdb : w'.db = w.db) (hwspace : w'.fm.wspaceId = w.fm.wspaceId) :
    Advances newId w w' := by
  refine fun _ => ⟨h, hwspace, fun id row' hrow' => Or.inl ⟨row', ?_, rfl⟩⟩
  rwa [hdb] at hrow'

/-! ## Notifications -/

section notification

variable {env : Env} {w : World} {id newId : ℤ}

/-- A row that is gone is not cached any more. -/
theorem processDelete_advances (hgone : w.db.committed.rcfile[id]? = none) :
    Advances newId w (processDelete env id w).2 := by
  intro hw
  have hnone : w.fm.filesById[id]? = none := by
    by_contra hne
    obtain ⟨ptr, hptr⟩ := Option.ne_none_iff_exists'.mp hne
    obtain ⟨r, row, -, -, hfile, -⟩ := hw.pointer id ptr hptr
    rw [hfile.1] at hgone
    cases hgone
  rw [processDelete_of_none hnone]
  exact Std.Refl.refl (r := Advances newId) w hw

/-- The session opens its window and loads the row of `id`. -/
theorem Synced.reload (hw : Synced w) (hown : OwnId w id) :
    ∃ w₁, loadFiles env (whereId id) (windowOpened w) = (.returned (), w₁) ∧
      Synced w₁ ∧ w₁.db = w.db ∧ w₁.fm.wspaceId = w.fm.wspaceId := by
  have hopened : SameNames w (windowOpened w) := by
    have hkeeps := sameNames_ignoreFSNotifications w
    rwa [ignoreFSNotifications_apply] at hkeeps
  have hown' : OwnId (windowOpened w) id := by
    rw [OwnId, windowOpened_db, hopened.wspaceId]
    exact hown
  have hload : Act.wp (loadFiles env (whereId id)) _ _ (windowOpened w) :=
    (hopened.synced hw).loadFiles_whereId hown'
  obtain ⟨w₁, hrun, hsynced, hdb, hwspace⟩ := hload.ends
  refine ⟨w₁, hrun, hsynced, ?_, ?_⟩
  · rw [hdb, windowOpened_db]
  · rw [hwspace, hopened.wspaceId]

theorem processUpdate_advances (hown : OwnId w id) :
    Advances newId w (processUpdate env id w).2 := by
  intro hw
  obtain ⟨w₁, hrun : loadFiles env _ _ = _, hsynced, hdb, hwspace⟩ :=
    hw.reload hown
  rw [processUpdate, Act.bind_apply_returned (Act.get_apply w)]
  split
  · rw [Act.bind_apply_returned (ignoreFSNotifications_apply w), hrun]
    exact Advances.of_synced hsynced hdb hwspace hw
  · exact Std.Refl.refl (r := Advances newId) w hw

/-- A row that has been inserted is cached already, unless it is gone: then
the handler crashes. -/
theorem processInsert_advances (hown : OwnId w id)
    (hdefined : (processInsert env id w).1 ≠ .undefined) :
    Advances newId w (processInsert env id w).2 := by
  intro hw
  obtain ⟨w₁, hrun : loadFiles env _ _ = _, hsynced, hdb, hwspace⟩ :=
    hw.reload hown
  have hstart : processInsert env id w =
      (filesByIdIndex id >>= fun file => watchFile env file) w₁ := by
    rw [processInsert, Act.bind_apply_returned (ignoreFSNotifications_apply w),
      Act.bind_apply_returned hrun]
  have hmiddle : Advances newId w w₁ :=
    Advances.of_synced hsynced hdb hwspace
  rw [hstart] at hdefined ⊢
  cases hentry : w₁.fm.filesById[id]? with
  | some ptr =>
      obtain ⟨r, row, rfl, -⟩ := hsynced.pointer id ptr hentry
      rw [Act.bind_apply_returned (filesByIdIndex_of_some hentry)]
      have hwatch : Advances newId w₁ (watchFile env (some r) w₁).2 :=
        Advances.of_keeps (sameNames_watchFile env (some r)) w₁
      exact IsTrans.trans (r := Advances newId) _ _ _ hmiddle hwatch hw
  | none =>
      obtain ⟨w₂, hindex⟩ : ∃ w₂,
          filesByIdIndex id w₁ = (.returned none, w₂) := by
        rw [filesByIdIndex, hentry]
        exact ⟨_, rfl⟩
      rw [Act.bind_apply_returned hindex] at hdefined
      exact absurd rfl hdefined

/-- A notification caused by the session's own commits. -/
theorem processDBNotification_advances {message : String}
    (hmessage : ∀ type id,
      parseNotification w.fm.wspaceId message = some (type, id) →
        (type = 'd' → w.db.committed.rcfile[id]? = none) ∧ OwnId w id)
    (hdefined : (processDBNotification env message w).1 ≠ .undefined) :
    Advances newId w (processDBNotification env message w).2 := by
  rw [processDBNotification, Act.bind_apply_returned (Act.get_apply w)]
    at hdefined ⊢
  cases hparse : parseNotification w.fm.wspaceId message with
  | none => exact Std.Refl.refl w
  | some parsed =>
      obtain ⟨type, id⟩ := parsed
      obtain ⟨hgone, hown⟩ := hmessage type id hparse
      rw [hparse] at hdefined
      -- whatever the handler throws is logged
      have hcaught : ∀ x : Prog Unit, Advances newId w (x w).2 →
          Advances newId w (Act.tryCatch x (fun _ => pure ()) w).2 := by
        intro x hx
        rw [Act.tryCatch_apply]
        rcases hxw : x w with ⟨_ | _ | _, w'⟩ <;> simpa [hxw] using hx
      have hinner : ∀ x : Prog Unit,
          (Act.tryCatch x (fun _ => pure ()) w).1 ≠ .undefined →
            (x w).1 ≠ .undefined := by
        intro x hx hundefined
        apply hx
        rw [Act.tryCatch_apply]
        rcases hxw : x w with ⟨_ | _ | _, w'⟩
        · rw [hxw] at hundefined
          cases hundefined
        · rw [hxw] at hundefined
          cases hundefined
        · rfl
      apply hcaught
      have hdefined' := hinner _ hdefined
      split
      next htype => exact processDelete_advances (hgone htype)
      next htype =>
        rw [if_neg htype] at hdefined'
        split
        next htype' =>
          rw [if_pos htype'] at hdefined'
          exact processInsert_advances hown hdefined'
        next => exact processUpdate_advances hown

end notification

/-! ## Runs keep the session synced -/

namespace Naming

/-- The session is synced, the notifications its commits have caused are about
identifiers of its workspace, and a deleted row does not come back. -/
structure Tidy (s : Naming) : Prop where
  synced : Synced s.world
  own : ∀ type id, s.caused type id → OwnId s.world id
  gone : ∀ id, s.caused 'd' id → s.world.db.committed.rcfile[id]? = none

/-- After a step, each row is an old one or a new one of the workspace under an
identifier no commit has used. -/
theorem Tidy.of_rows {s : Naming} {op : NameOp} (h : Tidy s)
    (hsynced : Synced (s.step op).world)
    (hwspace : (s.step op).world.fm.wspaceId = s.world.fm.wspaceId)
    (hrows : ∀ (id : ℤ) row',
      (s.step op).world.db.committed.rcfile[id]? = some row' →
      (∃ row, s.world.db.committed.rcfile[id]? = some row ∧
        row.wspaceid = row'.wspaceid) ∨
      (row'.wspaceid = s.world.fm.wspaceId ∧ ∀ type, ¬ s.caused type id)) :
    Tidy (s.step op) := by
  have hlate : ∀ (id : ℤ) row', (∃ row, s.world.HasFile id row) →
      (s.step op).world.db.committed.rcfile[id]? = some row' →
      (s.step op).world.HasFile id row' := by
    rintro id row' ⟨row, hfile⟩ hrow'
    refine ⟨hrow', ?_⟩
    rw [hwspace]
    rcases hrows id row' hrow' with ⟨row₁, hrow₁, heq⟩ | ⟨hown, -⟩
    · rw [← heq, Option.some.inj (hrow₁.symm.trans hfile.1)]
      exact hfile.2
    · exact hown
  constructor
  · exact hsynced
  · intro type id hcaused row' hrow'
    rcases hcaused with hold | ⟨-, -, row, hfile⟩ | ⟨-, hbefore, -⟩ |
      ⟨-, hbefore, -⟩
    · rw [hwspace]
      rcases hrows id row' hrow' with ⟨row, hrow, heq⟩ | ⟨-, hno⟩
      · rw [← heq]
        exact h.own type id hold row hrow
      · exact absurd hold (hno type)
    · rw [Option.some.inj (hrow'.symm.trans hfile.1)]
      exact hfile.2
    · exact (hlate id row' hbefore hrow').2
    · exact (hlate id row' hbefore hrow').2
  · intro id hcaused
    by_contra hne
    obtain ⟨row', hrow'⟩ := Option.ne_none_iff_exists'.mp hne
    rcases hcaused with hold | ⟨hi, -⟩ | ⟨-, hbefore, hafter⟩ | ⟨hu, -⟩
    · rcases hrows id row' hrow' with ⟨row, hrow, -⟩ | ⟨-, hno⟩
      · rw [h.gone id hold] at hrow
        cases hrow
      · exact hno 'd' hold
    · exact absurd hi (by decide)
    · exact hafter ⟨row', hlate id row' hbefore hrow'⟩
    · exact absurd hu (by decide)

theorem Tidy.of_advances {s : Naming} {op : NameOp} {newId : ℤ} (h : Tidy s)
    (hadv : Advances newId s.world (s.step op).world)
    (hfresh : ∀ type, ¬ s.caused type newId) : Tidy (s.step op) := by
  obtain ⟨hsynced, hwspace, hrows⟩ := hadv h.synced
  refine h.of_rows hsynced hwspace fun id row' hrow' => ?_
  rcases hrows id row' hrow' with hold | ⟨rfl, hown⟩
  · exact Or.inl hold
  · exact Or.inr ⟨hown, hfresh⟩

/-- A step that inserts no row. -/
theorem Tidy.of_advances_all {s : Naming} {op : NameOp} (h : Tidy s)
    (hadv : ∀ newId, Advances newId s.world (s.step op).world) :
    Tidy (s.step op) := by
  obtain ⟨hsynced, hwspace, -⟩ := hadv 0 h.synced
  refine h.of_rows hsynced hwspace fun id row' hrow' => Or.inl ?_
  obtain ⟨-, -, hrows⟩ := hadv (id + 1) h.synced
  rcases hrows id row' hrow' with hold | ⟨heq, -⟩
  · exact hold
  · omega

theorem Tidy.of_keeps {s : Naming} {op : NameOp} (h : Tidy s)
    (hkeeps : Act.Keeps SameNames (act op)) : Tidy (s.step op) :=
  h.of_advances_all fun _ => Advances.of_keeps hkeeps s.world

/-- Other sessions change rows of other workspaces. -/
theorem Tidy.others {s : Naming} {rows : Map ℤ FileRow} (h : Tidy s)
    (hours : ∀ (id : ℤ) row, row.wspaceid = s.world.fm.wspaceId →
      (rows[id]? = some row ↔ s.world.db.committed.rcfile[id]? = some row))
    (hcaused : ∀ type id, s.caused type id →
      rows[id]? = s.world.db.committed.rcfile[id]?) :
    Tidy (s.step (.others rows)) := by
  have hfile : ∀ id row, (s.step (.others rows)).world.HasFile id row ↔
      s.world.HasFile id row := by
    intro id row
    constructor
    · rintro ⟨hrow, hwspace⟩
      exact ⟨(hours id row hwspace).mp hrow, hwspace⟩
    · rintro ⟨hrow, hwspace⟩
      exact ⟨(hours id row hwspace).mpr hrow, hwspace⟩
  have hnew : ∀ type id, (s.step (.others rows)).caused type id →
      s.caused type id ∨ ∃ row, s.world.HasFile id row := by
    rintro type id (hold | ⟨-, hno, row, hrow⟩ | ⟨-, ⟨row, hrow⟩, -⟩ |
      ⟨-, ⟨row, hrow⟩, -⟩)
    · exact Or.inl hold
    · exact Or.inr ⟨row, (hfile id row).mp hrow⟩
    · exact Or.inr ⟨row, hrow⟩
    · exact Or.inr ⟨row, hrow⟩
  constructor
  · constructor
    · constructor
      · exact h.synced.idle
      · intro id ptr hptr
        obtain ⟨r, row, rfl, hlt, hrow, hobject⟩ := h.synced.pointer id ptr hptr
        exact ⟨r, row, rfl, hlt, (hfile id row).mpr hrow, hobject⟩
      · exact h.synced.inj
      · intro id id' row row' hrow hrow'
        exact h.synced.names id id' row row' ((hfile id row).mp hrow)
          ((hfile id' row').mp hrow')
    · intro id row hrow
      exact h.synced.cached id row ((hfile id row).mp hrow)
  · intro type id hc row hrow
    change rows[id]? = some row at hrow
    rcases hnew type id hc with hold | ⟨row', hrow'⟩
    · rw [hcaused type id hold] at hrow
      exact h.own type id hold row hrow
    · have hsame := (hours id row' hrow'.2).mpr hrow'.1
      rw [Option.some.inj (hrow.symm.trans hsame)]
      exact hrow'.2
  · intro id hc
    change rows[id]? = none
    rcases hc with hold | ⟨hi, -⟩ | ⟨-, ⟨row, hrow⟩, hafter⟩ | ⟨hu, -⟩
    · rw [hcaused 'd' id hold]
      exact h.gone id hold
    · exact absurd hi (by decide)
    · exact absurd ⟨row, (hfile id row).mpr hrow⟩ hafter
    · exact absurd hu (by decide)

/-- Every allowed step keeps the session tidy. -/
theorem Tidy.step {s : Naming} {op : NameOp} (h : Tidy s)
    (hallowed : s.Allowed op) : Tidy (s.step op) := by
  obtain ⟨hdefined, hop⟩ := hallowed
  cases op with
  | create name data =>
      exact h.of_keeps (Act.Keeps.modify fun _ => SameNames.of_fm_db rfl rfl)
  | delete name =>
      exact h.of_keeps (Act.Keeps.modify fun w => sameNames_removeFile w _ _)
  | event env event =>
      obtain ⟨hnew, hfresh, hbegin⟩ := hop
      exact h.of_advances (handleEvent_advances hbegin hnew event s.world) hfresh
  | findOrAddFile env fname =>
      obtain ⟨hnew, hfresh, hbegin⟩ := hop
      apply h.of_advances _ hfresh
      exact (findOrAddFile_advances hbegin hnew fname).bind
        (fun _ => Act.Keeps.pure _) s.world
  | resetWatch =>
      exact h.of_keeps
        (Act.Keeps.modify fun _ => SameNames.of_eq rfl rfl rfl rfl rfl rfl)
  | ignore => exact h.of_keeps sameNames_ignoreFSNotifications
  | ignoreOff =>
      exact h.of_keeps
        (Act.Keeps.modify fun _ => SameNames.of_eq rfl rfl rfl rfl rfl rfl)
  | notification env message =>
      apply h.of_advances_all
      intro newId
      refine processDBNotification_advances (fun type id hparse => ?_) hdefined
      have hcaused := hop type id hparse
      refine ⟨fun htype => ?_, h.own type id hcaused⟩
      subst htype
      exact h.gone id hcaused
  | others rows => exact h.others hop.1 hop.2

/-! ## The start of a session -/

/-- No two rows of the workspace have the same name. -/
def DistinctNames (t : Tables) (wspaceId : ℤ) : Prop :=
  ∀ (id id' : ℤ) row row', t.rcfile[id]? = some row →
    t.rcfile[id']? = some row' → row.wspaceid = wspaceId →
    row'.wspaceid = wspaceId → row.name = row'.name → id = id'

/-- The rows of the workspace have distinct names, and each of them can be
loaded. -/
structure Startable (t : Tables) (wspaceId : ℤ) : Prop where
  names : DistinctNames t wspaceId
  loads : ∀ (id : ℤ) row, t.rcfile[id]? = some row → row.wspaceid = wspaceId →
    ∃ file, t.fetch id = some file ∧ file.Plain

/-- `initFileManager`: a new manager connects to its workspace and watches the
files it has loaded. -/
def started (env : Env) (envs : ℤ → Env) (workingDir : String)
    (wspaceId sessionRecId : ℤ) (t : Tables) : Naming where
  world := (setupInotify envs (connect env wspaceId sessionRecId
    (World.initial workingDir wspaceId sessionRecId t)).2).2
  caused _ _ := False

theorem sameNames_setupInotify (envs : ℤ → Env) :
    Act.Keeps SameNames (setupInotify envs) := by
  refine Act.Keeps.get.bind fun w => ?_
  refine Act.Keeps.forEach _ fun entry => ?_
  refine Act.Keeps.tryCatch (sameNames_watchFile _ _) fun e => ?_
  exact Act.Keeps.ite (Act.Keeps.pure _) (Act.Keeps.throw _)

/-- Loading the rows of a workspace into an empty cache. -/
theorem loadFiles_synced {env : Env} {w : World} (hsound : Sound w)
    (ht : Startable w.db.committed w.fm.wspaceId)
    (hselect : env.fails .selectFiles = false) :
    Act.wp (loadFiles env (whereWspace w.fm.wspaceId))
      (fun _ => Synced) (fun _ _ => False) w := by
  let rows := w.db.committed.selectFiles (whereWspace w.fm.wspaceId)
  have hrows : ∀ row ∈ rows, ∃ r, w.HasFile row.id r ∧ r.name = row.name ∧
      row.Plain := by
    intro row hrow
    obtain ⟨r, hr, hwhere, hfetch⟩ := mem_selectFiles.mp hrow
    have hwspace : r.wspaceid = w.fm.wspaceId := of_decide_eq_true hwhere
    obtain ⟨file, hfile, hplain⟩ := ht.loads _ r hr hwspace
    obtain rfl := Option.some.inj (hfile.symm.trans hfetch)
    refine ⟨r, ⟨hr, hwspace⟩, ?_, hplain⟩
    rw [Tables.fetch, hr, Option.bind_some] at hfetch
    obtain ⟨_, -, heq⟩ := Option.map_eq_some_iff.mp hfetch
    rw [← heq]
  have hfits : rows.all FetchedFile.fits = true := by
    rw [List.all_eq_true]
    intro row hrow
    obtain ⟨_, -, -, hplain⟩ := hrows row hrow
    exact hplain.fits
  rw [loadFiles, Act.wp_bind, Act.wp_get]
  beta_reduce
  change Act.wp (if (env.fails .selectFiles ||
    !rows.all FetchedFile.fits) = true then _ else _) _ _ _
  rw [hselect, hfits, if_neg (by decide)]
  refine (Act.wp_forEach_covers (E := fun id row => row.id = id)
    (G := fun id w' => w'.fm.filesById[id]? ≠ none)
    (I := fun w' => Sound w' ∧ w'.db = w.db ∧ w'.fm.wspaceId = w.fm.wspaceId)
    (fun row hrow w₁ h₁ => ?_) ⟨hsound, rfl, rfl⟩).mono ?_ fun _ _ h => h
  · obtain ⟨hsound₁, hdb, hwspace⟩ := h₁
    obtain ⟨r, hr, hname, hplain⟩ := hrows row hrow
    have hloads : LoadsOwn w₁ row := by
      refine ⟨hplain.1, hplain.fits, r, ?_, hname⟩
      rwa [World.HasFile, hdb, hwspace]
    refine (hsound₁.loadFile hloads).mono ?_ fun _ _ h => h
    rintro _ w₂ ⟨hsound₂, hdb₂, hwspace₂, hcached, hkept⟩
    refine ⟨⟨hsound₂, hdb₂.trans hdb, hwspace₂.trans hwspace⟩, ?_⟩
    rintro id (hid | rfl)
    · exact hkept id hid
    · exact hcached
  · rintro _ w' ⟨⟨hsound', hdb, hwspace⟩, hall⟩
    refine ⟨hsound', fun id row hrow => ?_⟩
    rw [World.HasFile, hdb, hwspace] at hrow
    obtain ⟨file, hfile, -⟩ := ht.loads id row hrow.1 hrow.2
    have hid := Tables.fetch_id hfile
    refine hall id (Or.inr ⟨file, mem_selectFiles.mpr ⟨row, ?_, ?_, ?_⟩, hid⟩)
    · rw [hid]
      exact hrow.1
    · exact decide_eq_true hrow.2
    · rw [hid]
      exact hfile

theorem started_tidy {env : Env} {envs : ℤ → Env} {workingDir : String}
    {wspaceId sessionRecId : ℤ} {t : Tables} (ht : Startable t wspaceId)
    (hselect : env.fails .selectFiles = false)
    (hconnects : (connect env wspaceId sessionRecId
      (World.initial workingDir wspaceId sessionRecId t)).1 = .returned ()) :
    Tidy (started env envs workingDir wspaceId sessionRecId t) := by
  let w := World.initial workingDir wspaceId sessionRecId t
  have hnone : ∀ id : ℤ, w.fm.filesById[id]? = none :=
    fun id => Std.TreeMap.getElem?_emptyc
  have hsound : Sound w := by
    constructor
    · rfl
    · intro id ptr hptr
      rw [hnone] at hptr
      cases hptr
    · intro id id' r hr
      rw [hnone] at hr
      cases hr
    · intro id id' row row' hrow hrow'
      exact ht.names id id' row row' hrow.1 hrow'.1 hrow.2 hrow'.2
  have hspec : Act.wp (connect env wspaceId sessionRecId) (fun _ => Synced)
      (fun _ _ => True) w := by
    rw [connect, Act.wp_bind, Act.wp_modify, Act.wp_bind]
    have hsource : Act.wp (initializeSource env wspaceId)
        (fun _ w' => w' = w) (fun _ _ => True) w := by
      rw [initializeSource, Act.wp_bind, Act.wp_throwIf]
      refine ⟨fun _ => trivial, fun _ => ?_⟩
      rw [Act.wp_throwIf]
      exact ⟨fun _ => trivial, fun _ => rfl⟩
    refine hsource.mono ?_ fun _ _ _ => trivial
    rintro _ w' hw'
    rw [hw', Act.wp_bind]
    refine (loadFiles_synced hsound ht hselect).mono ?_ fun _ _ h => h.elim
    intro _ w₁ h₁
    rw [Act.wp_modify]
    have hsame : SameNames w₁
        { w₁ with fm := { w₁.fm with sessionImageBatch := 0 } } :=
      SameNames.of_eq rfl rfl rfl rfl rfl rfl
    exact hsame.synced h₁
  have hsynced : Synced (connect env wspaceId sessionRecId w).2 := by
    rcases hspec.cases with ⟨_, -, h⟩ | ⟨e, hthrew, -⟩
    · exact h
    · rw [hconnects] at hthrew
      cases hthrew
  constructor
  · exact (sameNames_setupInotify envs _).synced hsynced
  · exact fun _ _ h => h.elim
  · exact fun _ h => h.elim

theorem Tidy.of_run {s : Naming} {ops : List NameOp} (h : Tidy s)
    (hops : Along Naming.step Allowed s ops) :
    Tidy (run Naming.step s ops) :=
  run_invariant (fun _ _ hs hop => hs.step hop) h hops

theorem Tidy.reportsUnique {s : Naming} (h : Tidy s) {env : Env}
    (hfresh : s.Fresh env) (fname : String) :
    ReportsUnique env s.world fname := by
  intro info w' hrun
  obtain ⟨hnew, -, hbegin⟩ := hfresh
  have hspec := findOrAddFile_spec hbegin hnew h.synced
    (quotable_of_findOrAddFile h.synced hrun)
  rw [Act.wp, hrun] at hspec
  obtain ⟨hadv, id, r, hr, hname, hinfo, hid⟩ := hspec
  obtain ⟨hsynced, -, -⟩ := hadv h.synced
  obtain ⟨r', row, heq, -, -, -, hobject, -⟩ := hsynced.pointer id _ hr
  obtain rfl := Option.some.inj heq
  refine ⟨id, r, hr, hname, hinfo, hid.trans hobject, fun id' r' hr' hname' => ?_⟩
  exact hsynced.oneFilePerName.entries id' id r' r hr' hr
    (hname'.trans hname.symm)

/-- In every state a session reaches that alone writes to its workspace, no two
rows of the workspace and no two cached files have one name, and
`findOrAddFile` reports the only file of the name. -/
theorem oneFilePerName_of_run {env : Env} {envs : ℤ → Env}
    {workingDir : String} {wspaceId sessionRecId : ℤ} {t : Tables}
    {ops : List NameOp} (ht : Startable t wspaceId)
    (hselect : env.fails .selectFiles = false)
    (hconnects : (connect env wspaceId sessionRecId
      (World.initial workingDir wspaceId sessionRecId t)).1 = .returned ())
    (hops : Along step Allowed
      (started env envs workingDir wspaceId sessionRecId t) ops) :
    let s := Transition.run step
      (started env envs workingDir wspaceId sessionRecId t) ops
    OneFilePerName s.world ∧ ∀ env' fname, s.Fresh env' →
      ReportsUnique env' s.world fname := by
  have htidy := (started_tidy ht hselect hconnects).of_run hops
  exact ⟨htidy.synced.oneFilePerName, fun env' fname hfresh =>
    htidy.reportsUnique hfresh fname⟩

/-- Workspace 1 with the file `a.R`. -/
def oneRow : Tables :=
  ⟨(∅ : Map ℤ FileRow).insert 5 ⟨1, 1, "a.R", 1, 0⟩,
    (∅ : Map ℤ Bytes).insert 5 [1], ∅, ∅⟩

theorem oneRow_startable : Startable oneRow 1 := by
  have hrow : ∀ (id : ℤ) row, oneRow.rcfile[id]? = some row →
      id = 5 ∧ row = ⟨1, 1, "a.R", 1, 0⟩ := by
    intro id row h
    change ((∅ : Map ℤ FileRow).insert 5 ⟨1, 1, "a.R", 1, 0⟩)[id]? = _ at h
    rw [Map.getElem?_insert] at h
    split at h
    next heq =>
      cases h
      exact ⟨heq.symm, rfl⟩
    next => cases h
  constructor
  · intro id id' row row' h h' _ _ _
    rw [(hrow id row h).1, (hrow id' row' h').1]
  · intro id row h _
    obtain ⟨rfl, rfl⟩ := hrow id row h
    exact ⟨⟨5, 1, "a.R", 0, [1]⟩, by decide, by decide⟩

/-- R creates a file, its late event inserts the row, a command asks for it,
and the notification of the insert arrives. -/
def createdFile : List NameOp :=
  [.create "b.R" [2],
    .event (Env.succeeding 2 6) ⟨1, IN_CREATE, "b.R", .other⟩,
    .findOrAddFile (Env.succeeding 3 7) "b.R",
    .notification (Env.succeeding 3 8) "i6/1/b"]

def startedOneRow : Naming :=
  started (Env.succeeding 1 0) (fun _ => Env.succeeding 1 0) "wd" 1 1 oneRow

/-- A commit under `id` leaves a row or removes one. -/
theorem not_caused_step {s : Naming} {op : NameOp} {id : ℤ}
    (h : ∀ type, ¬ s.caused type id)
    (hbefore : s.world.db.committed.rcfile[id]? = none)
    (hafter : (s.step op).world.db.committed.rcfile[id]? = none) :
    ∀ type, ¬ (s.step op).caused type id := by
  have hno : ∀ w : World, w.db.committed.rcfile[id]? = none →
      ¬ ∃ row, w.HasFile id row := by
    rintro w hw ⟨row, hrow, -⟩
    rw [hw] at hrow
    cases hrow
  rintro type (hold | ⟨-, -, hrow⟩ | ⟨-, hrow, -⟩ | ⟨-, hrow, -⟩)
  · exact h type hold
  · exact hno _ hafter hrow
  · exact hno _ hbefore hrow
  · exact hno _ hbefore hrow

theorem succeeding_beginsAlive (newWd newId : ℤ) :
    (Env.succeeding newWd newId).BeginsAlive := by
  intro hdead
  cases hdead

theorem createdFile_allowed :
    Along step Allowed startedOneRow createdFile := by
  refine ⟨⟨?_, trivial⟩, ⟨?_, ?_⟩, ⟨?_, ?_⟩, ⟨?_, ?_⟩, trivial⟩
  · intro h
    cases h
  · intro h
    cases h
  · refine ⟨by decide, ?_, succeeding_beginsAlive 2 6⟩
    exact not_caused_step (fun _ h => h) (by decide) (by decide)
  · intro h
    cases h
  · refine ⟨by decide, ?_, succeeding_beginsAlive 3 7⟩
    have hfirst : ∀ type, ¬ (startedOneRow.step
        (.create "b.R" [2])).caused type 7 :=
      not_caused_step (fun _ h => h) (by decide) (by decide)
    exact not_caused_step hfirst (by decide) (by decide)
  · intro h
    cases h
  · intro type id hparse
    have hmessage : parseNotification 1 "i6/1/b" = some ('i', 6) := by decide
    have hsame : some ('i', (6 : ℤ)) = some (type, id) :=
      hmessage.symm.trans hparse
    cases hsame
    refine Or.inl (Or.inr (Or.inl ⟨rfl, ?_, ⟨1, 1, "b.R", 1, 0⟩, ?_, ?_⟩))
    · rintro ⟨row, hrow, -⟩
      have hnone : (startedOneRow.step
          (.create "b.R" [2])).world.db.committed.rcfile[(6 : ℤ)]? = none := by
        decide
      rw [hnone] at hrow
      cases hrow
    · decide
    · decide

/-- The session after the file was created. -/
theorem oneFilePerName_createdFile :
    OneFilePerName (run step startedOneRow createdFile).world ∧
      ∀ env' fname, (run step startedOneRow createdFile).Fresh env' →
        ReportsUnique env' (run step startedOneRow createdFile).world fname :=
  oneFilePerName_of_run oneRow_startable rfl rfl createdFile_allowed

/-! ## A row that is not loaded -/

/-- Workspace 1 with the file `a.R`, modified in 2038. -/
def lateRow : Tables :=
  ⟨(∅ : Map ℤ FileRow).insert 5 ⟨1, 1, "a.R", 1, 2 ^ 31⟩,
    (∅ : Map ℤ Bytes).insert 5 [1], ∅, ∅⟩

def startedLateRow : Naming :=
  started (Env.succeeding 1 0) (fun _ => Env.succeeding 1 0) "wd" 1 1 lateRow

/-- R creates a file of that name. -/
def createdAgain : List NameOp :=
  [.create "a.R" [2],
    .event (Env.succeeding 2 6) ⟨1, IN_CREATE, "a.R", .other⟩]

theorem lateRow_distinctNames : DistinctNames lateRow 1 := by
  have hrow : ∀ (id : ℤ) row, lateRow.rcfile[id]? = some row → id = 5 := by
    intro id row h
    change ((∅ : Map ℤ FileRow).insert 5 ⟨1, 1, "a.R", 1, 2 ^ 31⟩)[id]? = _ at h
    rw [Map.getElem?_insert] at h
    split at h
    next heq => exact heq.symm
    next => cases h
  intro id id' row row' h h' _ _ _
  rw [hrow id row h, hrow id' row' h']

theorem createdAgain_allowed : Along step Allowed startedLateRow createdAgain := by
  refine ⟨⟨?_, trivial⟩, ⟨?_, ?_⟩, trivial⟩
  · intro h
    cases h
  · intro h
    cases h
  · refine ⟨by decide, ?_, succeeding_beginsAlive 2 6⟩
    exact not_caused_step (fun _ h => h) (by decide) (by decide)

/-- The modification time does not fit an `int4`, so the select of the start
fails and the file is not cached: created again, it gets a second row. -/
theorem oneFilePerName_fails_on_unloaded :
    ¬ ∀ (env : Env) (envs : ℤ → Env) (workingDir : String)
        (wspaceId sessionRecId : ℤ) (t : Tables) (ops : List NameOp),
      DistinctNames t wspaceId →
      (connect env wspaceId sessionRecId
        (World.initial workingDir wspaceId sessionRecId t)).1 =
          .returned () →
      Along step Allowed
        (started env envs workingDir wspaceId sessionRecId t) ops →
      OneFilePerName (run step
        (started env envs workingDir wspaceId sessionRecId t) ops).world := by
  intro h
  have hnames := h (Env.succeeding 1 0) (fun _ => Env.succeeding 1 0) "wd" 1 1
    lateRow createdAgain lateRow_distinctNames rfl createdAgain_allowed
  have hsame : (5 : ℤ) = 6 :=
    hnames.rows 5 6 ⟨1, 1, "a.R", 1, 2 ^ 31⟩ ⟨1, 1, "a.R", 1, 0⟩
      ⟨by decide, by decide⟩ ⟨by decide, by decide⟩ rfl
  exact absurd hsame (by decide)

end Naming

end Rc2Compute.Files
