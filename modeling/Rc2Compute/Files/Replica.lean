import Rc2Compute.Files.Coherence
import Mathlib.Logic.Function.Basic

/-!
# The session as a replica

What a session is meant to hold is a set of files: an identifier, a version, a
name and the bytes of each.  `Holds` connects this view to the cache and the
working directory; the theorems say how loading and deleting one file change
what the session holds.
-/

namespace Rc2Compute.Files

/-- A set of files by identifier. -/
abbrev Contents := ℤ → Option FetchedFile

/-- The file `row` instead of whatever had its identifier. -/
def Contents.put (V : Contents) (row : FetchedFile) : Contents :=
  Function.update V row.id (some row)

/-- No file with this identifier. -/
def Contents.remove (V : Contents) (id : ℤ) : Contents :=
  Function.update V id none

/-- Files are found under their own identifiers, which determine them by
name. -/
structure Contents.WellFormed (V : Contents) : Prop where
  id : ∀ id row, V id = some row → row.id = id
  name : ∀ id row id' row', V id = some row → V id' = some row' →
    row.name = row'.name → id = id'

/-- The cache holds exactly the files `V`. -/
structure Caches (fm : FileManager) (V : Contents) : Prop where
  pointer : ∀ id ptr, fm.filesById[id]? = some ptr →
    ∃ r, ptr = some r ∧ r < fm.nextObject ∧ (fm.objects r).id = id ∧
      V id ≠ none
  cached : ∀ id row, V id = some row →
    ∃ r, fm.filesById[id]? = some (some r) ∧
      (fm.objects r).version = row.version ∧
      (fm.objects r).name = row.name ∧ (fm.objects r).path = row.name

/-- The working directory holds exactly the files `V`. -/
structure Stores (disk : Map String Bytes) (V : Contents) : Prop where
  onDisk : ∀ id row, V id = some row → disk[row.name]? = some row.bindata
  nothingElse : ∀ name : String, disk[name]? ≠ none →
    ∃ id row, V id = some row ∧ row.name = name

/-- The session holds exactly the files `V`. -/
structure Holds (w : World) (V : Contents) : Prop where
  wellFormed : V.WellFormed
  caches : Caches w.fm V
  stores : Stores w.disk V

/-! ## What the replica does not see -/

/-- The cache up to watch descriptors, the disk, the database and the
workspace are the same. -/
structure SameReplica (w w' : World) : Prop where
  byId : w'.fm.filesById = w.fm.filesById
  nextObject : w'.fm.nextObject = w.fm.nextObject
  object : ∀ r, w'.fm.objects r =
    { w.fm.objects r with
      watchDescriptor := (w'.fm.objects r).watchDescriptor }
  disk : w'.disk = w.disk
  db : w'.db = w.db
  wspaceId : w'.fm.wspaceId = w.fm.wspaceId

namespace SameReplica

theorem of_objects {w w' : World} (hid : w'.fm.filesById = w.fm.filesById)
    (hnext : w'.fm.nextObject = w.fm.nextObject)
    (hobj : w'.fm.objects = w.fm.objects) (hdisk : w'.disk = w.disk)
    (hdb : w'.db = w.db) (hws : w'.fm.wspaceId = w.fm.wspaceId) :
    SameReplica w w' :=
  ⟨hid, hnext, fun r => by rw [hobj], hdisk, hdb, hws⟩

instance : Std.Refl SameReplica where
  refl _ := of_objects rfl rfl rfl rfl rfl rfl

instance : IsTrans World SameReplica where
  trans _ _ _ hab hbc :=
    { byId := hbc.byId.trans hab.byId
      nextObject := hbc.nextObject.trans hab.nextObject
      object := fun r => by rw [hbc.object r, hab.object r]
      disk := hbc.disk.trans hab.disk
      db := hbc.db.trans hab.db
      wspaceId := hbc.wspaceId.trans hab.wspaceId }

end SameReplica

theorem Caches.of_sameReplica {w w' : World} {V : Contents}
    (h : Caches w.fm V) (hs : SameReplica w w') : Caches w'.fm V := by
  refine ⟨fun id ptr hid => ?_, fun id row hV => ?_⟩
  · rw [hs.byId] at hid
    obtain ⟨r, rfl, hlt, hobj, hV⟩ := h.pointer id ptr hid
    refine ⟨r, rfl, by rwa [hs.nextObject], ?_, hV⟩
    rw [hs.object]
    exact hobj
  · obtain ⟨r, hr, hobj⟩ := h.cached id row hV
    refine ⟨r, by rw [hs.byId, hr], ?_⟩
    rw [hs.object]
    exact hobj

theorem Holds.of_sameReplica {w w' : World} {V : Contents} (h : Holds w V)
    (hs : SameReplica w w') : Holds w' V :=
  ⟨h.wellFormed, h.caches.of_sameReplica hs, hs.disk ▸ h.stores⟩

theorem windowOpened_sameReplica (w : World) :
    SameReplica w (windowOpened w) := by
  rw [windowOpened_eq]
  split
  · exact Std.Refl.refl w
  · exact SameReplica.of_objects rfl rfl rfl rfl rfl rfl

theorem watchFile_sameReplica (env : Env) (r : ℕ) :
    Act.Moves SameReplica (watchFile env (some r)) := by
  have hadd : ∀ path mask,
      Act.Moves SameReplica (inotify_add_watch env path mask) := by
    intro path mask
    refine Act.Moves.ite (Act.Moves.pure _) (Act.Moves.bind
      (Act.Moves.modify fun w => ?_) fun _ => Act.Moves.pure _)
    exact SameReplica.of_objects rfl rfl rfl rfl rfl rfl
  have hstore : ∀ wd : ℤ, Act.Moves SameReplica
      (store (some r) fun info => { info with watchDescriptor := wd }) := by
    intro wd w
    refine Act.wp_of_apply (store_some r _ w)
      ⟨rfl, rfl, fun k => ?_, rfl, rfl, rfl⟩
    by_cases hk : k = r
    · subst hk
      simp [World.setObject]
    · simp [World.setObject, hk]
  have hload : Act.Moves SameReplica (load (some r)) :=
    fun w => Act.wp_of_apply (load_some r w) (Std.Refl.refl w)
  have hstat : ∀ path, Act.Moves SameReplica (statFails env path) :=
    fun path => Act.Moves.get.bind fun _ => Act.Moves.pure _
  exact hload.bind fun _ => Act.Moves.get.bind fun _ =>
    (hstat _).bind fun _ => (Act.Moves.throwIf _ _).bind fun _ =>
    (hadd _ _).bind fun wd => (hstore wd).bind fun _ =>
    (Act.Moves.throwIf _ _).bind fun _ => Act.Moves.modify fun _ =>
      SameReplica.of_objects rfl rfl rfl rfl rfl rfl

/-! ## Loading a file -/

/-- The identifier and the version pass through `uint32_t` unchanged, and the
modification time fits its cast. -/
def FetchedFile.Plain (row : FetchedFile) : Prop :=
  0 ≤ row.id ∧ row.id < 2 ^ 31 ∧ 0 ≤ row.version ∧ row.version < 2 ^ 31 ∧
    fitsInt4 row.lastmod = true

instance (row : FetchedFile) : Decidable row.Plain :=
  inferInstanceAs (Decidable (_ ∧ _ ∧ _ ∧ _ ∧ _))

theorem FetchedFile.Plain.toUInt32_id {row : FetchedFile} (h : row.Plain) :
    toUInt32 row.id = row.id :=
  toUInt32_of_lt h.1 (h.2.1.trans (by decide))

theorem FetchedFile.Plain.toUInt32_version {row : FetchedFile}
    (h : row.Plain) : toUInt32 row.version = row.version :=
  toUInt32_of_lt h.2.2.1 (h.2.2.2.1.trans (by decide))

theorem FetchedFile.Plain.fits {row : FetchedFile} (h : row.Plain) :
    row.fits = true := by
  obtain ⟨h1, h2, h3, h4, hdate⟩ := h
  rw [FetchedFile.fits, hdate, Bool.and_true]
  simp only [fitsInt4, Bool.and_eq_true, decide_eq_true_eq]
  omega

theorem Contents.put_self (V : Contents) (row : FetchedFile) :
    V.put row row.id = some row :=
  Function.update_self _ _ _

theorem Contents.put_of_ne (V : Contents) {row : FetchedFile} {id : ℤ}
    (h : id ≠ row.id) : V.put row id = V id :=
  Function.update_of_ne h _ _

theorem Contents.remove_self (V : Contents) (id : ℤ) :
    V.remove id id = none :=
  Function.update_self _ _ _

theorem Contents.remove_of_ne (V : Contents) {id k : ℤ} (h : k ≠ id) :
    V.remove id k = V k :=
  Function.update_of_ne h _ _

/-- The cached file of a row takes the row's columns. -/
theorem Caches.refreshed {w : World} {V : Contents} {row : FetchedFile} {r : ℕ}
    (h : Caches w.fm V) (hid : w.fm.filesById[row.id]? = some (some r))
    (hsame : ∀ old, V row.id = some old → old.name = row.name) :
    Caches (w.setObject r { w.fm.objects r with
      version := row.version, name := row.name }).fm (V.put row) := by
  obtain ⟨_, hsome, -, hobj, hV⟩ := h.pointer _ _ hid
  cases hsome
  constructor
  · intro id ptr hptr
    obtain ⟨k, rfl, hlt, hkid, hkV⟩ := h.pointer id ptr hptr
    refine ⟨k, rfl, hlt, ?_, ?_⟩
    · by_cases hkr : k = r
      · subst hkr
        simpa [World.setObject] using hkid
      · simpa [World.setObject, hkr] using hkid
    · by_cases hne : id = row.id
      · rw [hne, Contents.put_self]
        exact Option.some_ne_none row
      · rwa [Contents.put_of_ne V hne]
  · intro id row' hrow'
    by_cases hne : id = row.id
    · subst hne
      rw [Contents.put_self] at hrow'
      obtain rfl := Option.some.inj hrow'
      obtain ⟨old, hold⟩ := Option.ne_none_iff_exists'.mp hV
      obtain ⟨r', hr', -, -, hpath⟩ := h.cached _ old hold
      obtain rfl : r = r' :=
        Option.some.inj (Option.some.inj (hid.symm.trans hr'))
      refine ⟨r, hid, by simp [World.setObject], by simp [World.setObject], ?_⟩
      simpa [World.setObject] using hpath.trans (hsame old hold)
    · rw [Contents.put_of_ne V hne] at hrow'
      obtain ⟨k, hk, hkobj⟩ := h.cached id row' hrow'
      have hkr : k ≠ r := by
        rintro rfl
        obtain ⟨k', hk', -, hkid, -⟩ := h.pointer id _ hk
        obtain rfl : k = k' := Option.some.inj hk'
        exact hne (hkid.symm.trans hobj)
      exact ⟨k, hk, by simpa [World.setObject, hkr] using hkobj⟩

/-- A row gets a new object. -/
theorem Caches.entered {w : World} {V : Contents} {row : FetchedFile}
    {info : DBFileInfo} (h : Caches w.fm V) (hinfo : info.id = row.id ∧
      info.version = row.version ∧ info.name = row.name ∧
      info.path = row.name) :
    Caches { w.fm with
      objects := Function.update w.fm.objects w.fm.nextObject info
      nextObject := w.fm.nextObject + 1
      filesById := w.fm.filesById.insert row.id (some w.fm.nextObject) }
      (V.put row) := by
  constructor
  · intro id ptr hptr
    dsimp only at hptr
    rw [Map.getElem?_insert] at hptr
    split at hptr
    next heq =>
      cases hptr
      subst heq
      refine ⟨_, rfl, Nat.lt_succ_self _, ?_, ?_⟩
      · simpa using hinfo.1
      · rw [Contents.put_self]
        exact Option.some_ne_none row
    next hne =>
      obtain ⟨k, rfl, hk, hkid, hkV⟩ := h.pointer id ptr hptr
      refine ⟨k, rfl, hk.trans (Nat.lt_succ_self _), ?_, ?_⟩
      · simpa [hk.ne] using hkid
      · rwa [Contents.put_of_ne V fun h => hne h.symm]
  · intro id row' hrow'
    by_cases hne : id = row.id
    · subst hne
      rw [Contents.put_self] at hrow'
      obtain rfl := Option.some.inj hrow'
      refine ⟨w.fm.nextObject, Map.getElem?_insert_self _ _ _, ?_⟩
      simpa using hinfo.2
    · rw [Contents.put_of_ne V hne] at hrow'
      obtain ⟨k, hk, hkobj⟩ := h.cached id row' hrow'
      obtain ⟨k', hk', hklt, -⟩ := h.pointer id _ hk
      obtain rfl : k = k' := Option.some.inj hk'
      refine ⟨k, ?_, by simpa [hklt.ne] using hkobj⟩
      dsimp only
      rw [Map.getElem?_insert_of_ne _ _ fun h => hne h.symm]
      exact hk

/-- The cache after a row has entered it. -/
theorem cacheFile_caches {env : Env} {w : World} {V : Contents}
    {row : FetchedFile} (h : Caches w.fm V) (hplain : row.Plain)
    (hsame : ∀ old, V row.id = some old → old.name = row.name) :
    Act.wp (cacheFile env row)
      (fun _ w' => Caches w'.fm (V.put row) ∧ w'.disk = w.disk ∧
        w'.db = w.db ∧ w'.inotify = w.inotify ∧
        w'.fm.wspaceId = w.fm.wspaceId)
      (fun _ _ => False) w := by
  simp only [cacheFile, Act.wp_bind, Act.wp_get, hplain.toUInt32_id,
    hplain.toUInt32_version]
  cases hid : w.fm.filesById[row.id]? with
  | some ptr =>
      obtain ⟨r, rfl, -⟩ := h.pointer _ ptr hid
      exact Act.wp_of_apply (store_some r _ w)
        ⟨h.refreshed hid hsame, rfl, rfl, rfl, rfl⟩
  | none =>
      exact ⟨h.entered ⟨hplain.toUInt32_id, hplain.toUInt32_version, rfl,
        rfl⟩, rfl, rfl, rfl, rfl⟩

/-- Writing a row's file. -/
theorem Stores.put {disk : Map String Bytes} {V : Contents}
    {row : FetchedFile} (h : Stores disk V)
    (hwf : (V.put row).WellFormed)
    (hsame : ∀ old, V row.id = some old → old.name = row.name) :
    Stores (disk.insert row.name row.bindata) (V.put row) := by
  refine ⟨fun id row' hrow' => ?_, fun name hname => ?_⟩
  · by_cases hne : id = row.id
    · subst hne
      rw [Contents.put_self] at hrow'
      obtain rfl := Option.some.inj hrow'
      exact Map.getElem?_insert_self _ _ _
    · have hnames : row.name ≠ row'.name := fun heq =>
        hne (hwf.name _ _ _ _ (V.put_self row) hrow' heq).symm
      rw [Contents.put_of_ne V hne] at hrow'
      rw [Map.getElem?_insert_of_ne _ _ hnames]
      exact h.onDisk id row' hrow'
  · rw [Map.getElem?_insert] at hname
    split at hname
    next heq => exact ⟨row.id, row, V.put_self row, heq⟩
    next hne =>
      obtain ⟨id, row', hrow', rfl⟩ := h.nothingElse name hname
      have hid : id ≠ row.id := by
        rintro rfl
        exact hne (hsame row' hrow').symm
      exact ⟨id, row', by rw [Contents.put_of_ne V hid, hrow'], rfl⟩

/-- Loading a row that keeps its file's name makes the session hold it. -/
theorem Holds.loadFile {env : Env} {w : World} {V : Contents}
    {row : FetchedFile} (h : Holds w V) (hplain : row.Plain)
    (hwrite : env.fails .writeFile = false) (hwf : (V.put row).WellFormed)
    (hsame : ∀ old, V row.id = some old → old.name = row.name) :
    Act.wp (loadFile env row)
      (fun _ w' => Holds w' (V.put row) ∧ w'.db = w.db ∧
        w'.fm.wspaceId = w.fm.wspaceId)
      (fun _ _ => False) w := by
  simp only [Files.loadFile, Act.wp_bind, Act.wp_modify, hwrite]
  refine (cacheFile_caches h.caches hplain hsame).mono (fun _ w₁ h₁ => ?_)
    fun _ _ h => h
  obtain ⟨hcaches, hdisk, hdb, -, hws⟩ := h₁
  refine ⟨⟨hwf, hcaches, ?_⟩, hdb, hws⟩
  have hstores := h.stores.put hwf hsame
  rw [← hdisk] at hstores
  exact hstores

/-! ## Deleting a file -/

theorem Contents.WellFormed.remove {V : Contents} (h : V.WellFormed)
    (id : ℤ) : (V.remove id).WellFormed := by
  have hsub : ∀ k row, V.remove id k = some row → V k = some row := by
    intro k row hk
    by_cases hne : k = id
    · subst hne
      rw [Contents.remove_self] at hk
      cases hk
    · rwa [Contents.remove_of_ne V hne] at hk
  exact ⟨fun k row hk => h.id k row (hsub k row hk),
    fun k row k' row' hk hk' =>
      h.name k row k' row' (hsub k row hk) (hsub k' row' hk')⟩

theorem Contents.remove_of_none {V : Contents} {id : ℤ} (h : V id = none) :
    V.remove id = V := by
  rw [Contents.remove, ← h, Function.update_eq_self]

theorem Caches.remove {fm : FileManager} {V : Contents} (h : Caches fm V)
    (id : ℤ) (watches : Map ℤ DBFileInfoPtr) :
    Caches
      { fm with
        filesById := fm.filesById.erase id
        filesByWatchDesc := watches } (V.remove id) := by
  refine ⟨fun k ptr hk => ?_, fun k row hk => ?_⟩
  · rw [Map.getElem?_erase] at hk
    split at hk
    next => cases hk
    next hne =>
      obtain ⟨r, rfl, hlt, hobj, hV⟩ := h.pointer k ptr hk
      refine ⟨r, rfl, hlt, hobj, ?_⟩
      rwa [Contents.remove_of_ne V fun h => hne h.symm]
  · by_cases hne : k = id
    · subst hne
      rw [Contents.remove_self] at hk
      cases hk
    · rw [Contents.remove_of_ne V hne] at hk
      obtain ⟨r, hr, hobj⟩ := h.cached k row hk
      refine ⟨r, ?_, hobj⟩
      rw [Map.getElem?_erase_of_ne _ fun h => hne h.symm]
      exact hr

theorem Stores.remove {disk : Map String Bytes} {V : Contents} {id : ℤ}
    {row : FetchedFile} (h : Stores disk V) (hwf : V.WellFormed)
    (hid : V id = some row) : Stores (disk.erase row.name) (V.remove id) := by
  refine ⟨fun k row' hk => ?_, fun name hname => ?_⟩
  · by_cases hne : k = id
    · subst hne
      rw [Contents.remove_self] at hk
      cases hk
    · rw [Contents.remove_of_ne V hne] at hk
      have hnames : row.name ≠ row'.name := fun heq =>
        hne (hwf.name _ _ _ _ hid hk heq).symm
      rw [Map.getElem?_erase_of_ne _ hnames]
      exact h.onDisk k row' hk
  · rw [Map.getElem?_erase] at hname
    split at hname
    next => exact absurd rfl hname
    next hne =>
      obtain ⟨k, row', hk, rfl⟩ := h.nothingElse name hname
      have hkid : k ≠ id := by
        rintro rfl
        rw [hid] at hk
        exact hne (congrArg FetchedFile.name (Option.some.inj hk))
      exact ⟨k, row', by rw [Contents.remove_of_ne V hkid, hk], rfl⟩

theorem removeFile_disk (w : World) (writer : Writer) (name path : String) :
    (w.removeFile writer name).disk[path]? = (w.disk.erase name)[path]? := by
  unfold World.removeFile
  cases hcontains : w.disk.contains name with
  | true => rfl
  | false =>
      rw [if_neg (by decide), Map.getElem?_erase]
      split
      next heq =>
        subst heq
        exact Std.TreeMap.getElem?_eq_none_of_contains_eq_false hcontains
      next => rfl

theorem Stores.congr {disk disk' : Map String Bytes} {V : Contents}
    (h : Stores disk V) (heq : ∀ name : String, disk'[name]? = disk[name]?) :
    Stores disk' V := by
  refine ⟨fun id row hrow => ?_, fun name hname => ?_⟩
  · rw [heq]
    exact h.onDisk id row hrow
  · rw [heq] at hname
    exact h.nothingElse name hname

@[simp] theorem removeFile_db (w : World) (writer : Writer)
    (name : String) : (w.removeFile writer name).db = w.db := by
  unfold World.removeFile
  split <;> rfl

/-- After the message about a deleted file the session does not hold it. -/
theorem Holds.processDelete {env : Env} {w : World} {V : Contents} {id : ℤ}
    (h : Holds w V) (hremove : env.fails .remove = false) :
    Act.wp (processDelete env id)
      (fun _ w' => Holds w' (V.remove id) ∧ w'.db = w.db ∧
        w'.fm.wspaceId = w.fm.wspaceId)
      (fun _ _ => False) w := by
  cases hid : w.fm.filesById[id]? with
  | none =>
      have hV : V id = none := by
        by_contra hV
        obtain ⟨row, hrow⟩ := Option.ne_none_iff_exists'.mp hV
        obtain ⟨r, hr, -⟩ := h.caches.cached id row hrow
        rw [hid] at hr
        cases hr
      rw [Contents.remove_of_none hV]
      exact Act.wp_of_apply (processDelete_of_none hid) ⟨h, rfl, rfl⟩
  | some ptr =>
      obtain ⟨r, rfl, -, -, hV⟩ := h.caches.pointer id ptr hid
      obtain ⟨row, hrow⟩ := Option.ne_none_iff_exists'.mp hV
      obtain ⟨r', hr', -, -, hpath⟩ := h.caches.cached id row hrow
      obtain rfl : r = r' :=
        Option.some.inj (Option.some.inj (hid.symm.trans hr'))
      simp only [Files.processDelete, Act.wp_tryCatch, Act.wp_bind,
        Act.wp_get, hid, Act.wp_modify, Act.wp_throwIf, Act.wp_pure, hremove]
      refine Act.wp_of_apply (load_some r w) ?_
      refine (inotify_rm_watch_spec _ w).mono (fun _ w₁ h₁ => ?_)
        fun _ _ h => h.elim
      obtain ⟨hfm, hdisk, hdb⟩ := h₁
      refine ⟨fun h => absurd h (by decide), fun _ => ⟨⟨h.wellFormed.remove id,
        ?_, ?_⟩, ?_, ?_⟩⟩
      · rw [removeFile_fm, hfm]
        exact h.caches.remove id _
      · have hstores := h.stores.remove h.wellFormed hrow
        rw [← hpath, ← hdisk] at hstores
        exact hstores.congr fun name => removeFile_disk _ _ _ _
      · rw [removeFile_db]
        exact hdb
      · rw [removeFile_fm, hfm]

/-! ## Messages about one file -/

/-- The files after the row `cur`, if there is one, has been loaded. -/
def Contents.refresh (V : Contents) : Option FetchedFile → Contents
  | some row => V.put row
  | none => V

/-- `row` may be loaded over `V`: its numbers pass through the conversions
and it keeps the name of its file. -/
structure Loadable (V : Contents) (row : FetchedFile) : Prop where
  plain : row.Plain
  wellFormed : (V.put row).WellFormed
  name : ∀ old, V row.id = some old → old.name = row.name

/-- Loading one file brings in the row the database holds now. -/
theorem Holds.loadFiles_whereId {env : Env} {w : World} {V : Contents}
    {id : ℤ} {cur : Option FetchedFile} (h : Holds w V)
    (hcur : w.db.committed.fetch id = cur)
    (hselect : env.fails .selectFiles = false)
    (hwrite : env.fails .writeFile = false)
    (hload : ∀ row ∈ cur, Loadable V row) :
    Act.wp (loadFiles env (whereId id))
      (fun _ w' => Holds w' (V.refresh cur) ∧ w'.db = w.db ∧
        w'.fm.wspaceId = w.fm.wspaceId)
      (fun _ _ => False) w := by
  have hrun := Files.loadFiles_whereId env id w
  cases cur with
  | none =>
      rw [loadedRow, hselect, hcur] at hrun
      exact Act.wp_of_apply hrun ⟨h, rfl, rfl⟩
  | some row =>
      obtain ⟨hplain, hwf, hname⟩ := hload row rfl
      have hloaded : loadedRow env w id = some row := by
        rw [loadedRow, hselect, hcur, if_neg (by decide)]
        simp [Option.filter, hplain.fits]
      rw [hloaded] at hrun
      rw [Act.wp, hrun]
      exact h.loadFile hplain hwrite hwf hname

theorem Caches.contains_iff {fm : FileManager} {V : Contents}
    (h : Caches fm V) (id : ℤ) :
    fm.filesById.contains id = true ↔ V id ≠ none := by
  rw [Std.TreeMap.contains_eq_isSome_getElem?, Option.isSome_iff_ne_none]
  constructor
  · intro hne
    obtain ⟨ptr, hptr⟩ := Option.ne_none_iff_exists'.mp hne
    obtain ⟨_, -, -, -, hV⟩ := h.pointer id ptr hptr
    exact hV
  · intro hV
    obtain ⟨row, hrow⟩ := Option.ne_none_iff_exists'.mp hV
    obtain ⟨r, hr, -⟩ := h.cached id row hrow
    rw [hr]
    exact Option.some_ne_none _

/-- The message about a changed file refreshes it, if the session holds it. -/
theorem Holds.processUpdate {env : Env} {w : World} {V : Contents} {id : ℤ}
    {cur : Option FetchedFile} (h : Holds w V)
    (hcur : w.db.committed.fetch id = cur)
    (hselect : env.fails .selectFiles = false)
    (hwrite : env.fails .writeFile = false)
    (hload : V id ≠ none → ∀ row ∈ cur, Loadable V row) :
    Act.wp (processUpdate env id)
      (fun _ w' => Holds w' (if V id = none then V else V.refresh cur) ∧
        w'.db = w.db ∧ w'.fm.wspaceId = w.fm.wspaceId)
      (fun _ _ => False) w := by
  simp only [Files.processUpdate, Act.wp_bind, Act.wp_get]
  have hopened := windowOpened_sameReplica w
  by_cases hV : V id = none
  · have hno : ¬ w.fm.filesById.contains id = true := fun hc =>
      (h.caches.contains_iff id).mp hc hV
    rw [if_neg hno, if_pos hV]
    exact ⟨h, rfl, rfl⟩
  · rw [if_pos ((h.caches.contains_iff id).mpr hV), if_neg hV, Act.wp_bind]
    refine Act.wp_of_apply (ignoreFSNotifications_apply w) ?_
    have hcur' : (windowOpened w).db.committed.fetch id = cur := by
      rw [windowOpened_db, hcur]
    refine ((h.of_sameReplica hopened).loadFiles_whereId hcur' hselect
      hwrite (hload hV)).mono (fun _ w' h' => ?_) fun _ _ h => h
    exact ⟨h'.1, h'.2.1.trans hopened.db, h'.2.2.trans hopened.wspaceId⟩

/-- The message about an inserted file brings it in, if its row is there. -/
theorem Holds.processInsert {env : Env} {w : World} {V : Contents}
    {row : FetchedFile} (h : Holds w V)
    (hcur : w.db.committed.fetch row.id = some row)
    (hselect : env.fails .selectFiles = false)
    (hwrite : env.fails .writeFile = false) (hload : Loadable V row) :
    let post : World → Prop := fun w' => Holds w' (V.put row) ∧
      w'.db = w.db ∧ w'.fm.wspaceId = w.fm.wspaceId
    Act.wp (processInsert env row.id) (fun _ => post) (fun _ => post) w := by
  intro post
  simp only [Files.processInsert, Act.wp_bind]
  have hopened := windowOpened_sameReplica w
  have hcur' : (windowOpened w).db.committed.fetch row.id = some row := by
    rw [windowOpened_db, hcur]
  refine Act.wp_of_apply (ignoreFSNotifications_apply w) ?_
  refine ((h.of_sameReplica hopened).loadFiles_whereId hcur' hselect hwrite
    fun row' hrow' => ?_).mono (fun _ w₁ h₁ => ?_) fun _ _ h => h.elim
  · obtain rfl := Option.some.inj hrow'
    exact hload
  obtain ⟨hholds, hdb, hws⟩ := h₁
  obtain ⟨r, hr, -⟩ := hholds.caches.cached row.id row (V.put_self row)
  refine Act.wp_of_apply (filesByIdIndex_of_some hr) ?_
  have hpost : ∀ w', SameReplica w₁ w' → post w' := fun w' hs =>
    ⟨hholds.of_sameReplica hs, (hs.db.trans hdb).trans hopened.db,
      (hs.wspaceId.trans hws).trans hopened.wspaceId⟩
  exact (watchFile_sameReplica env r w₁).mono (fun _ w' h => hpost w' h)
    fun _ w' h => hpost w' h

end Rc2Compute.Files
