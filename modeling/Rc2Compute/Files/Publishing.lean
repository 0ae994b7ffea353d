import Rc2Compute.Files.Transactions
import Rc2Compute.Files.Replication
import Rc2Compute.Support.BigEndian

/-!
# Publishing a file

One session inserts the row of a file and updates it after each rewrite;
another loads the rows of the workspace.  The reader finds every row under
its own identifier, and in its directory the bytes of every row whose name no
other row uses for something else.
-/

namespace Rc2Compute.Files

/-! ## The columns of a result -/

/-- A row as the server sends it in binary form: its numbers are `int4` in
network order. -/
structure ResultRow where
  pid : Bytes
  pver : Bytes
  pname : String
  lastmod : Bytes
  bindata : Bytes

/-- An `int4` column. -/
def int4Column (x : ℤ) : Bytes :=
  BigEndian.encode 4 (toUInt32 x).toNat

/-- `ntohl` of the four bytes of a column. -/
def ntohl (column : Bytes) : ℤ :=
  BigEndian.decode column

def FetchedFile.columns (row : FetchedFile) : ResultRow :=
  ⟨int4Column row.id, int4Column row.version, row.name,
    int4Column row.lastmod, row.bindata⟩

/-- What the loop of `loadFiles` takes from the columns. -/
def ResultRow.fields (row : ResultRow) : FetchedFile :=
  ⟨ntohl row.pid, ntohl row.pver, row.pname, ntohl row.lastmod, row.bindata⟩

theorem ntohl_int4Column (x : ℤ) : ntohl (int4Column x) = toUInt32 x := by
  have hlow : 0 ≤ toUInt32 x := Int.emod_nonneg _ (by decide)
  have hhigh : toUInt32 x < 2 ^ 32 := Int.emod_lt_of_pos _ (by decide)
  have hlt : (toUInt32 x).toNat < 256 ^ 4 := by omega
  rw [ntohl, int4Column, BigEndian.decode_encode_of_lt hlt]
  exact Int.toNat_of_nonneg hlow

/-- The body of the loop depends on a row only through its columns. -/
theorem loadFile_columns (env : Env) (row : FetchedFile) :
    loadFile env row.columns.fields = loadFile env row := by
  have hagain : ∀ x, toUInt32 (toUInt32 x) = toUInt32 x :=
    fun x => Int.emod_emod_of_dvd x (dvd_refl _)
  simp only [loadFile, cacheFile, FetchedFile.columns, ResultRow.fields,
    ntohl_int4Column, hagain]

/-! ## The writer -/

/-- R rewrites the file in place and the session stores it. -/
structure Rewrite where
  env : Env
  data : Bytes

def rewriteFile (fname : String) (file : DBFileInfoPtr) (r : Rewrite) :
    Prog Unit := do
  Act.modify fun w => w.writeFile .other fname r.data
  updateDBFile r.env file

/-- A file is inserted, and stored again after each rewrite. -/
def publish (env : Env) (fname : String) (rewrites : List Rewrite) :
    Prog ℤ := do
  let fileId ← insertDBFile env fname
  let w ← Act.get
  let file := w.fm.filesById[fileId]?.join
  Act.forEach rewrites (rewriteFile fname file)
  pure fileId

/-- The cached file `r` and its row agree, and the row holds what is in the
session's directory. -/
structure Published (w : World) (fileId : ℤ) (fname : String) (r : ℕ) :
    Prop where
  idle : w.db.transaction = none
  cached : w.fm.filesById[fileId]? = some (some r)
  id : (w.fm.objects r).id = fileId
  name : (w.fm.objects r).name = fname
  path : (w.fm.objects r).path = fname
  row : ∃ row, w.db.committed.rcfile[fileId]? = some row ∧
    row.name = fname ∧ row.wspaceid = w.fm.wspaceId ∧
    row.version = (w.fm.objects r).version
  bindata : ∃ data, w.disk[fname]? = some data ∧
    w.db.committed.rcfiledata[fileId]? = some data

theorem published_inserted {env : Env} {w : World} {fname : String}
    {data : Bytes} (hfresh : w.fm.filesById[env.newId]? = none)
    (hid : 0 ≤ env.newId ∧ env.newId < 2 ^ 31)
    (hdata : w.disk[fname]? = some data) :
    Published (w.inserted env fname data data) env.newId fname
      w.fm.nextObject := by
  have hobject : (w.inserted env fname data data).fm.objects
      w.fm.nextObject =
        ⟨toUInt32 env.newId, 1, fname, fname, env.uninitialised⟩ :=
    Function.update_self _ _ _
  constructor
  · rfl
  · exact (Map.getElem?_insertIfNew_of_none _ _ hfresh).trans (if_pos rfl)
  · rw [hobject]
    exact toUInt32_of_lt hid.1 (hid.2.trans (by decide))
  · rw [hobject]
  · rw [hobject]
  · rw [hobject]
    exact ⟨_, Map.getElem?_insert_self _ _ _, rfl, rfl, rfl⟩
  · exact ⟨data, hdata, Map.getElem?_insert_self _ _ _⟩

theorem Published.updated {w : World} {fileId : ℤ} {fname : String} {r : ℕ}
    {mtime : ℤ} {data : Bytes} (h : Published w fileId fname r) :
    Published ((w.writeFile .other fname data).updated r mtime data data)
      fileId fname r := by
  obtain ⟨row, hrow, hname, hwspace, -⟩ := h.row
  obtain ⟨old, -, hold⟩ := h.bindata
  have hobject : ((w.writeFile .other fname data).updated r mtime data
      data).fm.objects r =
        { w.fm.objects r with
          version := toInt32 ((w.fm.objects r).version + 1) } :=
    Function.update_self _ _ _
  constructor
  · rfl
  · exact h.cached
  · rw [hobject]
    exact h.id
  · rw [hobject]
    exact h.name
  · rw [hobject]
    exact h.path
  · rw [hobject]
    refine ⟨{ row with
      version := toInt32 ((w.fm.objects r).version + 1)
      lastmodified := mtime
      filesize := data.length }, ?_, hname, hwspace, rfl⟩
    change (updatedRows w.db.committed.rcfile (w.fm.objects r).id _ _ _)[
      fileId]? = _
    rw [updatedRows, Map.getElem?_modify, if_pos h.id, hrow]
    rfl
  · refine ⟨data, Map.getElem?_insert_self _ _ _, ?_⟩
    change (w.db.committed.rcfiledata.modify (w.fm.objects r).id _)[
      fileId]? = _
    rw [Map.getElem?_modify, if_pos h.id, hold]
    rfl

/-- A rewrite that is stored leaves the file published. -/
theorem rewriteFile_published {w : World} {fileId : ℤ} {fname : String}
    {r : ℕ} {rewrite : Rewrite} (h : Published w fileId fname r)
    (hbegin : rewrite.env.BeginsAlive)
    (hwhole : ReadsWhole rewrite.env.readStops rewrite.data)
    (hlt : rewrite.data.length < 2 ^ 31) :
    Act.wp (rewriteFile fname (some r) rewrite)
      (fun _ w' => Published w' fileId fname r) (fun _ _ => True) w := by
  rw [rewriteFile, Act.wp_bind, Act.wp_modify]
  have hidle : (w.writeFile .other fname rewrite.data).db.transaction = none :=
    h.idle
  refine (updateDBFile_spec hidle hbegin).mono ?_ fun _ _ _ => trivial
  rintro _ w' ⟨data, bindata, hdata, hbindata, rfl⟩
  have hdisk : (w.writeFile .other fname rewrite.data).disk[fname]? =
      some rewrite.data := Map.getElem?_insert_self _ _ _
  have hpath : ((w.writeFile .other fname rewrite.data).fm.objects r).path =
      fname := h.path
  rw [hpath, hdisk] at hdata
  obtain rfl := Option.some.inj hdata
  rw [Env.buffer_of_readsWhole hwhole, byteaParam_of_lt hlt] at hbindata
  obtain rfl := Option.some.inj hbindata
  exact h.updated

/-- Contents of `fname` the writer publishes are shorter than `2 ^ 31`
bytes and read to their end, the name can be quoted, the new identifier is an
unused one below `2 ^ 31`, and a failed `begin` means a dead connection. -/
structure Publishable (env : Env) (fname : String) (rewrites : List Rewrite)
    (w : World) : Prop where
  idle : w.db.transaction = none
  begins : env.BeginsAlive
  fresh : w.fm.filesById[env.newId]? = none
  id : 0 ≤ env.newId ∧ env.newId < 2 ^ 31
  quoted : env.fails .escapeLiteral = false
  contents : ∀ data, w.disk[fname]? = some data →
    ReadsWhole env.readStops data ∧ data.length < 2 ^ 31
  rewrites : ∀ rewrite ∈ rewrites, rewrite.env.BeginsAlive ∧
    ReadsWhole rewrite.env.readStops rewrite.data ∧
    rewrite.data.length < 2 ^ 31

theorem publish_spec {env : Env} {fname : String} {rewrites : List Rewrite}
    {w : World} (h : Publishable env fname rewrites w) :
    Act.wp (publish env fname rewrites)
      (fun fileId w' => ∃ r, Published w' fileId fname r)
      (fun _ _ => True) w := by
  rw [publish, Act.wp_bind]
  refine (insertDBFile_spec (fun _ => h.quoted) h.begins).mono ?_
    fun _ _ _ => trivial
  rintro fileId w' ⟨rfl, data, bindata, hdata, hbindata, -, rfl⟩
  obtain ⟨hwhole, hlt⟩ := h.contents data hdata
  rw [Env.buffer_of_readsWhole hwhole, byteaParam_of_lt hlt] at hbindata
  obtain rfl := Option.some.inj hbindata
  have hpublished := published_inserted h.fresh h.id hdata
  rw [Act.wp_bind, Act.wp_get]
  beta_reduce
  rw [hpublished.cached, Act.wp_bind]
  have hloop : Act.wp
      (Act.forEach rewrites (rewriteFile fname (some w.fm.nextObject)))
      (fun _ w' => Published w' env.newId fname w.fm.nextObject)
      (fun _ _ => True) (w.inserted env fname data data) := by
    refine Act.wp_forEach (fun rewrite hmem w₁ h₁ => ?_) hpublished
    obtain ⟨hbegin, hwhole, hlt⟩ := h.rewrites rewrite hmem
    exact rewriteFile_published h₁ hbegin hwhole hlt
  exact hloop.mono (fun _ w₂ h₂ => ⟨_, h₂⟩) fun _ _ _ => trivial

/-! ## The reader -/

/-- Every cached entry points to an allocated object of its identifier. -/
def CacheSound (fm : FileManager) : Prop :=
  ∀ id ptr, fm.filesById[id]? = some ptr →
    ∃ r, ptr = some r ∧ r < fm.nextObject ∧ (fm.objects r).id = id

/-- The row is cached under its identifier, with its name and version. -/
def CachesRow (fm : FileManager) (row : FetchedFile) : Prop :=
  ∃ r, fm.filesById[row.id]? = some (some r) ∧
    (fm.objects r).id = row.id ∧ (fm.objects r).name = row.name ∧
    (fm.objects r).version = row.version

/-- Caching a row keeps the cache sound and the other rows cached. -/
theorem cacheFile_cachesRow {env : Env} {w : World} {row : FetchedFile}
    (h : CacheSound w.fm) (hplain : row.Plain) :
    Act.wp (cacheFile env row)
      (fun _ w' => CacheSound w'.fm ∧ CachesRow w'.fm row ∧
        (∀ other, other.id ≠ row.id → CachesRow w.fm other →
          CachesRow w'.fm other) ∧ w'.disk = w.disk)
      (fun _ _ => False) w := by
  simp only [cacheFile, Act.wp_bind, Act.wp_get, hplain.toUInt32_id,
    hplain.toUInt32_version]
  cases hid : w.fm.filesById[row.id]? with
  | some ptr =>
      obtain ⟨r, rfl, hlt, hobj⟩ := h _ ptr hid
      have hids : ∀ k, ((w.setObject r { w.fm.objects r with
          version := row.version, name := row.name }).fm.objects k).id =
            (w.fm.objects k).id := by
        intro k
        by_cases hk : k = r
        · subst hk
          simp [World.setObject]
        · simp [World.setObject, hk]
      refine Act.wp_of_apply (store_some r _ w) ⟨?_, ?_, ?_, rfl⟩
      · intro id ptr hptr
        obtain ⟨k, rfl, hk, hkid⟩ := h id ptr hptr
        exact ⟨k, rfl, hk, (hids k).trans hkid⟩
      · refine ⟨r, hid, (hids r).trans hobj, ?_, ?_⟩
        · simp [World.setObject]
        · simp [World.setObject]
      · rintro other hne ⟨k, hk, hkid, hkobj⟩
        have hkr : k ≠ r := by
          rintro rfl
          exact hne (hkid.symm.trans hobj)
        exact ⟨k, hk, by simpa [World.setObject, hkr] using ⟨hkid, hkobj⟩⟩
  | none =>
      refine ⟨?_, ?_, ?_, rfl⟩
      · intro id ptr hptr
        rw [Map.getElem?_insert] at hptr
        split at hptr
        next heq =>
          cases hptr
          refine ⟨_, rfl, Nat.lt_succ_self _, ?_⟩
          simp [← heq, hplain.toUInt32_id]
        next =>
          obtain ⟨k, rfl, hk, hkid⟩ := h id ptr hptr
          refine ⟨k, rfl, hk.trans (Nat.lt_succ_self _), ?_⟩
          simpa [hk.ne] using hkid
      · refine ⟨w.fm.nextObject, Map.getElem?_insert_self _ _ _, ?_⟩
        simp [hplain.toUInt32_id, hplain.toUInt32_version]
      · rintro other hne ⟨k, hk, hkobj⟩
        obtain ⟨k', hk', hlt, -⟩ := h _ _ hk
        obtain rfl : k = k' := Option.some.inj hk'
        refine ⟨k, ?_, by simpa [hlt.ne] using hkobj⟩
        exact (Map.getElem?_insert_of_ne _ _ hne.symm).trans hk

/-- No other row has the name of `row` for other bytes. -/
def NamedAlone (rows : List FetchedFile) (row : FetchedFile) : Prop :=
  ∀ other ∈ rows, other.name = row.name → other.bindata = row.bindata

/-- The row is cached, and if its name is its own, its file holds its
bytes. -/
def LoadsRow (rows : List FetchedFile) (w : World) (row : FetchedFile) : Prop :=
  CachesRow w.fm row ∧
    (NamedAlone rows row → w.disk[row.name]? = some row.bindata)

/-- Loading one of the rows, which have different identifiers. -/
theorem loadFile_loadsRow {env : Env} {rows : List FetchedFile} {w : World}
    {row : FetchedFile} (hwrite : env.fails .writeFile = false)
    (hplain : row.Plain) (hmem : row ∈ rows)
    (hids : ∀ other ∈ rows, other.id = row.id → other = row)
    (h : CacheSound w.fm) :
    Act.wp (loadFile env row)
      (fun _ w' => CacheSound w'.fm ∧ ∀ other,
        (other ∈ rows ∧ LoadsRow rows w other) ∨ row = other →
          other ∈ rows ∧ LoadsRow rows w' other)
      (fun _ _ => False) w := by
  simp only [loadFile, Act.wp_bind, Act.wp_modify, hwrite]
  refine (cacheFile_cachesRow h hplain).mono ?_ fun _ _ h => h
  rintro _ w₁ ⟨hsound, hrow, hothers, hdisk⟩
  refine ⟨hsound, ?_⟩
  have hself : LoadsRow rows (w₁.writeFile .loadFiles row.name row.bindata)
      row :=
    ⟨hrow, fun _ => Map.getElem?_insert_self _ _ _⟩
  rintro other (⟨hother, hcached, hstored⟩ | rfl)
  · refine ⟨hother, ?_⟩
    by_cases hid : other.id = row.id
    · rw [hids other hother hid]
      exact hself
    · refine ⟨hothers other hid hcached, fun halone => ?_⟩
      change (w₁.disk.insert row.name row.bindata)[other.name]? = _
      rw [Map.getElem?_insert]
      split
      next heq => rw [halone row hmem heq]
      next =>
        rw [hdisk]
        exact hstored halone
  · exact ⟨hmem, hself⟩

/-- The reader has the writer's committed tables and workspace, and a sound
cache. -/
structure ReaderOf (w reader : World) : Prop where
  committed : reader.db.committed = w.db.committed
  wspaceId : reader.fm.wspaceId = w.fm.wspaceId
  sound : CacheSound reader.fm

/-- The files of the session's workspace. -/
def World.wspaceFiles (w : World) : List FetchedFile :=
  w.db.committed.selectFiles (whereWspace w.fm.wspaceId)

/-- Loading the workspace loads each of its rows. -/
theorem loadFiles_loadsRows {env : Env} {w : World}
    (hsound : CacheSound w.fm) (hplain : ∀ row ∈ w.wspaceFiles, row.Plain)
    (hselect : env.fails .selectFiles = false)
    (hwrite : env.fails .writeFile = false) :
    Act.wp (loadFiles env (whereWspace w.fm.wspaceId))
      (fun _ w' => ∀ row ∈ w.wspaceFiles, LoadsRow w.wspaceFiles w' row)
      (fun _ _ => False) w := by
  have hfits : w.wspaceFiles.all FetchedFile.fits = true := by
    rw [List.all_eq_true]
    exact fun row hrow => (hplain row hrow).fits
  have hids : ∀ row ∈ w.wspaceFiles, ∀ other ∈ w.wspaceFiles,
      other.id = row.id → other = row := by
    intro row hrow other hother hid
    obtain ⟨_, -, -, h⟩ := mem_selectFiles.mp hrow
    obtain ⟨_, -, -, h'⟩ := mem_selectFiles.mp hother
    rw [hid, h] at h'
    exact (Option.some.inj h').symm
  rw [loadFiles, Act.wp_bind, Act.wp_get]
  beta_reduce
  change Act.wp (if (env.fails .selectFiles ||
    !w.wspaceFiles.all FetchedFile.fits) = true then _ else _) _ _ _
  rw [hselect, hfits, if_neg (by decide)]
  refine (Act.wp_forEach_covers (E := fun other row => row = other)
    (G := fun other w' => other ∈ w.wspaceFiles ∧
      LoadsRow w.wspaceFiles w' other) (I := fun w' => CacheSound w'.fm)
    (fun row hrow w₁ h₁ => ?_) hsound).mono ?_ fun _ _ h => h
  · exact loadFile_loadsRow hwrite (hplain row hrow) hrow (hids row hrow) h₁
  · rintro _ w' ⟨-, hloads⟩ row hrow
    exact (hloads row (Or.inr ⟨row, hrow, rfl⟩)).2

/-! ## Publishing and loading -/

/-- The row of the published file has the name and the version of the cached
one, and the bytes in the writer's directory. -/
theorem Published.mem_wspaceFiles {w : World} {fileId : ℤ} {fname : String}
    {r : ℕ} (h : Published w fileId fname r) :
    ∃ row ∈ w.wspaceFiles, row.id = fileId ∧ row.name = fname ∧
      row.version = (w.fm.objects r).version ∧
      w.disk[fname]? = some row.bindata := by
  obtain ⟨row, hrow, hname, hwspace, hversion⟩ := h.row
  obtain ⟨data, hdisk, hdata⟩ := h.bindata
  refine ⟨⟨fileId, row.version, row.name, row.lastmodified, data⟩, ?_, rfl,
    hname, hversion, hdisk⟩
  refine mem_selectFiles.mpr ⟨row, hrow, ?_, ?_⟩
  · exact decide_eq_true hwspace
  · rw [Tables.fetch, hrow, hdata]
    rfl

/-- A session that loads the workspace after a file was published finds it
under the same identifier with the writer's name and version, has every row of
the workspace cached as it is, and holds the bytes of every row whose name no
other row has for other bytes. -/
theorem loadFiles_publish {env env' : Env} {w w' reader : World}
    {fname : String} {rewrites : List Rewrite} {fileId : ℤ}
    (hw : Publishable env fname rewrites w)
    (hpublish : publish env fname rewrites w = (.returned fileId, w'))
    (hreader : ReaderOf w' reader)
    (hplain : ∀ row ∈ w'.wspaceFiles, row.Plain)
    (hselect : env'.fails .selectFiles = false)
    (hwrite : env'.fails .writeFile = false) :
    (∃ row ∈ w'.wspaceFiles, ∃ r, row.id = fileId ∧ row.name = fname ∧
      w'.fm.filesById[fileId]? = some (some r) ∧
      row.version = (w'.fm.objects r).version ∧
      w'.disk[fname]? = some row.bindata) ∧
    ∃ loaded, loadFiles env' (whereWspace reader.fm.wspaceId) reader =
        (.returned (), loaded) ∧
      ∀ row ∈ w'.wspaceFiles, CachesRow loaded.fm row ∧
        (NamedAlone w'.wspaceFiles row →
          loaded.disk[row.name]? = some row.bindata) := by
  constructor
  · have hspec := publish_spec hw
    rw [Act.wp, hpublish] at hspec
    obtain ⟨r, hpublished⟩ := hspec
    obtain ⟨row, hrow, hid, hname, hversion, hdisk⟩ :=
      hpublished.mem_wspaceFiles
    exact ⟨row, hrow, r, hid, hname, hpublished.cached, hversion, hdisk⟩
  · have hfiles : reader.wspaceFiles = w'.wspaceFiles := by
      rw [World.wspaceFiles, hreader.committed, hreader.wspaceId]
      rfl
    have hload := loadFiles_loadsRows hreader.sound
      (by rwa [hfiles]) hselect hwrite
    obtain ⟨loaded, hrun, hloaded⟩ := hload.ends
    refine ⟨loaded, hrun, fun row hrow => ?_⟩
    rw [← hfiles] at hrow ⊢
    exact hloaded row hrow

/-- A session of workspace 1 with a file `a.R` in its directory, and another
file of that name in the table. -/
def sharedName : World :=
  { World.initial "wd" 1 1
      ⟨(∅ : Map ℤ FileRow).insert 5 ⟨1, 1, "a.R", 1, 0⟩,
        (∅ : Map ℤ Bytes).insert 5 [1], ∅, ∅⟩ with
    disk := (∅ : Map String Bytes).insert "a.R" [2, 3] }

/-- Another session, which has loaded nothing. -/
def newReader (w : World) : World :=
  World.initial "wd2" w.fm.wspaceId 2 w.db.committed

theorem newReader_readerOf (w : World) : ReaderOf w (newReader w) := by
  constructor
  · rfl
  · rfl
  · intro id ptr hptr
    have hnone : (newReader w).fm.filesById[id]? = none :=
      Std.TreeMap.getElem?_emptyc
    rw [hnone] at hptr
    cases hptr

theorem sharedName_publishable :
    Publishable (Env.succeeding 1 6) "a.R" [⟨Env.succeeding 1 0, [4]⟩]
      sharedName := by
  constructor
  · rfl
  · intro hdead
    cases hdead
  · exact Std.TreeMap.getElem?_emptyc
  · decide
  · rfl
  · intro data hdata
    have hdisk : sharedName.disk["a.R"]? = some [2, 3] :=
      Map.getElem?_insert_self _ _ _
    rw [hdisk] at hdata
    cases hdata
    exact ⟨readsWhole_none _, by decide⟩
  · intro rewrite hmem
    obtain rfl := List.mem_singleton.mp hmem
    constructor
    · intro hdead
      cases hdead
    · exact ⟨readsWhole_none _, by decide⟩

/-- The tables after the session has published its file. -/
def sharedNamePublished : World :=
  (publish (Env.succeeding 1 6) "a.R" [⟨Env.succeeding 1 0, [4]⟩] sharedName).2

theorem publish_sharedName :
    publish (Env.succeeding 1 6) "a.R" [⟨Env.succeeding 1 0, [4]⟩]
      sharedName = (.returned 6, sharedNamePublished) :=
  Prod.ext (by decide) rfl

theorem sharedNamePublished_wspaceFiles :
    sharedNamePublished.wspaceFiles =
      [⟨5, 1, "a.R", 0, [1]⟩, ⟨6, 2, "a.R", 0, [4]⟩] := by decide

theorem sharedNamePublished_plain :
    ∀ row ∈ sharedNamePublished.wspaceFiles, row.Plain := by
  rw [sharedNamePublished_wspaceFiles]
  decide

/-- Publishing and loading the file. -/
theorem loadFiles_publish_sharedName :
    (∃ row ∈ sharedNamePublished.wspaceFiles, ∃ r, row.id = 6 ∧
      row.name = "a.R" ∧
      sharedNamePublished.fm.filesById[(6 : ℤ)]? = some (some r) ∧
      row.version = (sharedNamePublished.fm.objects r).version ∧
      sharedNamePublished.disk["a.R"]? = some row.bindata) ∧
    ∃ loaded, loadFiles (Env.succeeding 1 0)
        (whereWspace (newReader sharedNamePublished).fm.wspaceId)
        (newReader sharedNamePublished) = (.returned (), loaded) ∧
      ∀ row ∈ sharedNamePublished.wspaceFiles, CachesRow loaded.fm row ∧
        (NamedAlone sharedNamePublished.wspaceFiles row →
          loaded.disk[row.name]? = some row.bindata) :=
  loadFiles_publish sharedName_publishable publish_sharedName
    (newReader_readerOf _) sharedNamePublished_plain rfl rfl

/-- Two rows of one name cannot both have their bytes in the directory. -/
theorem loadFiles_publish_fails_on_shared_name :
    ¬ ∀ (env env' : Env) (w w' reader : World) (fname : String)
      (rewrites : List Rewrite) (fileId : ℤ),
      Publishable env fname rewrites w →
      publish env fname rewrites w = (.returned fileId, w') →
      ReaderOf w' reader → (∀ row ∈ w'.wspaceFiles, row.Plain) →
      env'.fails .selectFiles = false → env'.fails .writeFile = false →
      ∃ loaded, loadFiles env' (whereWspace reader.fm.wspaceId) reader =
          (.returned (), loaded) ∧
        ∀ row ∈ w'.wspaceFiles, CachesRow loaded.fm row ∧
          loaded.disk[row.name]? = some row.bindata := by
  intro h
  obtain ⟨loaded, -, hall⟩ := h _ (Env.succeeding 1 0) _ _ _ _ _ _
    sharedName_publishable publish_sharedName (newReader_readerOf _)
    sharedNamePublished_plain rfl rfl
  rw [sharedNamePublished_wspaceFiles] at hall
  have hfirst : loaded.disk["a.R"]? = some [1] :=
    (hall ⟨5, 1, "a.R", 0, [1]⟩ (by simp)).2
  have hsecond : loaded.disk["a.R"]? = some [4] :=
    (hall ⟨6, 2, "a.R", 0, [4]⟩ (by simp)).2
  rw [hfirst] at hsecond
  exact absurd hsecond (by decide)

/-- A file modified in 2038 is inserted. -/
def lateInserted : World :=
  (publish { Env.succeeding 1 6 with mtime := 2 ^ 31 } "a.R" [] sharedName).2

/-- The modification times of the rows matter to every row: where one of them
does not fit its cast, nothing is loaded. -/
theorem loadFiles_publish_fails_on_late_file :
    ¬ ∀ (env env' : Env) (w w' reader : World) (fname : String)
      (rewrites : List Rewrite) (fileId : ℤ),
      Publishable env fname rewrites w →
      publish env fname rewrites w = (.returned fileId, w') →
      ReaderOf w' reader →
      (∀ row ∈ w'.wspaceFiles, 0 ≤ row.id ∧ row.id < 2 ^ 31 ∧
        0 ≤ row.version ∧ row.version < 2 ^ 31) →
      env'.fails .selectFiles = false → env'.fails .writeFile = false →
      ∃ loaded, loadFiles env' (whereWspace reader.fm.wspaceId) reader =
          (.returned (), loaded) ∧
        ∀ row ∈ w'.wspaceFiles, CachesRow loaded.fm row := by
  intro h
  have hrows : lateInserted.wspaceFiles =
      [⟨5, 1, "a.R", 0, [1]⟩, ⟨6, 1, "a.R", 2 ^ 31, [2, 3]⟩] := by decide
  obtain ⟨loaded, hrun, hall⟩ := h { Env.succeeding 1 6 with mtime := 2 ^ 31 }
    (Env.succeeding 1 0) sharedName lateInserted (newReader lateInserted)
    "a.R" [] 6
    { sharedName_publishable with rewrites := by simp }
    (Prod.ext (by decide) rfl) (newReader_readerOf _)
    (by rw [hrows]; decide) rfl rfl
  have hnone : (loadFiles (Env.succeeding 1 0)
      (whereWspace (newReader lateInserted).fm.wspaceId)
      (newReader lateInserted)).2.fm.filesById[(5 : ℤ)]? = none := by decide
  rw [hrun] at hnone
  obtain ⟨r, hr, -⟩ := hall ⟨5, 1, "a.R", 0, [1]⟩ (by rw [hrows]; simp)
  rw [hnone] at hr
  cases hr

end Rc2Compute.Files
