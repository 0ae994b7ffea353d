import Rc2Compute.Files.Replica

/-!
# The file code when nothing fails

Exact results of storing a changed file and of refreshing a cached one, when
every call to the outside succeeds.
-/

namespace Rc2Compute.Files

/-- The world after the file `r` has been stored with the bytes `data` and
the modification time `mtime`. -/
def World.stored (w : World) (r : ℕ) (mtime : ℤ) (data : Bytes) : World :=
  let info := w.fm.objects r
  let version := toInt32 (info.version + 1)
  let committed : Tables :=
    { w.db.committed with
      rcfile :=
        updatedRows w.db.committed.rcfile info.id version mtime data.length
      rcfiledata := w.db.committed.rcfiledata.modify info.id fun _ => data }
  { w.setObject r { info with version := version } with
    db := ⟨committed, none⟩ }

theorem byteaParam_of_lt {env : Env} {data : Bytes}
    (h : data.length < 2 ^ 31) : byteaParam env data = some data := by
  have hsize : toInt32 data.length = data.length :=
    toInt32_of_fits (by omega) (by exact_mod_cast h)
  simp [byteaParam, hsize]

theorem readFileBlob_succeeds {env : Env} (henv : env.Succeeds) {w : World}
    {path : String} {data : Bytes} (hdata : w.disk[path]? = some data) :
    readFileBlob env path w = (.returned data, w) := by
  rw [readFileBlob_of_opens (henv.calls _) hdata,
    Env.buffer_of_reads henv.reads]

theorem updateDBFile_succeeds {env : Env} (henv : env.Succeeds) {w : World}
    {r : ℕ} {data : Bytes}
    (hdisk : w.disk[(w.fm.objects r).path]? = some data)
    (hsize : data.length < 2 ^ 31) :
    updateDBFile env (some r) w = (.returned (), w.stored r env.mtime data) := by
  have hcontains : w.disk.contains (w.fm.objects r).path = true := by
    rw [Std.TreeMap.contains_eq_isSome_getElem?, hdisk]
    rfl
  simp [updateDBFile, Act.bind_apply, load_some, statFails, readFileBlob,
    withTransaction, beginTransaction, updateRows, executeQuery,
    commitTransaction, store_some, henv.calls _, hcontains, hdisk,
    Act.throwIf, Env.buffer_of_reads henv.reads, byteaParam_of_lt hsize,
    rollback, World.stored, updatedRows, World.setObject]

/-- The world after the row `row` has been loaded into the cached file
`r`. -/
def World.refreshed (w : World) (r : ℕ) (row : FetchedFile) : World :=
  (w.setObject r { w.fm.objects r with
    version := toUInt32 row.version
    name := row.name }).writeFile .loadFiles row.name row.bindata

/-- The message about a changed file, when the file is cached and its row can
be loaded. -/
theorem processUpdate_of_cached {env : Env} {w : World} {id : ℤ} {r : ℕ}
    {row : FetchedFile} (henv : env.Succeeds)
    (hr : w.fm.filesById[id]? = some (some r))
    (hfetch : w.db.committed.fetch id = some row)
    (hfits : row.fits = true) (hid : 0 ≤ id) :
    processUpdate env id w =
      (.returned (), (windowOpened w).refreshed r row) := by
  have hrow : row.id = id := Tables.fetch_id hfetch
  have hint : row.id < 2 ^ 31 := by
    simp only [FetchedFile.fits, fitsInt4, Bool.and_eq_true,
      decide_eq_true_eq] at hfits
    exact hfits.1.1.2
  have hpid : toUInt32 row.id = id := by
    rw [toUInt32_of_lt (hrow ▸ hid) (by omega), hrow]
  have hcontains : w.fm.filesById.contains id = true := by
    rw [Std.TreeMap.contains_eq_isSome_getElem?, hr]
    rfl
  have hloaded : loadedRow env (windowOpened w) id = some row := by
    simp [loadedRow, henv.calls _, hfetch, Option.filter, hfits]
  have hcached : (windowOpened w).fm.filesById[id]? = some (some r) := by
    rw [(windowOpened_keepsIndex w).byId, hr]
  have hrun := loadFiles_whereId env id (windowOpened w)
  rw [hloaded] at hrun
  simp only [processUpdate, Act.bind_apply, Act.get_apply, hcontains, if_true,
    ignoreFSNotifications_apply, hrun, loadFile, cacheFile, hpid, hcached,
    store_some, Act.modify_apply, henv.calls _]
  rfl

end Rc2Compute.Files
