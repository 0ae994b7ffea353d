import Rc2Compute.Files.Succeeding
import Mathlib.Data.Set.Finite.Lattice

/-!
# Writes that happen completely or not at all

Inserting a file, updating one and saving the workspace image are
transactions of several statements.  Whatever fails on the way, the tables and
the cache are left as they were; when the write goes through, the rows hold
what was read from the disk and the cache follows.  The exceptions are a
content whose length does not fit an `int`, a file whose reading breaks off,
and a name the driver cannot quote.
-/

namespace Rc2Compute.Files

/-! ## What the database promises -/

/-- The calls that go over the database connection. -/
def Call.onConnection : Call → Bool
  | .stat | .inotifyAddWatch | .readFile | .writeFile | .remove | .fileSize
  | .fileExists | .escapeLiteral => false
  | _ => true

/-- `begin` fails only on a dead connection, where every statement fails. -/
def Env.BeginsAlive (env : Env) : Prop :=
  env.fails .begin = true →
    ∀ call, call.onConnection = true → env.fails call = true

/-- Every call succeeds, save perhaps the quoting of a name. -/
def Env.Serves (env : Env) : Prop :=
  ∀ call, call ≠ .escapeLiteral → env.fails call = false

/-- Between operations no transaction is open, and the cached pointers are
those of allocated objects. -/
structure World.Settled (w : World) : Prop where
  idle : w.db.transaction = none
  allocated : ∀ (id : ℤ) r, w.fm.filesById[id]? = some (some r) →
    r < w.fm.nextObject

/-- The committed tables, the entries of the cache and all cached objects are
the same, and no transaction is open. -/
structure Untouched (w w' : World) : Prop where
  db : w'.db = ⟨w.db.committed, none⟩
  filesById : w'.fm.filesById = w.fm.filesById
  nextObject : w.fm.nextObject ≤ w'.fm.nextObject
  objects : ∀ r < w.fm.nextObject, w'.fm.objects r = w.fm.objects r
  wspaceId : w'.fm.wspaceId = w.fm.wspaceId

theorem Untouched.of_eq {w w' : World} (hdb : w'.db = ⟨w.db.committed, none⟩)
    (hfm : w'.fm = w.fm) : Untouched w w' := by
  constructor
  · exact hdb
  · rw [hfm]
  · rw [hfm]
  · intro r _
    rw [hfm]
  · rw [hfm]

/-! ## Inside a transaction -/

section open_transaction

variable {env : Env} {w : World} {t : Tables}
  {exn : CxxException → World → Prop}

/-- A statement of an open transaction changes the working copy or aborts the
transaction. -/
theorem wp_executeQuery_open {call : Call}
    {statement : Tables → Option Tables} {post : Bool → World → Prop}
    (h : w.db.transaction = some (some t))
    (hno : post false { w with db := { w.db with transaction := some none } })
    (hyes : ∀ t', env.fails call = false → statement t = some t' →
      post true { w with db :=
        { w.db with transaction := some (some t') } }) :
    Act.wp (executeQuery env call statement) post exn w := by
  cases hfails : env.fails call with
  | true => exact Act.wp_of_apply (by simp [executeQuery, h, hfails]) hno
  | false =>
      cases ht' : statement t with
      | none => exact Act.wp_of_apply (by simp [executeQuery, h, hfails, ht']) hno
      | some t' =>
          exact Act.wp_of_apply (by simp [executeQuery, h, hfails, ht'])
            (hyes t' hfails ht')

theorem wp_commitTransaction_open {post : Bool → World → Prop}
    (h : w.db.transaction = some (some t))
    (hno : env.fails .commit = true → post false w)
    (hyes : env.fails .commit = false → post true { w with db := ⟨t, none⟩ }) :
    Act.wp (commitTransaction env) post exn w := by
  cases hfails : env.fails .commit with
  | true =>
      exact Act.wp_of_apply (by simp [commitTransaction, hfails]) (hno hfails)
  | false =>
      exact Act.wp_of_apply (by simp [commitTransaction, hfails, h])
        (hyes hfails)

end open_transaction

/-- The world inside a transaction that has just begun. -/
def World.begun (w : World) : World :=
  { w with db := { w.db with transaction := some (some w.db.committed) } }

/-- The rule of a transaction: on a live connection the body starts inside
it, on a dead one it starts outside, and what is still open is rolled back. -/
theorem wp_withTransaction {α : Type} {env : Env} {body : Prog α}
    {post : α → World → Prop} {exn : CxxException → World → Prop} {w : World}
    (hlive : env.fails .begin = false →
      Act.wp body (fun a w' => post a (rollback w'))
        (fun e w' => exn e (rollback w')) w.begun)
    (hdead : env.fails .begin = true →
      Act.wp body (fun a w' => post a (rollback w'))
        (fun e w' => exn e (rollback w')) w) :
    Act.wp (withTransaction env body) post exn w := by
  rw [withTransaction, Act.wp_ensuring, Act.wp_bind, beginTransaction,
    Act.wp_modify]
  beta_reduce
  cases hbegin : env.fails .begin with
  | false => exact hlive hbegin
  | true => exact hdead hbegin

/-! ## Inserting a file -/

/-- The tables with a new file. -/
def Tables.withFile (t : Tables) (id wspaceId : ℤ) (fname : String)
    (size : ℕ) (mtime : ℤ) (bindata : Bytes) : Tables :=
  { t with
    rcfile := t.rcfile.insert id ⟨1, wspaceId, fname, size, mtime⟩
    rcfiledata := t.rcfiledata.insert id bindata }

/-- The world after `insertDBFile` has gone through for a file with the
content `data`, of which `bindata` reached the database. -/
def World.inserted (w : World) (env : Env) (fname : String)
    (data bindata : Bytes) : World :=
  let info : DBFileInfo :=
    { id := toUInt32 env.newId
      version := toUInt32 1
      name := fname
      path := fname
      watchDescriptor := env.uninitialised }
  { w with
    fm :=
      { w.fm with
        objects := Function.update w.fm.objects w.fm.nextObject info
        nextObject := w.fm.nextObject + 1
        filesById :=
          w.fm.filesById.insertIfNew env.newId (some w.fm.nextObject) }
    db := ⟨w.db.committed.withFile env.newId w.fm.wspaceId fname data.length
      env.mtime bindata, none⟩ }

/-- The statements either go through and commit or leave the transaction
open. -/
theorem insertRows_spec {env : Env} {fname : String} {fileId : ℤ} {w : World}
    {t : Tables}
    (hquoted : w.disk[fname]? ≠ none → env.fails .escapeLiteral = false)
    (h : w.db.transaction = some (some t)) :
    Act.wp (insertRows env fname fileId)
      (fun _ w' => ∃ data bindata, w.disk[fname]? = some data ∧
        byteaParam env (env.buffer data) = some bindata ∧
        t.rcfile[fileId]? = none ∧
        w' = { w with db := ⟨t.withFile fileId w.fm.wspaceId fname
          data.length env.mtime bindata, none⟩ })
      (fun _ w' => ∃ tr, w' = { w with db := { w.db with transaction := tr } })
      w := by
  have hfail : ∃ tr, w = { w with db := { w.db with transaction := tr } } :=
    ⟨w.db.transaction, rfl⟩
  rw [insertRows, Act.wp_bind, Act.wp_get]
  beta_reduce
  rw [Act.wp_bind, statFails, Act.wp_bind, Act.wp_get]
  beta_reduce
  rw [Act.wp_pure, Act.wp_bind, Act.wp_throwIf]
  refine ⟨fun _ => hfail, fun _ => ?_⟩
  rw [Act.wp_bind]
  refine wp_readFileBlob (fun _ _ => hfail) fun data _ hdata => ?_
  have hquoted := hquoted (by simp [hdata])
  rw [Act.wp_bind]
  refine Act.wp_of_apply (escapeLiteral_apply hquoted fname w) ?_
  rw [Env.length_buffer, Act.wp_bind]
  refine wp_executeQuery_open h ?_ ?_
  · rw [Act.wp_bind, Act.wp_throwIf]
    exact ⟨fun _ => ⟨_, rfl⟩, fun hno => absurd rfl hno⟩
  intro t₁ _ ht₁
  split at ht₁
  next => cases ht₁
  next hnew =>
    obtain rfl := Option.some.inj ht₁
    have hnone : t.rcfile[fileId]? = none := by
      rw [← Option.not_isSome_iff_eq_none,
        ← Std.TreeMap.contains_eq_isSome_getElem?]
      exact hnew
    rw [Act.wp_bind, Act.wp_throwIf]
    refine ⟨fun hno => absurd hno (by decide), fun _ => ?_⟩
    rw [Act.wp_bind]
    refine wp_executeQuery_open rfl ?_ ?_
    · rw [Act.wp_bind, Act.wp_throwIf]
      exact ⟨fun _ => ⟨_, rfl⟩, fun hno => absurd rfl hno⟩
    intro t₂ _ ht₂
    split at ht₂
    next => cases ht₂
    next =>
      obtain ⟨bindata, hbindata, rfl⟩ := Option.map_eq_some_iff.mp ht₂
      rw [Act.wp_bind, Act.wp_throwIf]
      refine ⟨fun hno => absurd hno (by decide), fun _ => ?_⟩
      rw [Act.wp_bind]
      refine wp_commitTransaction_open rfl ?_ ?_
      · intro _
        rw [Act.wp_throwIf]
        exact ⟨fun _ => ⟨_, rfl⟩, fun hno => absurd rfl hno⟩
      · intro _
        rw [Act.wp_throwIf]
        exact ⟨fun hno => absurd hno (by decide),
          fun _ => ⟨data, bindata, hdata, hbindata, hnone, rfl⟩⟩

theorem insertDBFile_spec {env : Env} {fname : String} {w : World}
    (hquoted : w.disk[fname]? ≠ none → env.fails .escapeLiteral = false)
    (hbegin : env.BeginsAlive) :
    Act.wp (insertDBFile env fname)
      (fun id w' => id = env.newId ∧ ∃ data bindata,
        w.disk[fname]? = some data ∧
        byteaParam env (env.buffer data) = some bindata ∧
        w.db.committed.rcfile[env.newId]? = none ∧
        w' = w.inserted env fname data bindata)
      (fun _ w' => Untouched w w') w := by
  rw [insertDBFile]
  refine wp_withTransaction (fun _ => ?_) fun hdead => ?_
  · rw [Act.wp_bind]
    refine wp_longFromQuery (fun _ e => Untouched.of_eq rfl rfl) fun _ => ?_
    rw [Act.wp_bind]
    refine Act.wp_of_apply rfl ?_
    rw [Act.wp_bind]
    refine (insertRows_spec (by exact hquoted) rfl).mono ?_ ?_
    · rintro _ _ ⟨data, bindata, hdata, hbindata, hnone, rfl⟩
      rw [Act.wp_bind, Act.wp_modify, Act.wp_pure]
      exact ⟨rfl, data, bindata, hdata, hbindata, hnone, rfl⟩
    · rintro _ _ ⟨tr, rfl⟩
      refine ⟨rfl, rfl, Nat.le_succ _, fun r hr => ?_, rfl⟩
      exact Function.update_of_ne hr.ne _ _
  · rw [Act.wp_bind]
    refine wp_longFromQuery (fun _ e => ?_) fun halive => ?_
    · exact Untouched.of_eq rfl rfl
    · have := hbegin hdead .nextval rfl
      rw [this] at halive
      cases halive

/-- All is the same but the open transaction and the objects that are new. -/
structure Unstored (w w' : World) : Prop where
  committed : w'.db.committed = w.db.committed
  filesById : w'.fm.filesById = w.fm.filesById
  nextObject : w.fm.nextObject ≤ w'.fm.nextObject
  objects : ∀ r < w.fm.nextObject, w'.fm.objects r = w.fm.objects r
  wspaceId : w'.fm.wspaceId = w.fm.wspaceId

instance : Std.Refl Unstored where
  refl _ := ⟨rfl, rfl, le_rfl, fun _ _ => rfl, rfl⟩

instance : IsTrans World Unstored where
  trans _ _ _ h h' :=
    ⟨h'.committed.trans h.committed, h'.filesById.trans h.filesById,
      h.nextObject.trans h'.nextObject,
      fun r hr => (h'.objects r (hr.trans_le h.nextObject)).trans
        (h.objects r hr), h'.wspaceId.trans h.wspaceId⟩

/-- Where the driver cannot quote the name, nothing is inserted. -/
theorem insertDBFile_untouched {env : Env}
    (h : env.fails .escapeLiteral = true) (fname : String) (w : World) :
    Untouched w (insertDBFile env fname w).2 := by
  have hbegin : Act.Keeps Unstored (beginTransaction env) := by
    refine Act.Keeps.modify fun w => ?_
    split
    · exact Std.Refl.refl w
    · exact ⟨rfl, rfl, le_rfl, fun _ _ => rfl, rfl⟩
  have hcreated : ∀ id,
      Act.Keeps Unstored (newDBFileInfo env id 1 fname) := fun id w =>
    ⟨rfl, rfl, Nat.le_succ _, fun _ hr => Function.update_of_ne hr.ne _ _, rfl⟩
  have hbody : ∀ f : DBFileInfoPtr → ℤ → Unit → Prog ℤ,
      Act.Keeps Unstored (do
        beginTransaction env
        let fileId ← longFromQuery env .nextval env.newId
        let fobj ← newDBFileInfo env fileId 1 fname
        let done ← insertRows env fname fileId
        f fobj fileId done) := fun f =>
    hbegin.bind fun _ => (longFromQuery_keeps env _ _).bind fun _ =>
      (hcreated _).bind fun _ =>
        (insertRows_keeps_of_unquotable h fname _).bind_of_stops
          (insertRows_stops_of_unquotable h fname _) _
  have hkept := hbody (fun fobj fileId _ => do
    Act.modify fun w =>
      { w with fm :=
        { w.fm with filesById := w.fm.filesById.insertIfNew fileId fobj } }
    pure fileId) w
  exact ⟨congrArg (Database.mk · none) hkept.committed, hkept.filesById,
    hkept.nextObject, hkept.objects, hkept.wspaceId⟩

/-! ## Updating a file -/

/-- The world after `updateDBFile` has gone through for the file `r` with the
content `data`, of which `bindata` reached the database. -/
def World.updated (w : World) (r : ℕ) (mtime : ℤ) (data bindata : Bytes) :
    World :=
  let info := w.fm.objects r
  let version := toInt32 (info.version + 1)
  let committed : Tables :=
    { w.db.committed with
      rcfile :=
        updatedRows w.db.committed.rcfile info.id version mtime data.length
      rcfiledata :=
        w.db.committed.rcfiledata.modify info.id fun _ => bindata }
  { w.setObject r { info with version := version } with
    db := ⟨committed, none⟩ }

theorem updateRows_spec {env : Env} {id newVersion : ℤ} {data : Bytes}
    {w : World} {t : Tables} (h : w.db.transaction = some (some t)) :
    Act.wp (updateRows env id newVersion data)
      (fun _ w' => ∃ bindata, byteaParam env data = some bindata ∧
        w' = { w with db :=
          ⟨{ t with
            rcfile := updatedRows t.rcfile id newVersion env.mtime data.length
            rcfiledata := t.rcfiledata.modify id fun _ => bindata }, none⟩ })
      (fun _ w' => ∃ tr, w' = { w with db := { w.db with transaction := tr } })
      w := by
  rw [updateRows, Act.wp_bind]
  refine wp_executeQuery_open h ?_ ?_
  · rw [Act.wp_bind, Act.wp_throwIf]
    exact ⟨fun _ => ⟨_, rfl⟩, fun hno => absurd rfl hno⟩
  intro t₁ _ ht₁
  obtain rfl := Option.some.inj ht₁
  rw [Act.wp_bind, Act.wp_throwIf]
  refine ⟨fun hno => absurd hno (by decide), fun _ => ?_⟩
  rw [Act.wp_bind]
  refine wp_executeQuery_open rfl ?_ ?_
  · rw [Act.wp_bind, Act.wp_throwIf]
    exact ⟨fun _ => ⟨_, rfl⟩, fun hno => absurd rfl hno⟩
  intro t₂ _ ht₂
  obtain ⟨bindata, hbindata, rfl⟩ := Option.map_eq_some_iff.mp ht₂
  rw [Act.wp_bind, Act.wp_throwIf]
  refine ⟨fun hno => absurd hno (by decide), fun _ => ?_⟩
  rw [Act.wp_bind]
  refine wp_commitTransaction_open rfl ?_ ?_
  · intro _
    rw [Act.wp_throwIf]
    exact ⟨fun _ => ⟨_, rfl⟩, fun hno => absurd rfl hno⟩
  · intro _
    rw [Act.wp_throwIf]
    exact ⟨fun hno => absurd hno (by decide), fun _ => ⟨bindata, hbindata, rfl⟩⟩

theorem updateDBFile_spec {env : Env} {r : ℕ} {w : World}
    (hidle : w.db.transaction = none) (hbegin : env.BeginsAlive) :
    Act.wp (updateDBFile env (some r))
      (fun _ w' => ∃ data bindata,
        w.disk[(w.fm.objects r).path]? = some data ∧
        byteaParam env (env.buffer data) = some bindata ∧
        w' = w.updated r env.mtime data bindata)
      (fun _ w' => Untouched w w') w := by
  have hsame : Untouched w w := by
    refine Untouched.of_eq ?_ rfl
    rw [← hidle]
  rw [updateDBFile, Act.wp_bind]
  refine Act.wp_of_apply (load_some r w) ?_
  rw [Act.wp_bind, statFails, Act.wp_bind, Act.wp_get]
  beta_reduce
  rw [Act.wp_pure, Act.wp_bind, Act.wp_throwIf]
  refine ⟨fun _ => hsame, fun _ => ?_⟩
  rw [Act.wp_bind]
  refine wp_readFileBlob (fun _ _ => hsame) fun data _ hdata => ?_
  refine wp_withTransaction (fun _ => ?_) fun hdead => ?_
  · rw [Act.wp_bind]
    refine (updateRows_spec rfl).mono ?_ ?_
    · rintro _ _ ⟨bindata, hbindata, rfl⟩
      refine Act.wp_of_apply (store_some r _ _) ?_
      rw [Env.length_buffer]
      exact ⟨data, bindata, hdata, hbindata, rfl⟩
    · rintro _ _ ⟨tr, rfl⟩
      exact Untouched.of_eq rfl rfl
  · have hfails := hbegin hdead .updateFile rfl
    rw [Act.wp_bind, updateRows, Act.wp_bind]
    refine wp_executeQuery_idle hidle ?_ fun _ halive _ => ?_
    · rw [Act.wp_bind, Act.wp_throwIf]
      exact ⟨fun _ => Untouched.of_eq rfl rfl, fun hno => absurd rfl hno⟩
    · rw [hfails] at halive
      cases halive

/-! ## Saving the workspace image -/

theorem wp_lockTable {env : Env} {w : World} {t : Tables}
    {post : Bool → World → Prop} {exn : CxxException → World → Prop}
    (h : w.db.transaction = some (some t))
    (hno : env.fails .lockTable = true →
      post false { w with db := { w.db with transaction := some none } })
    (hyes : env.fails .lockTable = false → post true w) :
    Act.wp (lockTable env) post exn w := by
  have hlock : lockTable env w = executeQuery env .lockTable some w := by
    rw [lockTable, h]
  cases hfails : env.fails .lockTable with
  | true =>
      refine Act.wp_of_apply ?_ (hno hfails)
      rw [hlock]
      simp [executeQuery, h, hfails]
  | false =>
      refine Act.wp_of_apply ?_ (hyes hfails)
      have hsame : { w with db :=
          { w.db with transaction := some (some t) } } = w := by
        rw [← h]
      rw [hlock]
      simp [executeQuery, h, hfails, hsame]

/-- `saveRData` returns early without a file to save and without the lock. -/
def skipsSave (env : Env) (w : World) : Prop :=
  w.disk[rdataFile]? = none ∨ env.fails .begin = true ∨
    env.fails .lockTable = true

/-- The world with `bindata` as the image of the workspace. -/
def World.Saved (w w' : World) (bindata : Bytes) : Prop :=
  ∃ images : Map ℤ Bytes,
    (∀ id : ℤ, images[id]? = if w.fm.wspaceId = id then some bindata
      else w.db.committed.rcworkspacedata[id]?) ∧
    w' = { w with db :=
      ⟨{ w.db.committed with rcworkspacedata := images }, none⟩ }

theorem saveRows_spec {env : Env} {data : Bytes} {w : World} {t : Tables}
    (h : w.db.transaction = some (some t)) :
    Act.wp (saveRows env data)
      (fun _ w' => ∃ bindata images, byteaParam env data = some bindata ∧
        (∀ id : ℤ, images[id]? = if w.fm.wspaceId = id then some bindata
          else t.rcworkspacedata[id]?) ∧
        w' = { w with db := ⟨{ t with rcworkspacedata := images }, none⟩ })
      (fun _ w' => ∃ tr, w' = { w with db := { w.db with transaction := tr } })
      w := by
  have hvisible : w.db.visible = t := by
    rw [Database.visible, h]
  rw [saveRows, Act.wp_bind, Act.wp_get]
  beta_reduce
  rw [hvisible, Act.wp_bind]
  refine wp_executeQuery_open h ?_ ?_
  · rw [Act.wp_bind, Act.wp_throwIf]
    exact ⟨fun _ => ⟨_, rfl⟩, fun hno => absurd rfl hno⟩
  intro t₁ _ ht₁
  obtain ⟨bindata, hbindata, rfl⟩ := Option.map_eq_some_iff.mp ht₁
  rw [Act.wp_bind, Act.wp_throwIf]
  refine ⟨fun hno => absurd hno (by decide), fun _ => ?_⟩
  cases hrow : t.rcworkspacedata[w.fm.wspaceId]? with
  | some old =>
      have hcontains : t.rcworkspacedata.contains w.fm.wspaceId = true := by
        rw [Std.TreeMap.contains_eq_isSome_getElem?, hrow]
        rfl
      rw [if_neg (by rw [hcontains]; decide), Act.wp_bind]
      refine wp_commitTransaction_open rfl ?_ ?_
      · intro _
        rw [Act.wp_throwIf]
        exact ⟨fun _ => ⟨_, rfl⟩, fun hno => absurd rfl hno⟩
      · intro _
        rw [Act.wp_throwIf]
        refine ⟨fun hno => absurd hno (by decide),
          fun _ => ⟨bindata, _, hbindata, fun id => ?_, rfl⟩⟩
        rw [Map.getElem?_modify]
        split
        next heq => rw [← heq, hrow, Option.map_some]
        next => rfl
  | none =>
      have hcontains : t.rcworkspacedata.contains w.fm.wspaceId = false := by
        rw [Std.TreeMap.contains_eq_isSome_getElem?, hrow]
        rfl
      rw [if_pos (by rw [hcontains]; decide), Act.wp_bind]
      refine wp_executeQuery_open rfl ?_ ?_
      · rw [Act.wp_bind, Act.wp_throwIf]
        exact ⟨fun _ => ⟨_, rfl⟩, fun hno => absurd rfl hno⟩
      intro t₂ _ ht₂
      split at ht₂
      next => cases ht₂
      next =>
        obtain ⟨bindata', hbindata', rfl⟩ := Option.map_eq_some_iff.mp ht₂
        obtain rfl : bindata = bindata' :=
          Option.some.inj (hbindata.symm.trans hbindata')
        rw [Act.wp_bind, Act.wp_throwIf]
        refine ⟨fun hno => absurd hno (by decide), fun _ => ?_⟩
        beta_reduce
        rw [Act.wp_bind]
        refine wp_commitTransaction_open rfl ?_ ?_
        · intro _
          rw [Act.wp_throwIf]
          exact ⟨fun _ => ⟨_, rfl⟩, fun hno => absurd rfl hno⟩
        · intro _
          rw [Act.wp_throwIf]
          refine ⟨fun hno => absurd hno (by decide),
            fun _ => ⟨bindata, _, hbindata, fun id => ?_, rfl⟩⟩
          rw [Map.getElem?_insert, Map.getElem?_modify]
          split
          · rfl
          · rfl

theorem saveRData_spec {env : Env} {w : World}
    (hidle : w.db.transaction = none) :
    Act.wp (saveRData env)
      (fun _ w' => (skipsSave env w ∧ w' = w) ∨
        ¬skipsSave env w ∧ ∃ data bindata, w.disk[rdataFile]? = some data ∧
          byteaParam env (env.buffer data) = some bindata ∧
          w.Saved w' bindata)
      (fun _ w' => Untouched w w') w := by
  have hrolled : rollback w = w := by
    rw [rollback, ← hidle]
  have hsame : Untouched w w := by
    refine Untouched.of_eq ?_ rfl
    rw [← hidle]
  rw [saveRData, Act.wp_bind, Act.wp_get]
  beta_reduce
  rw [Act.wp_bind, Act.wp_throwIf]
  refine ⟨fun _ => hsame, fun _ => ?_⟩
  cases hdisk : w.disk[rdataFile]? with
  | none =>
      have hcontains : w.disk.contains rdataFile = false := by
        rw [Std.TreeMap.contains_eq_isSome_getElem?, hdisk]
        rfl
      rw [hcontains, if_neg (by decide), Act.wp_pure]
      exact Or.inl ⟨Or.inl hdisk, rfl⟩
  | some data =>
      have hcontains : w.disk.contains rdataFile = true := by
        rw [Std.TreeMap.contains_eq_isSome_getElem?, hdisk]
        rfl
      rw [hcontains, if_pos rfl, Act.wp_bind]
      refine wp_readFileBlob (fun _ _ => hsame) fun data' _ hdata => ?_
      refine wp_withTransaction (fun halive => ?_) fun hdead => ?_
      · rw [Act.wp_bind]
        refine wp_lockTable rfl (fun hlock => ?_) fun hlock => ?_
        · rw [if_neg (by decide), Act.wp_pure]
          exact Or.inl ⟨Or.inr (Or.inr hlock), hrolled⟩
        · rw [if_pos rfl]
          refine (saveRows_spec rfl).mono ?_ ?_
          · rintro _ _ ⟨bindata, images, hbindata, himages, rfl⟩
            refine Or.inr ⟨?_, data, bindata, rfl, ?_, images, himages, rfl⟩
            · rintro (hnone | hbegin | hnolock)
              · rw [hdisk] at hnone
                cases hnone
              · rw [halive] at hbegin
                cases hbegin
              · rw [hlock] at hnolock
                cases hnolock
            · rw [hdisk] at hdata
              rw [Option.some.inj hdata]
              exact hbindata
          · rintro _ _ ⟨tr, rfl⟩
            exact Untouched.of_eq rfl rfl
      · have hlock : lockTable env w = (.returned false, w) := by
          rw [lockTable, hidle]
        rw [Act.wp_bind]
        refine Act.wp_of_apply hlock ?_
        rw [if_neg (by decide), Act.wp_pure]
        exact Or.inl ⟨Or.inr (Or.inl hdead), hrolled⟩

/-! ## When every call succeeds -/

section succeeds

variable {env : Env} {w : World} {data bindata : Bytes}

theorem contains_of_getElem? {κ ν : Type} [Ord κ] [Std.TransOrd κ]
    {m : Map κ ν} {k : κ} {v : ν} (h : m[k]? = some v) :
    m.contains k = true := by
  rw [Std.TreeMap.contains_eq_isSome_getElem?, h]
  rfl

theorem not_mem_of_getElem? {κ ν : Type} [Ord κ] [Std.TransOrd κ]
    {m : Map κ ν} {k : κ} (h : m[k]? = none) : k ∉ m := by
  rw [Std.TreeMap.mem_iff_isSome_getElem?, h]
  exact Bool.false_ne_true

theorem insertDBFile_succeeds {fname : String} (hcalls : env.Serves)
    (hquoted : env.fails .escapeLiteral = false)
    (hdisk : w.disk[fname]? = some data)
    (hbindata : byteaParam env (env.buffer data) = some bindata)
    (hfile : w.db.committed.rcfile[env.newId]? = none)
    (hdata : w.db.committed.rcfiledata[env.newId]? = none) :
    insertDBFile env fname w =
      (.returned env.newId, w.inserted env fname data bindata) := by
  have hcontains : w.disk.contains fname = true := contains_of_getElem? hdisk
  have hnofile := not_mem_of_getElem? hfile
  have hnodata := not_mem_of_getElem? hdata
  simp [insertDBFile, withTransaction, beginTransaction, longFromQuery,
    newDBFileInfo, insertRows, statFails, readFileBlob, escapeLiteral,
    executeQuery, commitTransaction, Act.bind_apply, Act.throwIf, rollback,
    hquoted, hcalls .begin, hcalls .nextval, hcalls .stat, hcalls .readFile,
    hcalls .insertFile, hcalls .insertFileData, hcalls .commit, hcontains,
    hdisk, hnofile, hnodata, hbindata, World.inserted, Tables.withFile]

/-- A name the driver cannot quote ends the process, when the calls before
succeed. -/
theorem insertDBFile_undefined {fname : String}
    (hunquoted : env.fails .escapeLiteral = true)
    (hcalls : env.Serves)
    (hdisk : w.disk[fname]? = some data) :
    (insertDBFile env fname w).1 = .undefined := by
  have hcontains : w.disk.contains fname = true := contains_of_getElem? hdisk
  simp [insertDBFile, withTransaction, beginTransaction, longFromQuery,
    newDBFileInfo, insertRows, statFails, readFileBlob, escapeLiteral,
    Act.bind_apply, Act.throwIf, hunquoted, hcalls .begin, hcalls .nextval,
    hcalls .stat, hcalls .readFile, hcontains, hdisk]

theorem updateDBFile_updates {r : ℕ} (hcalls : env.Serves)
    (hdisk : w.disk[(w.fm.objects r).path]? = some data)
    (hbindata : byteaParam env (env.buffer data) = some bindata) :
    updateDBFile env (some r) w =
      (.returned (), w.updated r env.mtime data bindata) := by
  have hcontains : w.disk.contains (w.fm.objects r).path = true :=
    contains_of_getElem? hdisk
  simp [updateDBFile, Act.bind_apply, load_some, statFails, readFileBlob,
    withTransaction, beginTransaction, updateRows, executeQuery,
    commitTransaction, store_some, hcalls .stat, hcalls .readFile,
    hcalls .begin, hcalls .updateFile, hcalls .updateFileData, hcalls .commit,
    hcontains, hdisk, Act.throwIf, hbindata, rollback, World.updated,
    updatedRows, World.setObject]

theorem saveRData_succeeds (hcalls : env.Serves)
    (hdisk : w.disk[rdataFile]? = some data)
    (hbindata : byteaParam env (env.buffer data) = some bindata) :
    (saveRData env w).1 = .returned () := by
  have hread := readFileBlob_of_opens (hcalls .readFile (by decide)) hdisk
  rw [saveRData, Act.bind_apply_returned (Act.get_apply w),
    Act.bind_apply_returned
      (Act.throwIf_apply_of_not (by simp [hcalls .fileExists]) _ _),
    if_pos (contains_of_getElem? hdisk), Act.bind_apply_returned hread]
  by_cases hrow : w.fm.wspaceId ∈ w.db.committed.rcworkspacedata
  · simp [Act.bind_apply, Act.throwIf, hcalls .begin, hcalls .lockTable,
      hcalls .updateWorkspaceData, hcalls .commit, withTransaction,
      beginTransaction, lockTable, executeQuery, saveRows, Database.visible,
      hbindata, hrow, commitTransaction]
  · have hrow' : w.fm.wspaceId ∉
        w.db.committed.rcworkspacedata.modify w.fm.wspaceId
          (fun _ => bindata) := by
      rwa [Std.TreeMap.mem_modify]
    simp [Act.bind_apply, Act.throwIf, hcalls .begin, hcalls .lockTable,
      hcalls .updateWorkspaceData, hcalls .insertWorkspaceData,
      hcalls .commit, withTransaction, beginTransaction, lockTable,
      executeQuery, saveRows, Database.visible, hbindata, hrow, hrow',
      commitTransaction]

end succeeds

/-! ## What reaches the database -/

theorem toInt32_bounds (x : ℤ) : -2 ^ 31 ≤ toInt32 x ∧ toInt32 x < 2 ^ 31 := by
  constructor
  · exact Int.le_bmod (by decide)
  · exact Int.bmod_lt (by decide)

/-- The reading of a file, if it breaks off, does so behind its end. -/
def ReadsWhole (stops : Option ℕ) (data : Bytes) : Prop :=
  ∀ n ∈ stops, data.length ≤ n

theorem readsWhole_none (data : Bytes) : ReadsWhole none data := by
  rintro n ⟨⟩

theorem Env.buffer_of_readsWhole {env : Env} {data : Bytes}
    (h : ReadsWhole env.readStops data) : env.buffer data = data := by
  cases hstops : env.readStops with
  | none => exact env.buffer_of_reads hstops data
  | some n =>
      have hle : data.length ≤ n := h n hstops
      simp [Env.buffer, hstops, List.take_of_length_le hle,
        List.drop_eq_nil_of_le, hle]

/-- The outside that serves every call, save perhaps the quoting of a name:
where reading breaks off the buffer keeps what is in the memory, and a
negative length stores nothing of a content. -/
def Env.serving (id : ℤ) (stops : Option ℕ) (unquotable : Bool)
    (memory : ℕ → UInt8) : Env :=
  { Env.succeeding 0 id with
    fails := fun call => unquotable && call == .escapeLiteral
    memory := memory
    readStops := stops
    negativeLength := fun _ => some [] }

theorem Env.serving_serves (id : ℤ) (stops : Option ℕ) (unquotable : Bool)
    (memory : ℕ → UInt8) : (Env.serving id stops unquotable memory).Serves := by
  intro call hne
  simp [Env.serving, hne]

/-- Of a content that is not read whole, or whose length does not fit an
`int`, something else may reach the database. -/
theorem exists_byteaParam_ne {stops : Option ℕ} {data : Bytes}
    (h : ¬(ReadsWhole stops data ∧ data.length < 2 ^ 31)) (id : ℤ)
    (unquotable : Bool) :
    ∃ memory bindata,
      byteaParam (Env.serving id stops unquotable memory)
        ((Env.serving id stops unquotable memory).buffer data) =
          some bindata ∧ bindata ≠ data := by
  by_cases hlong : data.length < 2 ^ 31
  · have hstops : ∃ n ∈ stops, n < data.length := by
      by_contra hnone
      exact h ⟨fun n hn => not_lt.mp fun hlt => hnone ⟨n, hn, hlt⟩, hlong⟩
    obtain ⟨n, rfl, hlt⟩ := hstops
    refine ⟨fun _ => data[n] + 1, _, byteaParam_of_lt (by simpa using hlong),
      fun heq => ?_⟩
    have hbyte := congrArg (fun bytes => bytes[n]?) heq
    have hlen : (data.take n).length = n := by
      rw [List.length_take]
      omega
    simp [Env.buffer, Env.serving, hlen, hlt] at hbyte
  · refine ⟨fun _ => 0, ?_⟩
    have hnil : ([] : Bytes) ≠ data := by
      rintro rfl
      exact hlong (by decide)
    rw [byteaParam, Env.length_buffer]
    by_cases hsize : toInt32 data.length < 0
    · exact ⟨[], if_pos hsize, hnil⟩
    · refine ⟨_, if_neg hsize, fun heq => ?_⟩
      have hlength := congrArg List.length heq
      rw [List.length_take] at hlength
      have := (toInt32_bounds data.length).2
      omega

/-! ## The three writes -/

/-- A write of the session to its workspace. -/
inductive DBWrite where
  | insertDBFile (fname : String)
  | updateDBFile (file : ℕ)
  | saveRData

namespace DBWrite

def run (env : Env) : DBWrite → Prog Unit
  | .insertDBFile fname => do
      let _ ← Files.insertDBFile env fname
      pure ()
  | .updateDBFile file => Files.updateDBFile env (some file)
  | .saveRData => Files.saveRData env

/-- The file whose bytes are written. -/
def source (w : World) : DBWrite → String
  | .insertDBFile fname => fname
  | .updateDBFile file => (w.fm.objects file).path
  | .saveRData => rdataFile

/-- An update is of a row that exists. -/
def OnExistingRow (w : World) : DBWrite → Prop
  | .updateDBFile file =>
      w.db.committed.rcfile[(w.fm.objects file).id]? ≠ none ∧
        w.db.committed.rcfiledata[(w.fm.objects file).id]? ≠ none
  | _ => True

/-- The write returns without having written. -/
def ReturnsEarly (env : Env) (w : World) : DBWrite → Prop
  | .saveRData => skipsSave env w
  | _ => False

/-- The rows hold the bytes `data` and their length, and the cached version is
that of the row. -/
def Stored (env : Env) (w w' : World) (data : Bytes) : DBWrite → Prop
  | .insertDBFile _ => ∃ row r,
      w'.db.committed.rcfile[env.newId]? = some row ∧
        row.filesize = data.length ∧
        w'.db.committed.rcfiledata[env.newId]? = some data ∧
        w'.fm.filesById[env.newId]? = some (some r) ∧
        (w'.fm.objects r).version = row.version ∧ row.version = 1
  | .updateDBFile file => ∃ row,
      w'.db.committed.rcfile[(w.fm.objects file).id]? = some row ∧
        row.filesize = data.length ∧
        w'.db.committed.rcfiledata[(w.fm.objects file).id]? = some data ∧
        (w'.fm.objects file).version = row.version ∧
        row.version = (w.fm.objects file).version + 1
  | .saveRData =>
      w'.db.committed.rcworkspacedata[w.fm.wspaceId]? = some data

/-- The tables of the workspace, the entries of the cache and the cached
versions are the same. -/
structure Unchanged (w w' : World) : Prop where
  rcfile : w'.db.committed.rcfile = w.db.committed.rcfile
  rcfiledata : w'.db.committed.rcfiledata = w.db.committed.rcfiledata
  rcworkspacedata :
    w'.db.committed.rcworkspacedata = w.db.committed.rcworkspacedata
  filesById : w'.fm.filesById = w.fm.filesById
  version : ∀ (id : ℤ) r, w.fm.filesById[id]? = some (some r) →
    (w'.fm.objects r).version = (w.fm.objects r).version

/-- A write that throws or returns early changes nothing, one that completes
has stored what is on the disk, and no transaction stays open. -/
def AllOrNothing (env : Env) (w : World) (op : DBWrite) : Prop :=
  Act.wp (op.run env)
    (fun _ w' => w'.db.transaction = none ∧
      (op.ReturnsEarly env w ∧ Unchanged w w' ∨
        ¬op.ReturnsEarly env w ∧ ∃ data,
          w.disk[op.source w]? = some data ∧ op.Stored env w w' data))
    (fun _ w' => w'.db.transaction = none ∧ Unchanged w w') w

/-- The content is read to its end and its length fits an `int`; the name of a
new file can be quoted, and the next version of a file to be updated fits an
`int`. -/
def Fits (stops : Option ℕ) (unquotable : Bool) (w : World)
    (op : DBWrite) : Prop :=
  ∀ data, w.disk[op.source w]? = some data →
    (ReadsWhole stops data ∧ data.length < 2 ^ 31) ∧
    match op with
    | .insertDBFile _ => unquotable = false
    | .updateDBFile file =>
        -2 ^ 31 ≤ (w.fm.objects file).version + 1 ∧
          (w.fm.objects file).version + 1 < 2 ^ 31
    | .saveRData => True

/-- What a completed write has stored when the condition holds. -/
theorem allOrNothing_of_fits {env : Env} {w : World} {op : DBWrite}
    (hw : w.Settled) (hrow : op.OnExistingRow w) (hbegin : env.BeginsAlive)
    (hfresh : w.fm.filesById[env.newId]? = none)
    (hfits : op.Fits env.readStops (env.fails .escapeLiteral) w) :
    AllOrNothing env w op := by
  have hunchanged : ∀ w', Untouched w w' →
      w'.db.transaction = none ∧ Unchanged w w' := by
    intro w' h
    refine ⟨by rw [h.db], by rw [h.db], by rw [h.db], by rw [h.db],
      h.filesById, fun id r hr => ?_⟩
    rw [h.objects r (hw.allocated id r hr)]
  have hparam : ∀ {data bindata : Bytes},
      ReadsWhole env.readStops data ∧ data.length < 2 ^ 31 →
        byteaParam env (env.buffer data) = some bindata → data = bindata := by
    rintro data bindata ⟨hwhole, hlt⟩ hbindata
    rw [Env.buffer_of_readsWhole hwhole, byteaParam_of_lt hlt] at hbindata
    exact Option.some.inj hbindata
  cases op with
  | insertDBFile fname =>
      have hquoted : w.disk[fname]? ≠ none →
          env.fails .escapeLiteral = false := by
        intro hdisk
        obtain ⟨data, hdata⟩ := Option.ne_none_iff_exists'.mp hdisk
        exact (hfits data hdata).2
      rw [AllOrNothing, run, Act.wp_bind]
      refine (insertDBFile_spec hquoted hbegin).mono ?_
        fun _ w' h => hunchanged w' h
      rintro id w' ⟨rfl, data, bindata, hdata, hbindata, hnone, rfl⟩
      obtain rfl := hparam (hfits data hdata).1 hbindata
      refine ⟨rfl, Or.inr ⟨not_false, data, hdata,
        ⟨1, w.fm.wspaceId, fname, data.length, env.mtime⟩, w.fm.nextObject,
        Map.getElem?_insert_self _ _ _, rfl, Map.getElem?_insert_self _ _ _,
        ?_, ?_, rfl⟩⟩
      · exact (Map.getElem?_insertIfNew_of_none _ _ hfresh).trans (if_pos rfl)
      · change (Function.update w.fm.objects w.fm.nextObject _
          w.fm.nextObject).version = 1
        rw [Function.update_self]
        exact toUInt32_of_lt (by decide) (by decide)
  | updateDBFile file =>
      refine (updateDBFile_spec hw.idle hbegin).mono ?_ fun _ w' h =>
        hunchanged w' h
      rintro _ w' ⟨data, bindata, hdata, hbindata, rfl⟩
      obtain ⟨hwhole, hlo, hhi⟩ := hfits data hdata
      obtain rfl := hparam hwhole hbindata
      obtain ⟨hfile, hold⟩ := hrow
      obtain ⟨row, hrow⟩ := Option.ne_none_iff_exists'.mp hfile
      obtain ⟨old, hold⟩ := Option.ne_none_iff_exists'.mp hold
      have hnext : toInt32 ((w.fm.objects file).version + 1) =
          (w.fm.objects file).version + 1 := toInt32_of_fits hlo hhi
      refine ⟨rfl, Or.inr ⟨not_false, data, hdata,
        { row with
          version := toInt32 ((w.fm.objects file).version + 1)
          lastmodified := env.mtime
          filesize := data.length }, ?_, rfl, ?_, ?_, hnext⟩⟩
      · change (updatedRows _ _ _ _ _)[_]? = _
        rw [updatedRows, Map.getElem?_modify, if_pos rfl, hrow]
        rfl
      · change (Std.TreeMap.modify _ _ _)[_]? = _
        rw [Map.getElem?_modify, if_pos rfl, hold]
        rfl
      · change (Function.update w.fm.objects file _ file).version = _
        rw [Function.update_self]
  | saveRData =>
      refine (saveRData_spec hw.idle).mono ?_ fun _ w' h => hunchanged w' h
      rintro _ w' (⟨hskip, rfl⟩ | ⟨hskip, data, bindata, hdata, hbindata,
        images, himages, rfl⟩)
      · exact ⟨hw.idle, Or.inl ⟨hskip, rfl, rfl, rfl, rfl, fun _ _ _ => rfl⟩⟩
      · obtain rfl := hparam (hfits data hdata).1 hbindata
        exact ⟨rfl, Or.inr ⟨hskip, data, hdata,
          (himages _).trans (if_pos rfl)⟩⟩

/-- An identifier that none of finitely many keys is. -/
theorem exists_fresh (t : Tables) (fm : FileManager) :
    ∃ id : ℤ, t.rcfile[id]? = none ∧ t.rcfiledata[id]? = none ∧
      fm.filesById[id]? = none := by
  let keys := t.rcfile.keys ++ t.rcfiledata.keys ++ fm.filesById.keys
  obtain ⟨id, hid⟩ := Infinite.exists_notMem_finset keys.toFinset
  simp only [keys, List.mem_toFinset, List.mem_append, not_or,
    Std.TreeMap.mem_keys] at hid
  refine ⟨id, ?_, ?_, ?_⟩
  · exact Std.TreeMap.getElem?_eq_none hid.1.1
  · exact Std.TreeMap.getElem?_eq_none hid.1.2
  · exact Std.TreeMap.getElem?_eq_none hid.2

section Stored

variable {env : Env} {w : World} {data bindata : Bytes} (henv : env.Serves)
  (hbindata : byteaParam env (env.buffer data) = some bindata)

include henv hbindata

/-- A file that is stored whole has been stored with the content that was
read. -/
theorem stored_of_inserted {fname : String}
    (hquoted : env.fails .escapeLiteral = false)
    (hfile : w.db.committed.rcfile[env.newId]? = none)
    (hfiledata : w.db.committed.rcfiledata[env.newId]? = none)
    (hdata : w.disk[fname]? = some data)
    (h : AllOrNothing env w (.insertDBFile fname)) : bindata = data := by
  have hrun := insertDBFile_succeeds henv hquoted hdata hbindata hfile
    hfiledata
  rw [AllOrNothing, run, Act.wp_bind, Act.wp, hrun] at h
  obtain ⟨-, ⟨hno, -⟩ | ⟨-, data', hdata', row, r, -, -, hstored, -⟩⟩ := h
  · exact hno.elim
  · have hwritten : (w.inserted env fname data
        bindata).db.committed.rcfiledata[env.newId]? = some bindata :=
      Map.getElem?_insert_self _ _ _
    have hsame : data' = data := Option.some.inj (hdata'.symm.trans hdata)
    rw [hwritten, hsame] at hstored
    exact Option.some.inj hstored

/-- An update that is stored whole has stored the content that was read, and
the next version. -/
theorem stored_of_updated {file : ℕ}
    (hrow : DBWrite.OnExistingRow w (.updateDBFile file))
    (hdata : w.disk[(w.fm.objects file).path]? = some data)
    (h : AllOrNothing env w (.updateDBFile file)) :
    bindata = data ∧ toInt32 ((w.fm.objects file).version + 1) =
      (w.fm.objects file).version + 1 := by
  have hrun := updateDBFile_updates henv hdata hbindata
  rw [AllOrNothing, run, Act.wp, hrun] at h
  obtain ⟨-, ⟨hno, -⟩ | ⟨-, data', hdata', row, hnew, -, hstored, -,
    hversion⟩⟩ := h
  · exact hno.elim
  obtain ⟨hold, holddata⟩ := hrow
  obtain ⟨oldRow, hold⟩ := Option.ne_none_iff_exists'.mp hold
  obtain ⟨old, holddata⟩ := Option.ne_none_iff_exists'.mp holddata
  have hwritten : (w.updated file env.mtime data bindata).db.committed.rcfiledata[
      (w.fm.objects file).id]? = some bindata := by
    change (Std.TreeMap.modify _ _ _)[_]? = _
    rw [Map.getElem?_modify, if_pos rfl, holddata]
    rfl
  have hrow' : (w.updated file env.mtime data bindata).db.committed.rcfile[
      (w.fm.objects file).id]? = some { oldRow with
        version := toInt32 ((w.fm.objects file).version + 1)
        lastmodified := env.mtime
        filesize := data.length } := by
    change (updatedRows _ _ _ _ _)[_]? = _
    rw [updatedRows, Map.getElem?_modify, if_pos rfl, hold]
    rfl
  have hsame : data' = data := Option.some.inj (hdata'.symm.trans hdata)
  rw [hwritten, hsame] at hstored
  rw [hrow'] at hnew
  rw [← Option.some.inj hnew] at hversion
  exact ⟨Option.some.inj hstored, hversion⟩

/-- A workspace that is stored whole has been stored with the content that
was read. -/
theorem stored_of_saved (hidle : w.db.transaction = none)
    (hdata : w.disk[rdataFile]? = some data)
    (h : AllOrNothing env w .saveRData) : bindata = data := by
  have hrun := saveRData_succeeds henv hdata hbindata
  have hworks : ¬skipsSave env w := by
    rintro (hnone | hdead | hlock)
    · rw [hdata] at hnone
      cases hnone
    · rw [henv .begin (by decide)] at hdead
      cases hdead
    · rw [henv .lockTable (by decide)] at hlock
      cases hlock
  rcases (saveRData_spec hidle).cases with
    ⟨_, -, ⟨hskip, -⟩ | ⟨-, data₁, bindata₁, hdata₁, hbindata₁, images,
      himages, hsaved⟩⟩ | ⟨e, hthrew, -⟩
  · exact absurd hskip hworks
  · rcases h.cases with
      ⟨_, -, -, ⟨hskip, -⟩ | ⟨-, data₂, hdata₂, hstored⟩⟩ | ⟨e, hthrew, -⟩
    · exact absurd hskip hworks
    · have hrow₁ : (Files.saveRData env w).2.db.committed.rcworkspacedata[
          w.fm.wspaceId]? = some bindata₁ := by
        rw [hsaved]
        exact (himages _).trans (if_pos rfl)
      have h₁ : data₁ = data := Option.some.inj (hdata₁.symm.trans hdata)
      have h₂ : data₂ = data := Option.some.inj (hdata₂.symm.trans hdata)
      have h₃ : bindata₁ = bindata := by
        rw [h₁, hbindata] at hbindata₁
        exact (Option.some.inj hbindata₁).symm
      rw [← h₃, ← h₂]
      exact Option.some.inj (hrow₁.symm.trans hstored)
    · rw [run, hrun] at hthrew
      cases hthrew
  · rw [hrun] at hthrew
    cases hthrew

end Stored

/-- When every call succeeds, a write that is all or nothing has stored the
content it read. -/
theorem stored_of_allOrNothing {env : Env} {w : World} {op : DBWrite}
    {data bindata : Bytes} (henv : env.Serves)
    (hquoted : ∀ fname, op = .insertDBFile fname →
      env.fails .escapeLiteral = false)
    (hidle : w.db.transaction = none)
    (hfile : w.db.committed.rcfile[env.newId]? = none)
    (hfiledata : w.db.committed.rcfiledata[env.newId]? = none)
    (hrow : op.OnExistingRow w)
    (hdata : w.disk[op.source w]? = some data)
    (hbindata : byteaParam env (env.buffer data) = some bindata)
    (h : AllOrNothing env w op) :
    bindata = data ∧
      ∀ file, op = .updateDBFile file →
        toInt32 ((w.fm.objects file).version + 1) =
          (w.fm.objects file).version + 1 := by
  cases op with
  | insertDBFile fname =>
      refine ⟨?_, fun file hop => by cases hop⟩
      exact stored_of_inserted henv hbindata (hquoted fname rfl) hfile hfiledata
        hdata h
  | updateDBFile file =>
      obtain ⟨hstored, hversion⟩ :=
        stored_of_updated henv hbindata hrow hdata h
      refine ⟨hstored, fun file' hop => ?_⟩
      obtain rfl : file = file' := by injection hop
      exact hversion
  | saveRData =>
      refine ⟨?_, fun file hop => by cases hop⟩
      exact stored_of_saved henv hbindata hidle hdata h

/-- An insert that is all or nothing has a name that can be quoted. -/
theorem quoted_of_allOrNothing {env : Env} {w : World} {fname : String}
    {data : Bytes} (henv : env.Serves) (hdata : w.disk[fname]? = some data)
    (h : AllOrNothing env w (.insertDBFile fname)) :
    env.fails .escapeLiteral = false := by
  by_contra hunquoted
  rw [Bool.not_eq_false] at hunquoted
  have hundefined := insertDBFile_undefined hunquoted henv hdata
  rw [AllOrNothing, run, Act.wp_bind] at h
  rcases h.cases with ⟨_, hreturned, -⟩ | ⟨_, hthrew, -⟩
  · rw [hundefined] at hreturned
    cases hreturned
  · rw [hundefined] at hthrew
    cases hthrew

/-- A write of the session is all or nothing, whatever fails on the way,
exactly when the content is read whole, its length fits, the name of a new
file can be quoted and the next version of an old one fits. -/
theorem allOrNothing_iff_fits {w : World} {op : DBWrite} {stops : Option ℕ}
    {unquotable : Bool} (hw : w.Settled) (hrow : op.OnExistingRow w) :
    (∀ env : Env, env.BeginsAlive → env.readStops = stops →
      env.fails .escapeLiteral = unquotable →
      w.fm.filesById[env.newId]? = none → AllOrNothing env w op) ↔
        op.Fits stops unquotable w := by
  constructor
  · intro h data hdata
    obtain ⟨id, hfile, hfiledata, hfresh⟩ := exists_fresh w.db.committed w.fm
    let env := Env.serving id stops unquotable
    have henv : ∀ memory, (env memory).Serves :=
      Env.serving_serves id stops unquotable
    have hescape : ∀ memory, (env memory).fails .escapeLiteral = unquotable :=
      fun memory => Bool.and_true unquotable
    have hall : ∀ memory, AllOrNothing (env memory) w op := by
      intro memory
      refine h (env memory) (fun hdead => ?_) rfl (hescape memory) hfresh
      rw [henv memory .begin (by decide)] at hdead
      cases hdead
    have hquoted : ∀ fname, op = .insertDBFile fname → unquotable = false := by
      rintro fname rfl
      rw [← hescape fun _ => 0]
      exact quoted_of_allOrNothing (henv _) hdata (hall _)
    have hstored : ∀ memory bindata,
        byteaParam (env memory) ((env memory).buffer data) = some bindata →
        bindata = data ∧ ∀ file, op = .updateDBFile file →
          toInt32 ((w.fm.objects file).version + 1) =
            (w.fm.objects file).version + 1 := fun memory bindata hbindata =>
      stored_of_allOrNothing (henv memory)
        (fun fname hop => (hescape memory).trans (hquoted fname hop)) hw.idle
        hfile hfiledata hrow hdata hbindata (hall memory)
    have hwhole : ReadsWhole stops data ∧ data.length < 2 ^ 31 := by
      by_contra hcut
      obtain ⟨memory, bindata, hbindata, hne⟩ :=
        exists_byteaParam_ne hcut id unquotable
      exact hne (hstored memory bindata hbindata).1
    refine ⟨hwhole, ?_⟩
    cases op with
    | insertDBFile fname => exact hquoted fname rfl
    | saveRData => trivial
    | updateDBFile file =>
        have hbuffer : (env fun _ => 0).buffer data = data :=
          Env.buffer_of_readsWhole hwhole.1
        have hparam : byteaParam (env fun _ => 0) data = some data :=
          byteaParam_of_lt hwhole.2
        have hnext := (hstored (fun _ => 0) data (by rw [hbuffer, hparam])).2
          file rfl
        have hbounds := toInt32_bounds ((w.fm.objects file).version + 1)
        rwa [hnext] at hbounds
  · rintro hfits env hbegin rfl rfl hfresh
    exact allOrNothing_of_fits hw hrow hbegin hfresh hfits

/-- A session with the one file `a.R`, which R has changed. -/
def changedFile : World :=
  let w := World.initial "wd" 1 1
    ⟨(∅ : Map ℤ FileRow).insert 7 ⟨1, 1, "a.R", 0, 0⟩,
      (∅ : Map ℤ Bytes).insert 7 [], ∅, ∅⟩
  { w with
    fm :=
      { w.fm with
        objects := fun _ => ⟨7, 1, "a.R", "a.R", 3⟩
        nextObject := 1
        filesById := (∅ : Map ℤ DBFileInfoPtr).insert 7 (some 0) }
    disk := (∅ : Map String Bytes).insert "a.R" [1, 2] }

theorem changedFile_settled : changedFile.Settled := by
  constructor
  · rfl
  · intro id r h
    change ((∅ : Map ℤ DBFileInfoPtr).insert 7 (some 0))[id]? = _ at h
    rw [Map.getElem?_insert] at h
    split at h
    next =>
      cases h
      decide
    next => cases h

/-- Storing a changed file. -/
theorem allOrNothing_changedFile :
    (∀ env : Env, env.BeginsAlive → env.readStops = none →
      env.fails .escapeLiteral = false →
      changedFile.fm.filesById[env.newId]? = none →
      AllOrNothing env changedFile (.updateDBFile 0)) ↔
      Fits none false changedFile (.updateDBFile 0) :=
  allOrNothing_iff_fits changedFile_settled
    ⟨by decide, by decide⟩

/-- A session whose directory holds nothing but a workspace image. -/
def onlyRData (data : Bytes) : World :=
  { World.initial "wd" 1 1 ⟨∅, ∅, ∅, ∅⟩ with
    disk := (∅ : Map String Bytes).insert rdataFile data }

theorem onlyRData_filesById (data : Bytes) (id : ℤ) :
    (onlyRData data).fm.filesById[id]? = none :=
  Std.TreeMap.getElem?_emptyc

theorem onlyRData_settled (data : Bytes) : (onlyRData data).Settled := by
  constructor
  · rfl
  · intro id r hr
    rw [onlyRData_filesById] at hr
    cases hr

/-- A workspace image of `2 ^ 32 + 1` bytes is cut to its first byte. -/
theorem allOrNothing_fails_on_long_image :
    ¬ ∀ (w : World) (op : DBWrite), w.Settled → op.OnExistingRow w →
      ∀ env : Env, env.BeginsAlive → w.fm.filesById[env.newId]? = none →
        AllOrNothing env w op := by
  intro h
  have hexists : ∀ n, ∃ data : Bytes, data.length = n :=
    fun n => ⟨List.replicate n 0, List.length_replicate⟩
  obtain ⟨data, hlength⟩ := hexists (2 ^ 32 + 1)
  have hsize : toInt32 data.length = 1 := by
    rw [toInt32, Int.bmod_def]
    omega
  have hcut : data.take 1 ≠ data := by
    intro heq
    have hone := congrArg List.length heq
    rw [List.length_take] at hone
    omega
  clear hlength
  obtain ⟨env, henv⟩ : ∃ env : Env, env.Succeeds :=
    ⟨_, Env.succeeding_succeeds 0 1⟩
  have hfirst : byteaParam env (env.buffer data) = some (data.take 1) := by
    rw [Env.buffer_of_reads henv.reads, byteaParam, hsize]
    rfl
  have hbegin : env.BeginsAlive := by
    intro hdead
    rw [henv.calls] at hdead
    cases hdead
  have hall : AllOrNothing env (onlyRData data) .saveRData := by
    apply h (onlyRData data) .saveRData (onlyRData_settled data)
    · trivial
    · exact hbegin
    · exact onlyRData_filesById data _
  have hdata : (onlyRData data).disk[rdataFile]? = some data :=
    Map.getElem?_insert_self _ _ _
  exact hcut (stored_of_saved (fun call _ => henv.calls call) hfirst rfl hdata
    hall)

end DBWrite

end Rc2Compute.Files
