import Rc2Compute.Files.Transactions

/-!
# The workspace image

Saving the image of a workspace replaces its row by the bytes of `.RData`, and
loading the row, in any session of the workspace, writes them back.
-/

namespace Rc2Compute.Files

/-- The image of the workspace is `data`, and the images of the other
workspaces are those of `images`. -/
def Tables.HoldsImage (t : Tables) (images : Map ℤ Bytes) (wspaceId : ℤ)
    (data : Bytes) : Prop :=
  ∀ id : ℤ, t.rcworkspacedata[id]? =
    if wspaceId = id then some data else images[id]?

/-- All three tables hold the same rows. -/
structure Tables.Same (t t' : Tables) : Prop where
  rcfile : t'.rcfile = t.rcfile
  rcfiledata : t'.rcfiledata = t.rcfiledata
  rcworkspacedata : ∀ id : ℤ, t'.rcworkspacedata[id]? = t.rcworkspacedata[id]?
  sessionimage : t'.sessionimage = t.sessionimage

/-- `saveRData` reaches a successful commit: it gets the lock and does not
throw. -/
structure SaveCommits (env : Env) (w : World) : Prop where
  begins : env.fails .begin = false
  locks : env.fails .lockTable = false
  returns : (saveRData env w).1 = .returned ()

/-! ## Saving -/

section save

variable {env : Env} {w : World} {data : Bytes}

/-- A save that commits has stored the content of `.RData`. -/
theorem SaveCommits.saved (h : SaveCommits env w)
    (hidle : w.db.transaction = none) (hdisk : w.disk[rdataFile]? = some data)
    (hreads : ReadsWhole env.readStops data) (hlt : data.length < 2 ^ 31) :
    w.Saved (saveRData env w).2 data := by
  have hworks : ¬skipsSave env w := by
    rintro (hnone | hdead | hlock)
    · rw [hdisk] at hnone
      cases hnone
    · rw [h.begins] at hdead
      cases hdead
    · rw [h.locks] at hlock
      cases hlock
  rcases (saveRData_spec hidle).cases with
    ⟨_, -, ⟨hskip, -⟩ | ⟨-, data', bindata, hdata', hbindata, hsaved⟩⟩ |
      ⟨e, hthrew, -⟩
  · exact absurd hskip hworks
  · have hsame : data' = data := Option.some.inj (hdata'.symm.trans hdisk)
    rw [hsame, Env.buffer_of_readsWhole hreads, byteaParam_of_lt hlt]
      at hbindata
    rw [Option.some.inj hbindata]
    exact hsaved
  · rw [h.returns] at hthrew
    cases hthrew

theorem World.Saved.holdsImage {w' : World} (h : w.Saved w' data) :
    w'.db.committed.HoldsImage w.db.committed.rcworkspacedata w.fm.wspaceId
      data := by
  obtain ⟨images, himages, rfl⟩ := h
  exact himages

theorem World.Saved.disk {w' : World} (h : w.Saved w' data) :
    w'.disk = w.disk := by
  obtain ⟨images, -, rfl⟩ := h
  rfl

theorem World.Saved.fm {w' : World} (h : w.Saved w' data) : w'.fm = w.fm := by
  obtain ⟨images, -, rfl⟩ := h
  rfl

theorem World.Saved.idle {w' : World} (h : w.Saved w' data) :
    w'.db.transaction = none := by
  obtain ⟨images, -, rfl⟩ := h
  rfl

/-- Saving an image the table already holds leaves the tables as they are. -/
theorem World.Saved.same {w' : World} (h : w.Saved w' data)
    (hrow : w.db.committed.rcworkspacedata[w.fm.wspaceId]? = some data) :
    w.db.committed.Same w'.db.committed := by
  obtain ⟨images, himages, rfl⟩ := h
  constructor
  · rfl
  · rfl
  · intro id
    rw [himages]
    split
    next heq => rw [← heq, hrow]
    next => rfl
  · rfl

end save

/-! ## What saving leaves alone -/

/-- Only the database has changed. -/
structure OnlyDatabase (w w' : World) : Prop where
  disk : w'.disk = w.disk
  fm : w'.fm = w.fm

namespace OnlyDatabase

instance : Std.Refl OnlyDatabase where
  refl _ := ⟨rfl, rfl⟩

instance : IsTrans World OnlyDatabase where
  trans _ _ _ hab hbc := ⟨hbc.disk.trans hab.disk, hbc.fm.trans hab.fm⟩

theorem executeQuery (env : Env) (call : Call)
    (statement : Tables → Option Tables) :
    Act.Keeps OnlyDatabase (executeQuery env call statement) := by
  intro w
  obtain ⟨ok, db, h⟩ := executeQuery_returns env call statement w
  rw [h]
  exact ⟨rfl, rfl⟩

theorem lockTable (env : Env) : Act.Keeps OnlyDatabase (lockTable env) := by
  intro w
  rw [Files.lockTable]
  split
  · exact ⟨rfl, rfl⟩
  · exact executeQuery env .lockTable some w

theorem commitTransaction (env : Env) :
    Act.Keeps OnlyDatabase (commitTransaction env) := by
  intro w
  obtain ⟨ok, db, h⟩ := commitTransaction_returns env w
  rw [h]
  exact ⟨rfl, rfl⟩

theorem beginTransaction (env : Env) :
    Act.Keeps OnlyDatabase (beginTransaction env) := by
  apply Act.Keeps.modify
  intro w
  split
  · exact ⟨rfl, rfl⟩
  · exact ⟨rfl, rfl⟩

theorem saveRows (env : Env) (data : Bytes) :
    Act.Keeps OnlyDatabase (saveRows env data) := by
  refine Act.Keeps.get.bind fun w => ?_
  refine (executeQuery env _ _).bind fun res => ?_
  refine (Act.Keeps.throwIf _ _).bind fun _ => ?_
  have hcommit : Act.Keeps OnlyDatabase (do
      let commitRes ← Files.commitTransaction env
      Act.throwIf (!commitRes)
        (FormattedException "failed to commit save rdata")) :=
    (commitTransaction env).bind fun _ => Act.Keeps.throwIf _ _
  apply Act.Keeps.ite
  · refine (executeQuery env _ _).bind fun iRes => ?_
    exact (Act.Keeps.throwIf _ _).bind fun _ => hcommit
  · exact hcommit

theorem saveRData (env : Env) :
    Act.Keeps OnlyDatabase (saveRData env) := by
  refine Act.Keeps.get.bind fun w => ?_
  refine (Act.Keeps.throwIf _ _).bind fun _ => ?_
  apply Act.Keeps.ite
  · refine (readFileBlob_keeps env _).bind fun data => ?_
    apply Act.Keeps.ensuring
    · refine (beginTransaction env).bind fun _ => ?_
      refine (lockTable env).bind fun locked => ?_
      exact Act.Keeps.ite (saveRows env data) (Act.Keeps.pure _)
    · exact fun w => ⟨rfl, rfl⟩
  · exact Act.Keeps.pure _

end OnlyDatabase

/-- Whatever fails, saving changes nothing when the table already holds the
content of `.RData`. -/
theorem saveRData_again {env : Env} {w : World} {data : Bytes}
    (hidle : w.db.transaction = none) (hdisk : w.disk[rdataFile]? = some data)
    (hreads : ReadsWhole env.readStops data) (hlt : data.length < 2 ^ 31)
    (hrow : w.db.committed.rcworkspacedata[w.fm.wspaceId]? = some data) :
    w.db.committed.Same (saveRData env w).2.db.committed ∧
      (saveRData env w).2.db.transaction = none ∧
      OnlyDatabase w (saveRData env w).2 := by
  have honly := OnlyDatabase.saveRData env w
  have hsame : w.db.committed.Same w.db.committed :=
    ⟨rfl, rfl, fun _ => rfl, rfl⟩
  rcases (saveRData_spec hidle).cases with
    ⟨_, -, ⟨-, heq⟩ | ⟨-, data', bindata, hdata', hbindata, hsaved⟩⟩ |
      ⟨e, -, huntouched⟩
  · rw [heq]
    exact ⟨hsame, hidle, rfl, rfl⟩
  · have heq : data' = data := Option.some.inj (hdata'.symm.trans hdisk)
    rw [heq, Env.buffer_of_readsWhole hreads, byteaParam_of_lt hlt]
      at hbindata
    rw [← Option.some.inj hbindata] at hsaved
    exact ⟨hsaved.same hrow, hsaved.idle, honly⟩
  · rw [huntouched.db]
    exact ⟨hsame, rfl, honly⟩

/-! ## Loading -/

/-- Loading the image of the workspace, when the row can be read. -/
theorem loadRData_apply {env : Env} {w : World} {data : Bytes}
    (hselect : env.fails .selectWorkspaceData = false)
    (hrow : w.db.committed.rcworkspacedata[w.fm.wspaceId]? = some data)
    (hne : data ≠ []) :
    loadRData env w = (.returned true,
      if env.fails .writeFile then w else w.writeFile .other rdataFile data) := by
  have hpos : data.length > 0 := List.length_pos_of_ne_nil hne
  simp [loadRData, Act.bind_apply, hselect, hrow, hpos]

/-! ## The round trip -/

/-- A session `w'` of the same workspace on the same tables, whatever is in
its working directory, loads `data` whenever the row can be read and the file
written. -/
def LoadsImage (w' : World) (data : Bytes) : Prop :=
  ∀ (env : Env) (other : World), other.db.committed = w'.db.committed →
    other.fm.wspaceId = w'.fm.wspaceId →
    env.fails .selectWorkspaceData = false →
      (loadRData env other).1 = .returned true ∧
        (env.fails .writeFile = false →
          (loadRData env other).2.disk[rdataFile]? = some data)

/-- Saving again, whatever call fails, changes neither the tables nor the
session nor its files. -/
def SavedForGood (w' : World) (data : Bytes) : Prop :=
  ∀ env : Env, ReadsWhole env.readStops data →
    w'.db.committed.Same (saveRData env w').2.db.committed ∧
    (saveRData env w').2.db.transaction = none ∧
    OnlyDatabase w' (saveRData env w').2

/-- After a save that commits, the row of the workspace holds the bytes of
`.RData`, the rows of other workspaces are as before, any session of the
workspace loads those bytes, and saving again changes nothing. -/
theorem saveRData_roundTrip {env : Env} {w : World} {data : Bytes}
    (hidle : w.db.transaction = none)
    (hdisk : w.disk[rdataFile]? = some data) (hne : data ≠ [])
    (hreads : ReadsWhole env.readStops data) (hlt : data.length < 2 ^ 31)
    (hcommits : SaveCommits env w) :
    (saveRData env w).2.db.committed.HoldsImage
        w.db.committed.rcworkspacedata w.fm.wspaceId data ∧
      LoadsImage (saveRData env w).2 data ∧
      SavedForGood (saveRData env w).2 data := by
  have hsaved := hcommits.saved hidle hdisk hreads hlt
  have hholds := hsaved.holdsImage
  have hrow : (saveRData env w).2.db.committed.rcworkspacedata[
      (saveRData env w).2.fm.wspaceId]? = some data := by
    rw [hsaved.fm, hholds, if_pos rfl]
  refine ⟨hholds, ?_, ?_⟩
  · intro env' other htables hwspace hselect
    have hother : other.db.committed.rcworkspacedata[other.fm.wspaceId]? =
        some data := by
      rw [htables, hwspace, hrow]
    rw [loadRData_apply hselect hother hne]
    refine ⟨rfl, fun hwrite => ?_⟩
    rw [hwrite]
    exact Map.getElem?_insert_self _ _ _
  · intro env' hreads'
    apply saveRData_again hsaved.idle _ hreads' hlt hrow
    rw [hsaved.disk, hdisk]

/-- Every call of a save succeeds. -/
theorem SaveCommits.of_succeeds {env : Env} {w : World} {data : Bytes}
    (henv : env.Succeeds) (hdisk : w.disk[rdataFile]? = some data)
    (hlt : data.length < 2 ^ 31) : SaveCommits env w where
  begins := henv.calls .begin
  locks := henv.calls .lockTable
  returns := by
    have hparam : byteaParam env (env.buffer data) = some data := by
      rw [Env.buffer_of_reads henv.reads, byteaParam_of_lt hlt]
    exact saveRData_succeeds (fun call _ => henv.calls call) hdisk hparam

/-- A session of workspace 1 with a new image, while workspaces 1 and 2 have
older ones. -/
def changedImage : World :=
  { World.initial "wd" 1 1
      ⟨∅, ∅, ((∅ : Map ℤ Bytes).insert 1 [9]).insert 2 [8], ∅⟩ with
    disk := (∅ : Map String Bytes).insert rdataFile [1, 2, 3] }

theorem changedImage_rdata : changedImage.disk[rdataFile]? = some [1, 2, 3] :=
  Map.getElem?_insert_self _ _ _

/-- Saving the new image. -/
theorem saveRData_roundTrip_changedImage :
    (saveRData (Env.succeeding 0 1) changedImage).2.db.committed.HoldsImage
        changedImage.db.committed.rcworkspacedata changedImage.fm.wspaceId
        [1, 2, 3] ∧
      LoadsImage (saveRData (Env.succeeding 0 1) changedImage).2 [1, 2, 3] ∧
      SavedForGood (saveRData (Env.succeeding 0 1) changedImage).2 [1, 2, 3] :=
  saveRData_roundTrip rfl changedImage_rdata (by decide) (readsWhole_none _)
    (by decide)
    (SaveCommits.of_succeeds (Env.succeeding_succeeds 0 1) changedImage_rdata
      (by decide))

end Rc2Compute.Files
