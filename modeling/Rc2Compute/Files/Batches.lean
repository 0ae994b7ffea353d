import Rc2Compute.Files.Replica
import Rc2Compute.Support.Transition
import Mathlib.Data.List.Nodup

/-!
# Batches of images

The images of a session are stored in batches.  The number of a batch is
chosen when its first image is stored, from the batches in the table, and
raised by `resetWatch` once the batch has images.  The list of reported ids,
the counter and the table stay in step over any run, whatever fails on the
way, and over restarts of the session's process.
-/

namespace Rc2Compute.Files

/-! ## Runs -/

/-- A session record and the ids of the rows that have been inserted for it
since the last reset, oldest first. -/
structure Batching where
  world : World
  since : List ℤ

/-- What happens to the images of a session: a process for it starts and
connects, R changes the files of the working directory, the process stores
images, resets or checks its watch, and processes of other sessions change the
rows that are theirs. -/
inductive BatchOp where
  | connect (env : Env)
  | draws (disk : Map String Bytes)
  | insertImage (env : Env) (fname imgNumStr : String)
  | resetWatch
  | checkWatch
  | others (rows : Map ℤ ImageRow)

/-- The row `id` of the table belongs to the session. -/
def World.HasImage (w : World) (id : ℤ) (row : ImageRow) : Prop :=
  w.db.committed.sessionimage[id]? = some row ∧
    row.sessionid = w.fm.sessionRecId

/-- The session's rows of the second world that the first one lacks. -/
def newImages (before after : World) : List ℤ :=
  (after.db.committed.sessionimage.toList.filter fun p =>
    p.2.sessionid = after.fm.sessionRecId ∧
      before.db.committed.sessionimage[p.1]? = none).map Prod.fst

namespace Batching

/-- A manager of a new process. -/
def renewed (w : World) : World :=
  let fm := w.fm
  { w with fm :=
    FileManager.initial fm.workingDir fm.wspaceId fm.sessionRecId }

def step (s : Batching) : BatchOp → Batching
  | .connect env =>
      { world := (connect env s.world.fm.wspaceId s.world.fm.sessionRecId
          (renewed s.world)).2
        since := [] }
  | .draws disk => { s with world := { s.world with disk := disk } }
  | .insertImage env fname imgNumStr =>
      let w := (insertImage env fname imgNumStr s.world).2
      { world := w, since := s.since ++ newImages s.world w }
  | .resetWatch => { world := (Files.resetWatch s.world).2, since := [] }
  | .checkWatch => { s with world := (Files.checkWatch s.world).2 }
  | .others rows =>
      { s with world := { s.world with db :=
        { s.world.db with
          committed := { s.world.db.committed with sessionimage := rows } } } }

/-- The sequence yields fresh positive ids, and no other process touches the
rows of the session. -/
def Allowed (s : Batching) : BatchOp → Prop
  | .insertImage env _ _ =>
      0 < env.newId ∧ s.world.db.committed.sessionimage[env.newId]? = none
  | .others rows => ∀ (id : ℤ) row, row.sessionid = s.world.fm.sessionRecId →
      (rows[id]? = some row ↔
        s.world.db.committed.sessionimage[id]? = some row)
  | _ => True

/-- The reported ids are those inserted since the last reset, each once and in
order; their rows carry the current batch; and every other row of the session
carries a smaller one once the current batch has been chosen. -/
structure Accounted (s : Batching) : Prop where
  nodup : s.world.fm.imageIds.Nodup
  listed : s.world.fm.imageIds = s.since
  current : ∀ id ∈ s.world.fm.imageIds, ∃ row, s.world.HasImage id row ∧
    row.batchid = s.world.fm.sessionImageBatch
  earlier : s.world.fm.sessionImageBatch ≠ 0 → ∀ id row,
    s.world.HasImage id row → id ∉ s.world.fm.imageIds →
      row.batchid < s.world.fm.sessionImageBatch

/-! ## The invariant -/

/-- Between operations no transaction is open, no batch number is negative,
and ids are only listed under a chosen batch. -/
structure Steady (s : Batching) : Prop extends Accounted s where
  idle : s.world.db.transaction = none
  batch : 0 ≤ s.world.fm.sessionImageBatch
  chosen : s.world.fm.imageIds ≠ [] → s.world.fm.sessionImageBatch ≠ 0
  stored : ∀ id row, s.world.HasImage id row → 0 ≤ row.batchid

end Batching

/-! ## Choosing a batch -/

section maxBatch

variable {t : Tables} {sessionid : ℤ}

/-- The batches of the session's images. -/
def batches (t : Tables) (sessionid : ℤ) : List ℤ :=
  t.sessionimage.toList.filterMap fun (_, image) =>
    if image.sessionid = sessionid then some image.batchid else none

theorem mem_batches {batch : ℤ} : batch ∈ batches t sessionid ↔
    ∃ (id : ℤ) (row : ImageRow), t.sessionimage[id]? = some row ∧
      row.sessionid = sessionid ∧ row.batchid = batch := by
  simp only [batches, List.mem_filterMap, Prod.exists, Map.mem_toList]
  constructor
  · rintro ⟨id, row, hrow, hbatch⟩
    split at hbatch
    next hsession => exact ⟨id, row, hrow, hsession, Option.some.inj hbatch⟩
    next => cases hbatch
  · rintro ⟨id, row, hrow, hsession, rfl⟩
    exact ⟨id, row, hrow, if_pos hsession⟩

theorem le_maxBatch {id : ℤ} {row : ImageRow}
    (hrow : t.sessionimage[id]? = some row)
    (hsession : row.sessionid = sessionid) :
    row.batchid ≤ maxBatch t sessionid := by
  have hmem : row.batchid ∈ batches t sessionid :=
    mem_batches.mpr ⟨id, row, hrow, hsession, rfl⟩
  obtain ⟨m, hm⟩ := Option.isSome_iff_exists.mp
    (List.isSome_max?_of_mem hmem)
  have hle : row.batchid ≤ m := (List.max?_eq_some_iff.mp hm).2 _ hmem
  have hmax : maxBatch t sessionid = m := by
    rw [maxBatch]
    exact congrArg (Option.getD · 0) hm
  rw [hmax]
  exact hle

theorem maxBatch_nonneg
    (h : ∀ (id : ℤ) row, t.sessionimage[id]? = some row →
      row.sessionid = sessionid → 0 ≤ row.batchid) :
    0 ≤ maxBatch t sessionid := by
  have hmax : maxBatch t sessionid = (batches t sessionid).max?.getD 0 := rfl
  rw [hmax]
  cases hm : (batches t sessionid).max? with
  | none => exact le_refl 0
  | some m =>
      obtain ⟨id, row, hrow, hsession, rfl⟩ :=
        mem_batches.mp (List.max?_mem hm)
      exact h id row hrow hsession

end maxBatch

/-! ## Storing an image -/

/-- What storing an image under `id` does to the counter, the list and the
table, whether it succeeds or not. -/
structure ImageStep (w w' : World) (id : ℤ) : Prop where
  session : w'.fm.sessionRecId = w.fm.sessionRecId
  idle : w'.db.transaction = none
  batch : w'.fm.sessionImageBatch = w.fm.sessionImageBatch ∨
    w.fm.sessionImageBatch ≤ 0 ∧ w'.fm.sessionImageBatch =
      maxBatch w.db.committed w.fm.sessionRecId + 1
  rows : (w'.fm.imageIds = w.fm.imageIds ∧
      w'.db.committed.sessionimage = w.db.committed.sessionimage) ∨
    (w.fm.sessionImageBatch ≤ 0 → w'.fm.sessionImageBatch =
        maxBatch w.db.committed w.fm.sessionRecId + 1) ∧
      w'.fm.imageIds = w.fm.imageIds ++ [id] ∧
      ∃ row : ImageRow, row.sessionid = w.fm.sessionRecId ∧
        row.batchid = w'.fm.sessionImageBatch ∧
        ∀ k : ℤ, w'.db.committed.sessionimage[k]? =
          if id = k then some row else w.db.committed.sessionimage[k]?

/-- A step that stores nothing and leaves the counter. -/
theorem ImageStep.unchanged {w : World} (h : w.db.transaction = none)
    (id : ℤ) : ImageStep w w id :=
  ⟨rfl, h, Or.inl rfl, Or.inl ⟨rfl, rfl⟩⟩

/-- Nothing about the images of the session changes. -/
structure SameImages (w w' : World) : Prop where
  session : w'.fm.sessionRecId = w.fm.sessionRecId
  batch : w'.fm.sessionImageBatch = w.fm.sessionImageBatch
  ids : w'.fm.imageIds = w.fm.imageIds
  db : w'.db = w.db

instance : Std.Refl SameImages where
  refl _ := ⟨rfl, rfl, rfl, rfl⟩

instance : IsTrans World SameImages where
  trans _ _ _ hab hbc :=
    { session := hbc.session.trans hab.session
      batch := hbc.batch.trans hab.batch
      ids := hbc.ids.trans hab.ids
      db := hbc.db.trans hab.db }

theorem sameImages_windowOpened (w : World) :
    SameImages w (windowOpened w) := by
  rw [windowOpened_eq]
  split
  · exact Std.Refl.refl w
  · exact ⟨rfl, rfl, rfl, rfl⟩

theorem sameImages_removeFile (w : World) (writer : Writer) (name : String) :
    SameImages w (w.removeFile writer name) where
  session := by rw [removeFile_fm]
  batch := by rw [removeFile_fm]
  ids := by rw [removeFile_fm]
  db := removeFile_db w writer name

theorem ImageStep.of_same {w w₁ w₂ : World} {id : ℤ} (h : ImageStep w w₁ id)
    (hsame : SameImages w₁ w₂) : ImageStep w w₂ id where
  session := hsame.session.trans h.session
  idle := by
    rw [hsame.db]
    exact h.idle
  batch := by
    rw [hsame.batch]
    exact h.batch
  rows := by
    rw [hsame.ids, hsame.batch, hsame.db]
    exact h.rows

/-- The row of an image. -/
def imageRow (w : World) (batch imgId : ℤ) (imgdata : Bytes) : ImageRow where
  sessionid := w.fm.sessionRecId
  batchid := batch
  name := "img" ++ toString imgId ++ ".png"
  imgdata := imgdata

/-- The row is in the table and its id in the list. -/
theorem ImageStep.stored {w w' : World} {id batch : ℤ} {imgdata : Bytes}
    (hchosen : batch = w.fm.sessionImageBatch ∨
      w.fm.sessionImageBatch ≤ 0 ∧
        batch = maxBatch w.db.committed w.fm.sessionRecId + 1)
    (hpositive : w.fm.sessionImageBatch ≤ 0 →
      batch = maxBatch w.db.committed w.fm.sessionRecId + 1)
    (hsession : w'.fm.sessionRecId = w.fm.sessionRecId)
    (hbatch : w'.fm.sessionImageBatch = batch)
    (hids : w'.fm.imageIds = w.fm.imageIds ++ [id])
    (hidle : w'.db.transaction = none)
    (hrows : w'.db.committed.sessionimage =
      w.db.committed.sessionimage.insert id (imageRow w batch id imgdata)) :
    ImageStep w w' id where
  session := hsession
  idle := hidle
  batch := by
    rw [hbatch]
    exact hchosen
  rows := by
    refine Or.inr ⟨?_, hids, imageRow w batch id imgdata, rfl, hbatch.symm,
      fun k => ?_⟩
    · rw [hbatch]
      exact hpositive
    · rw [hrows]
      exact Map.getElem?_insert _ _ _ _

theorem insertImage_imageStep (env : Env) (fname imgNumStr : String)
    {w : World} (hidle : w.db.transaction = none)
    (hfresh : w.db.committed.sessionimage[env.newId]? = none) :
    Act.wp (insertImage env fname imgNumStr)
      (fun _ w' => ImageStep w w' env.newId)
      (fun _ w' => ImageStep w w' env.newId) w := by
  have hsame := ImageStep.unchanged hidle env.newId
  rw [insertImage, Act.wp_bind]
  refine wp_readFileBlob (fun _ _ => hsame) fun found _ _ => ?_
  by_cases hempty : (env.buffer found).length < 1
  · rw [if_pos hempty, Act.wp_pure]
    exact hsame
  rw [if_neg hempty, Act.wp_bind]
  refine wp_longFromQuery (fun _ _ => hsame) fun _ => ?_
  rw [Act.wp_bind, Act.wp_throwIf]
  refine ⟨fun _ => hsame, fun _ => ?_⟩
  rw [Act.wp_bind]
  refine (startImageBatch_spec env w).mono ?_ fun _ w' h => h.1 ▸ hsame
  rintro _ _ ⟨batch, rfl, hbatch⟩
  have hchosen : batch = w.fm.sessionImageBatch ∨
      w.fm.sessionImageBatch ≤ 0 ∧
        batch = maxBatch w.db.committed w.fm.sessionRecId + 1 :=
    hbatch.imp And.right fun h => ⟨h.1, h.2.2⟩
  have hpositive : w.fm.sessionImageBatch ≤ 0 →
      batch = maxBatch w.db.committed w.fm.sessionRecId + 1 := by
    intro hle
    rcases hbatch with ⟨hlt, -⟩ | ⟨-, -, h⟩
    · omega
    · exact h
  rw [Act.wp_bind, Act.wp_get]
  beta_reduce
  rw [Act.wp_bind]
  refine wp_executeQuery_idle hidle ?_ ?_
  · simp only [Act.wp_bind, Act.wp_throwIf]
    exact ⟨fun _ => ⟨rfl, hidle, hchosen, Or.inl ⟨rfl, rfl⟩⟩,
      fun h => absurd rfl h⟩
  · intro tables _ hrow
    have hnone : w.db.committed.sessionimage.contains env.newId = false := by
      rw [Std.TreeMap.contains_eq_isSome_getElem?, hfresh]
      rfl
    simp only [hnone, Bool.false_eq_true, if_false,
      Option.map_eq_some_iff] at hrow
    obtain ⟨imgdata, -, rfl⟩ := hrow
    simp only [Act.wp_bind, Act.wp_throwIf, Act.wp_modify]
    refine ⟨fun h => absurd h (by decide), fun _ => ?_⟩
    refine Act.wp_of_apply (ignoreFSNotifications_apply _) ?_
    suffices hopened : ImageStep w (windowOpened _) env.newId from
      ⟨fun _ => hopened, fun _ => hopened.of_same (sameImages_removeFile ..)⟩
    refine ImageStep.of_same ?_ (sameImages_windowOpened _)
    exact ImageStep.stored hchosen hpositive rfl rfl rfl rfl rfl

/-! ## Connecting -/

theorem store_sameImages (ptr : DBFileInfoPtr)
    (f : DBFileInfo → DBFileInfo) : Act.Keeps SameImages (store ptr f) := by
  cases ptr with
  | none =>
      exact Act.Keeps.undefined.bind fun _ =>
        Act.Keeps.modify fun _ => ⟨rfl, rfl, rfl, rfl⟩
  | some r =>
      exact (Act.Keeps.pure r).bind fun _ =>
        Act.Keeps.modify fun _ => ⟨rfl, rfl, rfl, rfl⟩

theorem loadFiles_sameImages (env : Env)
    (whereClause : ℤ → FileRow → Bool) :
    Act.Keeps SameImages (loadFiles env whereClause) := by
  have hcache : ∀ row, Act.Keeps SameImages (cacheFile env row) := by
    intro row
    refine Act.Keeps.get.bind fun w => ?_
    split
    · exact store_sameImages _ _
    · refine Act.Keeps.bind ?_ fun _ => ?_
      · exact fun _ => ⟨rfl, rfl, rfl, rfl⟩
      · exact Act.Keeps.modify fun _ => ⟨rfl, rfl, rfl, rfl⟩
  have hload : ∀ row, Act.Keeps SameImages (loadFile env row) := by
    intro row
    refine (hcache row).bind fun _ => Act.Keeps.modify fun w => ?_
    split
    · exact Std.Refl.refl w
    · exact ⟨rfl, rfl, rfl, rfl⟩
  refine Act.Keeps.get.bind fun w => Act.Keeps.ite ?_ ?_
  · exact Act.Keeps.pure _
  · exact Act.Keeps.forEach _ hload

/-- A new process knows no images, whether it connects or not. -/
theorem connect_renewed (env : Env) (w : World) :
    let w' := (connect env w.fm.wspaceId w.fm.sessionRecId
      (Batching.renewed w)).2
    w'.fm.sessionRecId = w.fm.sessionRecId ∧ w'.fm.sessionImageBatch = 0 ∧
      w'.fm.imageIds = [] ∧ w'.db = w.db := by
  let R : World → World → Prop := fun a b =>
    a.fm.sessionRecId = w.fm.sessionRecId ∧ a.fm.sessionImageBatch = 0 ∧
      a.fm.imageIds = [] ∧ a.db = w.db →
    b.fm.sessionRecId = w.fm.sessionRecId ∧ b.fm.sessionImageBatch = 0 ∧
      b.fm.imageIds = [] ∧ b.db = w.db
  have hrefl : Std.Refl R := ⟨fun _ => id⟩
  have htrans : IsTrans World R := ⟨fun _ _ _ hab hbc h => hbc (hab h)⟩
  have hload : Act.Keeps R
      (loadFiles env (whereWspace w.fm.wspaceId)) := by
    rintro a ⟨hsession, hbatch, hids, hdb⟩
    have hsame := loadFiles_sameImages env (whereWspace w.fm.wspaceId) a
    exact ⟨hsame.session.trans hsession, hsame.batch.trans hbatch,
      hsame.ids.trans hids, hsame.db.trans hdb⟩
  have hconnect : Act.Keeps R
      (connect env w.fm.wspaceId w.fm.sessionRecId) := by
    refine Act.Keeps.bind ?_ fun _ => Act.Keeps.bind ?_ fun _ =>
      hload.bind fun _ => ?_
    · exact Act.Keeps.modify fun a h => ⟨rfl, h.2⟩
    · exact (Act.Keeps.throwIf _ _).bind fun _ => Act.Keeps.throwIf _ _
    · exact Act.Keeps.modify fun a h => ⟨h.1, rfl, h.2.2⟩
  exact hconnect (Batching.renewed w) ⟨rfl, rfl, rfl, rfl⟩

/-! ## Every operation keeps the invariant -/

theorem newImages_of_same {before after : World}
    (h : after.db.committed.sessionimage = before.db.committed.sessionimage) :
    newImages before after = [] := by
  rw [newImages, List.map_eq_nil_iff, List.filter_eq_nil_iff]
  rintro ⟨id, row⟩ hmem hnew
  rw [Map.mem_toList, h] at hmem
  simp only [decide_eq_true_eq] at hnew
  rw [hnew.2] at hmem
  cases hmem

theorem newImages_of_insert {before after : World} {id : ℤ} {row : ImageRow}
    (hnone : before.db.committed.sessionimage[id]? = none)
    (hsession : row.sessionid = after.fm.sessionRecId)
    (h : ∀ k : ℤ, after.db.committed.sessionimage[k]? =
      if id = k then some row else before.db.committed.sessionimage[k]?) :
    newImages before after = [id] := by
  have hperm := (Map.toList_perm_cons hnone h).filter fun p =>
    decide (p.2.sessionid = after.fm.sessionRecId ∧
      before.db.committed.sessionimage[p.1]? = none)
  have hold : before.db.committed.sessionimage.toList.filter (fun p =>
      decide (p.2.sessionid = after.fm.sessionRecId ∧
        before.db.committed.sessionimage[p.1]? = none)) = [] := by
    rw [List.filter_eq_nil_iff]
    rintro ⟨k, old⟩ hmem hnew
    simp only [decide_eq_true_eq] at hnew
    rw [Map.mem_toList, hnew.2] at hmem
    cases hmem
  rw [List.filter_cons_of_pos (by simp [hsession, hnone]), hold] at hperm
  rw [newImages, List.perm_singleton.mp hperm]
  rfl

namespace Batching

section StoringImages

variable {s s' : Batching} {id : ℤ}

/-- The number of a batch that may just have been chosen. -/
theorem Steady.batch_nonneg (h : s.Steady)
    (hstep : ImageStep s.world s'.world id) :
    0 ≤ s'.world.fm.sessionImageBatch := by
  have hmax : 0 ≤ maxBatch s.world.db.committed s.world.fm.sessionRecId :=
    maxBatch_nonneg fun id row hrow hsession => h.stored id row ⟨hrow, hsession⟩
  rcases hstep.batch with hsame | ⟨-, hnew⟩
  · rw [hsame]
    exact h.batch
  · omega

/-- A batch with images keeps its number. -/
theorem Steady.batch_kept (h : s.Steady)
    (hstep : ImageStep s.world s'.world id)
    (hne : s.world.fm.imageIds ≠ []) :
    s'.world.fm.sessionImageBatch = s.world.fm.sessionImageBatch := by
  rcases hstep.batch with hsame | ⟨hle, -⟩
  · exact hsame
  · exact absurd (le_antisymm hle h.batch) (h.chosen hne)

/-- The rows before the step lie in earlier batches if they are not listed. -/
theorem Steady.earlier_step (h : s.Steady)
    (hstep : ImageStep s.world s'.world id)
    (hne : s'.world.fm.sessionImageBatch ≠ 0) {k : ℤ} {row : ImageRow}
    (hrow : s.world.HasImage k row) (hk : k ∉ s.world.fm.imageIds) :
    row.batchid < s'.world.fm.sessionImageBatch := by
  rcases hstep.batch with hsame | ⟨-, hnew⟩
  · rw [hsame] at hne ⊢
    exact h.earlier hne k row hrow hk
  · rw [hnew]
    exact Int.lt_add_one_of_le (le_maxBatch hrow.1 hrow.2)

/-- An image that is not stored. -/
theorem Steady.keepsImages (h : s.Steady)
    (hstep : ImageStep s.world s'.world id)
    (hsince : s'.since = s.since ++ newImages s.world s'.world)
    (hids : s'.world.fm.imageIds = s.world.fm.imageIds)
    (htable : s'.world.db.committed.sessionimage =
      s.world.db.committed.sessionimage) : s'.Steady := by
  have hhas : ∀ k row, s'.world.HasImage k row ↔ s.world.HasImage k row := by
    intro k row
    rw [World.HasImage, World.HasImage, htable, hstep.session]
  have hbatch := h.batch_nonneg hstep
  refine ⟨⟨?_, ?_, ?_, ?_⟩, hstep.idle, hbatch, ?_, ?_⟩
  · rw [hids]
    exact h.nodup
  · rw [hsince, newImages_of_same htable, List.append_nil, hids]
    exact h.listed
  · intro k hk
    rw [hids] at hk
    obtain ⟨row, hrow, hcurrent⟩ := h.current k hk
    have hkept := h.batch_kept hstep (List.ne_nil_of_mem hk)
    exact ⟨row, (hhas k row).mpr hrow, hcurrent.trans hkept.symm⟩
  · intro hne k row hrow hk
    rw [hids] at hk
    exact h.earlier_step hstep hne ((hhas k row).mp hrow) hk
  · intro hne
    rw [hids] at hne
    rw [h.batch_kept hstep hne]
    exact h.chosen hne
  · exact fun k row hrow => h.stored k row ((hhas k row).mp hrow)

/-- An image that is stored under a fresh id. -/
theorem Steady.addsImage {row : ImageRow} (h : s.Steady)
    (hstep : ImageStep s.world s'.world id)
    (hsince : s'.since = s.since ++ newImages s.world s'.world)
    (hfresh : s.world.db.committed.sessionimage[id]? = none)
    (hchosen : s.world.fm.sessionImageBatch ≤ 0 →
      s'.world.fm.sessionImageBatch =
        maxBatch s.world.db.committed s.world.fm.sessionRecId + 1)
    (hids : s'.world.fm.imageIds = s.world.fm.imageIds ++ [id])
    (hsession : row.sessionid = s.world.fm.sessionRecId)
    (hrowbatch : row.batchid = s'.world.fm.sessionImageBatch)
    (htable : ∀ k : ℤ, s'.world.db.committed.sessionimage[k]? =
      if id = k then some row else s.world.db.committed.sessionimage[k]?) :
    s'.Steady := by
  have hbatch := h.batch_nonneg hstep
  have hhas : ∀ k r, s'.world.HasImage k r ↔
      k = id ∧ r = row ∨ k ≠ id ∧ s.world.HasImage k r := by
    intro k r
    rw [World.HasImage, World.HasImage, htable, hstep.session]
    by_cases hk : id = k
    · subst hk
      rw [if_pos rfl, Option.some.injEq]
      constructor
      · rintro ⟨rfl, -⟩
        exact Or.inl ⟨rfl, rfl⟩
      · rintro (⟨-, rfl⟩ | ⟨hne, -⟩)
        · exact ⟨rfl, hsession⟩
        · exact absurd rfl hne
    · simp [hk, Ne.symm hk]
  have hnew : id ∉ s.world.fm.imageIds := by
    intro hid
    obtain ⟨r, ⟨hr, -⟩, -⟩ := h.current _ hid
    rw [hfresh] at hr
    cases hr
  have hpositive : 0 < s'.world.fm.sessionImageBatch := by
    have hmax : 0 ≤ maxBatch s.world.db.committed s.world.fm.sessionRecId :=
      maxBatch_nonneg fun k r hr hown => h.stored k r ⟨hr, hown⟩
    rcases lt_or_ge 0 s.world.fm.sessionImageBatch with hlt | hle
    · rcases hstep.batch with hsame | ⟨hle, -⟩
      · rw [hsame]
        exact hlt
      · omega
    · rw [hchosen hle]
      omega
  refine ⟨⟨?_, ?_, ?_, ?_⟩, hstep.idle, hbatch, ?_, ?_⟩
  · rw [hids]
    exact List.nodup_append_comm.mpr (List.nodup_cons.mpr ⟨hnew, h.nodup⟩)
  · rw [hsince, hids, h.listed,
      newImages_of_insert hfresh (hsession.trans hstep.session.symm) htable]
  · intro k hk
    rw [hids, List.mem_append, List.mem_singleton] at hk
    rcases hk with hk | rfl
    · obtain ⟨r, hr, hcurrent⟩ := h.current k hk
      have hne : k ≠ id := fun heq => hnew (heq ▸ hk)
      have hkept := h.batch_kept hstep (List.ne_nil_of_mem hk)
      exact ⟨r, (hhas k r).mpr (Or.inr ⟨hne, hr⟩), hcurrent.trans hkept.symm⟩
    · exact ⟨row, (hhas _ _).mpr (Or.inl ⟨rfl, rfl⟩), hrowbatch⟩
  · intro hne k r hr hk
    rw [hids, List.mem_append, List.mem_singleton, not_or] at hk
    rcases (hhas k r).mp hr with ⟨heq, -⟩ | ⟨-, hold⟩
    · exact absurd heq hk.2
    · exact h.earlier_step hstep hne hold hk.1
  · exact fun _ => hpositive.ne'
  · intro k r hr
    rcases (hhas k r).mp hr with ⟨-, rfl⟩ | ⟨-, hold⟩
    · rw [hrowbatch]
      exact hbatch
    · exact h.stored k r hold

end StoringImages

theorem Steady.insertImage {s : Batching} (h : s.Steady) {env : Env}
    {fname imgNumStr : String}
    (hallowed : s.Allowed (.insertImage env fname imgNumStr)) :
    (s.step (.insertImage env fname imgNumStr)).Steady := by
  obtain ⟨-, hfresh⟩ := hallowed
  have hstep : ImageStep s.world
      (s.step (.insertImage env fname imgNumStr)).world env.newId :=
    (insertImage_imageStep env fname imgNumStr h.idle hfresh).final
  rcases hstep.rows with ⟨hids, htable⟩ |
    ⟨hchosen, hids, row, hsession, hrowbatch, htable⟩
  · exact h.keepsImages hstep rfl hids htable
  · exact h.addsImage hstep rfl hfresh hchosen hids hsession hrowbatch htable

theorem Steady.connect {s : Batching} (h : s.Steady) (env : Env) :
    (s.step (.connect env)).Steady := by
  obtain ⟨hsession, hbatch, hids, hdb⟩ := connect_renewed env s.world
  have hworld : (s.step (.connect env)).world = (Files.connect env
      s.world.fm.wspaceId s.world.fm.sessionRecId (renewed s.world)).2 := rfl
  rw [← hworld] at hsession hbatch hids hdb
  refine ⟨⟨?_, hids, ?_, fun hne => absurd hbatch hne⟩, ?_, hbatch.ge,
    fun hne => absurd hids hne, ?_⟩
  · rw [hids]
    exact List.nodup_nil
  · rw [hids]
    exact fun id hid => absurd hid List.not_mem_nil
  · rw [hdb]
    exact h.idle
  · intro id row hrow
    rw [World.HasImage, hdb, hsession] at hrow
    exact h.stored id row hrow

theorem Steady.resetWatch {s : Batching} (h : s.Steady) :
    (s.step .resetWatch).Steady := by
  let w := s.world
  let batch := if w.fm.imageIds.length > 0 then w.fm.sessionImageBatch + 1
    else w.fm.sessionImageBatch
  have hbatch : 0 ≤ batch := by
    have hold : 0 ≤ w.fm.sessionImageBatch := h.batch
    dsimp only [batch]
    split
    · omega
    · exact hold
  refine ⟨⟨List.nodup_nil, rfl, fun id hid => absurd hid List.not_mem_nil,
    ?_⟩, h.idle, hbatch, fun hne => absurd rfl hne, h.stored⟩
  change batch ≠ 0 → ∀ id row, w.HasImage id row → id ∉ [] → row.batchid < batch
  intro hne id row hrow _
  by_cases hlisted : id ∈ w.fm.imageIds
  · obtain ⟨r, hr, hcurrent⟩ := h.current id hlisted
    have hrow' : row = r := by
      have := hrow.1.symm.trans hr.1
      exact Option.some.inj this
    have hpos : w.fm.imageIds.length > 0 := List.length_pos_of_mem hlisted
    dsimp only [batch]
    rw [if_pos hpos, hrow', hcurrent]
    exact Int.lt_add_one_of_le (le_refl _)
  · dsimp only [batch] at hne ⊢
    split at hne
    next hpos =>
      have hold : w.fm.sessionImageBatch ≠ 0 :=
        h.chosen (List.ne_nil_of_length_pos hpos)
      rw [if_pos hpos]
      exact (h.earlier hold id row hrow hlisted).trans
        (Int.lt_add_one_of_le (le_refl _))
    next hpos =>
      rw [if_neg hpos]
      exact h.earlier hne id row hrow hlisted

theorem Steady.others {s : Batching} (h : s.Steady) {rows : Map ℤ ImageRow}
    (hallowed : s.Allowed (.others rows)) :
    (s.step (.others rows)).Steady := by
  have hhas : ∀ id row, (s.step (.others rows)).world.HasImage id row ↔
      s.world.HasImage id row := by
    intro id row
    constructor
    · rintro ⟨hrow, hsession⟩
      exact ⟨(hallowed id row hsession).mp hrow, hsession⟩
    · rintro ⟨hrow, hsession⟩
      exact ⟨(hallowed id row hsession).mpr hrow, hsession⟩
  refine ⟨⟨h.nodup, h.listed, ?_, ?_⟩, h.idle, h.batch, h.chosen, ?_⟩
  · intro id hid
    obtain ⟨row, hrow, hcurrent⟩ := h.current id hid
    exact ⟨row, (hhas id row).mpr hrow, hcurrent⟩
  · exact fun hne id row hrow => h.earlier hne id row ((hhas id row).mp hrow)
  · exact fun id row hrow => h.stored id row ((hhas id row).mp hrow)

theorem Steady.step {s : Batching} {op : BatchOp} (h : s.Steady)
    (hallowed : s.Allowed op) : (s.step op).Steady := by
  cases op with
  | connect env => exact h.connect env
  | draws disk => exact ⟨⟨h.nodup, h.listed, h.current, h.earlier⟩, h.idle,
      h.batch, h.chosen, h.stored⟩
  | insertImage env fname imgNumStr => exact h.insertImage hallowed
  | resetWatch => exact h.resetWatch
  | checkWatch => exact h
  | others rows => exact h.others hallowed

/-! ## The run -/

/-- A session whose process has just connected. -/
def connected (env : Env) (workingDir : String)
    (wspaceId sessionRecId : ℤ) (tables : Tables) : Batching where
  world := (Files.connect env wspaceId sessionRecId
    (World.initial workingDir wspaceId sessionRecId tables)).2
  since := []

theorem connected_steady (env : Env) (workingDir : String)
    (wspaceId : ℤ) {sessionRecId : ℤ} {tables : Tables}
    (hstored : ∀ (id : ℤ) row, tables.sessionimage[id]? = some row →
      row.sessionid = sessionRecId → 0 ≤ row.batchid) :
    (connected env workingDir wspaceId sessionRecId tables).Steady := by
  let w := World.initial workingDir wspaceId sessionRecId tables
  have hbefore : Steady ⟨w, []⟩ :=
    ⟨⟨List.nodup_nil, rfl, fun id hid => absurd hid List.not_mem_nil,
      fun hne => absurd rfl hne⟩, rfl, le_refl _, fun hne => absurd rfl hne,
      fun id row hrow => hstored id row hrow.1 hrow.2⟩
  exact hbefore.connect env

/-- After one connect, in every state of a run, the reported ids are exactly
the rows inserted since the last reset, all in the current batch, and all
other rows of the session are in smaller ones. -/
theorem accounted_of_run (env : Env) (workingDir : String)
    (wspaceId : ℤ) {sessionRecId : ℤ} {tables : Tables}
    (hstored : ∀ (id : ℤ) row, tables.sessionimage[id]? = some row →
      row.sessionid = sessionRecId → 0 ≤ row.batchid)
    {ops : List BatchOp}
    (hops : Transition.Along step Allowed
      (connected env workingDir wspaceId sessionRecId tables) ops) :
    (Transition.run step
      (connected env workingDir wspaceId sessionRecId tables)
      ops).Accounted :=
  (Transition.run_invariant (fun _ _ h hallowed => Steady.step h hallowed)
    (connected_steady env workingDir wspaceId hstored) hops).toAccounted

/-- Two images, the second of which cannot be removed, a reset, and one more
image after another process has taken over. -/
theorem accounted_three_images :
    (Transition.run step (connected (Env.succeeding 1 1) "wd" 1 1 ⟨∅, ∅, ∅, ∅⟩)
      [.draws (((∅ : Map String Bytes).insert "rc2img1.png" [1]).insert
          "rc2img2.png" [2]),
        .insertImage (Env.succeeding 1 1) "rc2img1.png" "1",
        .insertImage { Env.succeeding 1 2 with fails := (· = .remove) }
          "rc2img2.png" "2",
        .resetWatch, .connect (Env.succeeding 1 1),
        .insertImage (Env.succeeding 1 3) "rc2img2.png" "2"]).Accounted :=
  accounted_of_run (Env.succeeding 1 1) "wd" 1
    (fun id row h => by cases h)
    ⟨trivial, ⟨by decide, by decide +kernel⟩, ⟨by decide, by decide +kernel⟩,
      trivial, trivial, ⟨by decide, by decide +kernel⟩, trivial⟩

end Batching

end Rc2Compute.Files
