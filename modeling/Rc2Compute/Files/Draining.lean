import Rc2Compute.Files.Batches
import Rc2Compute.Files.Pointers

/-!
# Draining the pending images

An acknowledgement stores the images that are still pending and then forgets
them all.  The images are stored one after the other; the list of what is
pending is cleared behind the last of them.  A call that throws in between
leaves the list as it was, and the next call starts again.
-/

namespace Rc2Compute.Files.Draining

open Transition Drawing

/-! ## One image -/

section

variable (env : Env) (w : World) (fname : String)

/-- The file as `file_size` finds it. -/
def seenFile : Option Bytes :=
  if env.fails .fileSize then none else w.disk[fname]?

/-- The image is present with data. -/
def hasData : Bool :=
  (seenFile env w fname).any fun data => decide (0 < data.length)

/-- Storing the bytes of an image fails before there is a row. -/
def InsertFails (data : Bytes) : Prop :=
  env.fails .readFile = true ∨ env.fails .nextImageId = true ∨
    env.newId ≤ 0 ∨
    (w.fm.sessionImageBatch ≤ 0 ∧ env.fails .selectBatch = true) ∨
    env.fails .insertImage = true ∨ w.db.transaction = some none ∨
    w.db.visible.sessionimage.contains env.newId = true ∨
    byteaParam env (env.buffer data) = none

/-- The image is present with data and is not stored. -/
def Refused : Prop :=
  ∃ data, seenFile env w fname = some data ∧ 0 < data.length ∧
    InsertFails env w data

/-- The image is present and empty. -/
def Skipped : Prop :=
  env.fails .readFile = false ∧ seenFile env w fname = some []

end

/-- What a visit that returns has done: an image with data is stored and its
file is gone. -/
structure VisitReturned (env : Env) (fname : String) (w w' : World) :
    Prop where
  storable : Storable env w fname
  pending : w'.fm.pendingImagesByWatchDesc = w.fm.pendingImagesByWatchDesc
  imageIds : w'.fm.imageIds =
    w.fm.imageIds ++ if hasData env w fname then [env.newId] else []
  disk : ∀ name : String, w'.disk[name]? =
    if hasData env w fname = true ∧ fname = name then none
    else w.disk[name]?
  skipped : hasData env w fname = false →
    w'.fm = w.fm ∧ w'.disk = w.disk ∧ w'.db = w.db

/-- What a visit that throws has done: it has stored nothing, unless the image
had data and the insertion went through. -/
structure VisitThrew (env : Env) (fname : String) (w w' : World) : Prop where
  storable : ¬Storable env w fname
  pending : w'.fm.pendingImagesByWatchDesc = w.fm.pendingImagesByWatchDesc
  imageIds : (w'.fm.imageIds = w.fm.imageIds ∧
      (hasData env w fname = true → Refused env w fname)) ∨
    (w'.fm.imageIds = w.fm.imageIds ++ [env.newId] ∧
      hasData env w fname = true ∧ ¬Refused env w fname)

/-! ### The insertion -/

/-- With an id and a batch only the row itself can be refused. -/
theorem rowAccepted_iff {env : Env} {w : World} {data : Bytes}
    (hread : ¬env.fails .readFile = true)
    (hnext : ¬env.fails .nextImageId = true) (hid : ¬env.newId ≤ 0)
    (hselect : ¬(w.fm.sessionImageBatch ≤ 0 ∧ env.fails .selectBatch = true))
    (row : Bytes → Tables) :
    (env.fails .insertImage = false ∧ w.db.transaction ≠ some none ∧
      (if w.db.visible.sessionimage.contains env.newId = true then none
        else (byteaParam env (env.buffer data)).map row).isSome = true) ↔
      ¬InsertFails env w data := by
  constructor
  · rintro ⟨hinsert, hopen, haccept⟩
    split at haccept
    · cases haccept
    next hnew =>
      rw [Option.isSome_map, Option.isSome_iff_ne_none] at haccept
      simp only [InsertFails, not_or]
      exact ⟨hread, hnext, hid, hselect, by simp [hinsert], hopen, hnew,
        haccept⟩
  · intro haccepted
    simp only [InsertFails, not_or, Bool.not_eq_true] at haccepted
    obtain ⟨-, -, -, -, hinsert, hopen, hnew, hfits⟩ := haccepted
    refine ⟨hinsert, hopen, ?_⟩
    rw [if_neg (by simp [hnew]), Option.isSome_map]
    exact Option.isSome_iff_ne_none.mpr hfits

theorem insertImage_visit {env : Env} {w : World} {fname imgNumStr : String}
    {data : Bytes} (hdata : w.disk[fname]? = some data) :
    Act.wp (insertImage env fname imgNumStr)
      (fun _ w' => env.fails .readFile = false ∧
        ((data.length < 1 ∧ w' = w) ∨
          (¬data.length < 1 ∧ ¬InsertFails env w data ∧
            env.fails .remove = false ∧
            w'.fm.pendingImagesByWatchDesc = w.fm.pendingImagesByWatchDesc ∧
            w'.fm.imageIds = w.fm.imageIds ++ [env.newId] ∧
            ∀ name : String, w'.disk[name]? =
              if fname = name then none else w.disk[name]?)))
      (fun _ w' =>
        w'.fm.pendingImagesByWatchDesc = w.fm.pendingImagesByWatchDesc ∧
        ((InsertFails env w data ∧ w'.fm.imageIds = w.fm.imageIds ∧
            (data.length < 1 → env.fails .readFile = true)) ∨
          (¬data.length < 1 ∧ ¬InsertFails env w data ∧
            env.fails .remove = true ∧
            w'.fm.imageIds = w.fm.imageIds ++ [env.newId]))) w := by
  rw [insertImage, Act.wp_bind]
  refine wp_readFileBlob (fun e hno => ?_) fun found hread hfound => ?_
  · have hread : env.fails .readFile = true := by
      by_contra hreads
      rw [hno (Bool.eq_false_iff.mpr hreads)] at hdata
      cases hdata
    exact ⟨rfl, Or.inl ⟨Or.inl hread, rfl, fun _ => hread⟩⟩
  obtain rfl : data = found := Option.some.inj (hdata.symm.trans hfound)
  rw [Env.length_buffer]
  by_cases hempty : data.length < 1
  · rw [if_pos hempty, Act.wp_pure]
    exact ⟨hread, Or.inl ⟨hempty, rfl⟩⟩
  have hfull : data.length < 1 → env.fails .readFile = true :=
    fun h => absurd h hempty
  rw [if_neg hempty, Act.wp_bind]
  refine wp_longFromQuery (fun hnext _ =>
    ⟨rfl, Or.inl ⟨Or.inr (Or.inl hnext), rfl, hfull⟩⟩) fun hnext => ?_
  rw [Act.wp_bind, Act.wp_throwIf]
  refine ⟨fun hid => ⟨rfl, Or.inl ⟨?_, rfl, hfull⟩⟩, fun hid => ?_⟩
  · exact Or.inr (Or.inr (Or.inl hid))
  rw [Act.wp_bind]
  refine (startImageBatch_spec env w).mono ?_ ?_
  · rintro _ _ ⟨batch, rfl, hbatch⟩
    have hselect : ¬(w.fm.sessionImageBatch ≤ 0 ∧
        env.fails .selectBatch = true) := by
      rintro ⟨hle, hfails⟩
      rcases hbatch with ⟨hlt, -⟩ | ⟨-, hselected, -⟩
      · omega
      · rw [hselected] at hfails
        cases hfails
    rw [Act.wp_bind, Act.wp_get]
    beta_reduce
    rw [Act.wp_bind]
    refine (executeQuery_spec _ _ _ _).mono ?_ fun _ _ h => h.elim
    rintro ok w₁ ⟨hfm, hdisk, hok⟩
    rw [Act.wp_bind, Act.wp_throwIf]
    have hstored : ok = true ↔ ¬InsertFails env w data :=
      hok.trans (rowAccepted_iff (Bool.eq_false_iff.mp hread)
        (Bool.eq_false_iff.mp hnext) hid hselect _)
    refine ⟨fun hno => ?_, fun hyes => ?_⟩
    · have hfailed : InsertFails env w data := by
        by_contra hgood
        rw [hstored.mpr hgood] at hno
        cases hno
      rw [hfm]
      exact ⟨rfl, Or.inl ⟨hfailed, rfl, hfull⟩⟩
    have hgood := hstored.mp (by simpa using hyes)
    rw [Act.wp_bind, Act.wp_modify, Act.wp_bind]
    refine Act.wp_of_apply (ignoreFSNotifications_apply _) ?_
    rw [Act.wp_bind, Act.wp_throwIf]
    refine ⟨fun hremove => ?_, fun hremove => ?_⟩
    · refine ⟨?_, Or.inr ⟨hempty, hgood, hremove, ?_⟩⟩
      · rw [windowOpened_pendingImagesByWatchDesc, hfm]
      · rw [windowOpened_imageIds, hfm]
    · rw [Act.wp_modify]
      refine ⟨hread, Or.inr ⟨hempty, hgood, by simpa using hremove, ?_, ?_, ?_⟩⟩
      · rw [removeFile_fm, windowOpened_pendingImagesByWatchDesc, hfm]
      · rw [removeFile_fm, windowOpened_imageIds, hfm]
      · intro name
        rw [removeFile_disk, Map.getElem?_erase, windowOpened_disk, hdisk]
  · rintro e _ ⟨rfl, hbatch⟩
    exact ⟨rfl,
      Or.inl ⟨Or.inr (Or.inr (Or.inr (Or.inl hbatch))), rfl, hfull⟩⟩

/-! ### The visit -/

theorem seenFile_eq_some {env : Env} {w : World} {fname : String}
    {data : Bytes} : seenFile env w fname = some data ↔
      env.fails .fileSize = false ∧ w.disk[fname]? = some data := by
  rw [seenFile]
  cases env.fails .fileSize with
  | true => simp
  | false => simp

/-- An image can be stored if it is there and nothing fails on the way. -/
theorem storable_iff {env : Env} {w : World} {fname : String} :
    Storable env w fname ↔ env.fails .readFile = false ∧
      ∃ data, seenFile env w fname = some data ∧ (data.length < 1 ∨
        ¬InsertFails env w data ∧ env.fails .remove = false) := by
  constructor
  · rintro ⟨hsize, hread, data, hdata, hstore⟩
    refine ⟨hread, data, seenFile_eq_some.mpr ⟨hsize, hdata⟩, ?_⟩
    refine hstore.imp_right ?_
    rintro ⟨hnext, hid, hbatch, hinsert, hopen, hnew, hfits, hremove⟩
    refine ⟨?_, hremove⟩
    rintro (h | h | h | ⟨hle, h⟩ | h | h | h | h)
    · simp [hread] at h
    · simp [hnext] at h
    · omega
    · simp [hbatch hle] at h
    · simp [hinsert] at h
    · exact hopen h
    · simp [hnew] at h
    · simp [h] at hfits
  · rintro ⟨hread, data, hseen, hstore⟩
    obtain ⟨hsize, hdata⟩ := seenFile_eq_some.mp hseen
    refine ⟨hsize, hread, data, hdata, hstore.imp_right ?_⟩
    rintro ⟨hgood, hremove⟩
    simp only [InsertFails, not_or, Bool.not_eq_true, not_and, not_le]
      at hgood
    obtain ⟨-, hnext, hid, hbatch, hinsert, hopen, hnew, hfits⟩ := hgood
    exact ⟨hnext, hid, hbatch, hinsert, hopen, hnew,
      Option.isSome_iff_ne_none.mpr hfits, hremove⟩

section Seen

variable {env : Env} {w : World} {fname : String} {data : Bytes}
  (h : seenFile env w fname = some data)

include h

theorem hasData_of_seen : hasData env w fname = decide (0 < data.length) := by
  rw [hasData, h, Option.any_some]

theorem refused_of_seen :
    Refused env w fname ↔ 0 < data.length ∧ InsertFails env w data := by
  rw [Refused, h]
  simp

theorem storable_of_seen :
    Storable env w fname ↔ env.fails .readFile = false ∧ (data.length < 1 ∨
      ¬InsertFails env w data ∧ env.fails .remove = false) := by
  rw [storable_iff, h]
  simp

end Seen

theorem shelveImage_visit (envs : ℤ → Env) (entry : ℤ × PendingImage)
    (w : World) :
    Act.wp (shelveImage envs entry)
      (fun _ w' => VisitReturned (envs entry.1) entry.2.fileName w w')
      (fun _ w' => VisitThrew (envs entry.1) entry.2.fileName w w') w := by
  rw [shelveImage, Act.wp_bind, fileSize, Act.wp_bind, Act.wp_get]
  beta_reduce
  cases hseen : seenFile (envs entry.1) w entry.2.fileName with
  | none =>
      have hmissing : hasData (envs entry.1) w entry.2.fileName = false := by
        rw [hasData, hseen, Option.any_none]
      have hstorable : ¬Storable (envs entry.1) w entry.2.fileName := by
        rw [storable_iff, hseen]
        simp
      rw [seenFile] at hseen
      rw [hseen]
      refine ⟨hstorable, rfl, Or.inl ⟨rfl, fun hdata => ?_⟩⟩
      rw [hmissing] at hdata
      cases hdata
  | some data =>
      have hdata := hasData_of_seen hseen
      have hrefused := refused_of_seen hseen
      have hstorable := storable_of_seen hseen
      have hfile := (seenFile_eq_some.mp hseen).2
      rw [seenFile] at hseen
      rw [hseen]
      dsimp only
      rw [Act.wp_pure, Act.wp_bind]
      refine (insertImage_visit hfile).mono ?_ ?_
      · rintro _ w₁ ⟨hread, hend⟩
        refine (inotify_rm_watch_spec entry.2.wd w₁).mono ?_
          fun _ _ h => h.elim
        rintro _ w₂ ⟨hfm, hdisk, hdb⟩
        rcases hend with ⟨hempty, rfl⟩ |
          ⟨hfull, hgood, hremove, hpending, hids, hgone⟩
        · have hnone : hasData (envs entry.1) w₁ entry.2.fileName = false := by
            rw [hdata, decide_eq_false_iff_not]
            omega
          refine ⟨hstorable.mpr ⟨hread, Or.inl hempty⟩, by rw [hfm], ?_, ?_,
            fun _ => ⟨hfm, hdisk, hdb⟩⟩
          · rw [hfm, hnone]
            simp
          · intro name
            rw [hdisk, hnone]
            simp
        · have hsome : hasData (envs entry.1) w entry.2.fileName = true := by
            rw [hdata, decide_eq_true_eq]
            omega
          refine ⟨hstorable.mpr ⟨hread, Or.inr ⟨hgood, hremove⟩⟩, ?_, ?_, ?_,
            fun hnone => ?_⟩
          · rw [hfm, hpending]
          · rw [hfm, hids, hsome, if_pos rfl]
          · intro name
            rw [hdisk, hgone, hsome]
            simp
          · rw [hsome] at hnone
            cases hnone
      · rintro e w₁ ⟨hpending, hend⟩
        rcases hend with ⟨hfails, hids, hread⟩ |
          ⟨hfull, hgood, hremove, hids⟩
        · refine ⟨fun h => ?_, hpending, Or.inl ⟨hids, fun h => ?_⟩⟩
          · obtain ⟨hreads, hempty | ⟨hgood, -⟩⟩ := hstorable.mp h
            · rw [hread hempty] at hreads
              cases hreads
            · exact hgood hfails
          · rw [hdata, decide_eq_true_eq] at h
            exact hrefused.mpr ⟨h, hfails⟩
        · refine ⟨fun h => ?_, hpending, Or.inr ⟨hids, ?_, fun h => ?_⟩⟩
          · obtain ⟨hread, hempty | ⟨-, hremoved⟩⟩ := hstorable.mp h
            · exact hfull hempty
            · rw [hremove] at hremoved
              cases hremoved
          · rw [hdata, decide_eq_true_eq]
            omega
          · exact hgood (hrefused.mp h).2

/-! ## One call -/

section Calls

variable (envs : ℤ → Env)

/-- The images a loop over pending images stores, in order. -/
def storedImages : World → List (ℤ × PendingImage) → List (ℤ × PendingImage)
  | _, [] => []
  | w, entry :: entries =>
      let visit := shelveImage envs entry w
      (if visit.2.fm.imageIds = w.fm.imageIds then [] else [entry]) ++
        match visit.1 with
        | .returned _ => storedImages visit.2 entries
        | .threw _ | .undefined => []

/-- The image at which the loop throws, and the world it is visited in. -/
def failedVisit :
    World → List (ℤ × PendingImage) → Option ((ℤ × PendingImage) × World)
  | _, [] => none
  | w, entry :: entries =>
      let visit := shelveImage envs entry w
      match visit.1 with
      | .returned _ => failedVisit visit.2 entries
      | .threw _ | .undefined => some (entry, w)

/-- The images a call stores. -/
def storedBy (w : World) : List (ℤ × PendingImage) :=
  storedImages envs w w.fm.pendingImagesByWatchDesc.toList

/-- A call that returns has stored every image with data and left nothing
pending.  A call that throws has failed to store an image with data, and what
it had stored before is no longer pending. -/
structure Drains (w : World) : Prop where
  emptied : (cleanupImageWatch envs w).1 = .returned () →
    (∀ wd : ℤ, (cleanupImageWatch envs w).2.fm.pendingImagesByWatchDesc[wd]? =
      none) ∧
    storedBy envs w = w.fm.pendingImagesByWatchDesc.toList.filter
      fun entry => hasData (envs entry.1) w entry.2.fileName
  resumed : ∀ e, (cleanupImageWatch envs w).1 = .threw e →
    (∃ entry w', failedVisit envs w w.fm.pendingImagesByWatchDesc.toList =
      some (entry, w') ∧ hasData (envs entry.1) w' entry.2.fileName = true) ∧
    ∀ wd : ℤ, (cleanupImageWatch envs w).2.fm.pendingImagesByWatchDesc[wd]? =
      if wd ∈ (storedBy envs w).map Prod.fst then none
      else w.fm.pendingImagesByWatchDesc[wd]?

/-- The first image with data is not stored, and the ones before it are
skipped. -/
def FirstRefused (w : World) : List (ℤ × PendingImage) → Prop
  | [] => False
  | entry :: entries =>
      Refused (envs entry.1) w entry.2.fileName ∨
        (Skipped (envs entry.1) w entry.2.fileName ∧ FirstRefused w entries)

/-- The condition on a call: every pending image can be stored when its turn
comes, or the call throws before it has stored one. -/
def Drainable (w : World) : Prop :=
  PendingStorable envs w ∨
    FirstRefused envs w w.fm.pendingImagesByWatchDesc.toList

/-! ### The loop -/

variable {envs} {w : World}

theorem not_storable_of_refused {env : Env} {fname : String}
    (h : Refused env w fname) : ¬Storable env w fname := by
  obtain ⟨data, hseen, hlength, hfails⟩ := h
  rw [storable_of_seen hseen]
  rintro ⟨-, hempty | ⟨hgood, -⟩⟩
  · omega
  · exact hgood hfails

theorem Skipped.storable {env : Env} {fname : String}
    (h : Skipped env w fname) : Storable env w fname := by
  rw [storable_of_seen h.2]
  exact ⟨h.1, Or.inl (by simp)⟩

/-- An image without data that can be stored is skipped. -/
theorem skipped_of_storable {env : Env} {fname : String}
    (h : Storable env w fname) (hdata : hasData env w fname = false) :
    Skipped env w fname := by
  obtain ⟨hread, data, hseen, -⟩ := storable_iff.mp h
  rw [hasData_of_seen hseen, decide_eq_false_iff_not] at hdata
  obtain rfl : data = [] := List.length_eq_zero_iff.mp (by omega)
  exact ⟨hread, hseen⟩

theorem Refused.hasData {env : Env} {fname : String}
    (h : Refused env w fname) : hasData env w fname = true := by
  obtain ⟨data, hseen, hlength, -⟩ := h
  rw [hasData_of_seen hseen]
  exact decide_eq_true hlength

/-- One visit either returns or throws. -/
theorem shelveImage_cases (envs : ℤ → Env) (entry : ℤ × PendingImage)
    (w : World) :
    (∃ w', shelveImage envs entry w = (.returned (), w') ∧
      VisitReturned (envs entry.1) entry.2.fileName w w') ∨
    ∃ e w', shelveImage envs entry w = (.threw e, w') ∧
      VisitThrew (envs entry.1) entry.2.fileName w w' := by
  rcases (shelveImage_visit envs entry w).cases with
    ⟨_, hreturned, h⟩ | ⟨e, hthrew, h⟩
  · exact Or.inl ⟨_, Prod.ext hreturned rfl, h⟩
  · exact Or.inr ⟨e, _, Prod.ext hthrew rfl, h⟩

/-- Each image can be stored when its turn comes. -/
def AllStorable (envs : ℤ → Env) (w : World)
    (entries : List (ℤ × PendingImage)) : Prop :=
  Along (fun w entry => (shelveImage envs entry w).2)
    (fun w entry => Storable (envs entry.1) w entry.2.fileName) w entries

theorem allStorable_cons {entry : ℤ × PendingImage}
    {entries : List (ℤ × PendingImage)} :
    AllStorable envs w (entry :: entries) ↔
      Storable (envs entry.1) w entry.2.fileName ∧
        AllStorable envs (shelveImage envs entry w).2 entries :=
  Iff.rfl

/-- The loop keeps the list of pending images, and returns exactly if every
image can be stored. -/
theorem forEach_shelveImage_visit (envs : ℤ → Env)
    (entries : List (ℤ × PendingImage)) (w : World) :
    Act.wp (Act.forEach entries (shelveImage envs))
      (fun _ w' => AllStorable envs w entries ∧
        w'.fm.pendingImagesByWatchDesc = w.fm.pendingImagesByWatchDesc)
      (fun _ w' => ¬AllStorable envs w entries ∧
        w'.fm.pendingImagesByWatchDesc = w.fm.pendingImagesByWatchDesc) w := by
  induction entries generalizing w with
  | nil => exact ⟨trivial, rfl⟩
  | cons entry entries ih =>
      rw [Act.forEach_cons, Act.wp_bind, allStorable_cons]
      rcases shelveImage_cases envs entry w with
        ⟨w', hvisit, hreturned⟩ | ⟨e, w', hvisit, hthrew⟩
      · apply Act.wp_of_apply hvisit
        rw [hvisit, and_iff_right hreturned.storable, ← hreturned.pending]
        exact ih w'
      · rw [Act.wp, hvisit]
        exact ⟨fun h => hthrew.storable h.1, hthrew.pending⟩

/-! ### A loop that returns -/

/-- A file that is still there after a visit is as it was. -/
theorem VisitReturned.seenFile_eq {env env' : Env} {fname name : String}
    {w' : World} (h : VisitReturned env fname w w')
    (hseen : seenFile env' w' name ≠ none) :
    seenFile env' w' name = seenFile env' w name := by
  rw [seenFile, seenFile] at *
  by_cases hfails : env'.fails .fileSize = true
  · rw [if_pos hfails, if_pos hfails]
  · rw [if_neg hfails] at hseen
    rw [if_neg hfails, if_neg hfails, h.disk] at *
    by_cases hgone : Draining.hasData env w fname = true ∧ fname = name
    · rw [if_pos hgone] at hseen
      exact absurd rfl hseen
    · rw [if_neg hgone]

/-- Images that can all be stored are all there to begin with. -/
theorem AllStorable.seen {entries : List (ℤ × PendingImage)}
    (h : AllStorable envs w entries) {entry : ℤ × PendingImage}
    (hmem : entry ∈ entries) :
    seenFile (envs entry.1) w entry.2.fileName ≠ none := by
  induction entries generalizing w with
  | nil => cases hmem
  | cons first entries ih =>
      rw [allStorable_cons] at h
      obtain ⟨hfirst, hrest⟩ := h
      rcases List.mem_cons.mp hmem with rfl | hmem
      · obtain ⟨-, data, hdata, -⟩ := storable_iff.mp hfirst
        rw [hdata]
        exact Option.some_ne_none data
      · have hlater := ih hrest hmem
        rcases shelveImage_cases envs first w with
          ⟨w', hvisit, hreturned⟩ | ⟨e, w', hvisit, hthrew⟩
        · rw [hvisit] at hlater
          rw [← hreturned.seenFile_eq hlater]
          exact hlater
        · exact absurd hfirst hthrew.storable

/-- If every image can be stored, those with data are. -/
theorem storedImages_of_allStorable {entries : List (ℤ × PendingImage)}
    (h : AllStorable envs w entries) :
    storedImages envs w entries =
      entries.filter fun entry => hasData (envs entry.1) w entry.2.fileName := by
  induction entries generalizing w with
  | nil => rfl
  | cons entry entries ih =>
      rw [allStorable_cons] at h
      obtain ⟨hfirst, hrest⟩ := h
      rcases shelveImage_cases envs entry w with
        ⟨w', hvisit, hreturned⟩ | ⟨e, w', hvisit, hthrew⟩
      · rw [hvisit] at hrest
        have hsame : ∀ later ∈ entries,
            hasData (envs later.1) w' later.2.fileName =
              hasData (envs later.1) w later.2.fileName := by
          intro later hlater
          rw [hasData, hreturned.seenFile_eq (hrest.seen hlater), ← hasData]
        rw [storedImages]
        simp only [hvisit]
        rw [ih hrest, List.filter_congr hsame, hreturned.imageIds,
          List.filter_cons]
        split
        · simp
        · simp
      · exact absurd hfirst hthrew.storable

/-! ### A loop that throws -/

/-- An image that is stored was in the list. -/
theorem mem_of_mem_storedImages {entries : List (ℤ × PendingImage)}
    {entry : ℤ × PendingImage} (h : entry ∈ storedImages envs w entries) :
    entry ∈ entries := by
  induction entries generalizing w with
  | nil => exact h
  | cons first entries ih =>
      rw [storedImages, List.mem_append] at h
      rcases h with h | h
      · split at h
        · cases h
        · rw [List.mem_singleton.mp h]
          exact List.mem_cons_self
      · split at h
        · exact List.mem_cons_of_mem _ (ih h)
        · cases h
        · cases h

theorem firstRefused_congr {w' : World} (hfm : w'.fm = w.fm)
    (hdisk : w'.disk = w.disk) (hdb : w'.db = w.db)
    (entries : List (ℤ × PendingImage)) :
    FirstRefused envs w' entries ↔ FirstRefused envs w entries := by
  induction entries with
  | nil => exact Iff.rfl
  | cons entry entries ih =>
      rw [FirstRefused, FirstRefused, ih]
      simp only [Refused, Skipped, seenFile, InsertFails, hfm, hdisk, hdb]

/-- The loop throws at an image with data and has stored nothing. -/
theorem firstRefused_iff {entries : List (ℤ × PendingImage)} :
    FirstRefused envs w entries ↔ storedImages envs w entries = [] ∧
      ∃ entry w', failedVisit envs w entries = some (entry, w') ∧
        hasData (envs entry.1) w' entry.2.fileName = true := by
  induction entries generalizing w with
  | nil => simp [FirstRefused, failedVisit]
  | cons entry entries ih =>
      rw [FirstRefused, storedImages, failedVisit]
      rcases shelveImage_cases envs entry w with
        ⟨w', hvisit, hreturned⟩ | ⟨e, w', hvisit, hthrew⟩
      · have hrefused : ¬Refused (envs entry.1) w entry.2.fileName :=
          fun h => not_storable_of_refused h hreturned.storable
        simp only [hvisit, List.append_eq_nil_iff]
        rw [hreturned.imageIds, or_iff_right hrefused]
        by_cases hdata : hasData (envs entry.1) w entry.2.fileName = true
        · have hskipped : ¬Skipped (envs entry.1) w entry.2.fileName := by
            intro h
            rw [hasData_of_seen h.2] at hdata
            simp at hdata
          simp [hdata, hskipped]
        · rw [Bool.not_eq_true] at hdata
          obtain ⟨hfm, hdisk, hdb⟩ := hreturned.skipped hdata
          have hskipped := skipped_of_storable hreturned.storable hdata
          rw [and_iff_right hskipped, ← firstRefused_congr hfm hdisk hdb, ih]
          simp [hdata]
      · have hskipped : ¬Skipped (envs entry.1) w entry.2.fileName :=
          fun h => hthrew.storable h.storable
        simp only [hvisit, List.append_nil]
        rw [or_iff_left (fun h => hskipped h.1)]
        constructor
        · intro h
          rcases hthrew.imageIds with ⟨hids, -⟩ | ⟨-, -, hgood⟩
          · exact ⟨if_pos hids, entry, w, rfl, h.hasData⟩
          · exact absurd h hgood
        · rintro ⟨hnone, _, _, hfailed, hdata⟩
          obtain ⟨rfl, rfl⟩ := Prod.mk.inj (Option.some.inj hfailed)
          rcases hthrew.imageIds with ⟨-, hrefused⟩ | ⟨hids, -, -⟩
          · exact hrefused hdata
          · simp [hids] at hnone

/-! ### The call -/

/-- A call clears the list of pending images exactly if its loop returns. -/
theorem cleanupImageWatch_spec (envs : ℤ → Env) (w : World) :
    Act.wp (cleanupImageWatch envs)
      (fun _ w' => PendingStorable envs w ∧
        w'.fm.pendingImagesByWatchDesc = ∅)
      (fun _ w' => ¬PendingStorable envs w ∧
        w'.fm.pendingImagesByWatchDesc = w.fm.pendingImagesByWatchDesc) w := by
  have hbody : cleanupImageWatch envs = (do
      let w ← Act.get
      Act.forEach w.fm.pendingImagesByWatchDesc.toList (shelveImage envs)
      Act.modify fun w =>
        { w with fm := { w.fm with pendingImagesByWatchDesc := ∅ } }) :=
    rfl
  rw [hbody, Act.wp_bind, Act.wp_get]
  beta_reduce
  rw [Act.wp_bind]
  refine (forEach_shelveImage_visit envs _ w).mono ?_ fun _ _ h => h
  rintro _ w' ⟨hall, -⟩
  exact ⟨hall, rfl⟩

/-- The images a call stores are pending before it. -/
theorem mem_storedBy {entry : ℤ × PendingImage} (h : entry ∈ storedBy envs w) :
    w.fm.pendingImagesByWatchDesc[entry.1]? = some entry.2 :=
  (Map.mem_toList _).mp (mem_of_mem_storedImages h)

/-- If a call that throws leaves the list as it was, what it had stored is no
longer pending only if it had stored nothing. -/
theorem storedBy_eq_nil (h : ∀ wd : ℤ, w.fm.pendingImagesByWatchDesc[wd]? =
    if wd ∈ (storedBy envs w).map Prod.fst then none
    else w.fm.pendingImagesByWatchDesc[wd]?) : storedBy envs w = [] := by
  apply List.eq_nil_iff_forall_not_mem.mpr
  intro entry hentry
  have hnone := h entry.1
  rw [if_pos (List.mem_map_of_mem hentry), mem_storedBy hentry] at hnone
  cases hnone

/-- A call meets the description exactly under the condition. -/
theorem drains_iff : Drains envs w ↔ Drainable envs w := by
  rcases (cleanupImageWatch_spec envs w).cases with
    ⟨_, hreturned, hstorable, hempty⟩ | ⟨e, hthrew, hstorable, hpending⟩
  · apply iff_of_true _ (Or.inl hstorable)
    constructor
    · intro _
      rw [hempty]
      exact ⟨fun wd => by simp, storedImages_of_allStorable hstorable⟩
    · intro e hthrew
      rw [hreturned] at hthrew
      cases hthrew
  · rw [Drainable, or_iff_right hstorable, firstRefused_iff]
    constructor
    · intro h
      obtain ⟨hfailed, hresumed⟩ := h.resumed e hthrew
      rw [hpending] at hresumed
      exact ⟨storedBy_eq_nil hresumed, hfailed⟩
    · rintro ⟨hnone, hfailed⟩
      constructor
      · intro hreturned
        rw [hthrew] at hreturned
        cases hreturned
      · intro _ _
        refine ⟨hfailed, fun wd => ?_⟩
        rw [hpending, storedBy, hnone]
        simp

end Calls

/-! ## Any number of calls -/

/-- One call of `cleanupImageWatch`. -/
def drain (w : World) (envs : ℤ → Env) : World :=
  (cleanupImageWatch envs w).2

/-- The images that a sequence of calls stores, in order. -/
def storedOver : World → List (ℤ → Env) → List (ℤ × PendingImage)
  | _, [] => []
  | w, envs :: calls => storedBy envs w ++ storedOver (drain w envs) calls

/-- Over these calls every call does what it should, and no image is stored
twice. -/
def DrainsOver (w : World) (calls : List (ℤ → Env)) : Prop :=
  Along drain (fun w envs => Drains envs w) w calls ∧
    (storedOver w calls).Nodup

/-- With nothing pending nothing is stored. -/
theorem storedOver_of_empty {w : World}
    (h : ∀ wd : ℤ, w.fm.pendingImagesByWatchDesc[wd]? = none)
    (calls : List (ℤ → Env)) : storedOver w calls = [] := by
  induction calls generalizing w with
  | nil => rfl
  | cons envs calls ih =>
      have hnone : storedBy envs w = [] := by
        rw [storedBy, Map.toList_eq_nil h]
        rfl
      rw [storedOver, hnone, List.nil_append]
      apply ih
      rcases (cleanupImageWatch_spec envs w).cases with
        ⟨_, -, -, hempty⟩ | ⟨_, -, -, hpending⟩
      · intro wd
        rw [drain, hempty]
        simp
      · rw [drain, hpending]
        exact h

theorem storedOver_nodup {w : World} {calls : List (ℤ → Env)}
    (h : Along drain (fun w envs => Drainable envs w) w calls) :
    (storedOver w calls).Nodup := by
  induction calls generalizing w with
  | nil => exact List.nodup_nil
  | cons envs calls ih =>
      obtain ⟨hfirst, hrest⟩ := h
      rw [storedOver]
      rcases hfirst with hstorable | hrefused
      · have hempty : ∀ wd : ℤ,
            (drain w envs).fm.pendingImagesByWatchDesc[wd]? = none := by
          rcases (cleanupImageWatch_spec envs w).cases with
            ⟨_, -, -, hempty⟩ | ⟨_, -, hnot, -⟩
          · intro wd
            rw [drain, hempty]
            simp
          · exact absurd hstorable hnot
        rw [storedOver_of_empty hempty, List.append_nil, storedBy,
          storedImages_of_allStorable hstorable]
        exact (Map.nodup_toList _).filter _
      · have hnone : storedBy envs w = [] := (firstRefused_iff.mp hrefused).1
        rw [hnone, List.nil_append]
        exact ih hrest

/-- Any number of calls drain the images exactly if the condition holds of
every call. -/
theorem drainsOver_iff (w : World) (calls : List (ℤ → Env)) :
    DrainsOver w calls ↔
      Along drain (fun w envs => Drainable envs w) w calls := by
  simp only [DrainsOver, drains_iff]
  exact and_iff_left_of_imp storedOver_nodup

/-! ## Two images -/

/-- Two images are pending, and the file of the second one is missing. -/
def secondMissing : World :=
  let w := World.initial "wd" 1 1 ⟨∅, ∅, ∅, ∅⟩
  { w with
    disk := (∅ : Map String Bytes).insert "rc2img1.png" [1]
    fm :=
    { w.fm with
      pendingImagesByWatchDesc :=
        ((∅ : Map ℤ PendingImage).insert 5 ⟨"rc2img1.png", "1", 5⟩).insert 6
          ⟨"rc2img2.png", "2", 6⟩ } }

/-- The first image is stored and stays pending, and the call throws at the
missing file, as the next one does. -/
theorem drainsOver_fails_on_missing :
    ¬DrainsOver secondMissing [fun wd => Env.succeeding 7 wd] := by
  intro h
  let envs : ℤ → Env := fun wd => Env.succeeding 7 wd
  have hdrains : Drains envs secondMissing := h.1.1
  have hthrew : (cleanupImageWatch envs secondMissing).1 =
      .threw ⟨.filesystemError, ""⟩ := by decide +kernel
  have hstored : (5 : ℤ) ∈ (storedBy envs secondMissing).map Prod.fst := by
    decide +kernel
  have hpending : ((cleanupImageWatch envs
      secondMissing).2.fm.pendingImagesByWatchDesc[(5 : ℤ)]?).isSome =
      true := by
    decide +kernel
  have hresumed := (hdrains.resumed _ hthrew).2 5
  rw [if_pos hstored] at hresumed
  rw [hresumed] at hpending
  cases hpending

end Rc2Compute.Files.Draining
