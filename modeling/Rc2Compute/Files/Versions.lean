import Rc2Compute.Files.Coherence

/-!
# File versions across sessions

Several sessions have one workspace open.  Each caches the version it last
saw of a file and writes that number plus one when it stores the file again,
so a commit raises the stored version only when the cache is not behind.
-/

namespace Rc2Compute.Files

open Transition

/-! ## Sessions on one database -/

/-- The sessions `ι` and the tables they share. -/
structure Sessions (ι : Type) where
  db : Tables
  world : ι → World

variable {ι : Type} [DecidableEq ι]

/-- The world in which a session runs, with the shared tables. -/
def Sessions.enter (s : Sessions ι) (who : ι) : World :=
  { s.world who with db := ⟨s.db, none⟩ }

/-- The sessions after one of them has run. -/
def Sessions.leave (s : Sessions ι) (who : ι) (w : World) : Sessions ι where
  db := w.db.committed
  world := Function.update s.world who w

/-- A session stores a cached file again, hears that one has changed, or has
its disk and its kernel changed by R. -/
inductive SessionOp (ι : Type) where
  | update (who : ι) (env : Env) (id : ℤ)
  | notified (who : ι) (env : Env) (message : String)
  | outside (who : ι) (disk : Map String Bytes) (inotify : Inotify)

def sessionStep (s : Sessions ι) : SessionOp ι → Sessions ι
  | .update who env id =>
      match (s.world who).fm.filesById[id]? with
      | some ptr => s.leave who (updateDBFile env ptr (s.enter who)).2
      | none => s
  | .notified who env message =>
      s.leave who (processDBNotification env message (s.enter who)).2
  | .outside who disk inotify =>
      s.leave who { s.enter who with disk := disk, inotify := inotify }

/-- The messages are about changed files. -/
def OnlyUpdates (s : Sessions ι) : SessionOp ι → Prop
  | .notified who _ message =>
      ∀ type id, parseNotification (s.world who).fm.wspaceId message =
        some (type, id) → type = 'u'
  | _ => True

/-- The operation commits an update of a file: the transaction returns. -/
def commits (s : Sessions ι) (op : SessionOp ι) (id : ℤ) : Bool :=
  match op with
  | .update who env id' =>
      match (s.world who).fm.filesById[id']? with
      | some ptr =>
          id' = id ∧ (updateDBFile env ptr (s.enter who)).1 = .returned ()
      | none => false
  | _ => false

/-- The version stored for a file. -/
def storedVersion (s : Sessions ι) (id : ℤ) : Option ℤ :=
  s.db.rcfile[id]?.map FileRow.version

/-- A committed update of an existing row stores a higher version. -/
def RaisesVersion (s : Sessions ι) (op : SessionOp ι) : Prop :=
  ∀ id old, commits s op id = true → storedVersion s id = some old →
    ∃ new, storedVersion (sessionStep s op) id = some new ∧ old < new

/-- The version an operation commits for a file, if it commits one. -/
def committedVersion (s : Sessions ι) (op : SessionOp ι) (id : ℤ) :
    Option ℤ :=
  if commits s op id then storedVersion (sessionStep s op) id else none

/-- The versions a run commits for a file, in order. -/
def committedVersions (id : ℤ) : Sessions ι → List (SessionOp ι) → List ℤ
  | _, [] => []
  | s, op :: ops =>
      (committedVersion s op id).toList ++
        committedVersions id (sessionStep s op) ops

/-- What versions promise of a run: every commit raises the version, and the
versions a file ever had are all different. -/
def VersionsIdentify (s : Sessions ι) (ops : List (SessionOp ι)) : Prop :=
  Along sessionStep RaisesVersion s ops ∧
    ∀ id, ((storedVersion s id).toList ++ committedVersions id s ops).Nodup

/-- The cache is not behind the row, and the next version fits `int`. -/
def CacheCurrent (s : Sessions ι) : SessionOp ι → Prop
  | .update who _ id =>
      ∀ r old, (s.world who).fm.filesById[id]? = some (some r) →
        storedVersion s id = some old →
        let cached := ((s.world who).fm.objects r).version
        old ≤ cached ∧ -2 ^ 31 ≤ cached + 1 ∧ cached + 1 < 2 ^ 31
  | _ => True

/-! ## What an update does to the rows -/

/-- The rows inside a transaction, or outside of one when `begin` failed. -/
def WorkingRows (old new : Map ℤ FileRow) (w : World) : Prop :=
  (w.db.transaction = none ∧ w.db.committed.rcfile = new) ∨
    ∃ working, w.db.transaction = some (some working) ∧
      working.rcfile = new ∧ w.db.committed.rcfile = old

theorem WorkingRows.committed {old new : Map ℤ FileRow} {w : World}
    (h : WorkingRows old new w) :
    w.db.committed.rcfile = old ∨ w.db.committed.rcfile = new := by
  rcases h with ⟨-, h⟩ | ⟨_, -, -, h⟩
  · exact Or.inr h
  · exact Or.inl h

/-- A statement that changes the rows by `f` either fails, leaving the
committed rows, or changes the working rows by `f`. -/
theorem executeQuery_workingRows (env : Env) (call : Call)
    {statement : Tables → Option Tables} {f : Map ℤ FileRow → Map ℤ FileRow}
    (hf : ∀ t t', statement t = some t' → t'.rcfile = f t.rcfile)
    {old new : Map ℤ FileRow} {w : World} (h : WorkingRows old new w) :
    Act.wp (executeQuery env call statement)
      (fun ok w' =>
        (ok = true → WorkingRows old (f new) w') ∧
        (ok = false → w'.db.committed.rcfile = old ∨
          w'.db.committed.rcfile = new))
      (fun _ _ => False) w := by
  have hstatement : ∀ t,
      (if env.fails call then none else statement t) = none ∨
        ∃ t', (if env.fails call then none else statement t) = some t' ∧
          t'.rcfile = f t.rcfile := by
    intro t
    cases hresult : if env.fails call then none else statement t with
    | none => exact Or.inl rfl
    | some t' =>
        split at hresult
        · cases hresult
        · exact Or.inr ⟨t', rfl, hf t t' hresult⟩
  have hcommitted := h.committed
  unfold Act.wp executeQuery
  rcases h with ⟨htx, hrows⟩ | ⟨working, htx, hworking, hold⟩
  · rw [htx]
    rcases hstatement w.db.committed with hnone | ⟨t', hsome, ht'⟩
    · simp only [hnone]
      exact ⟨fun h => absurd h (by decide), fun _ => hcommitted⟩
    · simp only [hsome]
      refine ⟨fun _ => Or.inl ⟨htx, ?_⟩, fun h => absurd h (by decide)⟩
      rw [← hrows]
      exact ht'
  · rw [htx]
    rcases hstatement working with hnone | ⟨t', hsome, ht'⟩
    · simp only [hnone]
      exact ⟨fun h => absurd h (by decide), fun _ => hcommitted⟩
    · simp only [hsome]
      refine ⟨fun _ => Or.inr ⟨t', rfl, ?_, hold⟩,
        fun h => absurd h (by simp)⟩
      rw [← hworking]
      exact ht'

theorem commitTransaction_workingRows (env : Env) {old new : Map ℤ FileRow}
    {w : World} (h : WorkingRows old new w) :
    Act.wp (commitTransaction env)
      (fun ok w' =>
        (ok = true → w'.db.committed.rcfile = new) ∧
        (ok = false → w'.db.committed.rcfile = old ∨
          w'.db.committed.rcfile = new))
      (fun _ _ => False) w := by
  have hcommitted := h.committed
  unfold Act.wp commitTransaction
  cases env.fails .commit with
  | true =>
      rw [if_pos rfl]
      exact ⟨fun h => absurd h (by decide), fun _ => hcommitted⟩
  | false =>
      rw [if_neg (by decide)]
      rcases h with ⟨htx, hrows⟩ | ⟨working, htx, hworking, -⟩
      · rw [htx]
        exact ⟨fun _ => hrows, fun h => absurd h (by decide)⟩
      · rw [htx]
        exact ⟨fun _ => hworking, fun h => absurd h (by decide)⟩

theorem updateRows_rcfile (env : Env) (id version : ℤ) (data : Bytes)
    {rows : Map ℤ FileRow} {w : World} (h : WorkingRows rows rows w) :
    Act.wp (updateRows env id version data)
      (fun _ w' => w'.db.committed.rcfile =
        updatedRows rows id version env.mtime data.length)
      (fun _ w' => w'.db.committed.rcfile = rows ∨
        w'.db.committed.rcfile = updatedRows rows id version env.mtime data.length)
      w := by
  simp only [updateRows, Act.wp_bind, Act.wp_throwIf]
  refine (executeQuery_workingRows env .updateFile
    (f := fun rows => updatedRows rows id version env.mtime data.length)
    (fun t t' ht => by cases ht; rfl) h).mono (fun ok w₁ h₁ => ?_)
    fun _ _ h => h.elim
  refine ⟨fun hok => ?_, fun hok => ?_⟩
  · have hsame := h₁.2 (by simpa using hok)
    exact Or.inl (hsame.elim (fun h => h) fun h => h)
  refine (executeQuery_workingRows env .updateFileData (f := fun rows => rows)
    (fun t t' ht => ?_) (h₁.1 (by simpa using hok))).mono (fun ok w₂ h₂ => ?_)
    fun _ _ h => h.elim
  · obtain ⟨bindata, -, rfl⟩ := Option.map_eq_some_iff.mp ht
    rfl
  refine ⟨fun hok => h₂.2 (by simpa using hok), fun hok => ?_⟩
  refine (commitTransaction_workingRows env
    (h₂.1 (by simpa using hok))).mono (fun ok w₃ h₃ => ?_)
    fun _ _ h => h.elim
  exact ⟨fun hok => h₃.2 (by simpa using hok),
    fun hok => h₃.1 (by simpa using hok)⟩

/-- An update that returns has stored the cached version plus one; one that
throws may still have done so, when `begin` had failed. -/
theorem updateDBFile_rcfile (env : Env) (r : ℕ) {w : World}
    (htx : w.db.transaction = none) :
    let info := w.fm.objects r
    let rows := w.db.committed.rcfile
    let updated :=
      updatedRows rows info.id (toInt32 (info.version + 1)) env.mtime
    Act.wp (updateDBFile env (some r))
      (fun _ w' => ∃ size, w'.db.committed.rcfile = updated size)
      (fun _ w' => w'.db.committed.rcfile = rows ∨
        ∃ size, w'.db.committed.rcfile = updated size) w := by
  intro info rows updated
  simp only [updateDBFile, withTransaction, Act.wp_bind, Act.wp_throwIf,
    Act.wp_ensuring]
  refine Act.wp_of_apply (load_some r w) ?_
  refine Act.wp_of_apply (a := env.fails .stat || !w.disk.contains info.path)
    rfl ⟨fun _ => Or.inl rfl, fun _ => ?_⟩
  refine wp_readFileBlob (fun _ _ => Or.inl rfl) fun found _ _ => ?_
  have hbegin : Act.wp (beginTransaction env)
      (fun _ w' => WorkingRows rows rows w') (fun _ _ => False) w := by
    simp only [beginTransaction, Act.wp_modify]
    split
    · exact Or.inl ⟨htx, rfl⟩
    · exact Or.inr ⟨w.db.committed, rfl, rfl, rfl⟩
  refine hbegin.mono (fun _ w₂ h₂ => ?_) fun _ _ h => h.elim
  refine (updateRows_rcfile env info.id _ _ h₂).mono (fun _ w₃ h₃ => ?_)
    fun _ w₃ h₃ => h₃.imp (fun h => h) fun h => ⟨_, h⟩
  exact Act.wp_of_apply (store_some r _ w₃) ⟨_, h₃⟩

/-! ## What a step does to a version -/

/-- Every session's maps are coherent. -/
def AllCoherent (s : Sessions ι) : Prop :=
  ∀ who, Coherent (s.world who).fm

theorem AllCoherent.leave {s : Sessions ι} (hs : AllCoherent s) (who : ι)
    {w : World} (hw : Coherent w.fm) : AllCoherent (s.leave who w) := by
  intro other
  by_cases h : other = who
  · subst h
    simpa [Sessions.leave] using hw
  · simpa [Sessions.leave, h] using hs other

omit [DecidableEq ι] in
theorem notified_spec {s : Sessions ι} {who : ι} {env : Env}
    {message : String} (hs : AllCoherent s)
    (honly : OnlyUpdates s (.notified who env message)) :
    Coherent (processDBNotification env message (s.enter who)).2.fm ∧
      (processDBNotification env message (s.enter who)).2.db = ⟨s.db, none⟩ := by
  let P : World → Prop := fun w => Coherent w.fm ∧ w.db = ⟨s.db, none⟩
  suffices h : Act.wp (processDBNotification env message) (fun _ => P)
      (fun _ => P) (s.enter who) from h.final
  simp only [processDBNotification, Act.wp_bind, Act.wp_get]
  split
  next => exact ⟨hs who, rfl⟩
  next type id hparse =>
    obtain rfl : type = 'u' := honly type id hparse
    rw [Act.wp_tryCatch, if_neg (by decide), if_neg (by decide)]
    have hwho : Coherent (s.enter who).fm := hs who
    exact (processUpdate_coherent hwho).mono (fun _ _ h => h)
      fun _ _ h => h.elim

theorem sessionStep_coherent {s : Sessions ι} {op : SessionOp ι}
    (hs : AllCoherent s) (honly : OnlyUpdates s op) :
    AllCoherent (sessionStep s op) := by
  cases op with
  | update who env id =>
      simp only [sessionStep]
      split
      next ptr hptr =>
        obtain ⟨r, rfl, -⟩ := (hs who).byId id ptr hptr
        have hwho : Coherent (s.enter who).fm := hs who
        refine hs.leave who ?_
        exact ((updateDBFile_keepsIndex env r (s.enter who)).mono
          (fun _ _ h => hwho.of_keepsIndex h)
          fun _ _ h => hwho.of_keepsIndex h).final
      next => exact hs
  | notified who env message =>
      exact hs.leave who (notified_spec hs honly).1
  | outside who disk inotify =>
      exact hs.leave who (hs who)

theorem storedVersion_updatedRows {rows : Map ℤ FileRow} (k id version : ℤ)
    (lastmodified size : ℤ) :
    (updatedRows rows k version lastmodified size)[id]?.map FileRow.version =
      if k = id then rows[id]?.map fun _ => version
      else rows[id]?.map FileRow.version := by
  rw [updatedRows, Map.getElem?_modify]
  split
  · rw [Option.map_map]
    rfl
  · rfl

/-- A version that is there stays and does not go down, and a commit raises
it. -/
def Rises (committed : Bool) (before after : Option ℤ) : Prop :=
  (before = none → after = none) ∧
    ∀ old, before = some old →
      ∃ new, after = some new ∧ old ≤ new ∧ (committed = true → old < new)

theorem Rises.refl {committed : Bool} (hno : committed = false)
    (version : Option ℤ) : Rises committed version version := by
  refine ⟨fun h => h, fun old hold => ⟨old, hold, le_rfl, fun h => ?_⟩⟩
  rw [hno] at h
  cases h

omit [DecidableEq ι] in
/-- Where the rows are updated, the version is the next one of the cache. -/
theorem rises_of_updatedRows {s s' : Sessions ι} {who : ι} {env : Env}
    {k id size : ℤ} {r : ℕ}
    (hptr : (s.world who).fm.filesById[k]? = some (some r))
    (hcurrent : CacheCurrent s (.update who env k))
    (hrows : s'.db.rcfile = updatedRows s.db.rcfile k
      (toInt32 (((s.world who).fm.objects r).version + 1)) env.mtime size) :
    Rises (commits s (.update who env k) id) (storedVersion s id)
      (storedVersion s' id) := by
  have hafter : storedVersion s' id = if k = id then
      s.db.rcfile[id]?.map fun _ =>
        toInt32 (((s.world who).fm.objects r).version + 1)
      else s.db.rcfile[id]?.map FileRow.version := by
    rw [storedVersion, hrows, storedVersion_updatedRows]
  rw [hafter]
  by_cases hk : k = id
  · subst hk
    rw [if_pos rfl]
    refine ⟨fun h => by simpa [storedVersion] using h, fun old hold => ?_⟩
    obtain ⟨hle, hlo, hhi⟩ := hcurrent r old hptr hold
    rw [toInt32_of_fits hlo hhi]
    obtain ⟨row, hrow, -⟩ := Option.map_eq_some_iff.mp hold
    exact ⟨((s.world who).fm.objects r).version + 1,
      by rw [hrow]; rfl, by omega, fun _ => by omega⟩
  · rw [if_neg hk]
    exact Rises.refl (by simp [commits, hptr, hk]) _

/-- With a current cache no version goes down, and a commit raises it. -/
theorem sessionStep_storedVersion {s : Sessions ι} {op : SessionOp ι}
    (hs : AllCoherent s) (honly : OnlyUpdates s op)
    (hcurrent : CacheCurrent s op) (id : ℤ) :
    Rises (commits s op id) (storedVersion s id)
      (storedVersion (sessionStep s op) id) := by
  have hkeep : ∀ s' : Sessions ι, s'.db.rcfile = s.db.rcfile →
      commits s op id = false →
      Rises (commits s op id) (storedVersion s id) (storedVersion s' id) := by
    intro s' hrows hno
    have hsame : storedVersion s' id = storedVersion s id := by
      rw [storedVersion, storedVersion, hrows]
    rw [hsame]
    exact Rises.refl hno _
  cases op with
  | notified who env message =>
      refine hkeep _ ?_ rfl
      rw [sessionStep, Sessions.leave, (notified_spec hs honly).2]
  | outside who disk inotify => exact hkeep _ rfl rfl
  | update who env k =>
      cases hptr : (s.world who).fm.filesById[k]? with
      | none =>
          refine hkeep _ ?_ ?_
          · simp only [sessionStep, hptr]
          · simp only [commits, hptr]
      | some ptr =>
          obtain ⟨r, rfl, -, hobj⟩ := (hs who).byId k ptr hptr
          have hstep : sessionStep s (.update who env k) =
              s.leave who (updateDBFile env (some r) (s.enter who)).2 := by
            simp only [sessionStep, hptr]
          rw [hstep]
          have hspec := (updateDBFile_rcfile env r (w := s.enter who) rfl).cases
          have hid : ((s.enter who).fm.objects r).id = k := hobj
          rw [hid] at hspec
          rcases hspec with ⟨_, -, size, hrows⟩ | ⟨e, hthrew, hrows | hrows⟩
          · exact rises_of_updatedRows hptr hcurrent hrows
          · exact hkeep _ hrows (by simp [commits, hptr, hthrew])
          · obtain ⟨size, hrows⟩ := hrows
            exact rises_of_updatedRows hptr hcurrent hrows

/-! ## Versions along a run -/

theorem committedVersions_spec {id : ℤ} {s : Sessions ι}
    {ops : List (SessionOp ι)} (hs : AllCoherent s)
    (honly : Along sessionStep OnlyUpdates s ops)
    (hcurrent : Along sessionStep CacheCurrent s ops) :
    ((storedVersion s id).toList ++ committedVersions id s ops).Pairwise
      (· < ·) ∧
      (storedVersion s id = none → committedVersions id s ops = []) := by
  induction ops generalizing s with
  | nil => cases h : storedVersion s id <;> simp [committedVersions]
  | cons op ops ih =>
      have hstep :=
        sessionStep_storedVersion hs honly.1 hcurrent.1 id
      obtain ⟨hpair, hnil⟩ :=
        ih (sessionStep_coherent hs honly.1) honly.2 hcurrent.2
      cases hold : storedVersion s id with
      | none =>
          have hnone := hstep.1 hold
          have hempty : committedVersions id s (op :: ops) = [] := by
            simp [committedVersions, committedVersion, hnone, hnil hnone]
          rw [hempty]
          exact ⟨by simp, fun _ => rfl⟩
      | some old =>
          obtain ⟨new, hnew, hle, hlt⟩ := hstep.2 old hold
          refine ⟨?_, fun h => by cases h⟩
          rw [hnew] at hpair
          have habove : ∀ v ∈ committedVersions id (sessionStep s op) ops,
              new < v := by
            intro v hv
            exact (List.pairwise_cons.mp hpair).1 v hv
          have htail := (List.pairwise_cons.mp hpair).2
          cases hcommits : commits s op id with
          | true =>
              have hlt := hlt hcommits
              simp only [committedVersions, committedVersion, hcommits,
                if_true, hnew, Option.toList, List.cons_append,
                List.nil_append, List.pairwise_cons, List.mem_cons]
              refine ⟨?_, habove, htail⟩
              rintro v (rfl | hv)
              · exact hlt
              · exact hlt.trans (habove v hv)
          | false =>
              simp only [committedVersions, committedVersion, hcommits,
                Bool.false_eq_true, if_false, Option.toList,
                List.nil_append, List.cons_append, List.pairwise_cons]
              exact ⟨fun v hv => hle.trans_lt (habove v hv), htail⟩

/-- In every run in which no update starts from a cache that is behind,
every commit raises the version, and no two contents of a file ever carry the
same version. -/
theorem versionsIdentify_of_cacheCurrent {s : Sessions ι}
    {ops : List (SessionOp ι)} (hs : AllCoherent s)
    (honly : Along sessionStep OnlyUpdates s ops)
    (hcurrent : Along sessionStep CacheCurrent s ops) :
    VersionsIdentify s ops := by
  refine ⟨?_, fun id => ?_⟩
  · refine along_of_invariant (I := AllCoherent)
      (fun _ _ hs h => sessionStep_coherent hs h.1) ?_ hs
      (along_and.mpr ⟨honly, hcurrent⟩)
    intro s op hs h id old hcommits hold
    obtain ⟨new, hnew, -, hlt⟩ :=
      (sessionStep_storedVersion hs h.1 h.2 id).2 old hold
    exact ⟨new, hnew, hlt hcommits⟩
  · exact (committedVersions_spec hs honly hcurrent).1.imp fun h => h.ne

/-- For one commit of an existing row the condition is exact. -/
theorem raisesVersion_iff_cacheCurrent {s : Sessions ι} {who : ι} {env : Env}
    {id old : ℤ} {r : ℕ} (hs : AllCoherent s)
    (hr : (s.world who).fm.filesById[id]? = some (some r))
    (hold : storedVersion s id = some old) (hlo : -2 ^ 31 ≤ old)
    (hcached : 0 ≤ ((s.world who).fm.objects r).version)
    (hfits : ((s.world who).fm.objects r).version < 2 ^ 31)
    (hcommits : commits s (.update who env id) id = true) :
    RaisesVersion s (.update who env id) ↔
      CacheCurrent s (.update who env id) := by
  constructor
  · intro hraises r' old' hr' hold'
    obtain rfl : r = r' := Option.some.inj (Option.some.inj (hr.symm.trans hr'))
    obtain rfl : old = old' := Option.some.inj (hold.symm.trans hold')
    obtain ⟨new, hnew, hlt⟩ := hraises id old hcommits hold
    have hreturned :
        (updateDBFile env (some r) (s.enter who)).1 = .returned () := by
      simpa [commits, hr] using hcommits
    obtain ⟨_, -, size, hrows⟩ | ⟨e, hthrew, -⟩ :=
      (updateDBFile_rcfile env r (w := s.enter who) rfl).cases
    · have hobj : ((s.enter who).fm.objects r).id = id :=
        ((hs who).cached hr).2
      have hversion : new =
          toInt32 (((s.world who).fm.objects r).version + 1) := by
        have hstored : storedVersion (sessionStep s (.update who env id)) id =
            (updatedRows s.db.rcfile id
              (toInt32 (((s.world who).fm.objects r).version + 1))
              env.mtime size)[id]?.map FileRow.version := by
          rw [hobj] at hrows
          simp only [storedVersion, sessionStep, hr, Sessions.leave, hrows]
          rfl
        obtain ⟨row, hrow, -⟩ := Option.map_eq_some_iff.mp hold
        rw [hstored, storedVersion_updatedRows, if_pos rfl, hrow] at hnew
        exact (Option.some.inj hnew).symm
      by_cases htop : ((s.world who).fm.objects r).version + 1 < 2 ^ 31
      · rw [toInt32_of_fits (by omega) htop] at hversion
        exact ⟨by omega, by omega, htop⟩
      · have hwrap : ((s.world who).fm.objects r).version + 1 = 2 ^ 31 := by
          omega
        rw [hwrap, show toInt32 (2 ^ 31) = -2 ^ 31 by decide] at hversion
        omega
    · rw [hthrew] at hreturned
      cases hreturned
  · intro hcurrent id' old' hcommits' hold'
    have hupdates : OnlyUpdates s (.update who env id) := trivial
    obtain ⟨new, hnew, -, hlt⟩ := (sessionStep_storedVersion hs hupdates
      hcurrent id').2 old' hold'
    exact ⟨new, hnew, hlt hcommits'⟩

/-! ## Two sessions -/

/-- Two sessions that have loaded the one file of a workspace. -/
def twoSessions : Sessions Bool where
  db := oneFile
  world _ := (loadFiles (Env.succeeding 1 1) (fun _ _ => true)
    (World.initial "wd" 1 1 oneFile)).2

theorem twoSessions_coherent : AllCoherent twoSessions := by
  have hinitial : Coherent (World.initial "wd" 1 1 oneFile).fm :=
    coherent_initial _ _ _
  intro who
  exact ((loadFiles_coherent _ _ hinitial).mono (fun _ _ h => h.1)
    fun _ _ h => h.elim).final

/-- Both store the file. -/
def bothUpdate : List (SessionOp Bool) :=
  [.update false (Env.succeeding 1 1) 7, .update true (Env.succeeding 1 1) 7]

/-- The second update starts from the version the first has replaced: both
commit version 2. -/
theorem versionsIdentify_fails_on_stale_cache :
    AllCoherent twoSessions ∧
      Along sessionStep OnlyUpdates twoSessions bothUpdate ∧
      committedVersions 7 twoSessions bothUpdate = [2, 2] ∧
      ¬ VersionsIdentify twoSessions bothUpdate := by
  have hversions : committedVersions 7 twoSessions bothUpdate = [2, 2] := by
    decide
  refine ⟨twoSessions_coherent, ⟨trivial, trivial, trivial⟩, hversions, ?_⟩
  rintro ⟨-, hdistinct⟩
  have hfirst : storedVersion twoSessions 7 = some 1 := by decide
  have h := hdistinct 7
  rw [hversions, hfirst] at h
  exact absurd h (by decide)

/-- When the second session hears of the first update before it stores the
file, the versions are told apart. -/
theorem versionsIdentify_notified :
    VersionsIdentify twoSessions
      [.update false (Env.succeeding 1 1) 7,
        .notified true (Env.succeeding 1 1) "u7/1/a",
        .update true (Env.succeeding 1 1) 7] := by
  refine versionsIdentify_of_cacheCurrent twoSessions_coherent
    ⟨trivial, ?_, trivial, trivial⟩ ⟨?_, trivial, ?_, trivial⟩
  · intro type id h
    have hparse : parseNotification 1 "u7/1/a" = some ('u', 7) := by decide
    cases hparse.symm.trans h
    rfl
  · intro r old hr hold
    have hcached : (twoSessions.world false).fm.filesById[(7 : ℤ)]? =
      some (some 0) := by decide
    have hstored : storedVersion twoSessions 7 = some 1 := by decide
    obtain rfl : 0 = r :=
      Option.some.inj (Option.some.inj (hcached.symm.trans hr))
    obtain rfl : 1 = old := Option.some.inj (hstored.symm.trans hold)
    decide
  · intro r old hr hold
    let s := sessionStep (sessionStep twoSessions
      (.update false (Env.succeeding 1 1) 7))
      (.notified true (Env.succeeding 1 1) "u7/1/a")
    have hcached : (s.world true).fm.filesById[(7 : ℤ)]? =
      some (some 0) := by decide
    have hstored : storedVersion s 7 = some 2 := by decide
    obtain rfl : 0 = r :=
      Option.some.inj (Option.some.inj (hcached.symm.trans hr))
    obtain rfl : 2 = old := Option.some.inj (hstored.symm.trans hold)
    decide

end Rc2Compute.Files
