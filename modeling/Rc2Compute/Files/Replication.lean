import Rc2Compute.Files.Replica
import Mathlib.Data.List.Forall2

/-!
# Database notifications keep a replica

Other sessions commit changes to the files of a workspace and each commit
queues one message.  The session handles the messages in order, but each
arbitrarily late, and every message makes it read the row as it is then.  As
long as the row a message makes the session read is still there for an
inserted file, and has the name the file is cached under, the session holds
the table's files whenever the queue is empty.
-/

namespace Rc2Compute.Files

open Transition

/-! ## Commits -/

/-- A change another session commits. -/
inductive Commit where
  | insert (row : FetchedFile)
  | change (id version lastmod : ℤ) (bindata : Bytes)
  | rename (id : ℤ) (name : String)
  | delete (id : ℤ)

namespace Commit

def id : Commit → ℤ
  | insert row => row.id
  | change id _ _ _ => id
  | rename id _ => id
  | delete id => id

/-- The type of the message a commit queues. -/
def type : Commit → Char
  | insert _ => 'i'
  | change _ _ _ _ => 'u'
  | rename _ _ => 'u'
  | delete _ => 'd'

/-- What a commit does to the tables. -/
def execute (wspaceId : ℤ) : Commit → Tables → Tables
  | insert row, t =>
      { t with
        rcfile := t.rcfile.insert row.id
          ⟨row.version, wspaceId, row.name, row.bindata.length, row.lastmod⟩
        rcfiledata := t.rcfiledata.insert row.id row.bindata }
  | change id version lastmod bindata, t =>
      { t with
        rcfile := t.rcfile.modify id fun row =>
          { row with
            version := version
            lastmodified := lastmod
            filesize := bindata.length }
        rcfiledata := t.rcfiledata.modify id fun _ => bindata }
  | rename id name, t =>
      { t with rcfile := t.rcfile.modify id fun row =>
          { row with name := name } }
  | delete id, t =>
      { t with
        rcfile := t.rcfile.erase id
        rcfiledata := t.rcfiledata.erase id }

/-- What a commit does to the set of files. -/
def apply : Commit → Contents → Contents
  | insert row, V => V.put row
  | change id version lastmod bindata, V =>
      Function.update V id ((V id).map fun row =>
        { row with version := version, lastmod := lastmod, bindata := bindata })
  | rename id name, V =>
      Function.update V id ((V id).map fun row => { row with name := name })
  | delete id, V => V.remove id

/-- The tables and the set of files they stand for change alike. -/
theorem fetch_execute (wspaceId : ℤ) (c : Commit) (t : Tables) :
    (c.execute wspaceId t).fetch = c.apply t.fetch := by
  funext k
  cases c with
  | insert row =>
      by_cases hk : k = row.id
      · subst hk
        simp [execute, apply, Tables.fetch, Contents.put_self]
      · have hne : row.id ≠ k := fun h => hk h.symm
        simp [execute, apply, Tables.fetch, Contents.put_of_ne _ hk,
          Map.getElem?_insert, hne]
  | change id version lastmod bindata =>
      by_cases hk : k = id
      · subst hk
        cases hrow : t.rcfile[k]? <;> cases hdata : t.rcfiledata[k]? <;>
          simp [execute, apply, Tables.fetch, hrow, hdata]
      · have hne : id ≠ k := fun h => hk h.symm
        simp [execute, apply, Tables.fetch, hk, Map.getElem?_modify, hne]
  | rename id name =>
      by_cases hk : k = id
      · subst hk
        cases hrow : t.rcfile[k]? <;> cases hdata : t.rcfiledata[k]? <;>
          simp [execute, apply, Tables.fetch, hrow, hdata]
      · have hne : id ≠ k := fun h => hk h.symm
        simp [execute, apply, Tables.fetch, hk, Map.getElem?_modify, hne]
  | delete id =>
      by_cases hk : k = id
      · subst hk
        simp [execute, apply, Tables.fetch, Contents.remove_self]
      · have hne : id ≠ k := fun h => hk h.symm
        simp [execute, apply, Tables.fetch, Contents.remove_of_ne _ hk,
          Map.getElem?_erase, hne]

end Commit

/-! ## The session and its queue -/

/-- The session, the messages that wait for it, and the next value of
`rcfile_seq`. -/
structure Replication where
  world : World
  queue : List String
  nextId : ℤ

/-- Another session commits and its message is queued, or the session handles
the first message. -/
inductive ReplicaOp where
  | commit (c : Commit) (message : String)
  | deliver (env : Env)

namespace Replication

/-- The files the table holds now. -/
def table (s : Replication) : Contents := s.world.db.committed.fetch

def commitWorld (w : World) (c : Commit) : World :=
  { w with db :=
    { w.db with committed := c.execute w.fm.wspaceId w.db.committed } }

/-- The sequence after a commit. -/
def nextIdAfter (nextId : ℤ) : Commit → ℤ
  | .insert row => row.id + 1
  | _ => nextId

def step (s : Replication) : ReplicaOp → Replication
  | .commit c message =>
      { world := commitWorld s.world c
        queue := s.queue ++ [message]
        nextId := nextIdAfter s.nextId c }
  | .deliver env =>
      match s.queue with
      | [] => s
      | message :: rest =>
          { s with
            world := (processDBNotification env message s.world).2
            queue := rest }

/-- The other sessions take the identifiers of new files from the sequence
and queue well-formed messages. -/
def OutsideValid (s : Replication) : ReplicaOp → Prop
  | .commit c message =>
      (match c with
        | .insert row => s.nextId ≤ row.id
        | .change id _ _ _ | .rename id _ | .delete id => id < s.nextId) ∧
      parseNotification s.world.fm.wspaceId message = some (c.type, c.id)
  | .deliver _ => True

/-- The numbers a commit stores pass through the casts of the query. -/
def CommitSafe : Commit → Prop
  | .insert row => row.Plain
  | .change _ version lastmod _ =>
      0 ≤ version ∧ version < 2 ^ 31 ∧ fitsInt4 lastmod = true
  | _ => True

/-- An inserted file's row is still there when its message is handled, under
a name no other cached file has. -/
def InsertSafe (s : Replication) (id : ℤ) : Prop :=
  ∃ cur, s.table id = some cur ∧
    ∀ k r, s.world.fm.filesById[k]? = some (some r) →
      (k = id ↔ (s.world.fm.objects r).path = cur.name)

/-- A changed file's row, if it is still there, has the name the file is
cached under. -/
def UpdateSafe (s : Replication) (id : ℤ) : Prop :=
  ∀ r cur, s.world.fm.filesById[id]? = some (some r) →
    s.table id = some cur → (s.world.fm.objects r).path = cur.name

/-- The handler's calls succeed, and the row is one it can follow. -/
def StepSafe (s : Replication) : ReplicaOp → Prop
  | .commit c _ => CommitSafe c
  | .deliver env =>
      env.fails .selectFiles = false ∧ env.fails .writeFile = false ∧
        env.fails .remove = false ∧
        ∀ message ∈ s.queue.head?, ∀ type id,
          parseNotification s.world.fm.wspaceId message = some (type, id) →
            (type = 'i' → s.InsertSafe id) ∧ (type = 'u' → s.UpdateSafe id)

/-- Handling the first message dereferences nothing that is missing. -/
def Defined (s : Replication) : ReplicaOp → Prop
  | .commit _ _ => True
  | .deliver env =>
      ∀ message ∈ s.queue.head?,
        (processDBNotification env message s.world).1 ≠ .undefined

/-- What notifications promise of a run. -/
def Refines (s : Replication) (ops : List ReplicaOp) : Prop :=
  Along step Defined s ops ∧
    ((run step s ops).queue = [] →
      Holds (run step s ops).world (run step s ops).table)

/-- The messages that wait, by type and identifier. -/
def Waits (s : Replication) (type : Char) (id : ℤ) : Prop :=
  ∃ message ∈ s.queue,
    parseNotification s.world.fm.wspaceId message = some (type, id)

end Replication

/-! ## The session follows the queue -/

/-- What the session holds of one file is what the table holds, or a message
that brings it there still waits. -/
def Settled (s : Replication) (V : Contents) (id : ℤ) : Prop :=
  V id = s.table id ∨
    (V id = none ∧ s.Waits 'i' id) ∨
    (V id ≠ none ∧ s.table id = none ∧ s.Waits 'd' id) ∨
    (V id ≠ none ∧ s.table id ≠ none ∧ s.Waits 'u' id)

/-- The session holds `V`, every file of which is settled; identifiers are
below the sequence and a deleted row does not come back. -/
structure Follows (s : Replication) (V : Contents) : Prop where
  holds : Holds s.world V
  settled : ∀ id, Settled s V id
  bound : ∀ id, s.nextId ≤ id →
    V id = none ∧ s.table id = none ∧ ∀ type, ¬ s.Waits type id
  deleted : ∀ id, s.Waits 'd' id → s.table id = none
  plain : ∀ id row, s.table id = some row → row.Plain

theorem Follows.holds_table {s : Replication} {V : Contents}
    (h : Follows s V) (hempty : s.queue = []) : Holds s.world s.table := by
  have hnone : ∀ type id, ¬ s.Waits type id := by
    rintro type id ⟨message, hmem, -⟩
    rw [hempty] at hmem
    cases hmem
  have hV : V = s.table := by
    funext id
    rcases h.settled id with heq | ⟨-, hw⟩ | ⟨-, -, hw⟩ | ⟨-, -, hw⟩
    · exact heq
    · exact absurd hw (hnone _ _)
    · exact absurd hw (hnone _ _)
    · exact absurd hw (hnone _ _)
  exact hV ▸ h.holds

theorem Commit.apply_of_ne (c : Commit) (V : Contents) {id : ℤ}
    (h : id ≠ c.id) : c.apply V id = V id := by
  cases c with
  | insert row => exact V.put_of_ne h
  | change k version lastmod bindata => exact Function.update_of_ne h _ _
  | rename k name => exact Function.update_of_ne h _ _
  | delete k => exact V.remove_of_ne h

theorem Commit.plain_apply {c : Commit} {V : Contents}
    (hsafe : Replication.CommitSafe c)
    (hV : ∀ id row, V id = some row → row.Plain) :
    ∀ id row, c.apply V id = some row → row.Plain := by
  intro id row hrow
  by_cases hne : id = c.id
  · subst hne
    cases c with
    | insert row' =>
        rw [Commit.apply, Commit.id, Contents.put_self] at hrow
        obtain rfl := Option.some.inj hrow
        exact hsafe
    | change k version lastmod bindata =>
        rw [Commit.apply, Commit.id, Function.update_self] at hrow
        obtain ⟨old, hold, rfl⟩ := Option.map_eq_some_iff.mp hrow
        obtain ⟨h1, h2, -, -⟩ := hV k old hold
        exact ⟨h1, h2, hsafe⟩
    | rename k name =>
        rw [Commit.apply, Commit.id, Function.update_self] at hrow
        obtain ⟨old, hold, rfl⟩ := Option.map_eq_some_iff.mp hrow
        exact hV k old hold
    | delete k =>
        rw [Commit.apply, Commit.id, Contents.remove_self] at hrow
        cases hrow
  · rw [c.apply_of_ne V hne] at hrow
    exact hV id row hrow

section commit

variable {s : Replication} {c : Commit} {message : String}

theorem step_commit_table :
    (s.step (.commit c message)).table = c.apply s.table :=
  Commit.fetch_execute _ c _

theorem waits_commit
    (hparse : parseNotification s.world.fm.wspaceId message =
      some (c.type, c.id)) (type : Char) (id : ℤ) :
    (s.step (.commit c message)).Waits type id ↔
      s.Waits type id ∨ (type = c.type ∧ id = c.id) := by
  constructor
  · rintro ⟨m, hm, hm'⟩
    rcases List.mem_append.mp hm with hm | hm
    · exact Or.inl ⟨m, hm, hm'⟩
    · obtain rfl := List.mem_singleton.mp hm
      have heq := hparse.symm.trans hm'
      simp only [Option.some.injEq, Prod.mk.injEq] at heq
      exact Or.inr ⟨heq.1.symm, heq.2.symm⟩
  · rintro (⟨m, hm, hm'⟩ | ⟨rfl, rfl⟩)
    · exact ⟨m, List.mem_append.mpr (Or.inl hm), hm'⟩
    · exact ⟨message, List.mem_append.mpr (Or.inr (by simp)), hparse⟩

/-- The committed file is settled by the message the commit queues. -/
theorem settled_commit {V : Contents} (h : Follows s V)
    (hvalid : s.OutsideValid (.commit c message)) :
    Settled (s.step (.commit c message)) V c.id := by
  have hwaits := waits_commit hvalid.2
  have hnew : (s.step (.commit c message)).Waits c.type c.id :=
    (hwaits _ _).mpr (Or.inr ⟨rfl, rfl⟩)
  have htable : (s.step (.commit c message)).table c.id =
      c.apply s.table c.id := by
    rw [step_commit_table]
  -- a change of an existing row waits as such, of a missing row is nothing
  have hchange : c.type = 'u' →
      ((s.step (.commit c message)).table c.id = none ↔
        s.table c.id = none) →
      Settled (s.step (.commit c message)) V c.id := by
    intro htype hiff
    rw [htype] at hnew
    by_cases hV : V c.id = none
    · rcases h.settled c.id with heq | ⟨-, hw⟩ | ⟨hno, -⟩ | ⟨hno, -⟩
      · have hnone := hiff.mpr (heq.symm.trans hV)
        exact Or.inl (hV.trans hnone.symm)
      · exact Or.inr (Or.inl ⟨hV, (hwaits _ _).mpr (Or.inl hw)⟩)
      · exact absurd hV hno
      · exact absurd hV hno
    · by_cases hT : s.table c.id = none
      · rcases h.settled c.id with heq | ⟨hno, -⟩ | ⟨-, -, hw⟩ | ⟨-, hno, -⟩
        · exact absurd (heq.trans hT) hV
        · exact absurd hno hV
        · exact Or.inr (Or.inr (Or.inl
            ⟨hV, hiff.mpr hT, (hwaits _ _).mpr (Or.inl hw)⟩))
        · exact absurd hT hno
      · exact Or.inr (Or.inr (Or.inr ⟨hV, fun h => hT (hiff.mp h), hnew⟩))
  cases c with
  | insert row =>
      exact Or.inr (Or.inl ⟨(h.bound row.id hvalid.1).1, hnew⟩)
  | change k version lastmod bindata =>
      refine hchange rfl ?_
      rw [htable]
      simp [Commit.apply, Commit.id]
  | rename k name =>
      refine hchange rfl ?_
      rw [htable]
      simp [Commit.apply, Commit.id]
  | delete k =>
      have hnone : (s.step (.commit (.delete k) message)).table k = none :=
        htable.trans (Contents.remove_self _ _)
      by_cases hV : V k = none
      · exact Or.inl (hV.trans hnone.symm)
      · exact Or.inr (Or.inr (Or.inl ⟨hV, hnone, hnew⟩))

/-- A commit whose message joins the queue. -/
theorem Follows.commit {V : Contents} (h : Follows s V)
    (hvalid : s.OutsideValid (.commit c message))
    (hsafe : Replication.CommitSafe c) :
    Follows (s.step (.commit c message)) V := by
  have hwaits := waits_commit hvalid.2
  refine ⟨⟨h.holds.wellFormed, h.holds.caches, h.holds.stores⟩,
    fun id => ?_, fun id hid => ?_, fun id hw => ?_, ?_⟩
  · by_cases hne : id = c.id
    · subst hne
      exact settled_commit h hvalid
    · have htable : (s.step (.commit c message)).table id = s.table id := by
        rw [step_commit_table, c.apply_of_ne _ hne]
      have hmono : ∀ type, s.Waits type id →
          (s.step (.commit c message)).Waits type id :=
        fun type hw => (hwaits type id).mpr (Or.inl hw)
      rw [Settled, htable]
      exact (h.settled id).imp_right fun h => h.imp
        (And.imp_right (hmono _)) (Or.imp
          (And.imp_right (And.imp_right (hmono _)))
          (And.imp_right (And.imp_right (hmono _))))
  · have hold : s.nextId ≤ id ∧ id ≠ c.id := by
      cases c with
      | insert row =>
          have hrow : s.nextId ≤ row.id := hvalid.1
          have hid' : row.id + 1 ≤ id := hid
          exact ⟨by omega, by simp only [Commit.id]; omega⟩
      | change k _ _ _ => exact ⟨hid, (lt_of_lt_of_le hvalid.1 hid).ne'⟩
      | rename k _ => exact ⟨hid, (lt_of_lt_of_le hvalid.1 hid).ne'⟩
      | delete k => exact ⟨hid, (lt_of_lt_of_le hvalid.1 hid).ne'⟩
    obtain ⟨hV, hT, hno⟩ := h.bound id hold.1
    refine ⟨hV, ?_, fun type hw => ?_⟩
    · rw [step_commit_table, c.apply_of_ne _ hold.2, hT]
    · rcases (hwaits type id).mp hw with hw | ⟨-, heq⟩
      · exact hno type hw
      · exact hold.2 heq
  · rw [step_commit_table]
    rcases (hwaits 'd' id).mp hw with hw | ⟨htype, rfl⟩
    · by_cases hne : id = c.id
      · subst hne
        have hnone := h.deleted _ hw
        cases c with
        | insert row =>
            exact absurd hw ((h.bound row.id hvalid.1).2.2 'd')
        | change k _ _ _ => simpa [Commit.apply, Commit.id] using hnone
        | rename k _ => simpa [Commit.apply, Commit.id] using hnone
        | delete k => exact Contents.remove_self _ _
      · rw [c.apply_of_ne _ hne]
        exact h.deleted id hw
    · cases c with
      | delete k => exact Contents.remove_self _ _
      | _ => simp [Commit.type] at htype
  · rw [step_commit_table]
    exact Commit.plain_apply hsafe h.plain

end commit

/-! ## Handling a message -/

theorem parseNotification_type {wspaceId : ℤ} {message : String}
    {type : Char} {id : ℤ}
    (h : parseNotification wspaceId message = some (type, id)) :
    type = 'i' ∨ type = 'u' ∨ type = 'd' := by
  unfold parseNotification at h
  split at h
  next c numStr _ =>
    split at h
    next => cases h
    next htype =>
      split at h
      next =>
        split at h
        next => cases h
        next =>
          cases h
          by_contra hno
          exact htype (Or.inl hno)
      next => cases h
  next => cases h

theorem processDBNotification_wp {env : Env} {message : String} {w : World}
    {type : Char} {id : ℤ} {P : World → Prop}
    (hparse : parseNotification w.fm.wspaceId message = some (type, id))
    (h : Act.wp
      (if type = 'd' then processDelete env id
        else if type = 'i' then processInsert env id
        else processUpdate env id) (fun _ => P) (fun _ => P) w) :
    Act.wp (processDBNotification env message) (fun _ => P)
      (fun _ _ => False) w := by
  simp only [processDBNotification, Act.wp_bind, Act.wp_get, hparse,
    Act.wp_tryCatch]
  exact h

section deliver

variable {s : Replication} {V : Contents} {message : String}
  {rest : List String} {type : Char} {id : ℤ} {env : Env}

/-- The session in world `w` after the first message. -/
abbrev Replication.after (s : Replication) (w : World)
    (rest : List String) : Replication :=
  { s with world := w, queue := rest }

/-- What the first message does not say still waits. -/
theorem waits_rest {w : World} (hqueue : s.queue = message :: rest)
    (hws : w.fm.wspaceId = s.world.fm.wspaceId)
    (hne : parseNotification s.world.fm.wspaceId message ≠ some (type, id))
    (h : s.Waits type id) : (s.after w rest).Waits type id := by
  obtain ⟨m, hm, hm'⟩ := h
  rw [hqueue] at hm
  rcases List.mem_cons.mp hm with rfl | hm
  · exact absurd hm' hne
  · refine ⟨m, hm, ?_⟩
    rw [hws]
    exact hm'

theorem settled_rest {w : World} (hqueue : s.queue = message :: rest)
    (hdb : w.db = s.world.db) (hws : w.fm.wspaceId = s.world.fm.wspaceId)
    (hne : ∀ type,
      parseNotification s.world.fm.wspaceId message ≠ some (type, id))
    (h : Settled s V id) : Settled (s.after w rest) V id := by
  have htable : (s.after w rest).table = s.table := by
    rw [Replication.table, Replication.table, hdb]
  have hmono : ∀ type, s.Waits type id → (s.after w rest).Waits type id :=
    fun type => waits_rest hqueue hws (hne type)
  rw [Settled, htable]
  exact h.imp_right fun h => h.imp (And.imp_right (hmono _)) (Or.imp
    (And.imp_right (And.imp_right (hmono _)))
    (And.imp_right (And.imp_right (hmono _))))

/-- The session after the first message follows, if every file is settled. -/
theorem Follows.after {V' : Contents} {w : World} (h : Follows s V)
    (hqueue : s.queue = message :: rest) (hholds : Holds w V')
    (hdb : w.db = s.world.db) (hws : w.fm.wspaceId = s.world.fm.wspaceId)
    (hbound : ∀ k, s.nextId ≤ k → V' k = none)
    (hsettled : ∀ k, Settled (s.after w rest) V' k) :
    Follows (s.after w rest) V' := by
  have htable : (s.after w rest).table = s.table := by
    rw [Replication.table, Replication.table, hdb]
  have hold : ∀ type id, (s.after w rest).Waits type id →
      s.Waits type id := by
    rintro type id ⟨m, hm, hm'⟩
    refine ⟨m, by rw [hqueue]; exact List.mem_cons_of_mem _ hm, ?_⟩
    rw [← hws]
    exact hm'
  refine ⟨hholds, hsettled, fun k hk => ?_, fun k hw => ?_, ?_⟩
  · obtain ⟨-, hT, hno⟩ := h.bound k hk
    exact ⟨hbound k hk, by rw [htable, hT],
      fun type hw => hno type (hold type k hw)⟩
  · rw [htable]
    exact h.deleted k (hold 'd' k hw)
  · rw [htable]
    exact h.plain

/-- The session after the first message, which settles its file and leaves
the others. -/
theorem Follows.next {V' : Contents} {w : World} (h : Follows s V)
    (hqueue : s.queue = message :: rest)
    (hparse : parseNotification s.world.fm.wspaceId message = some (type, id))
    (hholds : Holds w V') (hdb : w.db = s.world.db)
    (hws : w.fm.wspaceId = s.world.fm.wspaceId)
    (hother : ∀ k, k ≠ id → V' k = V k)
    (hid : Settled (s.after w rest) V' id) :
    Follows (s.after w rest) V' := by
  have hfirst : s.Waits type id :=
    ⟨message, by rw [hqueue]; exact List.mem_cons_self, hparse⟩
  refine h.after hqueue hholds hdb hws (fun k hk => ?_) fun k => ?_
  · have hne : k ≠ id := by
      rintro rfl
      exact (h.bound k hk).2.2 type hfirst
    rw [hother k hne]
    exact (h.bound k hk).1
  · by_cases hne : k = id
    · rw [hne]
      exact hid
    · have hold := settled_rest hqueue hdb hws (fun type' heq => by
        rw [hparse] at heq
        cases heq
        exact hne rfl) (h.settled k)
      rw [Settled, hother k hne]
      exact hold

/-- The row an insert message reads can be loaded. -/
theorem Follows.loadable_insert {cur : FetchedFile} (h : Follows s V)
    (hcur : s.table id = some cur)
    (hname : ∀ k r, s.world.fm.filesById[k]? = some (some r) →
      (k = id ↔ (s.world.fm.objects r).path = cur.name)) :
    Loadable V cur := by
  have hid : cur.id = id := Tables.fetch_id hcur
  have hV : ∀ k row, V k = some row → (k = id ↔ row.name = cur.name) := by
    intro k row hrow
    obtain ⟨r, hr, -, -, hpath⟩ := h.holds.caches.cached k row hrow
    rw [← hpath]
    exact hname k r hr
  refine ⟨h.plain id cur hcur, ⟨fun k row hrow => ?_,
    fun k row k' row' hrow hrow' heq => ?_⟩, fun old hold => ?_⟩
  · by_cases hne : k = cur.id
    · subst hne
      rw [Contents.put_self] at hrow
      obtain rfl := Option.some.inj hrow
      rfl
    · rw [Contents.put_of_ne _ hne] at hrow
      exact h.holds.wellFormed.id k row hrow
  · by_cases hne : k = cur.id
    · by_cases hne' : k' = cur.id
      · rw [hne, hne']
      · subst hne
        rw [Contents.put_self] at hrow
        obtain rfl := Option.some.inj hrow
        rw [Contents.put_of_ne _ hne'] at hrow'
        exact hid.trans ((hV k' row' hrow').mpr heq.symm).symm
    · by_cases hne' : k' = cur.id
      · subst hne'
        rw [Contents.put_self] at hrow'
        obtain rfl := Option.some.inj hrow'
        rw [Contents.put_of_ne _ hne] at hrow
        exact ((hV k row hrow).mpr heq).trans hid.symm
      · rw [Contents.put_of_ne _ hne] at hrow
        rw [Contents.put_of_ne _ hne'] at hrow'
        exact h.holds.wellFormed.name k row k' row' hrow hrow' heq
  · exact (hV cur.id old hold).mp hid

/-- A row under the name its file is cached under can be loaded again. -/
theorem Follows.loadable_update {old cur : FetchedFile} (h : Follows s V)
    (hcur : s.table id = some cur) (hold : V id = some old)
    (hname : s.UpdateSafe id) : Loadable V cur := by
  refine h.loadable_insert hcur fun k r hr => ?_
  obtain ⟨r₀, hr₀, -, -, hpath₀⟩ := h.holds.caches.cached id old hold
  have hsame : old.name = cur.name := by
    rw [← hpath₀]
    exact hname r₀ cur hr₀ hcur
  obtain ⟨_, hptr, -, -, hV⟩ := h.holds.caches.pointer k _ hr
  obtain ⟨row, hrow⟩ := Option.ne_none_iff_exists'.mp hV
  obtain ⟨r', hr', -, -, hpath⟩ := h.holds.caches.cached k row hrow
  obtain rfl : r = r' := Option.some.inj (Option.some.inj (hr.symm.trans hr'))
  rw [hpath]
  constructor
  · rintro rfl
    rw [hold] at hrow
    rw [← Option.some.inj hrow, hsame]
  · intro heq
    exact h.holds.wellFormed.name k row id old hrow hold
      (heq.trans hsame.symm)

/-- A message of an insertion brings the row in. -/
theorem Follows.deliver_insert (h : Follows s V)
    (hqueue : s.queue = message :: rest)
    (hparse : parseNotification s.world.fm.wspaceId message = some ('i', id))
    (hselect : env.fails .selectFiles = false)
    (hwrite : env.fails .writeFile = false) (hinsert : s.InsertSafe id) :
    Act.wp (processInsert env id)
      (fun _ w => ∃ V', Follows (s.after w rest) V')
      (fun _ w => ∃ V', Follows (s.after w rest) V') s.world := by
  obtain ⟨cur, hcur, hname⟩ := hinsert
  have hid : cur.id = id := Tables.fetch_id hcur
  have hcur' : s.world.db.committed.fetch cur.id = some cur := by
    rw [hid]
    exact hcur
  have hpost : ∀ w, Holds w (V.put cur) ∧ w.db = s.world.db ∧
      w.fm.wspaceId = s.world.fm.wspaceId →
      ∃ V', Follows (s.after w rest) V' := by
    rintro w ⟨hholds, hdb, hws⟩
    refine ⟨_, h.next hqueue hparse hholds hdb hws
      (fun k hk => V.put_of_ne (by rwa [hid])) (Or.inl ?_)⟩
    rw [Replication.table, hdb, ← hid, hcur', Contents.put_self]
  rw [← hid]
  exact (h.holds.processInsert hcur' hselect hwrite
    (h.loadable_insert hcur hname)).mono (fun _ w h => hpost w h)
    fun _ w h => hpost w h

/-- A message of an update refreshes a cached file, if its row is still
there. -/
theorem Follows.deliver_update (h : Follows s V)
    (hqueue : s.queue = message :: rest)
    (hparse : parseNotification s.world.fm.wspaceId message = some ('u', id))
    (hselect : env.fails .selectFiles = false)
    (hwrite : env.fails .writeFile = false) (hupdate : s.UpdateSafe id) :
    Act.wp (processUpdate env id)
      (fun _ w => ∃ V', Follows (s.after w rest) V')
      (fun _ _ => False) s.world := by
  have hfetch : s.world.db.committed.fetch id = s.table id := rfl
  refine (h.holds.processUpdate hfetch hselect hwrite
    fun hV cur hcur => ?_).mono (fun _ w h' => ?_) fun _ _ h => h
  · obtain ⟨old, hold⟩ := Option.ne_none_iff_exists'.mp hV
    exact h.loadable_update hcur hold hupdate
  obtain ⟨hholds, hdb, hws⟩ := h'
  have htable : (s.after w rest).table = s.table := by
    rw [Replication.table, Replication.table, hdb]
  have hother : ∀ type', type' ≠ 'u' → s.Waits type' id →
      (s.after w rest).Waits type' id :=
    fun type' hne => waits_rest hqueue hws fun heq => by
      rw [hparse] at heq
      cases heq
      exact hne rfl
  by_cases hV : V id = none
  · rw [if_pos hV] at hholds
    refine ⟨V, h.next hqueue hparse hholds hdb hws (fun _ _ => rfl) ?_⟩
    rw [Settled, htable]
    rcases h.settled id with heq | ⟨-, hw⟩ | ⟨hno, -⟩ | ⟨hno, -⟩
    · exact Or.inl heq
    · exact Or.inr (Or.inl ⟨hV, hother 'i' (by decide) hw⟩)
    · exact absurd hV hno
    · exact absurd hV hno
  rw [if_neg hV] at hholds
  cases hT : s.table id with
  | none =>
      rw [hT] at hholds
      refine ⟨V, h.next hqueue hparse hholds hdb hws (fun _ _ => rfl) ?_⟩
      rw [Settled, htable]
      rcases h.settled id with heq | ⟨hno, -⟩ | ⟨-, -, hw⟩ | ⟨-, hno, -⟩
      · exact Or.inl heq
      · exact absurd hno hV
      · exact Or.inr (Or.inr (Or.inl ⟨hV, hT, hother 'd' (by decide) hw⟩))
      · exact absurd hT hno
  | some cur =>
      rw [hT] at hholds
      have hid : cur.id = id := Tables.fetch_id hT
      refine ⟨_, h.next hqueue hparse hholds hdb hws
        (fun k hk => V.put_of_ne (by rwa [hid])) (Or.inl ?_)⟩
      rw [htable, hT, ← hid]
      exact V.put_self cur

/-- A message of a deletion removes the file. -/
theorem Follows.deliver_delete (h : Follows s V)
    (hqueue : s.queue = message :: rest)
    (hparse : parseNotification s.world.fm.wspaceId message = some ('d', id))
    (hremove : env.fails .remove = false) :
    Act.wp (processDelete env id)
      (fun _ w => ∃ V', Follows (s.after w rest) V')
      (fun _ _ => False) s.world := by
  have hfirst : s.Waits 'd' id :=
    ⟨message, by rw [hqueue]; exact List.mem_cons_self, hparse⟩
  refine (h.holds.processDelete hremove).mono (fun _ w h' => ?_)
    fun _ _ h => h
  obtain ⟨hholds, hdb, hws⟩ := h'
  refine ⟨_, h.next hqueue hparse hholds hdb hws
    (fun k hk => V.remove_of_ne hk) (Or.inl ?_)⟩
  rw [Replication.table, hdb, Contents.remove_self]
  exact (h.deleted id hfirst).symm

/-- Handling the first message settles its file. -/
theorem Follows.deliver (h : Follows s V) (hqueue : s.queue = message :: rest)
    (hsafe : s.StepSafe (.deliver env)) :
    Act.wp (processDBNotification env message)
      (fun _ w => ∃ V', Follows (s.after w rest) V')
      (fun _ _ => False) s.world := by
  obtain ⟨hselect, hwrite, hremove, hread⟩ := hsafe
  cases hparse : parseNotification s.world.fm.wspaceId message with
  | none =>
      have hnothing : processDBNotification env message s.world =
          (.returned (), s.world) := by
        simp only [processDBNotification, Act.bind_apply, Act.get_apply,
          hparse, Act.pure_apply]
      refine Act.wp_of_apply hnothing ⟨V, h.after hqueue h.holds rfl rfl
        (fun k hk => (h.bound k hk).1) fun k => ?_⟩
      refine settled_rest hqueue rfl rfl (fun type heq => ?_) (h.settled k)
      rw [hparse] at heq
      cases heq
  | some parsed =>
      obtain ⟨type, id⟩ := parsed
      obtain ⟨hinsert, hupdate⟩ :=
        hread message (by rw [hqueue]; rfl) type id hparse
      refine processDBNotification_wp hparse ?_
      rcases parseNotification_type hparse with rfl | rfl | rfl
      · rw [if_neg (by decide), if_pos rfl]
        exact h.deliver_insert hqueue hparse hselect hwrite (hinsert rfl)
      · rw [if_neg (by decide), if_neg (by decide)]
        exact (h.deliver_update hqueue hparse hselect hwrite
          (hupdate rfl)).mono (fun _ _ h => h) fun _ _ h => h.elim
      · rw [if_pos rfl]
        exact (h.deliver_delete hqueue hparse hremove).mono (fun _ _ h => h)
          fun _ _ h => h.elim

end deliver

/-! ## The initial load -/

theorem mem_selectFiles {t : Tables} {whereClause : ℤ → FileRow → Bool}
    {row : FetchedFile} :
    row ∈ t.selectFiles whereClause ↔
      ∃ r, t.rcfile[row.id]? = some r ∧ whereClause row.id r = true ∧
        t.fetch row.id = some row := by
  simp only [Tables.selectFiles, List.mem_filterMap, Prod.exists,
    Map.mem_toList]
  constructor
  · rintro ⟨id, r, hr, hrow⟩
    split at hrow
    next hwhere =>
      obtain ⟨data, hdata, rfl⟩ := Option.map_eq_some_iff.mp hrow
      exact ⟨r, hr, hwhere, by simp [Tables.fetch, hr, hdata]⟩
    next => cases hrow
  · rintro ⟨r, hr, hwhere, hfetch⟩
    refine ⟨row.id, r, hr, ?_⟩
    rw [if_pos hwhere]
    simpa [Tables.fetch, hr] using hfetch

theorem selectFiles_pairwise (t : Tables)
    (whereClause : ℤ → FileRow → Bool) :
    (t.selectFiles whereClause).Pairwise fun a b => a.id ≠ b.id := by
  have hkeys := Std.TreeMap.distinct_keys_toList (t := t.rcfile)
  refine List.Pairwise.filterMap _ (fun p q hpq a ha b hb => ?_) hkeys
  have hkey : ∀ (p : ℤ × FileRow) (a : FetchedFile),
      (if whereClause p.1 p.2 then t.rcfiledata[p.1]?.map fun data =>
        (⟨p.1, p.2.version, p.2.name, p.2.lastmodified, data⟩ :
          FetchedFile) else none) = some a → a.id = p.1 := by
    intro p a ha
    split at ha
    next =>
      obtain ⟨_, -, rfl⟩ := Option.map_eq_some_iff.mp ha
      rfl
    next => cases ha
  rw [hkey p a ha, hkey q b hb]
  simpa [Std.LawfulEqCmp.compare_eq_iff_eq] using hpq

/-- Loading rows one after the other brings in the rest of the files `T`. -/
theorem loadAll_holds {env : Env} (hwrite : env.fails .writeFile = false)
    {T : Contents} (hT : T.WellFormed)
    (hplain : ∀ id row, T id = some row → row.Plain)
    {rows : List FetchedFile} (hrows : ∀ row ∈ rows, T row.id = some row)
    (hdistinct : rows.Pairwise fun a b => a.id ≠ b.id) {w : World}
    {V : Contents} (h : Holds w V)
    (hV : ∀ id, V id = if ∃ row ∈ rows, row.id = id then none else T id) :
    Act.wp (Act.forEach rows (loadFile env))
      (fun _ w' => Holds w' T ∧ w'.db = w.db ∧
        w'.fm.wspaceId = w.fm.wspaceId)
      (fun _ _ => False) w := by
  induction rows generalizing w V with
  | nil =>
      have hall : V = T := by
        funext id
        simpa using hV id
      exact ⟨hall ▸ h, rfl, rfl⟩
  | cons row rows ih =>
      rw [List.pairwise_cons] at hdistinct
      have hnew : V row.id = none := by
        rw [hV, if_pos ⟨row, by simp, rfl⟩]
      have hput : ∀ id, V.put row id =
          if ∃ r ∈ rows, r.id = id then none else T id := by
        intro id
        by_cases hne : id = row.id
        · subst hne
          rw [Contents.put_self, if_neg, hrows row (by simp)]
          rintro ⟨r, hr, heq⟩
          exact hdistinct.1 r hr heq.symm
        · rw [Contents.put_of_ne _ hne, hV]
          have hiff : (∃ r ∈ row :: rows, r.id = id) ↔
              ∃ r ∈ rows, r.id = id := by
            simp only [List.mem_cons, exists_eq_or_imp]
            exact or_iff_right fun h => hne h.symm
          simp only [hiff]
      have hsub : ∀ id r, V.put row id = some r → T id = some r := by
        intro id r hr
        rw [hput] at hr
        split at hr
        next => cases hr
        next => exact hr
      have hwf : (V.put row).WellFormed :=
        ⟨fun id r hr => hT.id id r (hsub id r hr),
          fun id r id' r' hr hr' =>
            hT.name id r id' r' (hsub id r hr) (hsub id' r' hr')⟩
      rw [Act.forEach_cons, Act.wp_bind]
      refine (h.loadFile (hplain _ _ (hrows row (by simp))) hwrite hwf
        fun old hold => ?_).mono (fun _ w₁ h₁ => ?_) fun _ _ h => h
      · rw [hnew] at hold
        cases hold
      · refine (ih (fun r hr => hrows r (by simp [hr])) hdistinct.2 h₁.1
          hput).mono (fun _ w₂ h₂ => ?_) fun _ _ h => h
        exact ⟨h₂.1, h₂.2.1.trans h₁.2.1, h₂.2.2.trans h₁.2.2⟩

/-- The tables of one workspace before the session starts. -/
structure Tables.Loadable (t : Tables) (wspaceId nextId : ℤ) : Prop where
  ours : ∀ (id : ℤ) row, t.rcfile[id]? = some row → row.wspaceid = wspaceId
  name : ∀ id row id' row', t.fetch id = some row → t.fetch id' = some row' →
    row.name = row'.name → id = id'
  plain : ∀ id row, t.fetch id = some row → row.Plain
  bound : ∀ id, t.fetch id ≠ none → id < nextId

/-- The session after `loadFiles` for its workspace, with nothing queued. -/
def Replication.start (env : Env) (workingDir : String)
    (wspaceId sessionRecId nextId : ℤ) (t : Tables) : Replication where
  world := (loadFiles env (fun _ row => row.wspaceid = wspaceId)
    (World.initial workingDir wspaceId sessionRecId t)).2
  queue := []
  nextId := nextId

/-- At the start the session holds the table's files. -/
theorem follows_start {env : Env} (workingDir : String)
    {wspaceId : ℤ} (sessionRecId : ℤ) {nextId : ℤ} {t : Tables}
    (ht : t.Loadable wspaceId nextId)
    (hselect : env.fails .selectFiles = false)
    (hwrite : env.fails .writeFile = false) :
    let s := Replication.start env workingDir wspaceId sessionRecId nextId t
    Follows s s.table := by
  intro s
  let w := World.initial workingDir wspaceId sessionRecId t
  let rows := t.selectFiles fun _ row => row.wspaceid = wspaceId
  have hrows : ∀ row ∈ rows, t.fetch row.id = some row :=
    fun row hrow => (mem_selectFiles.mp hrow).choose_spec.2.2
  have hinitial : Holds w fun _ => none := by
    refine ⟨⟨fun _ _ h => (by cases h), fun _ _ _ _ h => (by cases h)⟩,
      ⟨fun id ptr h => ?_, fun _ _ h => (by cases h)⟩,
      ⟨fun _ _ h => (by cases h), fun name h => ?_⟩⟩
    · simp [w, World.initial, FileManager.initial] at h
    · simp [w, World.initial] at h
  have hempty : ∀ id, (none : Option FetchedFile) =
      if ∃ row ∈ rows, row.id = id then none else t.fetch id := by
    intro id
    split
    next => rfl
    next hno =>
      by_contra hne
      obtain ⟨row, hrow⟩ := Option.ne_none_iff_exists'.mp fun h => hne h.symm
      obtain rfl : row.id = id := Tables.fetch_id hrow
      refine hno ⟨row, mem_selectFiles.mpr ?_, rfl⟩
      obtain ⟨r, hr, -⟩ := Option.bind_eq_some_iff.mp hrow
      exact ⟨r, hr, by simpa using ht.ours _ r hr, hrow⟩
  have hwf : Contents.WellFormed t.fetch := ⟨fun _ _ h => Tables.fetch_id h, ht.name⟩
  have hfits : rows.all FetchedFile.fits = true := by
    rw [List.all_eq_true]
    exact fun row hrow => (ht.plain _ row (hrows row hrow)).fits
  have hload : Act.wp
      (loadFiles env fun _ row => row.wspaceid = wspaceId)
      (fun _ w' => Holds w' t.fetch ∧ w'.db = w.db ∧
        w'.fm.wspaceId = w.fm.wspaceId) (fun _ _ => False) w := by
    simp only [loadFiles, Act.wp_bind, Act.wp_get]
    have hall : (w.db.committed.selectFiles
        fun _ row => row.wspaceid = wspaceId).all FetchedFile.fits = true :=
      hfits
    rw [if_neg (by rw [hselect, hall]; decide)]
    exact loadAll_holds hwrite hwf ht.plain hrows
      (selectFiles_pairwise t _) hinitial hempty
  obtain ⟨hholds, hdb, -⟩ :=
    (hload.mono (fun _ _ h => h) fun _ _ h => h.elim).final
  have htable : s.table = t.fetch := by
    rw [Replication.table]
    exact congrArg (fun db : Database => db.committed.fetch) hdb
  have hnone : ∀ type id, ¬ s.Waits type id := by
    rintro type id ⟨m, hm, -⟩
    cases hm
  refine ⟨htable ▸ hholds, fun id => Or.inl rfl, fun id hid => ?_,
    fun id hw => absurd hw (hnone 'd' id), ?_⟩
  · have hT : s.table id = none := by
      rw [htable]
      by_contra hne
      exact absurd (ht.bound id hne) (not_lt.mpr hid)
    exact ⟨hT, hT, fun type => hnone type id⟩
  · rw [htable]
    exact ht.plain

/-! ## Runs -/

/-- The session holds some files, all of them settled. -/
def Following (s : Replication) : Prop :=
  ∃ V, Follows s V

theorem Following.step {s : Replication} {op : ReplicaOp} (h : Following s)
    (hvalid : s.OutsideValid op) (hsafe : s.StepSafe op) :
    Following (s.step op) ∧ s.Defined op := by
  obtain ⟨V, h⟩ := h
  cases op with
  | commit c message => exact ⟨⟨V, h.commit hvalid hsafe⟩, trivial⟩
  | deliver env =>
      cases hqueue : s.queue with
      | nil =>
          simp only [Replication.step, Replication.Defined, hqueue]
          exact ⟨⟨V, h⟩, fun _ hm => by cases hm⟩
      | cons message rest =>
          obtain ⟨w, hw, hfollowing⟩ := (h.deliver hqueue hsafe).ends
          simp only [Replication.step, Replication.Defined, hqueue, hw]
          refine ⟨hfollowing, fun m hm => ?_⟩
          obtain rfl := Option.some.inj hm
          rw [hw]
          intro h
          cases h

theorem Following.refines {s : Replication} {ops : List ReplicaOp}
    (h : Following s)
    (hvalid : Along Replication.step Replication.OutsideValid s ops)
    (hsafe : Along Replication.step Replication.StepSafe s ops) :
    s.Refines ops := by
  have hguard := along_and.mpr ⟨hvalid, hsafe⟩
  refine ⟨along_of_invariant (I := Following)
    (fun _ _ h hg => (h.step hg.1 hg.2).1)
    (fun _ _ h hg => (h.step hg.1 hg.2).2) h hguard, fun hempty => ?_⟩
  obtain ⟨V, hfinal⟩ := run_invariant (I := Following)
    (fun _ _ h hg => (h.step hg.1 hg.2).1) h hguard
  exact hfinal.holds_table hempty

/-- After the initial load, in every run in which the handled messages find
rows they can follow, nothing missing is dereferenced, and whenever the queue
is empty the session holds the files of the table. -/
theorem refines_of_stepSafe {env : Env} {workingDir : String}
    {wspaceId sessionRecId nextId : ℤ} {t : Tables} {ops : List ReplicaOp}
    (ht : t.Loadable wspaceId nextId)
    (hselect : env.fails .selectFiles = false)
    (hwrite : env.fails .writeFile = false)
    (hvalid : Along Replication.step Replication.OutsideValid
      (Replication.start env workingDir wspaceId sessionRecId nextId t) ops)
    (hsafe : Along Replication.step Replication.StepSafe
      (Replication.start env workingDir wspaceId sessionRecId nextId t)
      ops) :
    (Replication.start env workingDir wspaceId sessionRecId nextId
      t).Refines ops :=
  Following.refines ⟨_, follows_start _ _ ht hselect hwrite⟩ hvalid hsafe

/-! ## One file -/

/-- The session of a workspace with the one file `a.R`, of identifier 7. -/
def oneFileSession : Replication :=
  Replication.start (Env.succeeding 3 1) "wd" 1 1 8 oneFile

theorem oneFile_fetch (id : ℤ) :
    oneFile.fetch id = if id = 7 then some ⟨7, 1, "a.R", 0, []⟩ else none := by
  by_cases h : id = 7
  · subst h
    decide
  · have hne : (7 : ℤ) ≠ id := fun heq => h heq.symm
    simp [Tables.fetch, oneFile, hne, h]

theorem oneFile_loadable : oneFile.Loadable 1 8 := by
  have hrow : ∀ id row, oneFile.fetch id = some row →
      id = 7 ∧ row = ⟨7, 1, "a.R", 0, []⟩ := by
    intro id row h
    rw [oneFile_fetch] at h
    split at h
    next heq => exact ⟨heq, (Option.some.inj h).symm⟩
    next => cases h
  refine ⟨fun id row h => ?_, fun id row id' row' h h' _ => ?_,
    fun id row h => ?_, fun id h => ?_⟩
  · simp only [oneFile, Map.getElem?_insert] at h
    split at h
    next => cases h; rfl
    next => simp at h
  · rw [(hrow id row h).1, (hrow id' row' h').1]
  · rw [(hrow id row h).2]
    decide
  · obtain ⟨row, h⟩ := Option.ne_none_iff_exists'.mp h
    rw [(hrow id row h).1]
    decide

/-- The empty file `b.R`, of identifier 8. -/
def secondFile : FetchedFile := ⟨8, 1, "b.R", 0, []⟩

theorem insert_secondFile_valid :
    oneFileSession.OutsideValid (.commit (.insert secondFile) "i8/1/b") :=
  ⟨le_rfl, by decide⟩

/-- A file is inserted and deleted before its first message is handled: the
handler dereferences a null entry. -/
theorem refines_fails_on_deleted_insert :
    oneFile.Loadable 1 8 ∧
      Along Replication.step Replication.OutsideValid oneFileSession
        [.commit (.insert secondFile) "i8/1/b", .commit (.delete 8) "d8/1/b",
          .deliver (Env.succeeding 3 1)] ∧
      ¬ oneFileSession.Refines
        [.commit (.insert secondFile) "i8/1/b", .commit (.delete 8) "d8/1/b",
          .deliver (Env.succeeding 3 1)] := by
  have hdelete : (8 : ℤ) < (oneFileSession.step
      (.commit (.insert secondFile) "i8/1/b")).nextId := by
    decide
  refine ⟨oneFile_loadable,
    ⟨insert_secondFile_valid, ⟨hdelete, by decide⟩, trivial, trivial⟩, ?_⟩
  rintro ⟨⟨-, -, hdefined, -⟩, -⟩
  exact hdefined "i8/1/b" (by decide) (by decide)

/-- A file is inserted and announced, then another one changes and is
announced. -/
theorem refines_insert_change :
    oneFileSession.Refines
      [.commit (.insert secondFile) "i8/1/b", .deliver (Env.succeeding 3 1),
        .commit (.change 7 2 0 [1]) "u7/1/a", .deliver (Env.succeeding 4 1)] := by
  let s₁ := oneFileSession.step (.commit (.insert secondFile) "i8/1/b")
  let s₂ := s₁.step (.deliver (Env.succeeding 3 1))
  let s₃ := s₂.step (.commit (.change 7 2 0 [1]) "u7/1/a")
  have hplain : secondFile.Plain := by decide
  have hchange : (7 : ℤ) < s₂.nextId := by decide
  have hinsertSafe : s₁.InsertSafe 8 := by
    refine ⟨secondFile, by decide, fun k r hr => ?_⟩
    have hfiles : s₁.world.fm.filesById =
        (∅ : Map ℤ DBFileInfoPtr).insert 7 (some 0) := rfl
    rw [hfiles, Map.getElem?_insert] at hr
    split at hr
    next heq =>
      obtain rfl : 0 = r := Option.some.inj (Option.some.inj hr)
      subst heq
      decide
    next => simp at hr
  have hupdateSafe : s₃.UpdateSafe 7 := by
    intro r cur hr hcur
    have hcached : s₃.world.fm.filesById[(7 : ℤ)]? = some (some 0) := by
      decide
    have hrow : s₃.table 7 = some ⟨7, 2, "a.R", 0, [1]⟩ := by decide
    obtain rfl : 0 = r :=
      Option.some.inj (Option.some.inj (hcached.symm.trans hr))
    obtain rfl := Option.some.inj (hrow.symm.trans hcur)
    decide
  refine refines_of_stepSafe oneFile_loadable rfl rfl
    ⟨insert_secondFile_valid, trivial, ⟨hchange, by decide⟩, trivial, trivial⟩
    ⟨hplain, ⟨rfl, rfl, rfl, ?_⟩, ⟨by decide, by decide, rfl⟩,
      ⟨rfl, rfl, rfl, ?_⟩, trivial⟩
  · intro message hmessage type id hparse
    obtain rfl : "i8/1/b" = message := by
      refine Option.some.inj (Eq.trans ?_ hmessage)
      decide
    have h8 : parseNotification 1 "i8/1/b" = some ('i', 8) := by decide
    cases h8.symm.trans hparse
    exact ⟨fun _ => hinsertSafe, fun h => absurd h (by decide)⟩
  · intro message hmessage type id hparse
    obtain rfl : "u7/1/a" = message := by
      refine Option.some.inj (Eq.trans ?_ hmessage)
      decide
    have h7 : parseNotification 1 "u7/1/a" = some ('u', 7) := by decide
    cases h7.symm.trans hparse
    exact ⟨fun h => absurd h (by decide), fun _ => hupdateSafe⟩

end Rc2Compute.Files
