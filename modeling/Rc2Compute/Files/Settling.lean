import Rc2Compute.Files.Sharing
import Rc2Compute.Files.Window
import Mathlib.Data.Finset.Dedup
import Mathlib.Data.Fintype.Defs

/-!
# Coming to rest

From every state the sessions of a workspace reach without losing a write,
deliveries alone lead to a state in which nothing is pending.  Each session
first closes its ignore window and reads its events, which may commit; then
each handles its messages, drops the events its own loading has caused, and
closes its window again.
-/

namespace Rc2Compute.Files

open Transition
open Mirroring (Agrees InOrder SameFiles Tracking)

/-! ## Messages -/

/-- The message about a changed file. -/
def updateMessage (wspaceId id : ℕ) : String :=
  String.ofList ('u' :: (decimal id ++ '/' :: (decimal wspaceId ++ ['/'])))

theorem parseNotification_updateMessage {wspaceId id : ℕ}
    (hwspace : wspaceId < 2 ^ 63) (hid : id < 2 ^ 63) :
    parseNotification wspaceId (updateMessage wspaceId id) =
      some ('u', (id : ℤ)) := by
  have hslash : ∀ n, '/' ∉ decimal n := by
    intro n hmem
    cases isDigit_of_mem_decimal hmem
  have hsplit : (decimal id ++ '/' :: (decimal wspaceId ++ ['/'])).splitOn '/' =
      [decimal id, decimal wspaceId, []] := by
    rw [List.splitOn_append_cons_self_of_not_mem (hslash id),
      List.splitOn_append_cons_self_of_not_mem (hslash wspaceId),
      List.splitOn_nil]
  have hne : decimal id ++ '/' :: (decimal wspaceId ++ ['/']) ≠ [] := by simp
  rw [parseNotification, updateMessage, String.toList_ofList]
  simp only [hsplit, atol_decimal hwspace, atol_decimal hid]
  rw [if_neg (by simp), if_neg (by simp)]

/-- A message for every file that can be stored. -/
def announcement (wspaceId : ℕ) (t : Tables) : List String :=
  t.rcfiledata.toList.filterMap fun entry =>
    if 0 ≤ entry.1 ∧ entry.1 < 2 ^ 31 then
      some (updateMessage wspaceId entry.1.toNat)
    else
      none

/-- What changed contents amount to. -/
theorem Rewritten.data {wspaceId : ℤ} {t t' : Tables}
    (h : Rewritten wspaceId t t') (id : ℤ) :
    t'.rcfiledata[id]? = t.rcfiledata[id]? ∨
      0 ≤ id ∧ id < 2 ^ 31 ∧ t.rcfiledata[id]? ≠ none := by
  induction h with
  | refl => exact .inl rfl
  | @tail t₁ t₂ _ hchange ih =>
      obtain ⟨id', version, lastmod, data, hpos, hlt, -, -, -, rfl⟩ := hchange
      simp only [Commit.execute, Map.getElem?_modify]
      split
      next heq =>
        subst heq
        cases hold : t₁.rcfiledata[id']? with
        | none =>
            rw [hold] at ih
            exact ih
        | some old =>
            rw [hold] at ih
            refine .inr ⟨hpos, hlt, ?_⟩
            rcases ih with heq | ⟨-, -, hne⟩
            · rw [← heq]
              exact Option.some_ne_none old
            · exact hne
      next => exact ih

theorem Rewritten.announces {wspaceId : ℕ} (hwspace : wspaceId < 2 ^ 63)
    {t t' : Tables} (h : Rewritten wspaceId t t') :
    Sharing.Announces wspaceId t t' (announcement wspaceId t) := by
  have hparse : ∀ id : ℤ, 0 ≤ id → id < 2 ^ 31 →
      parseNotification wspaceId (updateMessage wspaceId id.toNat) =
        some ('u', id) := by
    intro id hpos hlt
    rw [parseNotification_updateMessage hwspace (by omega),
      Int.toNat_of_nonneg hpos]
  constructor
  · intro message hmem
    obtain ⟨⟨id, data⟩, -, hsome⟩ := List.mem_filterMap.mp hmem
    split at hsome
    next hbound =>
      cases hsome
      exact ⟨id, hparse id hbound.1 hbound.2⟩
    next => cases hsome
  · intro id hne
    obtain ⟨hpos, hlt, hold⟩ := (h.data id).resolve_left hne
    obtain ⟨data, hdata⟩ := Option.ne_none_iff_exists'.mp hold
    refine ⟨_, List.mem_filterMap.mpr ⟨(id, data), ?_, if_pos ⟨hpos, hlt⟩⟩,
      hparse id hpos hlt⟩
    exact (Map.mem_toList _).mpr hdata

/-! ## The window -/

/-- The window is closed and no timer runs, or it is open and one runs. -/
def Timed (w : World) : Prop :=
  w.window = (false, 0) ∨ w.window = (true, 1)

theorem Timed.of_window {w w' : World} (h : Timed w)
    (heq : w'.window = w.window) : Timed w' := by
  rw [Timed, heq]
  exact h

theorem Timed.windowOpened {w : World} (h : Timed w) :
    Timed (windowOpened w) := by
  rcases h with h | h
  · right
    have hflag : w.fm.ignoreFSNotifications = false := congrArg Prod.fst h
    have htimers : w.fm.ignoreOffTimers = 0 := congrArg Prod.snd h
    rw [window_windowOpened, hflag, htimers]
    rfl
  · right
    rw [windowOpened_of_open (congrArg Prod.fst h), h]

namespace Mirroring

/-- The session after its timer, if it runs, has fired. -/
theorem window_ignoreOff {s : Mirroring} (h : Timed s.world) :
    (s.step .ignoreOff).world.window = (false, 0) := by
  rw [step]
  rcases h with h | h
  · have htimers : s.world.fm.ignoreOffTimers = 0 := congrArg Prod.snd h
    rw [if_neg (by omega), h]
  · have htimers : s.world.fm.ignoreOffTimers = 1 := congrArg Prod.snd h
    rw [if_pos (by omega)]
    change (false, s.world.fm.ignoreOffTimers - 1) = _
    rw [htimers]

theorem step_timed {s : Mirroring} (h : Timed s.world) (op : MirrorOp) :
    Timed (s.step op).world := by
  cases op with
  | rewrite name data => exact h.of_window rfl
  | remoteUpdate id version lastmod data message => exact h.of_window rfl
  | notify message => exact h
  | deliverEvents envs =>
      have hread : Timed (s.world.readEvents envs.length) := h.of_window rfl
      exact hread.windowOpened.of_window (window_handleInotifyEvent _ _)
  | deliverNotifications env envs =>
      exact h.windowOpened.of_window (window_handleDBNotifications _ _ _)
  | ignoreOff => exact .inl (window_ignoreOff h)

/-- Firing the timer leaves everything else. -/
theorem ignoreOff_eq (s : Mirroring) :
    (s.step .ignoreOff).world.inotify = s.world.inotify ∧
      (s.step .ignoreOff).queue = s.queue ∧
      (s.step .ignoreOff).tables = s.tables := by
  rw [step]
  split
  · exact ⟨rfl, rfl, rfl⟩
  · exact ⟨rfl, rfl, rfl⟩

end Mirroring

/-! ## Deliveries -/

/-- The steps that hand a session what is waiting for it. -/
def MirrorOp.Delivers : MirrorOp → Prop
  | .deliverEvents _ | .deliverNotifications _ _ | .ignoreOff => True
  | _ => False

theorem MirrorOp.Delivers.own {op : MirrorOp} (h : op.Delivers) : op.Own := by
  cases op with
  | rewrite name data => trivial
  | remoteUpdate id version lastmod data message => exact h.elim
  | notify message => exact h.elim
  | deliverEvents envs => trivial
  | deliverNotifications env envs => trivial
  | ignoreOff => trivial

def ShareOp.Delivers {ι : Type} : ShareOp ι → Prop
  | .own _ op _ => op.Delivers
  | .outside _ _ _ _ _ => False

/-- An answer that lets every call succeed. -/
def Env.willing : Env := Env.succeeding 0 0

theorem Env.willing_of_mem_replicate {n : ℕ} :
    ∀ env ∈ List.replicate n Env.willing, env.Works := by
  intro env henv
  obtain rfl := List.eq_of_mem_replicate henv
  exact Env.succeeding_works 0 0

namespace Mirroring

/-- Reading every event while the window is closed leaves none. -/
theorem Tracking.readAll {s : Mirroring} (h : Tracking s)
    (hclosed : s.world.fm.ignoreFSNotifications = false) {envs : List Env}
    (hlength : s.world.inotify.unread.length ≤ envs.length)
    (henvs : ∀ env ∈ envs, env.Works) :
    (s.step (.deliverEvents envs)).world.inotify.unread = [] := by
  have h₀ : InOrder (s.world.readEvents envs.length) :=
    readEvents_inOrder h.inOrder envs.length
  have hbatch : ∀ entry ∈ envs.zip s.world.inotify.unread,
      entry.1.Works ∧
        Known (s.world.readEvents envs.length) entry.2 := by
    intro entry hentry
    obtain ⟨henv, hevent⟩ := List.of_mem_zip hentry
    exact ⟨henvs _ henv, h.inOrder.events _ hevent⟩
  have hrun := handleInotifyEvent_handled h₀ hbatch hclosed
  obtain ⟨⟨-, -, hinotify⟩, -⟩ :=
    (hrun.mono (fun _ _ h => h) fun _ _ h => h.elim).final
  change Inotify.unread (handleInotifyEvent _ _).2.inotify = []
  rw [hinotify]
  exact List.drop_eq_nil_of_le hlength

/-- While the window is open, events are read and dropped. -/
theorem step_deliverEvents_of_open {s : Mirroring}
    (hopen : s.world.fm.ignoreFSNotifications = true) (envs : List Env) :
    s.step (.deliverEvents envs) =
      { s with world := s.world.readEvents envs.length } := by
  have hrun : handleInotifyEvent (envs.zip s.world.inotify.unread)
      (s.world.readEvents envs.length) =
        (.returned (), s.world.readEvents envs.length) := by
    rw [handleInotifyEvent, Act.bind_apply_returned (Act.get_apply _)]
    exact congrFun (if_pos hopen) _
  rw [step, hrun]

/-- Reading every event while the window is open only drops them. -/
theorem dropAll {s : Mirroring}
    (hopen : s.world.fm.ignoreFSNotifications = true) {envs : List Env}
    (hlength : envs.length = s.world.inotify.unread.length) :
    (s.step (.deliverEvents envs)).world.inotify.unread = [] ∧
      (s.step (.deliverEvents envs)).queue = s.queue ∧
      (s.step (.deliverEvents envs)).tables = s.tables := by
  rw [step_deliverEvents_of_open hopen]
  exact ⟨List.drop_eq_nil_of_le hlength.ge, rfl, rfl⟩

/-- Once a session without events has handled every message, its files agree
with the tables; what it has written itself is waiting to be dropped. -/
theorem Tracking.handleAll {s : Mirroring} (h : Tracking s)
    (hunread : s.world.inotify.unread = []) {env : Env} {envs : List Env}
    (hlength : envs.length = s.queue.length)
    (hvalid : s.Valid (.deliverNotifications env envs)) :
    let after := s.step (.deliverNotifications env envs)
    (∀ id, Agrees after.world id) ∧ after.queue = [] ∧
      after.tables = s.tables ∧
      after.world.fm.ignoreFSNotifications = true := by
  have hbatch : ∀ entry ∈ envs.zip s.queue, entry.1.Works ∧
      ∃ id, parseNotification s.world.fm.wspaceId entry.2 =
        some ('u', id) := by
    intro entry hentry
    obtain ⟨henv, hmessage⟩ := List.of_mem_zip hentry
    exact ⟨hvalid.2 _ henv, h.messages _ hmessage⟩
  have hrun := handleDBNotifications_notified hvalid.1 h.inOrder hbatch
  obtain ⟨-, hagrees⟩ :=
    (hrun.mono (fun _ _ h => h) fun _ _ h => h.elim).final
  have hdrop : s.queue.drop envs.length = [] :=
    List.drop_eq_nil_of_le hlength.ge
  refine ⟨fun id => hagrees id ?_, hdrop, ?_,
    handleDBNotifications_open env _ _⟩
  · rcases h.pending id with hsame | ⟨message, hmem, hparse⟩ | hwritten
    · exact .inl hsame
    · rcases mem_zip_or_drop envs hmem with ⟨entry, hentry, rfl⟩ | hleft
      · exact .inr ⟨entry, hentry, hparse⟩
      · rw [hdrop] at hleft
        cases hleft
    · obtain ⟨event, hmem, -⟩ := hwritten
      rw [hunread] at hmem
      cases hmem
  · exact congrArg Database.committed
      (SameDb.handleDBNotifications env (envs.zip s.queue) s.world)

end Mirroring

/-! ## The sessions -/

/-- Joined sessions whose windows are as their timers say. -/
structure Settling {ι : Type} (wspaceId : ℤ) (V : Contents) (s : Sharing ι) :
    Prop where
  joined : Joined wspaceId V s
  timed : ∀ i, Timed (s.session i).world

namespace Settling

variable {ι : Type} [DecidableEq ι] {V : Contents}

theorem step {wspaceId : ℤ} {s : Sharing ι} (h : Settling wspaceId V s)
    {op : ShareOp ι} (hvalid : s.Valid op) (hfree : s.LossFree op) :
    Settling wspaceId V (s.step op) := by
  refine ⟨h.joined.step hvalid hfree, fun i => ?_⟩
  cases op with
  | own who op messages =>
      by_cases hi : i = who
      · rw [hi, s.session_own_self]
        exact (Mirroring.step_timed (h.timed who) op).of_window rfl
      · rw [s.session_own_of_ne hi]
        exact (h.timed i).of_window rfl
  | outside id version lastmod data message =>
      exact Mirroring.step_timed (h.timed i) _

/-- What a delivery has to satisfy. -/
def Guard (s : Sharing ι) (op : ShareOp ι) : Prop :=
  op.Delivers ∧ s.Valid op ∧ s.LossFree op

theorem run {wspaceId : ℤ} {s : Sharing ι} (h : Settling wspaceId V s)
    {ops : List (ShareOp ι)} (hops : Along Sharing.step Guard s ops) :
    Settling wspaceId V (Transition.run Sharing.step s ops) :=
  run_invariant (fun _ _ h hg => h.step hg.2.1 hg.2.2) h hops

/-- A delivery that commits nothing has nothing to announce, and only the
session that takes it notices. -/
theorem quiet {wspaceId : ℤ} {s : Sharing ι} (h : Settling wspaceId V s)
    {who : ι} {op : MirrorOp} (hdelivers : op.Delivers)
    (hvalid : (s.session who).Valid op)
    (hfree : (s.session who).LossFree op)
    (htables : ((s.session who).step op).tables = (s.session who).tables) :
    Guard s (.own who op []) ∧
      (s.step (.own who op [])).session who = (s.session who).step op ∧
      ∀ i, i ≠ who → (s.step (.own who op [])).session i = s.session i := by
  refine ⟨⟨hdelivers, Sharing.valid_of_sameTables hdelivers.own hvalid htables,
    hfree⟩, ?_, fun i hne => ?_⟩
  · rw [s.session_own_self, Mirroring.hear, List.append_nil]
  · have hshared : (s.session who).tables = (s.session i).tables :=
      h.joined.shared who i
    rw [s.session_own_of_ne hne, htables, hshared, Mirroring.see,
      List.append_nil]
    rfl

/-- A session closes its window, and then reads every event. -/
theorem exists_readAll {wspaceId : ℕ} (hwspace : wspaceId < 2 ^ 63)
    (who : ι) (s : Sharing ι) (h : Settling wspaceId V s) :
    ∃ ops, Along Sharing.step Guard s ops ∧
      Settling wspaceId V (Transition.run Sharing.step s ops) ∧
      ((Transition.run Sharing.step s ops).session
        who).world.inotify.unread = [] ∧
      ∀ i, (s.session i).world.inotify.unread = [] →
        ((Transition.run Sharing.step s ops).session
          i).world.inotify.unread = [] := by
  -- the window
  let s₁ := s.step (.own who .ignoreOff [])
  have hoff : MirrorOp.ignoreOff.Delivers := trivial
  obtain ⟨hguard₁, hself₁, hother₁⟩ := h.quiet hoff trivial trivial
    (s.session who).ignoreOff_eq.2.2
  have h₁ : Settling wspaceId V s₁ := h.step hguard₁.2.1 hguard₁.2.2
  have hclosed : (s₁.session who).world.fm.ignoreFSNotifications = false := by
    rw [hself₁]
    exact congrArg Prod.fst (Mirroring.window_ignoreOff (h.timed who))
  -- the events, with a message for whatever they commit
  let envs := List.replicate (s₁.session who).world.inotify.unread.length
    Env.willing
  have henvs : ∀ env ∈ envs, env.Works := Env.willing_of_mem_replicate
  let messages := announcement wspaceId (s₁.session who).tables
  let s₂ := s₁.step (.own who (.deliverEvents envs) messages)
  have hannounces : Sharing.Announces (s₁.session who).world.fm.wspaceId
      (s₁.session who).tables
      ((s₁.session who).step (.deliverEvents envs)).tables messages := by
    have hown : (MirrorOp.deliverEvents envs).Own := trivial
    obtain ⟨-, hrewritten⟩ := (h₁.joined.tracking who).own hown henvs
    rw [h₁.joined.wspaceId who] at hrewritten ⊢
    exact hrewritten.announces hwspace
  have hguard₂ : Guard s₁ (.own who (.deliverEvents envs) messages) := by
    refine ⟨trivial, ⟨trivial, henvs, hannounces⟩, fun hopen => ?_⟩
    rw [hclosed] at hopen
    cases hopen
  have hread : (s₂.session who).world.inotify.unread = [] := by
    rw [s₁.session_own_self]
    exact (h₁.joined.tracking who).readAll hclosed
      List.length_replicate.ge henvs
  have halong : Along Sharing.step Guard s
      [.own who .ignoreOff [], .own who (.deliverEvents envs) messages] :=
    ⟨hguard₁, hguard₂, trivial⟩
  refine ⟨_, halong, h.run halong, hread, fun i hi => ?_⟩
  change (s₂.session i).world.inotify.unread = []
  by_cases hw : i = who
  · rw [hw]
    exact hread
  · rw [s₁.session_own_of_ne hw]
    change (s₁.session i).world.inotify.unread = []
    rw [hother₁ i hw]
    exact hi

/-- Once no session has an event to read, a session handles its messages,
drops the events this has caused, and closes its window; nobody else notices.
-/
theorem exists_quiescent {wspaceId : ℤ} (who : ι) (s : Sharing ι)
    (h : Settling wspaceId V s ∧
      ∀ i, (s.session i).world.inotify.unread = []) :
    ∃ ops, Along Sharing.step Guard s ops ∧
      (Settling wspaceId V (Transition.run Sharing.step s ops) ∧
        ∀ i, ((Transition.run Sharing.step s ops).session
          i).world.inotify.unread = []) ∧
      ((Transition.run Sharing.step s ops).session who).Quiescent ∧
      ∀ i, (s.session i).Quiescent →
        ((Transition.run Sharing.step s ops).session i).Quiescent := by
  obtain ⟨h, hunread⟩ := h
  -- the messages
  let op₁ : MirrorOp := .deliverNotifications Env.willing
    (List.replicate (s.session who).queue.length Env.willing)
  have hvalid₁ : (s.session who).Valid op₁ :=
    ⟨Env.succeeding_works 0 0, Env.willing_of_mem_replicate⟩
  obtain ⟨hagrees, hqueue, htables₁, hopen⟩ :=
    (h.joined.tracking who).handleAll (hunread who) List.length_replicate
      hvalid₁
  let s₁ := s.step (.own who op₁ [])
  have hdelivers₁ : op₁.Delivers := trivial
  obtain ⟨hguard₁, hself₁, hother₁⟩ := h.quiet hdelivers₁ hvalid₁ trivial
    htables₁
  have h₁ : Settling wspaceId V s₁ := h.step hguard₁.2.1 hguard₁.2.2
  -- the events they have caused
  let op₂ : MirrorOp := .deliverEvents
    (List.replicate (s₁.session who).world.inotify.unread.length Env.willing)
  have hopen₁ : (s₁.session who).world.fm.ignoreFSNotifications = true := by
    rw [hself₁]
    exact hopen
  obtain ⟨hread, hqueue₂, htables₂⟩ := Mirroring.dropAll hopen₁
    (List.length_replicate (a := Env.willing))
  let s₂ := s₁.step (.own who op₂ [])
  have hdelivers₂ : op₂.Delivers := trivial
  obtain ⟨hguard₂, hself₂, hother₂⟩ := h₁.quiet hdelivers₂
    Env.willing_of_mem_replicate
    (fun _ id _ => .inl (hself₁.symm ▸ hagrees id)) htables₂
  have h₂ : Settling wspaceId V s₂ := h₁.step hguard₂.2.1 hguard₂.2.2
  -- the window
  obtain ⟨hinotify, hqueue₃, htables₃⟩ := (s₂.session who).ignoreOff_eq
  let s₃ := s₂.step (.own who .ignoreOff [])
  have hoff : MirrorOp.ignoreOff.Delivers := trivial
  obtain ⟨hguard₃, hself₃, hother₃⟩ := h₂.quiet hoff trivial trivial htables₃
  have hother : ∀ i, i ≠ who → s₃.session i = s.session i := fun i hne =>
    (hother₃ i hne).trans ((hother₂ i hne).trans (hother₁ i hne))
  have hwho : (s₃.session who).Quiescent := by
    rw [hself₃]
    refine ⟨?_, ?_, ?_⟩
    · rw [hinotify, hself₂]
      exact hread
    · rw [hqueue₃, hself₂, hqueue₂, hself₁]
      exact hqueue
    · exact congrArg Prod.snd (Mirroring.window_ignoreOff (h₂.timed who))
  have halong : Along Sharing.step Guard s
      [.own who op₁ [], .own who op₂ [], .own who .ignoreOff []] :=
    ⟨hguard₁, hguard₂, hguard₃, trivial⟩
  refine ⟨_, halong, ⟨h.run halong, fun i => ?_⟩, hwho, fun i hi => ?_⟩
  · change (s₃.session i).world.inotify.unread = []
    by_cases hw : i = who
    · rw [hw]
      exact hwho.1
    · rw [hother i hw]
      exact hunread i
  · change (s₃.session i).Quiescent
    by_cases hw : i = who
    · rw [hw]
      exact hwho
    · rw [hother i hw]
      exact hi

/-- Deliveries alone bring the sessions to rest. -/
theorem exists_settled [Fintype ι] {wspaceId : ℕ}
    (hwspace : wspaceId < 2 ^ 63) {s : Sharing ι}
    (h : Settling wspaceId V s) :
    ∃ ops, Along Sharing.step Guard s ops ∧
      (Transition.run Sharing.step s ops).Quiescent := by
  obtain ⟨ops, hops, h₁, hunread, -⟩ := exists_run_forall
    (P := fun i (s : Sharing ι) => (s.session i).world.inotify.unread = [])
    (exists_readAll hwspace) (Finset.univ (α := ι)).toList h
  have hunread : ∀ i, ((Transition.run Sharing.step s ops).session
      i).world.inotify.unread = [] :=
    fun i => hunread i (Finset.mem_toList.mpr (Finset.mem_univ i))
  obtain ⟨more, hmore, -, hquiescent, -⟩ := exists_run_forall
    (P := fun i (s : Sharing ι) => (s.session i).Quiescent)
    exists_quiescent (Finset.univ (α := ι)).toList ⟨h₁, hunread⟩
  refine ⟨ops ++ more, hops.append hmore, ?_⟩
  rw [run_append]
  exact fun i => hquiescent i (Finset.mem_toList.mpr (Finset.mem_univ i))

end Settling

namespace Sharing

variable {ι : Type} [DecidableEq ι]

/-- From every state that sessions reach without losing a write, handing them
what is waiting, with no write lost, leads to a state in which nothing is
pending; there, every directory holds what the database holds. -/
theorem settles [Fintype ι] {starts : ι → Startup} {workingDir : ι → String}
    {wspaceId : ℕ} {sessionRecId : ι → ℤ} {t : Tables}
    {ops : List (ShareOp ι)} (hwspace : wspaceId < 2 ^ 63)
    (hready : t.Ready wspaceId)
    (hstarts : ∀ i, (starts i).Succeeds (t.workspace wspaceId))
    (hvalid : Along step Valid
      (start starts workingDir wspaceId sessionRecId t) ops)
    (hfree : Along step LossFree
      (start starts workingDir wspaceId sessionRecId t) ops) :
    let s := run step (start starts workingDir wspaceId sessionRecId t) ops
    ∃ more, (∀ op ∈ more, op.Delivers) ∧ Along step Valid s more ∧
      Along step LossFree s more ∧ (run step s more).Quiescent ∧
      ∀ id row, t.workspace wspaceId id = some row → ∀ i j,
        ((run step s more).session i).world.disk[row.name]? =
          ((run step s more).session j).tables.rcfiledata[id]? := by
  intro s
  have hstart : Settling wspaceId (t.workspace wspaceId)
      (start starts workingDir wspaceId sessionRecId t) := by
    refine ⟨start_joined workingDir sessionRecId hready hstarts,
      fun i => .inl ?_⟩
    obtain ⟨w, hrun, hstarted⟩ := (wp_initFileManager (workingDir i)
      (sessionRecId i) hready (hstarts i)).ends
    change (initFileManager _ _ _ _ _).2.window = _
    rw [hrun, World.window, hstarted.window]
    exact congrArg (Prod.mk false) hstarted.quiescent.2.2
  have hs : Settling wspaceId (t.workspace wspaceId) s :=
    run_invariant (fun _ _ h hg => h.step hg.1 hg.2) hstart
      (along_and.mpr ⟨hvalid, hfree⟩)
  obtain ⟨more, hmore, hquiescent⟩ := hs.exists_settled hwspace
  obtain ⟨hdelivers, hmore⟩ := along_and.mp hmore
  obtain ⟨hvalid', hfree'⟩ := along_and.mp hmore
  refine ⟨more, ?_, hvalid', hfree', hquiescent, ?_⟩
  · exact forall_mem_of_along hdelivers
  · intro id row hrow i j
    exact (hs.run (along_and.mpr ⟨hdelivers, hmore⟩)).joined.converged
      hquiescent hrow i j

/-- From where the two sessions are when somebody else has changed the file. -/
theorem oneFile_settles :
    ∃ more : List (ShareOp Bool), (∀ op ∈ more, op.Delivers) ∧
      (run step (run step oneFile [.outside 7 2 0 [1] "u7/1/"])
        more).Quiescent := by
  have hcommit : fitsInt4 2 = true ∧ fitsInt4 0 = true ∧
      ([1] : Bytes).length < 2 ^ 31 ∧
      parseNotification 1 "u7/1/" = some ('u', 7) := by decide
  have hvalid : Along step Valid oneFile [.outside 7 2 0 [1] "u7/1/"] :=
    ⟨Bool.forall_bool.mpr ⟨hcommit, hcommit⟩, trivial⟩
  have hfree : Along step LossFree oneFile [.outside 7 2 0 [1] "u7/1/"] :=
    ⟨trivial, trivial⟩
  have hone : (1 : ℕ) < 2 ^ 63 := by decide
  obtain ⟨more, hdelivers, -, -, hquiescent, -⟩ :=
    settles hone oneFile_ready oneFile_startups hvalid hfree
  exact ⟨more, hdelivers, hquiescent⟩

end Sharing

end Rc2Compute.Files
