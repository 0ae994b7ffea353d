import Rc2Compute.Support.Transition
import Mathlib.Data.List.Perm.Subperm
import Mathlib.Data.List.Range

/-!
# RServer

The listening server accepts connections and forks a process for each, which
runs `rsession` on the client's socket.  A peer sees the end of its connection
when no process has the socket open any more.  The server closes the socket it
has accepted only where `fork` fails.
-/

namespace Rc2Compute.Server

/-! ## Descriptors -/

/-- What a socket descriptor refers to.  Connections are numbered in the order
they are accepted in. -/
inductive Socket where
  | listener
  | client (connection : ℕ)
deriving DecidableEq, Repr

/-- The socket descriptors of a process. -/
abbrev Descriptors := List (ℕ × Socket)

/-- The lowest number that is not in use. -/
def lowestUnused (used : List ℕ) : ℕ :=
  ((List.range (used.length + 1)).find? (· ∉ used)).getD 0

theorem lowestUnused_notMem (used : List ℕ) : lowestUnused used ∉ used := by
  rw [lowestUnused]
  cases hfind : (List.range (used.length + 1)).find? (· ∉ used) with
  | some n =>
      have hn := List.find?_some hfind
      simpa using hn
  | none =>
      have hsubset : List.range (used.length + 1) ⊆ used := by
        intro n hn
        have hnone := List.find?_eq_none.mp hfind n hn
        simpa using hnone
      have hlength :=
        (List.subperm_of_subset List.nodup_range hsubset).length_le
      rw [List.length_range] at hlength
      omega

/-- `close`. -/
def close (fd : ℕ) (descriptors : Descriptors) : Descriptors :=
  descriptors.filter fun entry => entry.1 ≠ fd

theorem close_append {fd : ℕ} {descriptors : Descriptors}
    (h : fd ∉ descriptors.map Prod.fst) (socket : Socket) :
    close fd (descriptors ++ [(fd, socket)]) = descriptors := by
  have hkept : descriptors.filter (fun entry => entry.1 ≠ fd) =
      descriptors := by
    apply List.filter_eq_self.mpr
    intro entry hentry
    apply decide_eq_true
    rintro rfl
    exact h (List.mem_map_of_mem hentry)
  rw [close, List.filter_append, hkept]
  simp

/-! ## The server and its children -/

/-- A process that runs `rsession`.  It has the descriptors the server had
when it was forked. -/
structure RSessionProcess where
  connection : ℕ
  descriptors : Descriptors
deriving DecidableEq, Repr

/-- The server, with its descriptors that are no sockets, and the processes it
has forked that have not exited. -/
structure RServer where
  files : List ℕ
  descriptors : Descriptors
  accepted : ℕ
  children : List RSessionProcess
deriving DecidableEq, Repr

/-- How `fork` ends, and `execve` in the child. -/
inductive ForkResult where
  | failed
  | forked (execve : Bool)
deriving DecidableEq, Repr

/-- How `accept` ends. -/
inductive AcceptResult where
  | failed
  | accepted (forkResult : ForkResult)
deriving DecidableEq, Repr

/-- The server calls `handleEvent`, or the `index`th child exits. -/
inductive Event where
  | handleEvent (result : AcceptResult)
  | exit (index : ℕ)
deriving DecidableEq, Repr

namespace RServer

variable (s : RServer)

/-- The descriptor `accept` returns. -/
def clientSock : ℕ :=
  lowestUnused (s.files ++ s.descriptors.map Prod.fst)

/-- The descriptors once a connection has been accepted. -/
def opened : Descriptors :=
  s.descriptors ++ [(s.clientSock, .client s.accepted)]

/-- `handleEvent`.  A child whose `execve` fails exits at once. -/
def handleEvent : AcceptResult → RServer
  | .failed => s
  | .accepted .failed =>
      { s with
        descriptors := close s.clientSock s.opened
        accepted := s.accepted + 1 }
  | .accepted (.forked execve) =>
      { s with
        descriptors := s.opened
        accepted := s.accepted + 1
        children :=
          if execve then s.children ++ [⟨s.accepted, s.opened⟩]
          else s.children }

def step : Event → RServer
  | .handleEvent result => s.handleEvent result
  | .exit index => { s with children := s.children.eraseIdx index }

/-- Some process has the socket of a connection open. -/
def Holds (connection : ℕ) : Prop :=
  (∃ fd, (fd, .client connection) ∈ s.descriptors) ∨
    ∃ child ∈ s.children, ∃ fd, (fd, .client connection) ∈ child.descriptors

/-- A peer whose process has exited sees the end of its connection. -/
def PeersInformed : Prop :=
  ∀ connection < s.accepted,
    (∀ child ∈ s.children, child.connection ≠ connection) →
      ¬s.Holds connection

/-- A step leaves the sockets of the server as they were, and the peers
informed. -/
structure LeaksNothing (s' : RServer) : Prop where
  descriptors : ∀ entry, entry ∈ s'.descriptors ↔ entry ∈ s.descriptors
  informed : s'.PeersInformed

end RServer

/-- The server when its loop starts: it listens on one socket. -/
def RServer.start (files : List ℕ) (listener : ℕ) : RServer where
  files := files
  descriptors := [(listener, .listener)]
  accepted := 0
  children := []

/-- The condition on an event: no connection is handed to a child. -/
def NoneHandedOver : Event → Prop
  | .handleEvent (.accepted (.forked _)) => False
  | _ => True

namespace RServer

variable {s : RServer}

theorem clientSock_notMem : s.clientSock ∉ s.descriptors.map Prod.fst :=
  fun hmem => lowestUnused_notMem _ (List.mem_append_right _ hmem)

/-- A connection that is handed to a child stays open in the server. -/
theorem LeaksNothing.noneHandedOver {e : Event}
    (h : s.LeaksNothing (s.step e)) : NoneHandedOver e := by
  match e with
  | .exit _ => trivial
  | .handleEvent .failed => trivial
  | .handleEvent (.accepted .failed) => trivial
  | .handleEvent (.accepted (.forked execve)) =>
      have hopen : (s.clientSock, Socket.client s.accepted) ∈ s.opened :=
        List.mem_append_right _ List.mem_cons_self
      have hold := (h.descriptors _).mp hopen
      exact absurd (List.mem_map_of_mem hold) clientSock_notMem

/-- The server holds no connection, and no child runs. -/
structure Alone (s : RServer) : Prop where
  descriptors : ∀ entry ∈ s.descriptors, entry.2 = .listener
  children : s.children = []

theorem alone_start (files : List ℕ) (listener : ℕ) :
    (start files listener).Alone where
  descriptors entry hentry := by
    rw [List.mem_singleton.mp hentry]
  children := rfl

theorem Alone.informed (h : s.Alone) : s.PeersInformed := by
  rintro connection - - (⟨fd, hfd⟩ | ⟨child, hchild, -⟩)
  · cases h.descriptors _ hfd
  · rw [h.children] at hchild
    cases hchild

theorem Alone.step_eq (h : s.Alone) {e : Event} (he : NoneHandedOver e) :
    (s.step e).descriptors = s.descriptors ∧ (s.step e).children = [] := by
  match e with
  | .exit index =>
      refine ⟨rfl, ?_⟩
      change s.children.eraseIdx index = []
      rw [h.children, List.eraseIdx_nil]
  | .handleEvent .failed => exact ⟨rfl, h.children⟩
  | .handleEvent (.accepted .failed) =>
      exact ⟨close_append clientSock_notMem _, h.children⟩
  | .handleEvent (.accepted (.forked _)) => exact he.elim

theorem Alone.step (h : s.Alone) {e : Event} (he : NoneHandedOver e) :
    (s.step e).Alone where
  descriptors := (h.step_eq he).1.symm ▸ h.descriptors
  children := (h.step_eq he).2

theorem Alone.leaksNothing (h : s.Alone) {e : Event}
    (he : NoneHandedOver e) : s.LeaksNothing (s.step e) where
  descriptors entry := by rw [(h.step_eq he).1]
  informed := (h.step he).informed

end RServer

/-- The server leaks no connection in a run exactly if it hands none to a
child. -/
theorem leaksNothing_iff_noneHandedOver (files : List ℕ) (listener : ℕ)
    (events : List Event) :
    Transition.Along RServer.step (fun s e => s.LeaksNothing (s.step e))
        (RServer.start files listener) events ↔
      Transition.Along RServer.step (fun _ => NoneHandedOver)
        (RServer.start files listener) events := by
  constructor
  · exact Transition.Along.mono fun _ _ h => h.noneHandedOver
  · exact Transition.along_of_invariant (I := RServer.Alone)
      (fun _ _ h he => h.step he) (fun _ _ h he => h.leaksNothing he)
      (RServer.alone_start files listener)

/-- The first client is served: its socket stays open in the server. -/
theorem leaksNothing_fails_on_first_client :
    ¬∀ events : List Event,
      Transition.Along RServer.step (fun s e => s.LeaksNothing (s.step e))
        (RServer.start [0, 1, 2, 3] 4) events := by
  intro h
  have hleaks := (h [.handleEvent (.accepted (.forked true))]).1
  have hnew := (hleaks.descriptors (5, .client 0)).mp (by decide)
  revert hnew
  decide

/-! ## What stays open -/

/-- The connections that are handed to a child. -/
def handedOver (events : List Event) : ℕ :=
  events.countP fun e =>
    match e with
    | .handleEvent (.accepted (.forked _)) => true
    | _ => false

theorem length_descriptors_step (s : RServer) (e : Event) :
    (s.step e).descriptors.length =
      s.descriptors.length + handedOver [e] := by
  match e with
  | .exit _ => rfl
  | .handleEvent .failed => rfl
  | .handleEvent (.accepted .failed) =>
      change (close s.clientSock s.opened).length = _
      rw [RServer.opened, close_append RServer.clientSock_notMem]
      rfl
  | .handleEvent (.accepted (.forked _)) =>
      change s.opened.length = _
      rw [RServer.opened, List.length_append]
      rfl

/-- The server has one socket more for every connection it has handed over,
whether its process has exited or not. -/
theorem length_descriptors_run (s : RServer) (events : List Event) :
    (Transition.run RServer.step s events).descriptors.length =
      s.descriptors.length + handedOver events := by
  induction events generalizing s with
  | nil => rfl
  | cons e events ih =>
      have happend : handedOver ([e] ++ events) =
          handedOver [e] + handedOver events :=
        List.countP_append
      rw [Transition.run_cons, ih, length_descriptors_step, Nat.add_assoc,
        ← happend]
      rfl

end Rc2Compute.Server
