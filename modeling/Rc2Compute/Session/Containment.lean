import Rc2Compute.Session.Commands
import Rc2Compute.Files.Pointers

/-!
# Exceptions and the event loop

The callbacks the session registers with the loop, one after the other.  The
loop catches nothing: a callback that throws, or meets undefined behaviour,
ends the process.  A process is alive while every callback has returned.
-/

namespace Rc2Compute.Session

open Files (ManagedWorld World Env InotifyEvent Mapped FileInfo)

variable {σ ν : Type}

/-! ## What leaves `handleJsonCommand` -/

section Texts

variable (svc : Services σ ν) (allowed : CxxException → Prop)

variable {svc allowed}

end Texts

/-! ## The callbacks -/

/-- The callbacks of the loop, each with what the calls it makes answer, and
the changes others make to the directory, the inotify queue and the
database. -/
inductive Callback (ν : Type) where
  | handleJsonStatic (svc : Services ManagedWorld ν) (json : String)
  | deferred (svc : Services ManagedWorld ν) (envs : ℤ → Env) (index : ℕ)
  | handleInotifyEvent (batch : List (Env × InotifyEvent))
  | handleDBNotify (env : Env) (messages : List (Env × String))
  | handleIgnoreFSNotesOff
  | outside (world : World)

end Rc2Compute.Session
