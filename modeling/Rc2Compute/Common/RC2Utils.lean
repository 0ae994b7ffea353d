import Rc2Compute.Support.Action
import Rc2Compute.Support.Exceptions
import Rc2Compute.Support.DirectoryTree
import Mathlib.Data.Int.Notation

/-!
# RC2Utils

Making the directories of a path, and the directory object that a session
keeps its working directory in.  Nothing else changes the file system
meanwhile.
-/

namespace Rc2Compute.Common

/-- What the system answers besides what is in the file system: why a `mkdir`
fails that could succeed, and the texts of errors.  `MakeDirectoryPath` makes
no path twice, so this leaves every single `mkdir` its own answer. -/
structure Answers where
  mkdirRefusal : String → Option Errno
  strerror : Errno → String

/-- Nothing is refused. -/
def Answers.granting : Answers where
  mkdirRefusal _ := none
  strerror e := toString e

/-- An action on the file system. -/
abbrev FileProg := Act DirectoryTree CxxException

/-! ## The calls -/

/-- What `boost::filesystem` throws. -/
def filesystemError (sys : Answers) (e : Errno) (path : String) :
    CxxException where
  type := .filesystemError
  what := "boost::filesystem::status: " ++ sys.strerror e ++
    ": \"" ++ path ++ "\""

/-- `boost::filesystem::status`: nothing where there is no such file, an
exception for any other error. -/
def status (sys : Answers) (path : String) :
    FileProg (Option Entry) := fun tree =>
  match tree.stat path with
  | .ok entry => (.returned (some entry), tree)
  | .error e =>
      if NotFound e then (.returned none, tree)
      else (.threw (filesystemError sys e path), tree)

/-- `boost::filesystem::exists`. -/
def pathExists (sys : Answers) (path : String) : FileProg Bool := do
  let entry ← status sys path
  pure entry.isSome

/-- A status of type `directory_file`. -/
def isDirectoryFile : Option Entry → Bool
  | some (.directory _) => true
  | _ => false

/-- `boost::filesystem::is_directory`. -/
def is_directory (sys : Answers) (path : String) : FileProg Bool := do
  let entry ← status sys path
  pure (isDirectoryFile entry)

/-- `mkdir`: 0, or -1 and `errno`. -/
def mkdir (sys : Answers) (path : String) (mode : UInt32) :
    FileProg (ℤ × Errno) := fun tree =>
  match tree.mkdir sys.mkdirRefusal path mode with
  | .ok tree' => (.returned (0, 0), tree')
  | .error e => (.returned (-1, e), tree)

/-! ## MakeDirectoryPath -/

/-- `s.find_first_of(c, pre)`. -/
def find_first_of (s : List Char) (c : Char) (pre : ℕ) : Option ℕ :=
  ((s.drop pre).idxOf? c).map fun i => pre + i

theorem find_first_of_eq_some {s : List Char} {c : Char} {pre pos : ℕ}
    (h : find_first_of s c pre = some pos) :
    pre ≤ pos ∧ s[pos]? = some c ∧
      ∀ i, pre ≤ i → s[i]? = some c → pos ≤ i := by
  obtain ⟨k, hk, rfl⟩ := Option.map_eq_some_iff.mp h
  obtain ⟨hlt, hc, hfirst⟩ := List.idxOf?_eq_some_iff.mp hk
  refine ⟨Nat.le_add_right pre k, ?_, fun i hi hic => ?_⟩
  · rw [← List.getElem?_drop, List.getElem?_eq_getElem hlt, hc]
  · by_contra hlast
    have hbefore : i - pre < k := by omega
    apply hfirst (i - pre) hbefore
    rw [List.getElem_drop]
    apply Option.some.inj
    rw [← hic, ← List.getElem?_eq_getElem, Nat.add_sub_of_le hi]

theorem find_first_of_eq_none {s : List Char} {c : Char} {pre : ℕ}
    (h : find_first_of s c pre = none) {i : ℕ} (hi : s[i]? = some c) :
    i < pre := by
  by_contra hlast
  have hnot : c ∉ s.drop pre :=
    List.idxOf?_eq_none_iff.mp (Option.map_eq_none_iff.mp h)
  apply hnot
  apply List.mem_of_getElem? (i := i - pre)
  rw [List.getElem?_drop, Nat.add_sub_of_le (Nat.le_of_not_lt hlast), hi]

theorem find_first_of_lt {s : List Char} {c : Char} {pre pos : ℕ}
    (h : find_first_of s c pre = some pos) :
    s.length - (pos + 1) < s.length - pre := by
  obtain ⟨hpre, hpos, -⟩ := find_first_of_eq_some h
  have hlt : pos < s.length := (List.getElem?_eq_some_iff.mp hpos).1
  omega

/-- `exists(dir) && is_directory(dir)`. -/
def existsAsDirectory (sys : Answers) (dir : String) : FileProg Bool := do
  if ← pathExists sys dir then is_directory sys dir else pure false

/-- The loop, over a path that ends in a slash. -/
def makeDirectories (sys : Answers) (mode : UInt32) (s : List Char)
    (pre : ℕ) (mdretval : ℤ) : FileProg ℤ :=
  match h : find_first_of s '/' pre with
  | none => pure mdretval
  | some pos => do
      have := find_first_of_lt h
      let dir := String.ofList (s.take pos)
      if dir = "" then
        makeDirectories sys mode s (pos + 1) mdretval
      else if ← existsAsDirectory sys dir then
        makeDirectories sys mode s (pos + 1) mdretval
      else
        let (mdretval, errno) ← mkdir sys dir mode
        if mdretval ≠ 0 ∧ errno ≠ EEXIST then pure mdretval
        else makeDirectories sys mode s (pos + 1) mdretval
termination_by s.length - pre

/-- The path with a trailing slash. -/
def withSlash (s : String) : List Char :=
  if s.toList.getLast? = some '/' then s.toList else s.toList ++ ['/']

/-- Of an empty path, the character before the first is read. -/
def MakeDirectoryPath (sys : Answers) (s : String) (mode : UInt32) :
    FileProg ℤ :=
  if s = "" then Act.undefined
  else makeDirectories sys mode (withSlash s) 0 0

/-! ## TemporaryDirectory -/

structure TemporaryDirectory where
  path : String
  eraseOnDeath : Bool
deriving DecidableEq, Repr

/-- `TemporaryDirectory(path, erase)`. -/
def newTemporaryDirectory (sys : Answers) (path : String) (erase : Bool) :
    FileProg TemporaryDirectory := do
  let rc ← MakeDirectoryPath sys path 0x1c0
  Act.throwIf (rc ≠ 0)
    ⟨.runtimeError, "failed to create directory:" ++ path⟩
  pure ⟨path, erase⟩

/-- How `handleOpenCommand` makes the working directory.  The two calls meet
answers of their own. -/
def makeWorkingDirectory (sys sys' : Answers) (workDir : String) :
    FileProg TemporaryDirectory := do
  let rc ← MakeDirectoryPath sys workDir 0x1ed
  Act.throwIf (rc ≠ 0)
    ⟨.runtimeError, "failed to create working directory"⟩
  newTemporaryDirectory sys' workDir false

end Rc2Compute.Common
