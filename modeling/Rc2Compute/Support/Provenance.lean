import Mathlib.Data.Nat.Notation
import Mathlib.Logic.Function.Basic

/-!
# Files and the runs that produced them

A file system in which every file carries the number of the run that produced
it.  Programs write and remove files, which marks what they write with the
current run; a copy keeps the mark of its source.
-/

namespace Rc2Compute

/-- A file: the run it was produced by, and whether it is empty. -/
structure Produced where
  run : ℕ
  empty : Bool
deriving DecidableEq, Repr

/-- What a program does to one path. -/
inductive Change where
  | keep
  | remove
  | write (empty : Bool)
deriving DecidableEq, Repr

/-- The files at each path, and the number of the current run. -/
structure FileSystem (π : Type) where
  files : π → Option Produced
  run : ℕ

namespace FileSystem

variable {π : Type} (fs : FileSystem π)

/-- The file a change leaves. -/
def changed (old : Option Produced) : Change → Option Produced
  | .keep => old
  | .remove => none
  | .write empty => some ⟨fs.run, empty⟩

/-- A program changes files. -/
def change (changes : π → Change) : FileSystem π :=
  { fs with files := fun path => fs.changed (fs.files path) (changes path) }

/-- Programs change files one after the other. -/
def changeAll (programs : List (π → Change)) : FileSystem π :=
  programs.foldl change fs

/-- Everything at the paths of a new directory is gone. -/
def clear (inside : π → Bool) : FileSystem π :=
  { fs with files := fun path => if inside path then none else fs.files path }

/-- The next run begins. -/
def nextRun : FileSystem π :=
  { fs with run := fs.run + 1 }

/-- A file is copied with its mark. -/
def copy [DecidableEq π] (source dest : π) : FileSystem π :=
  match fs.files source with
  | some file => { fs with files := Function.update fs.files dest (some file) }
  | none => fs

/-- The file at the path, if there is one, is empty. -/
def Blank (path : π) : Prop :=
  ∀ file ∈ fs.files path, file.empty = true

/-- Whatever is at the path was produced by the current run. -/
def Current (path : π) : Prop :=
  ∀ file ∈ fs.files path, file.run = fs.run

/-- What is at the path was produced by the current run or is empty. -/
def CurrentOrEmpty (path : π) : Prop :=
  ∀ file ∈ fs.files path, file.run = fs.run ∨ file.empty = true

section Lemmas

variable {fs} {path source dest : π}

theorem Current.currentOrEmpty (h : fs.Current path) :
    fs.CurrentOrEmpty path :=
  fun file hfile => Or.inl (h file hfile)

theorem Blank.currentOrEmpty (h : fs.Blank path) : fs.CurrentOrEmpty path :=
  fun file hfile => Or.inr (h file hfile)

/-- A file that is not empty was produced by the current run. -/
theorem CurrentOrEmpty.current (h : fs.CurrentOrEmpty path)
    {file : Produced} (hfile : fs.files path = some file)
    (hempty : file.empty = false) : fs.Current path := by
  intro other hother
  obtain rfl := Option.some.inj (hfile.symm.trans hother)
  rcases h file hfile with hrun | htrue
  · exact hrun
  · rw [hempty] at htrue
    cases htrue

theorem Current.change (h : fs.Current path) (changes : π → Change) :
    (fs.change changes).Current path := by
  intro file hfile
  rw [FileSystem.change] at hfile
  dsimp only at hfile
  cases hchange : changes path with
  | keep =>
      rw [hchange] at hfile
      exact h file hfile
  | remove =>
      rw [hchange] at hfile
      cases hfile
  | write empty =>
      rw [hchange] at hfile
      obtain rfl := Option.some.inj hfile
      rfl

/-- A program that touches a path makes it current. -/
theorem current_change_of_ne {changes : π → Change}
    (h : changes path ≠ .keep) : (fs.change changes).Current path := by
  intro file hfile
  rw [FileSystem.change] at hfile
  dsimp only at hfile
  cases hchange : changes path with
  | keep => exact absurd hchange h
  | remove =>
      rw [hchange] at hfile
      cases hfile
  | write empty =>
      rw [hchange] at hfile
      obtain rfl := Option.some.inj hfile
      rfl

theorem CurrentOrEmpty.change (h : fs.CurrentOrEmpty path)
    (changes : π → Change) : (fs.change changes).CurrentOrEmpty path := by
  by_cases hkeep : changes path = .keep
  · intro file hfile
    rw [FileSystem.change] at hfile
    dsimp only at hfile
    rw [hkeep] at hfile
    exact h file hfile
  · exact (current_change_of_ne hkeep).currentOrEmpty

/-- Among some programs one has touched the path, or nothing was there. -/
theorem currentOrEmpty_changeAll {programs : List (π → Change)}
    (h : fs.CurrentOrEmpty path ∨ ∃ changes ∈ programs, changes path ≠ .keep) :
    (fs.changeAll programs).CurrentOrEmpty path := by
  induction programs generalizing fs with
  | nil =>
      rcases h with h | ⟨changes, hmem, -⟩
      · exact h
      · cases hmem
  | cons first rest ih =>
      apply ih
      rcases h with h | ⟨changes, hmem, htouch⟩
      · exact Or.inl (h.change first)
      · rcases List.mem_cons.mp hmem with rfl | hmem
        · exact Or.inl (current_change_of_ne htouch).currentOrEmpty
        · exact Or.inr ⟨changes, hmem, htouch⟩

theorem Current.clear (h : fs.Current path) (inside : π → Bool) :
    (fs.clear inside).Current path := by
  intro file hfile
  rw [FileSystem.clear] at hfile
  dsimp only at hfile
  split at hfile
  · cases hfile
  · exact h file hfile

theorem current_clear {inside : π → Bool} (h : inside path = true) :
    (fs.clear inside).Current path := by
  intro file hfile
  rw [clear] at hfile
  dsimp only at hfile
  rw [if_pos h] at hfile
  cases hfile

variable [DecidableEq π]

@[simp] theorem copy_run : (fs.copy source dest).run = fs.run := by
  rw [copy]
  split
  · rfl
  · rfl

/-- A copy of a current file is current. -/
theorem Current.copy (h : fs.Current source)
    (hsource : (fs.files source).isSome = true) (dest : π) :
    (fs.copy source dest).Current dest := by
  obtain ⟨file, hfile⟩ := Option.isSome_iff_exists.mp hsource
  intro copied hcopied
  rw [FileSystem.copy, hfile] at hcopied ⊢
  dsimp only at hcopied
  rw [Function.update_self] at hcopied
  obtain rfl := Option.some.inj hcopied
  exact h file hfile

theorem Current.copy_of_ne (h : fs.Current path) (source : π)
    (hne : path ≠ dest) : (fs.copy source dest).Current path := by
  intro file hfile
  rw [copy_run]
  rw [FileSystem.copy] at hfile
  split at hfile
  next =>
    dsimp only at hfile
    rw [Function.update_of_ne hne] at hfile
    exact h file hfile
  next => exact h file hfile

end Lemmas

end FileSystem

end Rc2Compute
