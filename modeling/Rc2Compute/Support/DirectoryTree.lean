import Mathlib.Data.List.Basic
import Mathlib.Logic.Function.Basic

/-!
# Directory trees

A tree of directories, links and other files, the walk along a path, and the
system calls `stat` and `mkdir`.  A path holds no NUL.  A link stores the place
it finally leads to, where there may be nothing.

What a walk finds it still finds after new entries have been added.  So a
directory stays one while directories are made, and everything above a
directory is a directory.
-/

namespace Rc2Compute

/-! ## Errors -/

abbrev Errno := ℕ

def ENOENT : Errno := 2
def EEXIST : Errno := 17
def ENOTDIR : Errno := 20
def ELOOP : Errno := 40

/-- The errors that say there is no such file. -/
def NotFound (e : Errno) : Prop := e = ENOENT ∨ e = ENOTDIR

instance (e : Errno) : Decidable (NotFound e) :=
  inferInstanceAs (Decidable (_ ∨ _))

/-! ## Trees -/

/-- A place in the tree: the names from it up to the root. -/
abbrev Location := List String

inductive Entry where
  | directory (mode : UInt32)
  | link (target : Location)
  | other
deriving DecidableEq, Repr

def IsDirectory (entries : Location → Option Entry) (l : Location) : Prop :=
  ∃ mode, entries l = some (.directory mode)

instance (entries : Location → Option Entry) (l : Location) :
    Decidable (IsDirectory entries l) :=
  match h : entries l with
  | some (.directory mode) => isTrue ⟨mode, h⟩
  | some (.link _) => isFalse (by simp [IsDirectory, h])
  | some .other => isFalse (by simp [IsDirectory, h])
  | none => isFalse (by simp [IsDirectory, h])

/-- A tree as a process sees it, with the process's current directory and its
file mode creation mask.  Every entry is in a directory.  `stat` of some paths
may be refused, for want of permission for instance. -/
structure DirectoryTree where
  entries : Location → Option Entry
  cwd : Location
  umask : UInt32
  statRefusal : String → Option { e : Errno // ¬ NotFound e }
  root_isDirectory : IsDirectory entries []
  above_isDirectory : ∀ name l, entries (name :: l) ≠ none →
    IsDirectory entries l
  cwd_isDirectory : IsDirectory entries cwd

namespace DirectoryTree

/-- A tree that has only its root, where the process is. -/
def root : DirectoryTree where
  entries l := if l = [] then some (.directory 0x1ed) else none
  cwd := []
  umask := 0x12
  statRefusal _ := none
  root_isDirectory := ⟨0x1ed, rfl⟩
  above_isDirectory name l h := absurd (if_neg (List.cons_ne_nil name l)) h
  cwd_isDirectory := ⟨0x1ed, rfl⟩

/-! ## Paths -/

/-- The names between the slashes of a path. -/
def names (path : String) : List String :=
  ((path.toList.splitOn '/').filter fun name => name ≠ []).map String.ofList

/-- Where the walk along a path begins. -/
def origin (tree : DirectoryTree) (path : String) : Location :=
  if path.toList.head? = some '/' then [] else tree.cwd

/-- The place `name` leads to in the directory at `l`. -/
def lookup (tree : DirectoryTree) (l : Location) (name : String) :
    Except Errno Location :=
  if ¬ IsDirectory tree.entries l then .error ENOTDIR
  else if name = "." then .ok l
  else if name = ".." then .ok l.tail
  else
    match tree.entries (name :: l) with
    | none => .error ENOENT
    | some (.link target) =>
        match tree.entries target with
        | none => .error ENOENT
        | some (.link _) => .error ELOOP
        | some _ => .ok target
    | some _ => .ok (name :: l)

def walk (tree : DirectoryTree) (l : Location) (names : List String) :
    Except Errno Location :=
  names.foldlM tree.lookup l

/-- The place of a path. -/
def locate (tree : DirectoryTree) (path : String) : Except Errno Location :=
  tree.walk (tree.origin path) (names path)

/-- There is a directory at the end of the path. -/
def HasDirectory (tree : DirectoryTree) (path : String) : Prop :=
  ∃ l, tree.locate path = .ok l ∧ IsDirectory tree.entries l

/-! ## System calls -/

/-- `stat`: the entry at the end of the path. -/
def stat (tree : DirectoryTree) (path : String) : Except Errno Entry :=
  match tree.statRefusal path with
  | some e => .error e
  | none =>
      if path = "" then .error ENOENT
      else do
        let l ← tree.locate path
        match tree.entries l with
        | none => .error ENOENT
        | some entry =>
            if path.toList.getLast? = some '/' ∧
                ¬ IsDirectory tree.entries l then .error ENOTDIR
            else .ok entry

theorem isDirectory_update {entries : Location → Option Entry}
    {l : Location} (h : IsDirectory entries l) (new : Location)
    (mode : UInt32) :
    IsDirectory (Function.update entries new (some (.directory mode))) l := by
  by_cases hl : l = new
  · exact ⟨mode, by rw [hl, Function.update_self]⟩
  · obtain ⟨old, hold⟩ := h
    exact ⟨old, by rw [Function.update_of_ne hl, hold]⟩

/-- The tree with a new directory `name` in the directory at `l`. -/
def addDirectory (tree : DirectoryTree) (l : Location) (name : String)
    (mode : UInt32) (hl : IsDirectory tree.entries l) : DirectoryTree :=
  { tree with
    entries := Function.update tree.entries (name :: l) (some (.directory mode))
    root_isDirectory := isDirectory_update tree.root_isDirectory _ _
    above_isDirectory := by
      intro name' l' h
      apply isDirectory_update
      by_cases hnew : name' :: l' = name :: l
      · rwa [(List.cons.inj hnew).2]
      · rw [Function.update_of_ne hnew] at h
        exact tree.above_isDirectory name' l' h
    cwd_isDirectory := isDirectory_update tree.cwd_isDirectory _ _ }

/-- The permissions a new directory gets. -/
def permissions (tree : DirectoryTree) (mode : UInt32) : UInt32 :=
  mode &&& 0x3ff &&& ~~~tree.umask

/-- `mkdir`.  A link at the end of the path is not followed, and `refusal`
says what other reasons it finds to fail. -/
def mkdir (tree : DirectoryTree) (refusal : String → Option Errno)
    (path : String) (mode : UInt32) : Except Errno DirectoryTree :=
  match refusal path, (names path).getLast? with
  | some e, _ => .error e
  | none, none => .error (if path = "" then ENOENT else EEXIST)
  | none, some name => do
      let l ← tree.walk (tree.origin path) (names path).dropLast
      if hl : IsDirectory tree.entries l then
        if name = "." ∨ name = ".." ∨ tree.entries (name :: l) ≠ none then
          .error EEXIST
        else .ok (tree.addDirectory l name (tree.permissions mode) hl)
      else .error ENOTDIR

/-! ## Walks -/

theorem walk_append (tree : DirectoryTree) (l : Location)
    (xs ys : List String) :
    tree.walk l (xs ++ ys) = tree.walk l xs >>= fun l' => tree.walk l' ys :=
  List.foldlM_append

@[simp] theorem walk_singleton (tree : DirectoryTree) (l : Location)
    (name : String) : tree.walk l [name] = tree.lookup l name :=
  bind_pure _

/-- Names are looked up in directories only. -/
theorem isDirectory_of_lookup {tree : DirectoryTree} {l l' : Location}
    {name : String} (h : tree.lookup l name = .ok l') :
    IsDirectory tree.entries l := by
  by_contra hl
  rw [lookup, if_pos hl] at h
  cases h

/-- A walk that ends in a directory began in one. -/
theorem isDirectory_of_walk {tree : DirectoryTree} {l l' : Location}
    {names : List String} (h : tree.walk l names = .ok l')
    (hl' : IsDirectory tree.entries l') : IsDirectory tree.entries l := by
  cases names with
  | nil =>
      cases h
      exact hl'
  | cons name names =>
      rw [walk, List.foldlM_cons] at h
      cases hfirst : tree.lookup l name with
      | error e =>
          rw [hfirst] at h
          cases h
      | ok l₁ => exact isDirectory_of_lookup hfirst

/-! ## Prefixes of a path -/

theorem names_append (xs ys : List Char) :
    names (String.ofList (xs ++ '/' :: ys)) =
      names (String.ofList xs) ++ names (String.ofList ys) := by
  simp [names, List.splitOn_append_cons_self]

theorem origin_append (tree : DirectoryTree) {xs : List Char} (hxs : xs ≠ [])
    (ys : List Char) :
    tree.origin (String.ofList (xs ++ ys)) =
      tree.origin (String.ofList xs) := by
  simp [origin, List.head?_append_of_ne_nil xs hxs]

/-- What a path before a slash of another one has to do with it. -/
theorem locate_append (tree : DirectoryTree) {xs : List Char} (hxs : xs ≠ [])
    (ys : List Char) :
    tree.locate (String.ofList (xs ++ '/' :: ys)) =
      tree.locate (String.ofList xs) >>= fun l =>
        tree.walk l (names (String.ofList ys)) := by
  rw [locate, locate, origin_append tree hxs, names_append, walk_append]

/-- Above a directory there are only directories. -/
theorem HasDirectory.above {tree : DirectoryTree} {xs ys : List Char}
    (hxs : xs ≠ [])
    (h : tree.HasDirectory (String.ofList (xs ++ '/' :: ys))) :
    tree.HasDirectory (String.ofList xs) := by
  obtain ⟨l', hl', hdir⟩ := h
  rw [locate_append tree hxs] at hl'
  cases hl : tree.locate (String.ofList xs) with
  | error e =>
      rw [hl] at hl'
      cases hl'
  | ok l =>
      rw [hl] at hl'
      exact ⟨l, hl, isDirectory_of_walk hl' hdir⟩

/-- A slash at the end does not matter. -/
theorem hasDirectory_append_slash {tree : DirectoryTree} {xs : List Char}
    (hxs : xs ≠ []) :
    tree.HasDirectory (String.ofList (xs ++ ['/'])) ↔
      tree.HasDirectory (String.ofList xs) := by
  have hlocate := locate_append tree hxs []
  have hnames : names (String.ofList []) = [] := rfl
  rw [hnames] at hlocate
  rw [HasDirectory, HasDirectory, hlocate]
  cases tree.locate (String.ofList xs) with
  | error e => rfl
  | ok l => rfl

/-! ## What `stat` says -/

theorem stat_eq_ok {tree : DirectoryTree} {path : String} {entry : Entry}
    (h : tree.stat path = .ok entry) :
    tree.statRefusal path = none ∧
      ∃ l, tree.locate path = .ok l ∧ tree.entries l = some entry := by
  rw [stat] at h
  cases hrefusal : tree.statRefusal path with
  | some e =>
      rw [hrefusal] at h
      cases h
  | none =>
      rw [hrefusal] at h
      refine ⟨rfl, ?_⟩
      dsimp only at h
      split at h
      next => cases h
      next =>
        cases hlocate : tree.locate path with
        | error e =>
            rw [hlocate] at h
            cases h
        | ok l =>
            simp only [hlocate, bind, Except.bind] at h
            refine ⟨l, rfl, ?_⟩
            cases hentry : tree.entries l with
            | none =>
                rw [hentry] at h
                cases h
            | some found =>
                rw [hentry] at h
                dsimp only at h
                split at h
                next => cases h
                next => rw [Except.ok.inj h]

theorem hasDirectory_of_stat {tree : DirectoryTree} {path : String}
    {mode : UInt32} (h : tree.stat path = .ok (.directory mode)) :
    tree.HasDirectory path := by
  obtain ⟨-, l, hl, hentry⟩ := stat_eq_ok h
  exact ⟨l, hl, mode, hentry⟩

/-- Where `stat` is not refused, it sees a directory that is there. -/
theorem HasDirectory.stat {tree : DirectoryTree} {path : String}
    (h : tree.HasDirectory path) (hpath : path ≠ "")
    (hallowed : tree.statRefusal path = none) :
    ∃ mode, tree.stat path = .ok (.directory mode) := by
  obtain ⟨l, hl, mode, hmode⟩ := h
  have hdir : ¬ (path.toList.getLast? = some '/' ∧
      ¬ IsDirectory tree.entries l) := fun hnot => hnot.2 ⟨mode, hmode⟩
  refine ⟨mode, ?_⟩
  rw [DirectoryTree.stat, hallowed]
  dsimp only
  rw [if_neg hpath]
  simp only [hl, bind, Except.bind, hmode, if_neg hdir]

/-- An error that says there is no such file is not a refusal. -/
theorem statRefusal_of_notFound {tree : DirectoryTree} {path : String}
    {e : Errno} (h : tree.stat path = .error e) (he : NotFound e) :
    tree.statRefusal path = none := by
  cases hrefusal : tree.statRefusal path with
  | none => rfl
  | some refused =>
      rw [stat, hrefusal] at h
      cases h
      exact absurd he refused.2

/-! ## Growing trees -/

/-- Every entry of the one tree is in the other. -/
structure Extends (tree tree' : DirectoryTree) : Prop where
  cwd : tree'.cwd = tree.cwd
  entries : ∀ l e, tree.entries l = some e → tree'.entries l = some e

variable {tree tree' : DirectoryTree}

theorem Extends.isDirectory (h : Extends tree tree') {l : Location}
    (hl : IsDirectory tree.entries l) : IsDirectory tree'.entries l := by
  obtain ⟨mode, hmode⟩ := hl
  exact ⟨mode, h.entries l _ hmode⟩

theorem Extends.lookup (h : Extends tree tree') {l l' : Location}
    {name : String} (hl' : tree.lookup l name = .ok l') :
    tree'.lookup l name = .ok l' := by
  have hl := isDirectory_of_lookup hl'
  rw [DirectoryTree.lookup, if_neg (not_not.mpr hl)] at hl'
  rw [DirectoryTree.lookup, if_neg (not_not.mpr (h.isDirectory hl))]
  by_cases hdot : name = "."
  · rw [if_pos hdot] at hl' ⊢
    exact hl'
  by_cases hup : name = ".."
  · rw [if_neg hdot, if_pos hup] at hl' ⊢
    exact hl'
  rw [if_neg hdot, if_neg hup] at hl' ⊢
  cases hentry : tree.entries (name :: l) with
  | none =>
      rw [hentry] at hl'
      cases hl'
  | some entry =>
      rw [hentry] at hl'
      rw [h.entries _ _ hentry]
      cases entry with
      | directory mode => exact hl'
      | other => exact hl'
      | link target =>
          dsimp only at hl' ⊢
          cases htarget : tree.entries target with
          | none =>
              rw [htarget] at hl'
              cases hl'
          | some final =>
              rw [htarget] at hl'
              rw [h.entries _ _ htarget]
              exact hl'

theorem Extends.walk (h : Extends tree tree') {l l' : Location}
    {names : List String} (hl' : tree.walk l names = .ok l') :
    tree'.walk l names = .ok l' := by
  induction names generalizing l with
  | nil => exact hl'
  | cons name names ih =>
      rw [DirectoryTree.walk, List.foldlM_cons] at hl' ⊢
      cases hfirst : tree.lookup l name with
      | error e =>
          rw [hfirst] at hl'
          cases hl'
      | ok l₁ =>
          rw [hfirst] at hl'
          rw [h.lookup hfirst]
          exact ih hl'

theorem Extends.locate (h : Extends tree tree') {path : String} {l : Location}
    (hl : tree.locate path = .ok l) : tree'.locate path = .ok l := by
  have horigin : tree'.origin path = tree.origin path := by
    rw [origin, origin, h.cwd]
  rw [DirectoryTree.locate, horigin]
  exact h.walk hl

theorem Extends.hasDirectory (h : Extends tree tree') {path : String}
    (hpath : tree.HasDirectory path) : tree'.HasDirectory path := by
  obtain ⟨l, hl, hdir⟩ := hpath
  exact ⟨l, h.locate hl, h.isDirectory hdir⟩

/-! ## Making directories -/

/-- Nothing has changed but that there are new directories, at the ends of
some of the paths `made`. -/
structure Creates (mode : UInt32) (made : String → Prop)
    (tree tree' : DirectoryTree) : Prop where
  cwd : tree'.cwd = tree.cwd
  umask : tree'.umask = tree.umask
  statRefusal : tree'.statRefusal = tree.statRefusal
  entries : ∀ l, tree'.entries l = tree.entries l ∨
    tree.entries l = none ∧
      tree'.entries l = some (.directory (tree.permissions mode)) ∧
      ∃ path, made path ∧ tree'.locate path = .ok l

variable {mode : UInt32} {made made' : String → Prop}

theorem Creates.refl (tree : DirectoryTree) : Creates mode made tree tree where
  cwd := rfl
  umask := rfl
  statRefusal := rfl
  entries _ := Or.inl rfl

theorem Creates.extends (h : Creates mode made tree tree') :
    Extends tree tree' where
  cwd := h.cwd
  entries := by
    intro l e he
    rcases h.entries l with hsame | ⟨hnone, -⟩
    · rw [hsame, he]
    · rw [hnone] at he
      cases he

theorem Creates.mono (h : Creates mode made tree tree')
    (hmade : ∀ path, made path → made' path) :
    Creates mode made' tree tree' where
  cwd := h.cwd
  umask := h.umask
  statRefusal := h.statRefusal
  entries := by
    intro l
    rcases h.entries l with hsame | ⟨hnone, hnew, path, hpath, hl⟩
    · exact Or.inl hsame
    · exact Or.inr ⟨hnone, hnew, path, hmade path hpath, hl⟩

theorem Creates.trans {tree₁ tree₂ : DirectoryTree}
    (h : Creates mode made tree tree₁)
    (h' : Creates mode made tree₁ tree₂) : Creates mode made tree tree₂ where
  cwd := h'.cwd.trans h.cwd
  umask := h'.umask.trans h.umask
  statRefusal := h'.statRefusal.trans h.statRefusal
  entries := by
    intro l
    rcases h'.entries l with hsame | ⟨hnone, hnew, hpath⟩
    · rw [hsame]
      rcases h.entries l with hold | ⟨hfresh, hmade, path, hpath, hl⟩
      · exact Or.inl hold
      · exact Or.inr ⟨hfresh, hmade, path, hpath, h'.extends.locate hl⟩
    · right
      rcases h.entries l with hold | ⟨-, hmade, -⟩
      · have hperm : tree₁.permissions mode = tree.permissions mode := by
          rw [permissions, permissions, h.umask]
        rw [hperm] at hnew
        exact ⟨hold ▸ hnone, hnew, hpath⟩
      · rw [hmade] at hnone
        cases hnone

theorem addDirectory_extends (mode : UInt32) {l : Location} {name : String}
    (hl : IsDirectory tree.entries l)
    (hnone : tree.entries (name :: l) = none) :
    Extends tree (tree.addDirectory l name mode hl) where
  cwd := rfl
  entries := by
    intro l' e he
    have hne : l' ≠ name :: l := by
      rintro rfl
      rw [hnone] at he
      cases he
    exact (Function.update_of_ne hne _ _).trans he

/-- A new directory is found under its name. -/
theorem lookup_addDirectory {l : Location} {name : String}
    (hl : IsDirectory tree.entries l) (hnone : tree.entries (name :: l) = none)
    (hdot : name ≠ ".") (hup : name ≠ "..") :
    (tree.addDirectory l name mode hl).lookup l name = .ok (name :: l) := by
  have hnew : (tree.addDirectory l name mode hl).entries (name :: l) =
      some (.directory mode) := Function.update_self ..
  have hl' := (addDirectory_extends mode hl hnone).isDirectory hl
  rw [lookup, if_neg (not_not.mpr hl'), if_neg hdot, if_neg hup, hnew]

/-- A successful `mkdir` adds the last name of the path to the directory the
names before lead to. -/
theorem mkdir_eq_ok {refusal : String → Option Errno} {path : String}
    (h : tree.mkdir refusal path mode = .ok tree') :
    ∃ above name l, ∃ hl : IsDirectory tree.entries l,
      names path = above ++ [name] ∧ name ≠ "." ∧ name ≠ ".." ∧
      tree.walk (tree.origin path) above = .ok l ∧
      tree.entries (name :: l) = none ∧
      tree' = tree.addDirectory l name (tree.permissions mode) hl := by
  rw [mkdir] at h
  split at h
  next => cases h
  next => cases h
  next name _ hlast =>
    cases hwalk : tree.walk (tree.origin path) (names path).dropLast with
    | error e =>
        rw [hwalk] at h
        cases h
    | ok l =>
        simp only [hwalk, bind, Except.bind] at h
        split at h
        next hl =>
          split at h
          next => cases h
          next hfree =>
            rw [not_or, not_or, not_not] at hfree
            cases h
            exact ⟨_, name, l, hl,
              (List.dropLast_append_getLast? name hlast).symm, hfree.1,
              hfree.2.1, hwalk, hfree.2.2, rfl⟩
        next => cases h

/-- It creates the one directory at the end of the path. -/
theorem mkdir_spec {refusal : String → Option Errno} {path : String}
    (h : tree.mkdir refusal path mode = .ok tree') :
    Creates mode (fun made => made = path) tree tree' ∧
      tree'.HasDirectory path := by
  obtain ⟨above, name, l, hl, hnames, hdot, hup, hwalk, hnone, rfl⟩ :=
    mkdir_eq_ok h
  have hextends := addDirectory_extends (tree.permissions mode) hl hnone
  have hlocate : (tree.addDirectory l name (tree.permissions mode) hl).locate
      path = .ok (name :: l) := by
    have habove := hextends.walk hwalk
    have horigin : (tree.addDirectory l name (tree.permissions mode) hl).origin
        path = tree.origin path := rfl
    rw [locate, hnames, walk_append, horigin, habove]
    exact (walk_singleton ..).trans (lookup_addDirectory hl hnone hdot hup)
  refine ⟨⟨rfl, rfl, rfl, fun l' => ?_⟩, name :: l, hlocate, _,
    Function.update_self ..⟩
  by_cases hl' : l' = name :: l
  · subst hl'
    exact Or.inr ⟨hnone, Function.update_self .., path, rfl, hlocate⟩
  · exact Or.inl (Function.update_of_ne hl' _ _)

end DirectoryTree

end Rc2Compute
