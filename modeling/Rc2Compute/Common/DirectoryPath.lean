import Rc2Compute.Common.RC2Utils

/-!
# Making the directories of a path

`MakeDirectoryPath` returns what its last `mkdir` returned, and it goes on
after a directory that is there and after `EEXIST`.  Its result is 0 all the
same exactly when every directory of the path is there: what is not a
directory has nothing below it, so no later `mkdir` succeeds.
-/

namespace Rc2Compute.Common

open DirectoryTree

/-! ## Prefixes -/

/-- The part of `s` before one of its slashes, when there is any. -/
def SlashPrefix (s : List Char) (path : String) : Prop :=
  path ≠ "" ∧ path.toList ++ ['/'] <+: s

/-- The slash comes before position `pre`. -/
def Before (s : List Char) (pre : ℕ) (path : String) : Prop :=
  SlashPrefix s path ∧ path.toList.length < pre

theorem SlashPrefix.getElem?_length {s : List Char} {path : String}
    (h : SlashPrefix s path) : s[path.toList.length]? = some '/' := by
  obtain ⟨-, rest, hrest⟩ := h
  rw [← hrest]
  simp

theorem before_of_none {s : List Char} {pre : ℕ} {path : String}
    (hfind : find_first_of s '/' pre = none) :
    Before s pre path ↔ SlashPrefix s path :=
  ⟨And.left, fun h => ⟨h, find_first_of_eq_none hfind h.getElem?_length⟩⟩

/-- The next slash adds the path before it. -/
theorem before_succ_iff {s : List Char} {pre pos : ℕ} {path : String}
    (hfind : find_first_of s '/' pre = some pos) :
    Before s (pos + 1) path ↔
      Before s pre path ∨ path ≠ "" ∧ path = String.ofList (s.take pos) := by
  obtain ⟨hpre, hpos, hnext⟩ := find_first_of_eq_some hfind
  constructor
  · rintro ⟨hpath, hlt⟩
    by_cases hold : path.toList.length < pre
    · exact Or.inl ⟨hpath, hold⟩
    · have hle := hnext _ (Nat.le_of_not_lt hold) hpath.getElem?_length
      have hlength : path.toList.length = pos := by omega
      refine Or.inr ⟨hpath.1, ?_⟩
      obtain ⟨rest, hrest⟩ := hpath.2
      rw [← hrest, ← hlength]
      simp
  · rintro (⟨hpath, hlt⟩ | ⟨hne, rfl⟩)
    · exact ⟨hpath, by omega⟩
    · obtain ⟨hlt, hslash⟩ := List.getElem?_eq_some_iff.mp hpos
      have hlength : (s.take pos).length = pos := by
        rw [List.length_take, Nat.min_eq_left (Nat.le_of_lt hlt)]
      have hsplit : s.take pos ++ '/' :: s.drop (pos + 1) = s := by
        rw [← hslash, ← List.drop_eq_getElem_cons hlt, List.take_append_drop]
      refine ⟨⟨hne, s.drop (pos + 1), ?_⟩, ?_⟩
      · rw [String.toList_ofList, List.append_assoc]
        exact hsplit
      · rw [String.toList_ofList, hlength]
        exact Nat.lt_succ_self pos

/-- Earlier prefixes are above later ones. -/
theorem Before.above {s : List Char} {pre pos : ℕ} {path : String}
    (h : Before s pre path) (hle : pre ≤ pos) :
    ∃ rest, s.take pos = path.toList ++ '/' :: rest := by
  obtain ⟨⟨-, hpath⟩, hlt⟩ := h
  have hshort : (path.toList ++ ['/']).length ≤ pos := by
    rw [List.length_append, List.length_singleton]
    omega
  obtain ⟨rest, hrest⟩ := List.prefix_take_iff.mpr ⟨hpath, hshort⟩
  exact ⟨rest, by rw [← hrest, List.append_assoc]; rfl⟩

/-! ## The calls -/

/-- `stat` fails, and not because there is no such file. -/
def Unreadable (tree : DirectoryTree) (path : String) : Prop :=
  ∃ e, tree.stat path = .error e ∧ ¬ NotFound e

/-- Without an exception, `status` tells whether there is a directory. -/
theorem status_spec (sys : Answers) {path : String} (hpath : path ≠ "")
    (tree : DirectoryTree) :
    Act.wp (status sys path)
      (fun found tree' => tree' = tree ∧ tree.statRefusal path = none ∧
        (isDirectoryFile found = true ↔ tree.HasDirectory path))
      (fun e tree' => tree' = tree ∧ e.type = .filesystemError ∧
        Unreadable tree path) tree := by
  rw [Act.wp, status]
  cases hstat : tree.stat path with
  | error e =>
      by_cases he : NotFound e
      · have hallowed := statRefusal_of_notFound hstat he
        dsimp only
        rw [if_pos he]
        refine ⟨rfl, hallowed, by simp [isDirectoryFile], fun hdir => ?_⟩
        obtain ⟨mode, hmode⟩ := hdir.stat hpath hallowed
        rw [hstat] at hmode
        cases hmode
      · dsimp only
        rw [if_neg he]
        exact ⟨rfl, rfl, e, hstat, he⟩
  | ok entry =>
      have hallowed := (stat_eq_ok hstat).1
      refine ⟨rfl, hallowed, fun hentry => ?_, fun hdir => ?_⟩
      · cases entry with
        | directory mode => exact hasDirectory_of_stat hstat
        | link target => cases hentry
        | other => cases hentry
      · obtain ⟨mode, hmode⟩ := hdir.stat hpath hallowed
        rw [hstat] at hmode
        rw [Except.ok.inj hmode]
        rfl

theorem is_directory_spec (sys : Answers) {path : String} (hpath : path ≠ "")
    (tree : DirectoryTree) :
    Act.wp (is_directory sys path)
      (fun there tree' => tree' = tree ∧ tree.statRefusal path = none ∧
        (there = true ↔ tree.HasDirectory path))
      (fun e tree' => tree' = tree ∧ e.type = .filesystemError ∧
        Unreadable tree path) tree := by
  rw [is_directory, Act.wp_bind]
  exact (status_spec sys hpath tree).mono (fun _ _ h => h) fun _ _ h => h

/-- So does `exists(dir) && is_directory(dir)`. -/
theorem existsAsDirectory_spec (sys : Answers) {dir : String} (hdir : dir ≠ "")
    (tree : DirectoryTree) :
    Act.wp (existsAsDirectory sys dir)
      (fun there tree' => tree' = tree ∧ tree.statRefusal dir = none ∧
        (there = true ↔ tree.HasDirectory dir))
      (fun e tree' => tree' = tree ∧ e.type = .filesystemError ∧
        Unreadable tree dir) tree := by
  rw [existsAsDirectory, Act.wp_bind, pathExists, Act.wp_bind]
  refine (status_spec sys hdir tree).mono ?_ fun _ _ h => h
  rintro found tree' ⟨rfl, hallowed, hfound⟩
  cases found with
  | none => exact ⟨rfl, hallowed, hfound⟩
  | some entry => exact is_directory_spec sys hdir tree'

theorem existsAsDirectory_of_hasDirectory (sys : Answers) {dir : String}
    (hne : dir ≠ "") {tree : DirectoryTree} (hdir : tree.HasDirectory dir)
    (hallowed : tree.statRefusal dir = none) :
    existsAsDirectory sys dir tree = (.returned true, tree) := by
  obtain ⟨mode, hstat⟩ := hdir.stat hne hallowed
  have hstatus : status sys dir tree =
      (.returned (some (.directory mode)), tree) := by
    rw [status, hstat]
  have hexists : pathExists sys dir tree = (.returned true, tree) := by
    rw [pathExists, Act.bind_apply_returned hstatus]
    rfl
  have hdirectory : is_directory sys dir tree = (.returned true, tree) := by
    rw [is_directory, Act.bind_apply_returned hstatus]
    rfl
  rw [existsAsDirectory, Act.bind_apply_returned hexists]
  exact hdirectory

theorem mkdir_spec (sys : Answers) (dir : String) (mode : UInt32)
    (tree : DirectoryTree) :
    Act.wp (mkdir sys dir mode)
      (fun result tree' =>
        (result.1 = 0 ∧ tree'.HasDirectory dir ∧
          Creates mode (fun made => made = dir) tree tree') ∨
        (result.1 ≠ 0 ∧ tree' = tree))
      (fun _ _ => False) tree := by
  rw [Act.wp, mkdir]
  cases hmkdir : tree.mkdir sys.mkdirRefusal dir mode with
  | error e => exact Or.inr ⟨Int.neg_ne_zero.mpr Int.one_ne_zero, rfl⟩
  | ok tree' =>
      obtain ⟨hcreates, hdir⟩ := DirectoryTree.mkdir_spec hmkdir
      exact Or.inl ⟨rfl, hdir, hcreates⟩

/-! ## The loop -/

section Loop

variable {sys : Answers} {mode : UInt32} {s : List Char} {pre pos : ℕ}
  {mdretval : ℤ}

theorem makeDirectories_of_none (h : find_first_of s '/' pre = none) :
    makeDirectories sys mode s pre mdretval = pure mdretval := by
  rw [makeDirectories]
  split
  next => rfl
  next hsome =>
    rw [h] at hsome
    cases hsome

theorem makeDirectories_of_some (h : find_first_of s '/' pre = some pos) :
    makeDirectories sys mode s pre mdretval = (do
      let dir := String.ofList (s.take pos)
      if dir = "" then
        makeDirectories sys mode s (pos + 1) mdretval
      else if ← existsAsDirectory sys dir then
        makeDirectories sys mode s (pos + 1) mdretval
      else
        let (mdretval, errno) ← mkdir sys dir mode
        if mdretval ≠ 0 ∧ errno ≠ EEXIST then pure mdretval
        else makeDirectories sys mode s (pos + 1) mdretval) := by
  rw [makeDirectories]
  split
  next hnone =>
    rw [h] at hnone
    cases hnone
  next hsome =>
    rw [h] at hsome
    cases hsome
    rfl

/-- The state of the loop when it has looked at the paths of `done`: it has
made nothing but directories of the path, and the result is 0 if and only if
all of `done` are directories. -/
structure Built (s : List Char) (mode : UInt32) (tree₀ : DirectoryTree)
    (done : String → Prop) (mdretval : ℤ) (tree : DirectoryTree) : Prop where
  creates : Creates mode (SlashPrefix s) tree₀ tree
  result : mdretval = 0 ↔ ∀ path, done path → tree.HasDirectory path

variable {tree₀ tree tree' : DirectoryTree} {done : String → Prop}

theorem Built.congr {done' : String → Prop}
    (h : Built s mode tree₀ done mdretval tree)
    (hdone : ∀ path, done' path ↔ done path) :
    Built s mode tree₀ done' mdretval tree where
  creates := h.creates
  result := by
    rw [h.result]
    exact forall_congr' fun path => by rw [hdone]

/-- All earlier paths are above the next one. -/
theorem Before.hasDirectory {path : String} (h : Before s pre path)
    (hle : pre ≤ pos)
    (hdir : tree.HasDirectory (String.ofList (s.take pos))) :
    tree.HasDirectory path := by
  obtain ⟨rest, hrest⟩ := h.above hle
  have hne : path.toList ≠ [] := fun hnil =>
    h.1.1 (String.toList_eq_nil_iff.mp hnil)
  rw [hrest] at hdir
  have habove := hdir.above hne
  rwa [String.ofList_toList] at habove

/-- The next path is a directory. -/
theorem Built.found (h : Built s mode tree₀ (Before s pre) mdretval tree)
    (hfind : find_first_of s '/' pre = some pos)
    (hdir : tree.HasDirectory (String.ofList (s.take pos))) :
    Built s mode tree₀ (Before s (pos + 1)) mdretval tree where
  creates := h.creates
  result := by
    have hle := (find_first_of_eq_some hfind).1
    rw [h.result]
    constructor
    · intro hall path hpath
      rcases (before_succ_iff hfind).mp hpath with hold | ⟨-, rfl⟩
      · exact hall path hold
      · exact hdir
    · intro _ path hpath
      exact hpath.hasDirectory hle hdir

/-- The next path has become a directory, and so everything above it is
one. -/
theorem Built.made (h : Built s mode tree₀ (Before s pre) mdretval tree)
    (hfind : find_first_of s '/' pre = some pos)
    (hne : String.ofList (s.take pos) ≠ "")
    (hcreates : Creates mode (fun made => made = String.ofList (s.take pos))
      tree tree')
    (hdir : tree'.HasDirectory (String.ofList (s.take pos))) :
    Built s mode tree₀ (Before s (pos + 1)) 0 tree' where
  creates := by
    refine h.creates.trans (hcreates.mono ?_)
    rintro _ rfl
    exact ((before_succ_iff hfind).mpr (Or.inr ⟨hne, rfl⟩)).1
  result := by
    have hle := (find_first_of_eq_some hfind).1
    refine ⟨fun _ path hpath => ?_, fun _ => rfl⟩
    rcases (before_succ_iff hfind).mp hpath with hold | ⟨-, rfl⟩
    · exact hold.hasDirectory hle hdir
    · exact hdir

/-- One of the paths is not a directory, and the result says so. -/
theorem Built.missed {done' : String → Prop} {path : String} {r : ℤ}
    (h : Built s mode tree₀ done mdretval tree) (hr : r ≠ 0)
    (hdone : done' path) (hpath : ¬ tree.HasDirectory path) :
    Built s mode tree₀ done' r tree where
  creates := h.creates
  result := ⟨fun hzero => absurd hzero hr,
    fun hall => absurd (hall path hdone) hpath⟩

/-- The loop has come to position `pre` without an exception. -/
structure Reached (s : List Char) (mode : UInt32) (tree₀ : DirectoryTree)
    (pre : ℕ) (mdretval : ℤ) (tree : DirectoryTree) : Prop extends
    Built s mode tree₀ (Before s pre) mdretval tree where
  allowed : ∀ path, Before s pre path → tree.statRefusal path = none

/-- How the loop returns. -/
structure Returned (s : List Char) (mode : UInt32) (tree₀ : DirectoryTree)
    (mdretval : ℤ) (tree : DirectoryTree) : Prop extends
    Built s mode tree₀ (SlashPrefix s) mdretval tree where
  allowed : mdretval = 0 →
    ∀ path, SlashPrefix s path → tree.statRefusal path = none

/-- How the loop throws: some path cannot be read. -/
structure Thrown (s : List Char) (mode : UInt32) (tree₀ : DirectoryTree)
    (e : CxxException) (tree : DirectoryTree) : Prop where
  type : e.type = .filesystemError
  creates : Creates mode (SlashPrefix s) tree₀ tree
  unreadable : ∃ path, SlashPrefix s path ∧ Unreadable tree path

/-- One iteration at a path that is not empty. -/
theorem iteration_spec (sys : Answers) {next : ℤ → FileProg ℤ}
    (h : Reached s mode tree₀ pre mdretval tree)
    (hfind : find_first_of s '/' pre = some pos)
    (hne : String.ofList (s.take pos) ≠ "")
    (hnext : ∀ r tree', Reached s mode tree₀ (pos + 1) r tree' →
      Act.wp (next r) (Returned s mode tree₀) (Thrown s mode tree₀) tree') :
    Act.wp (do
      if ← existsAsDirectory sys (String.ofList (s.take pos)) then
        next mdretval
      else
        let (mdretval, errno) ← mkdir sys (String.ofList (s.take pos)) mode
        if mdretval ≠ 0 ∧ errno ≠ EEXIST then pure mdretval
        else next mdretval)
      (Returned s mode tree₀) (Thrown s mode tree₀) tree := by
  have hdir : Before s (pos + 1) (String.ofList (s.take pos)) :=
    (before_succ_iff hfind).mpr (Or.inr ⟨hne, rfl⟩)
  rw [Act.wp_bind]
  refine (existsAsDirectory_spec sys hne tree).mono ?_ ?_
  · rintro there tree₁ ⟨rfl, hreadable, hthere⟩
    have hallowed : ∀ path, Before s (pos + 1) path →
        tree₁.statRefusal path = none := by
      intro path hpath
      rcases (before_succ_iff hfind).mp hpath with hold | ⟨-, rfl⟩
      · exact h.allowed path hold
      · exact hreadable
    cases there with
    | true =>
        exact hnext _ _ ⟨h.toBuilt.found hfind (hthere.mp rfl), hallowed⟩
    | false =>
        have hmissing : ¬ tree₁.HasDirectory (String.ofList (s.take pos)) :=
          fun hthis => Bool.false_ne_true (hthere.mpr hthis)
        rw [if_neg Bool.false_ne_true, Act.wp_bind]
        refine (mkdir_spec sys _ mode tree₁).mono ?_
          fun _ _ hfalse => hfalse.elim
        rintro ⟨r, errno⟩ tree' (⟨hr, hmade, hcreates⟩ | ⟨hr, rfl⟩)
        · have hzero : r = 0 := hr
          subst hzero
          have hbuilt := h.toBuilt.made hfind hne hcreates hmade
          dsimp only
          rw [if_neg (fun hfailed => hfailed.1 rfl)]
          exact hnext _ _ ⟨hbuilt, hcreates.statRefusal ▸ hallowed⟩
        · have hfailed : r ≠ 0 := hr
          dsimp only
          split
          · exact ⟨h.toBuilt.missed hfailed hdir.1 hmissing,
              fun hzero => absurd hzero hfailed⟩
          · exact hnext _ _
              ⟨h.toBuilt.missed hfailed hdir hmissing, hallowed⟩
  · rintro e tree₁ ⟨rfl, he, hunreadable⟩
    exact ⟨he, h.creates, _, hdir.1, hunreadable⟩

/-- The loop ends, whatever the calls answer. -/
theorem makeDirectories_spec (sys : Answers)
    (h : Reached s mode tree₀ pre mdretval tree) :
    Act.wp (makeDirectories sys mode s pre mdretval)
      (Returned s mode tree₀) (Thrown s mode tree₀) tree := by
  -- by what is left of the path
  induction hn : s.length - pre using Nat.strongRecOn generalizing
    pre mdretval tree with
  | ind n ih =>
    cases hfind : find_first_of s '/' pre with
    | none =>
        have hall : ∀ path, SlashPrefix s path ↔ Before s pre path :=
          fun _ => (before_of_none hfind).symm
        rw [makeDirectories_of_none hfind]
        exact ⟨h.toBuilt.congr hall, fun _ path hpath =>
          h.allowed path ((hall path).mp hpath)⟩
    | some pos =>
        have hless : s.length - (pos + 1) < n := by
          rw [← hn]
          exact find_first_of_lt hfind
        rw [makeDirectories_of_some hfind]
        dsimp only
        by_cases hempty : String.ofList (s.take pos) = ""
        · have hsame : ∀ path, Before s (pos + 1) path ↔ Before s pre path := by
            intro path
            rw [before_succ_iff hfind, hempty]
            simp
          rw [if_pos hempty]
          exact ih _ hless ⟨h.toBuilt.congr hsame, fun path hpath =>
            h.allowed path ((hsame path).mp hpath)⟩ rfl
        · rw [if_neg hempty]
          exact iteration_spec sys h hfind hempty fun r tree' h' =>
            ih _ hless h' rfl

/-- Where all directories of the path are there, the loop passes them by. -/
theorem makeDirectories_of_hasDirectory (sys : Answers)
    (h : ∀ path, SlashPrefix s path →
      tree.HasDirectory path ∧ tree.statRefusal path = none) :
    makeDirectories sys mode s pre mdretval tree =
      (.returned mdretval, tree) := by
  induction hn : s.length - pre using Nat.strongRecOn generalizing pre with
  | ind n ih =>
    cases hfind : find_first_of s '/' pre with
    | none =>
        rw [makeDirectories_of_none hfind]
        rfl
    | some pos =>
        have hless : s.length - (pos + 1) < n := by
          rw [← hn]
          exact find_first_of_lt hfind
        rw [makeDirectories_of_some hfind]
        dsimp only
        split
        next => exact ih _ hless rfl
        next hne =>
          have hdir : Before s (pos + 1) (String.ofList (s.take pos)) :=
            (before_succ_iff hfind).mpr (Or.inr ⟨hne, rfl⟩)
          obtain ⟨hthere, hallowed⟩ := h _ hdir.1
          rw [Act.bind_apply_returned
            (existsAsDirectory_of_hasDirectory sys hne hthere hallowed)]
          exact ih _ hless rfl

end Loop

/-! ## The whole path -/

/-- The non-empty parts of `s` that end before a slash or at the end. -/
def PrefixOf (s path : String) : Prop :=
  SlashPrefix (s.toList ++ ['/']) path

/-- The loop looks at no others. -/
theorem prefixOf_of_slashPrefix {s path : String}
    (h : SlashPrefix (withSlash s) path) : PrefixOf s path := by
  rw [withSlash] at h
  split at h
  · exact ⟨h.1, h.2.trans (List.prefix_append _ _)⟩
  · exact h

theorem hasDirectory_root (tree : DirectoryTree) : tree.HasDirectory "/" :=
  ⟨[], rfl, tree.root_isDirectory⟩

/-- The path itself, when it ends in a slash, is where its part before the
slash is. -/
theorem forall_hasDirectory_iff {tree : DirectoryTree} {s : String} :
    (∀ path, SlashPrefix (withSlash s) path → tree.HasDirectory path) ↔
      ∀ path, PrefixOf s path → tree.HasDirectory path := by
  refine ⟨fun h => ?_, fun h path hpath =>
    h path (prefixOf_of_slashPrefix hpath)⟩
  rintro path ⟨hne, hpath⟩
  rw [withSlash] at h
  split at h
  next hlast =>
    rcases List.prefix_concat_iff.mp hpath with hself | hpath
    · have hsame : path = s :=
        String.toList_inj.mp (List.append_cancel_right hself)
      obtain ⟨above, habove⟩ := List.getLast?_eq_some_iff.mp hlast
      have hs : s = String.ofList (above ++ ['/']) := by
        rw [← habove, String.ofList_toList]
      rw [hsame, hs]
      by_cases hroot : above = []
      · rw [hroot]
        exact hasDirectory_root tree
      · have hname : String.ofList above ≠ "" :=
          fun hempty => hroot (String.ofList_eq_empty_iff.mp hempty)
        rw [hasDirectory_append_slash hroot]
        refine h _ ⟨hname, [], ?_⟩
        rw [String.toList_ofList, habove, List.append_nil]
    · exact h path ⟨hne, hpath⟩
  next => exact h path ⟨hne, hpath⟩

/-! ## Results -/

/-- What holds after `MakeDirectoryPath(s, mode)` has returned: it has made
nothing but directories of the path, its result is 0 if and only if the whole
path is made of directories, and once it is, making the path again changes
nothing, nor does a `TemporaryDirectory`. -/
structure MadePath (s : String) (mode : UInt32) (tree : DirectoryTree) (r : ℤ)
    (tree' : DirectoryTree) : Prop where
  creates : Creates mode (PrefixOf s) tree tree'
  result : r = 0 ↔ ∀ path, PrefixOf s path → tree'.HasDirectory path
  again : r = 0 → ∀ sys mode',
    MakeDirectoryPath sys s mode' tree' = (.returned 0, tree')
  temporary : r = 0 → ∀ sys erase,
    newTemporaryDirectory sys s erase tree' = (.returned ⟨s, erase⟩, tree')

/-- What holds when it throws: the same, as far as it came, and a part of the
path cannot be read. -/
structure FailedPath (s : String) (mode : UInt32) (tree : DirectoryTree)
    (e : CxxException) (tree' : DirectoryTree) : Prop where
  type : e.type = .filesystemError
  creates : Creates mode (PrefixOf s) tree tree'
  unreadable : ∃ path, PrefixOf s path ∧ Unreadable tree' path

theorem makeDirectoryPath_of_hasDirectory (sys : Answers) {s : String}
    (hs : s ≠ "") (mode : UInt32) {tree : DirectoryTree}
    (h : ∀ path, SlashPrefix (withSlash s) path →
      tree.HasDirectory path ∧ tree.statRefusal path = none) :
    MakeDirectoryPath sys s mode tree = (.returned 0, tree) := by
  rw [MakeDirectoryPath, if_neg hs]
  exact makeDirectories_of_hasDirectory sys h

theorem newTemporaryDirectory_of_made {sys : Answers} {s : String}
    {tree : DirectoryTree}
    (h : MakeDirectoryPath sys s 0x1c0 tree = (.returned 0, tree))
    (erase : Bool) :
    newTemporaryDirectory sys s erase tree = (.returned ⟨s, erase⟩, tree) := by
  rw [newTemporaryDirectory, Act.bind_apply_returned h]
  rfl

theorem reached_start (s : List Char) (mode : UInt32) (tree : DirectoryTree) :
    Reached s mode tree 0 0 tree := by
  have hnone : ∀ path, ¬ Before s 0 path :=
    fun path hpath => Nat.not_lt_zero _ hpath.2
  exact ⟨⟨Creates.refl tree,
    fun _ path hpath => absurd hpath (hnone path), fun _ => rfl⟩,
    fun path hpath => absurd hpath (hnone path)⟩

/-- The call is the whole loop. -/
theorem makeDirectoryPath_loop (sys : Answers) {s : String} (hs : s ≠ "")
    (mode : UInt32) (tree : DirectoryTree) :
    Act.wp (MakeDirectoryPath sys s mode)
      (Returned (withSlash s) mode tree) (Thrown (withSlash s) mode tree)
      tree := by
  rw [MakeDirectoryPath, if_neg hs]
  exact makeDirectories_spec sys (reached_start _ mode tree)

theorem Returned.madePath {s : String} {mode : UInt32}
    {tree tree' : DirectoryTree} {r : ℤ} (hs : s ≠ "")
    (h : Returned (withSlash s) mode tree r tree') :
    MadePath s mode tree r tree' := by
  have hagain : r = 0 → ∀ sys mode',
      MakeDirectoryPath sys s mode' tree' = (.returned 0, tree') := by
    intro hzero sys mode'
    have hall := h.result.mp hzero
    exact makeDirectoryPath_of_hasDirectory sys hs mode' fun path hpath =>
      ⟨hall path hpath, h.allowed hzero path hpath⟩
  exact
    { creates := h.creates.mono fun _ => prefixOf_of_slashPrefix
      result := h.result.trans forall_hasDirectory_iff
      again := hagain
      temporary := fun hzero sys erase =>
        newTemporaryDirectory_of_made (hagain hzero sys _) erase }

theorem Thrown.failedPath {s : String} {mode : UInt32}
    {tree tree' : DirectoryTree} {e : CxxException}
    (h : Thrown (withSlash s) mode tree e tree') :
    FailedPath s mode tree e tree' := by
  obtain ⟨path, hpath, hunreadable⟩ := h.unreadable
  exact ⟨h.type, h.creates.mono fun _ => prefixOf_of_slashPrefix,
    path, prefixOf_of_slashPrefix hpath, hunreadable⟩

/-- `MakeDirectoryPath` ends for every path that is not empty and every file
system.  It returns as `MadePath` says, or part of the path cannot be read. -/
theorem makeDirectoryPath_correct (sys : Answers) {s : String} (hs : s ≠ "")
    (mode : UInt32) (tree : DirectoryTree) :
    Act.wp (MakeDirectoryPath sys s mode) (MadePath s mode tree)
      (FailedPath s mode tree) tree :=
  (makeDirectoryPath_loop sys hs mode tree).mono
    (fun _ _ h => h.madePath hs) fun _ _ h => h.failedPath

/-- A path with a slash before and after each of two names, in a tree that has
only the root. -/
theorem makeDirectoryPath_correct_slashes :
    "//tmp//a/" ≠ "" ∧
      Act.wp (MakeDirectoryPath Answers.granting "//tmp//a/" 0x1ed)
        (MadePath "//tmp//a/" 0x1ed DirectoryTree.root)
        (FailedPath "//tmp//a/" 0x1ed DirectoryTree.root) DirectoryTree.root :=
  ⟨by decide, makeDirectoryPath_correct _ (by decide) _ _⟩

/-- A session gets its working directory, or `handleOpenCommand` fails for
want of it.  The second call does not fail. -/
theorem makeWorkingDirectory_spec (sys sys' : Answers) {workDir : String}
    (hs : workDir ≠ "") (tree : DirectoryTree) :
    Act.wp (makeWorkingDirectory sys sys' workDir)
      (fun dir tree' => dir = ⟨workDir, false⟩ ∧
        MadePath workDir 0x1ed tree 0 tree')
      (fun e tree' => FailedPath workDir 0x1ed tree e tree' ∨
        e = ⟨.runtimeError, "failed to create working directory"⟩ ∧
          ¬ ∀ path, PrefixOf workDir path → tree'.HasDirectory path) tree := by
  rw [makeWorkingDirectory, Act.wp_bind]
  refine (makeDirectoryPath_loop sys hs 0x1ed tree).mono ?_
    fun _ _ h => Or.inl h.failedPath
  intro rc tree' hloop
  have h := hloop.madePath hs
  rw [Act.wp_bind, Act.wp_throwIf]
  refine ⟨fun hrc => Or.inr ⟨rfl, fun hall => hrc (h.result.mpr hall)⟩,
    fun hrc => ?_⟩
  have hzero : rc = 0 := not_not.mp hrc
  subst hzero
  exact Act.wp_of_apply (h.temporary rfl sys' false) ⟨rfl, h⟩

end Rc2Compute.Common
