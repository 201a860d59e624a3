import Mathlib.Data.List.Induction
import ModuleResolution.FileSystem.Memory
import ModuleResolution.Proofs.Association
import ModuleResolution.Proofs.Resolution.Installed
import ModuleResolution.Proofs.Text.WellFormed

/-!
# Files in memory as a tree

What files in memory answer, in terms of the entries that they were made from: the last file at a
place is read there, and the directories are those given and those above an entry, unless there is
a file in their place.

Adding a directory stops at the first one that is known.  Nothing is lost by that, since at any time
the directories above a known one are known as well.
-/

namespace ModuleResolution

namespace FileSystem

namespace Memory

/-! ## Directories above directories -/

section Directories

variable {directories : List Text} {path directory missing : Text}

/-- The directory above each directory is there too, a given one aside.  There is nothing above a
relative path of one component. -/
def IsClosedBut (missing : Text) (directories : List Text) : Prop :=
  ∀ directory ∈ directories, Path.dirname directory = [] ∨ Path.dirname directory = missing ∨
    Path.dirname directory ∈ directories

def IsClosed (directories : List Text) : Prop :=
  ∀ directory ∈ directories, Path.dirname directory = [] ∨ Path.dirname directory ∈ directories

theorem IsClosed.isClosedBut (h : IsClosed directories) (missing : Text) :
    IsClosedBut missing directories :=
  fun directory hdirectory => (h directory hdirectory).imp_right .inr

theorem IsClosedBut.isClosed (h : IsClosedBut missing directories)
    (hmissing : missing = [] ∨ missing ∈ directories) : IsClosed directories := by
  intro directory hdirectory
  rcases h directory hdirectory with hnil | rfl | hmem
  · exact .inl hnil
  · exact hmissing
  · exact .inr hmem

theorem IsClosedBut.cons (h : IsClosedBut path directories) :
    IsClosedBut (Path.dirname path) (path :: directories) := by
  refine List.forall_mem_cons.2 ⟨.inr (.inl rfl), fun directory hdirectory => ?_⟩
  rcases h directory hdirectory with hnil | heq | hmem
  · exact .inl hnil
  · exact .inr (.inr (heq ▸ List.mem_cons_self))
  · exact .inr (.inr (List.mem_cons_of_mem _ hmem))

theorem ancestors_nil : Path.ancestors [] = [] :=
  Path.ancestors_of_isRoot rfl

theorem mem_of_mem_ancestors (h : IsClosed directories) (hne : directory ≠ []) :
    path ∈ directories -> directory ∈ Path.ancestors path -> directory ∈ directories := by
  induction path using Path.ancestors.induct with
  | case1 path hroot =>
      intro _ habove
      rw [Path.ancestors_of_isRoot (Path.isRoot_iff.2 hroot)] at habove
      exact absurd habove List.not_mem_nil
  | case2 path hroot ih =>
      intro hpath habove
      rw [Path.ancestors, dif_neg hroot] at habove
      rcases h path hpath with hnil | hmem
      · rw [hnil, ancestors_nil] at habove
        exact absurd (List.mem_singleton.1 habove) hne
      · rcases List.mem_cons.1 habove with rfl | habove
        · exact hmem
        · exact ih hmem habove

def IsUpFrom (path directory : Text) : Prop :=
  directory ≠ [] ∧ (directory = path ∨ directory ∈ Path.ancestors path)

theorem isUpFrom_of_isRoot (hroot : Path.dirname path = path) (hne : path ≠ []) :
    IsUpFrom path directory ↔ directory = path := by
  rw [IsUpFrom, Path.ancestors_of_isRoot (Path.isRoot_iff.2 hroot)]
  constructor
  · rintro ⟨-, heq | habove⟩
    · exact heq
    · exact absurd habove List.not_mem_nil
  · rintro rfl
    exact ⟨hne, .inl rfl⟩

theorem isUpFrom_of_not_isRoot (hroot : ¬Path.dirname path = path) (hne : path ≠ []) :
    IsUpFrom path directory ↔ directory = path ∨ IsUpFrom (Path.dirname path) directory := by
  rw [IsUpFrom, IsUpFrom, Path.ancestors.eq_1 path, dif_neg hroot, List.mem_cons]
  constructor
  · rintro ⟨hdirectory, heq | hup⟩
    · exact .inl heq
    · exact .inr ⟨hdirectory, hup⟩
  · rintro (rfl | ⟨hdirectory, hup⟩)
    · exact ⟨hne, .inl rfl⟩
    · exact ⟨hdirectory, .inr hup⟩

theorem mem_of_isUpFrom (h : IsClosed directories) (hpath : path = [] ∨ path ∈ directories)
    (hup : IsUpFrom path directory) : directory ∈ directories := by
  obtain ⟨hne, hup⟩ := hup
  rcases hpath with rfl | hpath
  · rw [ancestors_nil] at hup
    exact absurd hup (by simpa using hne)
  · rcases hup with rfl | habove
    · exact hpath
    · exact mem_of_mem_ancestors h hne hpath habove

theorem addDirectory_spec (h : IsClosedBut path directories) :
    IsClosed (addDirectory directories path) ∧ ∀ directory,
      directory ∈ addDirectory directories path ↔
        directory ∈ directories ∨ IsUpFrom path directory := by
  induction directories, path using addDirectory.induct with
  | case1 directories path hknown =>
      have hpath : path = [] ∨ path ∈ directories := by simpa using hknown
      have hclosed := h.isClosed hpath
      rw [addDirectory, if_pos hknown]
      refine ⟨hclosed, fun directory => ⟨.inl, ?_⟩⟩
      rintro (hmem | hup)
      · exact hmem
      · exact mem_of_isUpFrom hclosed hpath hup
  | case2 directories path hnew hroot =>
      have hne : path ≠ [] := fun hnil => hnew (by simp [hnil])
      have hself : Path.dirname path ∈ path :: directories := by
        rw [hroot]
        exact List.mem_cons_self
      rw [addDirectory, if_neg hnew, dif_pos hroot]
      refine ⟨h.cons.isClosed (.inr hself), fun directory => ?_⟩
      rw [isUpFrom_of_isRoot hroot hne, List.mem_cons, or_comm]
  | case3 directories path hnew hroot ih =>
      have hne : path ≠ [] := fun hnil => hnew (by simp [hnil])
      obtain ⟨hclosed, hmem⟩ := ih h.cons
      rw [addDirectory, if_neg hnew, dif_neg hroot]
      refine ⟨hclosed, fun directory => ?_⟩
      rw [hmem, isUpFrom_of_not_isRoot hroot hne, List.mem_cons, or_assoc, or_left_comm]

end Directories

/-! ## Reading -/

section Read

variable {memory : Memory} {path : Text} {octets : List UInt8}

theorem isFile_iff_exists : memory.isFile path ↔ ∃ octets, memory.octets? path = some octets :=
  Option.isSome_iff_exists

theorem not_isDirectory_of_isFile (h : memory.isFile path) : ¬memory.isDirectory path := by
  simp [isDirectory, h]

theorem read_eq_ok_iff : memory.read path = .ok octets ↔ memory.octets? path = some octets := by
  unfold read
  cases memory.octets? path with
  | some found => simp
  | none => cases memory.isDirectory path <;> simp

theorem read_returns_iff : (∃ octets, memory.read path = .ok octets) ↔ memory.isFile path :=
  (exists_congr fun _ => read_eq_ok_iff).trans isFile_iff_exists.symm

theorem read_of_not_isFile (h : ¬memory.isFile path) :
    memory.read path =
      .error (if memory.isDirectory path then .isDirectory path else .notFound path) := by
  have hoctets : memory.octets? path = none := by simpa [isFile] using h
  rw [read, hoctets]
  cases memory.isDirectory path <;> rfl

theorem read_isDirectory_iff :
    memory.read path = .error (.isDirectory path) ↔ memory.isDirectory path := by
  by_cases hfile : memory.isFile path
  · obtain ⟨octets, hread⟩ := read_returns_iff.2 hfile
    simp [hread, not_isDirectory_of_isFile hfile]
  · simp [read_of_not_isFile hfile]

theorem read_notFound_iff : memory.read path = .error (.notFound path) ↔
    ¬memory.isFile path ∧ ¬memory.isDirectory path := by
  by_cases hfile : memory.isFile path
  · obtain ⟨octets, hread⟩ := read_returns_iff.2 hfile
    simp [hread, hfile]
  · simp [read_of_not_isFile hfile, hfile]

theorem read_ne_notUtf8 : memory.read path ≠ .error .notUtf8 := by
  by_cases hfile : memory.isFile path
  · obtain ⟨octets, hread⟩ := read_returns_iff.2 hfile
    simp [hread]
  · cases hdirectory : memory.isDirectory path <;> simp [read_of_not_isFile hfile, hdirectory]

theorem readBytes_eq (length : Int) :
    memory.toFileSystem.readBytes path length = (memory.read path).map (leading · length) := by
  cases hread : memory.read path <;>
    simp [toFileSystem, hread, bind, Except.bind, pure, Except.pure, Except.map]

theorem readBytes_eq_error_iff {length : Int} {fault : ReadFault} :
    memory.toFileSystem.readBytes path length = .error fault ↔
      memory.read path = .error fault := by
  rw [readBytes_eq]
  cases memory.read path <;> simp [Except.map]

theorem readBytes_returns_iff {length : Int} :
    (∃ octets, memory.toFileSystem.readBytes path length = .ok octets) ↔ memory.isFile path := by
  rw [← read_returns_iff, readBytes_eq]
  cases memory.read path <;> simp [Except.map]

theorem readText_of_read (h : memory.read path = .ok octets) :
    memory.toFileSystem.readText path =
      (Text.Utf8.decode? octets).elim (.error .notUtf8) .ok := by
  simp only [toFileSystem, h, bind, Except.bind]
  cases Text.Utf8.decode? octets <;> rfl

theorem readText_of_error {fault : ReadFault} (h : memory.read path = .error fault) :
    memory.toFileSystem.readText path = .error fault := by
  simp only [toFileSystem, h, bind, Except.bind]

theorem readText_eq_ok_iff {text : Text} : memory.toFileSystem.readText path = .ok text ↔
    memory.octets? path = some (Text.Utf8.encode text) := by
  rw [← read_eq_ok_iff]
  cases hread : memory.read path with
  | error fault => simp [readText_of_error hread]
  | ok octets =>
      rw [readText_of_read hread, Except.ok.injEq, ← Text.Utf8.decode?_eq_some_iff]
      cases Text.Utf8.decode? octets <;> simp

theorem readText_eq_notUtf8_iff : memory.toFileSystem.readText path = .error .notUtf8 ↔
    ∃ octets, memory.octets? path = some octets ∧ ∀ text, octets ≠ Text.Utf8.encode text := by
  simp only [← read_eq_ok_iff]
  cases hread : memory.read path with
  | error fault =>
      have hfault : fault ≠ .notUtf8 := fun heq => read_ne_notUtf8 (heq ▸ hread)
      simp [readText_of_error hread, hfault]
  | ok octets =>
      simp only [readText_of_read hread, Except.ok.injEq, exists_eq_left',
        ← Text.Utf8.decode?_eq_some_iff, ← Option.eq_none_iff_forall_ne_some, ne_eq]
      cases Text.Utf8.decode? octets <;> simp

theorem readText_eq_error_iff {fault : ReadFault} (h : fault ≠ .notUtf8) :
    memory.toFileSystem.readText path = .error fault ↔ memory.read path = .error fault := by
  cases hread : memory.read path with
  | error other => simp [readText_of_error hread]
  | ok octets =>
      rw [readText_of_read hread]
      cases Text.Utf8.decode? octets <;> simp [h.symm]

end Read

theorem toFileSystem_congr {first second : Memory}
    (hfiles : ∀ path, first.octets? path = second.octets? path)
    (hdirectories : ∀ place, place ∈ first.directories ↔ place ∈ second.directories) :
    first.toFileSystem = second.toFileSystem := by
  have hisFile : first.isFile = second.isFile := by
    funext path
    rw [isFile, isFile, hfiles]
  have hisDirectory : first.isDirectory = second.isDirectory := by
    funext path
    rw [isDirectory, isDirectory, hisFile, Bool.eq_iff_iff, Bool.and_eq_true, Bool.and_eq_true,
      List.contains_iff_mem, List.contains_iff_mem, hdirectories]
  have hread : first.read = second.read := by
    funext path
    rw [read, read, hfiles, hisDirectory]
  rw [toFileSystem, toFileSystem, hisFile, hisDirectory, hread]

/-! ## Entries -/

section Entries

variable {entries : List (Text × Entry)} {entry : Text × Entry} {place path : Text}
  {octets : List UInt8}

/-- A file whose path has this normal form. -/
def IsFileAt (place : Text) (entry : Text × Entry) : Prop :=
  Path.normalize entry.1 = place ∧ entry.2 ≠ .directory

/-- A directory whose path has this normal form, or an entry below it. -/
def IsDirectoryAt (place : Text) (entry : Text × Entry) : Prop :=
  (Path.normalize entry.1 = place ∧ entry.2 = .directory) ∨
    (place ≠ [] ∧ place ∈ Path.ancestors (Path.normalize entry.1))

/-- The last of all files at a place, with its octets. -/
def IsLastFile (entries : List (Text × Entry)) (place : Text) (octets : List UInt8) : Prop :=
  ∃ before path after, entries = before ++ (path, .file octets) :: after ∧
    Path.normalize path = place ∧ ∀ entry ∈ after, ¬IsFileAt place entry

/-- No two files have the same place. -/
def AreApart (entries : List (Text × Entry)) : Prop :=
  entries.Pairwise fun first second => ∀ place, IsFileAt place first -> ¬IsFileAt place second

theorem AreApart.perm {others : List (Text × Entry)} (h : AreApart entries)
    (hperm : entries.Perm others) : AreApart others :=
  hperm.pairwise h fun hfirst place hsecond hat => hfirst place hat hsecond

theorem not_isLastFile_nil : ¬IsLastFile [] place octets := by
  rintro ⟨before, path, after, heq, -⟩
  exact absurd heq.symm (List.append_ne_nil_of_right_ne_nil _ (List.cons_ne_nil _ _))

/-- An entry that comes last is the last file at its place if it is a file, and changes nothing
elsewhere. -/
theorem isLastFile_concat : IsLastFile (entries ++ [entry]) place octets ↔
    (Path.normalize entry.1 = place ∧ entry.2 = .file octets) ∨
      (¬IsFileAt place entry ∧ IsLastFile entries place octets) := by
  constructor
  · rintro ⟨before, path, after, heq, hplace, hafter⟩
    rcases List.eq_nil_or_concat after with rfl | ⟨init, last, rfl⟩
    · obtain ⟨-, hlast⟩ := List.append_inj' heq rfl
      obtain rfl := (List.cons.inj hlast).1
      exact .inl ⟨hplace, rfl⟩
    · rw [List.concat_eq_append, ← List.cons_append, ← List.append_assoc] at heq
      obtain ⟨rfl, hlast⟩ := List.append_inj' heq rfl
      obtain rfl := (List.cons.inj hlast).1
      obtain ⟨hinit, hentry⟩ := List.forall_mem_append.1 (List.concat_eq_append ▸ hafter)
      exact .inr ⟨hentry entry List.mem_cons_self, before, path, init, rfl, hplace, hinit⟩
  · rintro (⟨hplace, hfile⟩ | ⟨hentry, before, path, after, rfl, hplace, hafter⟩)
    · refine ⟨entries, entry.1, [], ?_, hplace, fun _ hmem => absurd hmem List.not_mem_nil⟩
      rw [← hfile]
    · refine ⟨before, path, after ++ [entry], by simp, hplace, ?_⟩
      exact List.forall_mem_append.2 ⟨hafter, List.forall_mem_singleton.2 hentry⟩

theorem exists_isLastFile_iff :
    (∃ octets, IsLastFile entries place octets) ↔ ∃ entry ∈ entries, IsFileAt place entry := by
  constructor
  · rintro ⟨octets, before, path, after, rfl, hplace, -⟩
    exact ⟨(path, .file octets), by simp, hplace, nofun⟩
  · induction entries using List.reverseRecOn with
    | nil => simp
    | append_singleton init last ih =>
        rintro ⟨entry, hentry, hfile⟩
        by_cases hlast : IsFileAt place last
        · cases hkind : last.2 with
          | file octets => exact ⟨octets, isLastFile_concat.2 (.inl ⟨hlast.1, hkind⟩)⟩
          | directory => exact absurd hkind hlast.2
        · rcases List.mem_append.1 hentry with hentry | hentry
          · obtain ⟨octets, hoctets⟩ := ih ⟨entry, hentry, hfile⟩
            exact ⟨octets, isLastFile_concat.2 (.inr ⟨hlast, hoctets⟩)⟩
          · exact absurd (List.mem_singleton.1 hentry ▸ hfile) hlast

theorem isLastFile_iff_mem (h : AreApart entries) :
    IsLastFile entries place octets ↔
      ∃ path, (path, .file octets) ∈ entries ∧ Path.normalize path = place := by
  constructor
  · rintro ⟨before, path, after, rfl, hplace, -⟩
    exact ⟨path, by simp, hplace⟩
  · rintro ⟨path, hmem, hplace⟩
    obtain ⟨before, after, rfl⟩ := List.append_of_mem hmem
    refine ⟨before, path, after, rfl, hplace, fun entry hentry => ?_⟩
    have hafter := (List.pairwise_append.1 h).2.1
    exact List.rel_of_pairwise_cons hafter hentry place ⟨hplace, nofun⟩

end Entries

/-! ## One entry after the other -/

def known (entry : Text × Entry) : Text :=
  match entry.2 with
  | .directory => Path.normalize entry.1
  | .file _ => Path.dirname (Path.normalize entry.1)

structure Holds (memory : Memory) (entries : List (Text × Entry)) : Prop where
  get?_files : ∀ place octets,
    Association.get? place memory.files = some octets ↔ IsLastFile entries place octets
  mem_directories : ∀ place,
    place ∈ memory.directories ↔ ∃ entry ∈ entries, IsUpFrom (known entry) place
  isClosed : IsClosed memory.directories

section Holds

variable {memory : Memory} {entries : List (Text × Entry)} {place path : Text}

theorem holds_empty : Holds empty [] where
  get?_files _ _ := ⟨nofun, fun h => absurd h not_isLastFile_nil⟩
  mem_directories _ := by simp [empty]
  isClosed := by simp [IsClosed, empty]

theorem add_directories (memory : Memory) (path : Text) (entry : Entry) :
    (memory.add path entry).directories = addDirectory memory.directories (known (path, entry)) := by
  cases entry <;> rfl

theorem Holds.add (h : Holds memory entries) (entry : Text × Entry) :
    Holds (memory.add entry.1 entry.2) (entries ++ [entry]) := by
  obtain ⟨hclosed, hmem⟩ := addDirectory_spec (h.isClosed.isClosedBut (known entry))
  refine ⟨fun place octets => ?_, fun place => ?_, ?_⟩
  · rw [isLastFile_concat, ← h.get?_files]
    obtain ⟨path, kind⟩ := entry
    cases kind with
    | directory => simp [Memory.add, IsFileAt]
    | file written =>
        show Association.get? place (Association.put (Path.normalize path) written memory.files) =
          some octets ↔ _
        by_cases hplace : place = Path.normalize path
        · rw [hplace, Association.get?_put_self]
          simp [IsFileAt]
        · rw [Association.get?_put_of_ne hplace]
          simp [IsFileAt, Ne.symm hplace]
  · rw [add_directories, hmem, h.mem_directories]
    simp only [List.mem_append, List.mem_singleton, or_and_right, exists_or, exists_eq_left]
  · rw [add_directories]
    exact hclosed

theorem holds_ofEntries (entries : List (Text × Entry)) : Holds (ofEntries entries) entries := by
  induction entries using List.reverseRecOn with
  | nil => exact holds_empty
  | append_singleton init last ih =>
      rw [ofEntries, List.foldl_append]
      exact ih.add last

/-! ## Answers -/

/-- The directories are those given and those above an entry.  The directory above a file at a root
is the root itself. -/
theorem isUpFrom_known_iff {entry : Text × Entry} (h : ¬IsFileAt place entry) :
    IsUpFrom (known entry) place ↔ IsDirectoryAt place entry := by
  obtain ⟨path, kind⟩ := entry
  cases kind with
  | directory =>
      have hne := Path.normalize_ne_nil path
      simp only [IsUpFrom, known, IsDirectoryAt, and_true]
      constructor
      · rintro ⟨hplace, rfl | habove⟩
        · exact .inl rfl
        · exact .inr ⟨hplace, habove⟩
      · rintro (rfl | ⟨hplace, habove⟩)
        · exact ⟨hne, .inl rfl⟩
        · exact ⟨hplace, .inr habove⟩
  | file octets =>
      have hother : Path.normalize path ≠ place := fun heq => h ⟨heq, nofun⟩
      simp only [IsUpFrom, known, IsDirectoryAt, reduceCtorEq, and_false, false_or]
      refine and_congr_right fun hne => ?_
      by_cases hroot : Path.dirname (Path.normalize path) = Path.normalize path
      · rw [hroot, Path.ancestors_of_isRoot (Path.isRoot_iff.2 hroot)]
        simp [hother.symm]
      · rw [Path.ancestors.eq_1 (Path.normalize path), dif_neg hroot, List.mem_cons]

theorem Holds.octets?_eq_some_iff (h : Holds memory entries) {octets : List UInt8} :
    memory.octets? path = some octets ↔ IsLastFile entries (Path.normalize path) octets :=
  h.get?_files _ _

theorem Holds.isFile_iff (h : Holds memory entries) :
    memory.isFile path ↔ ∃ entry ∈ entries, IsFileAt (Path.normalize path) entry := by
  rw [← exists_isLastFile_iff, isFile_iff_exists]
  exact exists_congr fun _ => h.octets?_eq_some_iff

theorem Holds.isDirectory_iff (h : Holds memory entries) :
    memory.isDirectory path ↔ ¬memory.isFile path ∧
      ∃ entry ∈ entries, IsDirectoryAt (Path.normalize path) entry := by
  rw [isDirectory, Bool.and_eq_true, Bool.not_eq_true', Bool.not_eq_true, and_comm,
    List.contains_iff_mem, h.mem_directories]
  refine and_congr_right fun hfile => exists_congr fun entry => and_congr_right fun hentry => ?_
  refine isUpFrom_known_iff fun hat => ?_
  rw [h.isFile_iff.2 ⟨entry, hentry, hat⟩] at hfile
  cases hfile

end Holds

end Memory

/-- Files answer as the tree that entries make up. -/
structure IsTreeOf (files : FileSystem) (entries : List (Text × Entry)) : Prop where
  isFile_iff : ∀ path, files.isFile path ↔
    ∃ entry ∈ entries, Memory.IsFileAt (Path.normalize path) entry
  isDirectory_iff : ∀ path, files.isDirectory path ↔ ¬files.isFile path ∧
    ∃ entry ∈ entries, Memory.IsDirectoryAt (Path.normalize path) entry
  not_both : ∀ path, ¬(files.isFile path ∧ files.isDirectory path)
  readBytes_of_isLastFile : ∀ path length octets,
    Memory.IsLastFile entries (Path.normalize path) octets ->
      files.readBytes path length = .ok (Memory.leading octets length)
  readBytes_returns_iff : ∀ path length,
    (∃ octets, files.readBytes path length = .ok octets) ↔ files.isFile path
  readBytes_isDirectory_iff : ∀ path length,
    files.readBytes path length = .error (.isDirectory path) ↔ files.isDirectory path
  readBytes_notFound_iff : ∀ path length,
    files.readBytes path length = .error (.notFound path) ↔
      ¬files.isFile path ∧ ¬files.isDirectory path
  readText_iff : ∀ path text, files.readText path = .ok text ↔
    Memory.IsLastFile entries (Path.normalize path) (Text.Utf8.encode text)
  readText_notUtf8_iff : ∀ path, files.readText path = .error .notUtf8 ↔
    ∃ octets, Memory.IsLastFile entries (Path.normalize path) octets ∧
      ∀ text, octets ≠ Text.Utf8.encode text
  readText_isDirectory_iff : ∀ path,
    files.readText path = .error (.isDirectory path) ↔ files.isDirectory path
  readText_notFound_iff : ∀ path, files.readText path = .error (.notFound path) ↔
    ¬files.isFile path ∧ ¬files.isDirectory path

namespace Memory

variable {memory : Memory} {entries : List (Text × Entry)}

theorem Holds.isTreeOf (h : Holds memory entries) : IsTreeOf memory.toFileSystem entries where
  isFile_iff _ := h.isFile_iff
  isDirectory_iff _ := h.isDirectory_iff
  not_both _ := fun ⟨hfile, hdirectory⟩ => not_isDirectory_of_isFile hfile hdirectory
  readBytes_of_isLastFile path length octets hlast := by
    have hread := read_eq_ok_iff.2 (h.octets?_eq_some_iff.2 hlast)
    rw [readBytes_eq, hread]
    rfl
  readBytes_returns_iff _ _ := readBytes_returns_iff
  readBytes_isDirectory_iff _ _ := readBytes_eq_error_iff.trans read_isDirectory_iff
  readBytes_notFound_iff _ _ := readBytes_eq_error_iff.trans read_notFound_iff
  readText_iff _ _ := readText_eq_ok_iff.trans h.octets?_eq_some_iff
  readText_notUtf8_iff _ := readText_eq_notUtf8_iff.trans
    (exists_congr fun _ => and_congr_left fun _ => h.octets?_eq_some_iff)
  readText_isDirectory_iff _ := (readText_eq_error_iff (by simp)).trans read_isDirectory_iff
  readText_notFound_iff _ := (readText_eq_error_iff (by simp)).trans read_notFound_iff

theorem toFileSystem_ofEntries_perm {others : List (Text × Entry)} (hperm : others.Perm entries)
    (h : AreApart entries) :
    (ofEntries others).toFileSystem = (ofEntries entries).toFileSystem := by
  refine toFileSystem_congr (fun path => Option.ext fun octets => ?_) fun place => ?_
  · rw [(holds_ofEntries others).octets?_eq_some_iff, (holds_ofEntries entries).octets?_eq_some_iff,
      isLastFile_iff_mem (h.perm hperm.symm), isLastFile_iff_mem h]
    simp only [hperm.mem_iff]
  · rw [(holds_ofEntries others).mem_directories, (holds_ofEntries entries).mem_directories]
    simp only [hperm.mem_iff]

/-- Files in memory answer as the tree that their entries make up.  If no two files have the same
place, then the order of the entries makes no difference. -/
theorem ofEntries_isTreeOf (entries : List (Text × Entry)) :
    IsTreeOf (ofEntries entries).toFileSystem entries ∧
      ∀ others : List (Text × Entry), others.Perm entries -> AreApart entries ->
        (ofEntries others).toFileSystem = (ofEntries entries).toFileSystem :=
  ⟨(holds_ofEntries entries).isTreeOf, fun _ => toFileSystem_ofEntries_perm⟩

/-- A file may take the place of a directory, before it or after it. -/
theorem ofEntries_isTreeOf_swap :
    (ofEntries [("/a/.".toList, .directory), ("/a".toList, .ofText "b".toList)]).toFileSystem =
      (ofEntries [("/a".toList, .ofText "b".toList), ("/a/.".toList, .directory)]).toFileSystem :=
  (ofEntries_isTreeOf _).2 _ (List.Perm.swap _ _ _) (by simp [AreApart, IsFileAt])

end Memory

end FileSystem

end ModuleResolution
