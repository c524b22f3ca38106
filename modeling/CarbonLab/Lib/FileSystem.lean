import CarbonLab.Lib.Bytes
import CarbonLab.Lib.Program
import Mathlib.Data.List.AList
import Mathlib.Data.List.Infix

/-!
# A file system

Files and directories under one root, and the system calls that programs make.  There
are no links: a path names one file or directory.
-/

namespace CarbonLab

/-- A path below the root. -/
abbrev Path := List Text

/-- What a path names. -/
inductive Node
  | file (contents : Bytes)
  | dir
  deriving DecidableEq, Repr

/-- The files and directories below the root; each stands in a directory. -/
structure FileSystem where
  nodes : AList fun _ : Path => Node
  rooted : ∀ path, (nodes.lookup path).isSome →
    path ≠ [] ∧ (path.dropLast = [] ∨ nodes.lookup path.dropLast = some .dir)

namespace FileSystem

variable (files : FileSystem) (path : Path)

/-- Nothing below the root. -/
def empty : FileSystem := ⟨∅, fun path there => by simp at there⟩

/-- What a path names, below the root. -/
def lookup : Option Node := files.nodes.lookup path

/-- The paths below the root. -/
def keys : List Path := files.nodes.keys

/-- The contents of a file. -/
def contents? : Option Bytes :=
  match files.lookup path with
  | some (.file contents) => some contents
  | _ => none

/-- `path.exists()` -/
def exists? : Bool := path = [] || (files.lookup path).isSome

/-- `path.is_dir()`; the root is always there. -/
def isDir : Bool := path = [] || files.lookup path = some .dir

/-- `path.is_file()` -/
def isFile : Bool := (files.contents? path).isSome

/-- The names in a directory. -/
def names : List Text :=
  files.keys.filterMap fun entry =>
    if entry.dropLast = path then entry.getLast? else none

/-- Nothing is in a directory. -/
def isEmpty : Bool := files.names path = []

/-- A directory above the path is a file. -/
def underFile : Bool := path.dropLast.inits.any files.isFile

variable {files path} {name : Text}

theorem isDir_iff : files.isDir path = true ↔ path = [] ∨ files.lookup path = some .dir := by
  rw [isDir, Bool.or_eq_true, decide_eq_true_eq, decide_eq_true_eq]

/-- What stands somewhere stands in a directory. -/
theorem isDir_dropLast (there : (files.lookup path).isSome) :
    files.isDir path.dropLast = true :=
  isDir_iff.mpr (files.rooted path there).2

/-- What is above a directory is a directory. -/
theorem isDir_of_prefix {above : Path} (directory : files.isDir path = true)
    (prefixed : above <+: path) : files.isDir above = true := by
  induction path using List.reverseRecOn with
  | nil =>
      rw [List.prefix_nil.mp prefixed]
      rfl
  | append_singleton front last ih =>
      rcases List.prefix_concat_iff.mp prefixed with rfl | shorter
      · exact directory
      · refine ih ?_ shorter
        have there : files.lookup (front ++ [last]) = some .dir :=
          (isDir_iff.mp directory).resolve_left (by simp)
        rw [← show (front ++ [last]).dropLast = front from List.dropLast_concat]
        exact isDir_dropLast (by rw [there]; rfl)

/-- No directory above the path is a file. -/
def Clear (files : FileSystem) (path : Path) : Prop :=
  ∀ above, above <+: path.dropLast → files.isFile above = false

theorem underFile_eq_false : files.underFile path = false ↔ files.Clear path := by
  rw [FileSystem.underFile, List.any_eq_false, Clear]
  simp only [List.mem_inits, Bool.not_eq_true]

theorem Clear.underFile (clear : files.Clear path) : files.underFile path = false :=
  underFile_eq_false.mpr clear

theorem isFile_of_lookup {contents : Bytes} (file : files.lookup path = some (.file contents)) :
    files.isFile path = true := by
  rw [isFile, contents?, file]
  rfl

theorem isFile_eq_false : files.isFile path = false ↔
    files.lookup path = none ∨ files.lookup path = some .dir := by
  unfold isFile contents?
  rcases files.lookup path with _ | _ | _ <;> simp

theorem lookup_root : files.lookup [] = none := by
  by_contra there
  rw [← ne_eq, Option.ne_none_iff_isSome] at there
  exact (files.rooted [] there).1 rfl

theorem mem_names : name ∈ files.names path ↔ (files.lookup (path ++ [name])).isSome := by
  rw [lookup, AList.lookup_isSome, AList.mem_keys, names, keys, List.mem_filterMap]
  constructor
  · rintro ⟨entry, member, is⟩
    split at is
    · next parent =>
        obtain ⟨front, rfl⟩ := List.getLast?_eq_some_iff.mp is
        rw [List.dropLast_concat] at parent
        exact parent ▸ member
    · cases is
  · intro member
    exact ⟨path ++ [name], member, by simp⟩

/-- A directory has each of its names once. -/
theorem nodup_names (files : FileSystem) (path : Path) : (files.names path).Nodup := by
  refine List.Nodup.filterMap ?_ files.nodes.nodupKeys
  intro first second name here there
  rw [Option.mem_def] at here there
  split at here
  · next parent =>
      split at there
      · next other =>
          obtain ⟨front, rfl⟩ := List.getLast?_eq_some_iff.mp here
          obtain ⟨back, rfl⟩ := List.getLast?_eq_some_iff.mp there
          rw [List.dropLast_concat] at parent other
          rw [parent, other]
      · cases there
  · cases here

theorem isEmpty_iff : files.isEmpty path = true ↔ ∀ name, files.lookup (path ++ [name]) = none := by
  rw [isEmpty, decide_eq_true_eq, List.eq_nil_iff_forall_not_mem]
  refine forall_congr' fun name => ?_
  rw [mem_names, Option.not_isSome_iff_eq_none]

/-- A file is no directory. -/
theorem isDir_of_isFile (file : files.isFile path = true) : files.isDir path = false := by
  rw [← Bool.not_eq_true, isDir_iff]
  rintro (root | directory)
  · rw [isFile, contents?, root, lookup_root] at file
    cases file
  · rw [isFile, contents?, directory] at file
    cases file

/-! ### Changes -/

/-- A file or a directory at a path of a directory; no file takes a directory's place. -/
def put (files : FileSystem) (path : Path) (node : Node) (below : path ≠ [])
    (parent : files.isDir path.dropLast = true)
    (leaf : node = .dir ∨ files.lookup path ≠ some .dir) : FileSystem where
  nodes := files.nodes.insert path node
  rooted other there := by
    have kept (above : Path) (is : files.isDir above = true) :
        above = [] ∨ (files.nodes.insert path node).lookup above = some .dir := by
      by_cases same : above = path
      · subst same
        rw [AList.lookup_insert]
        rcases leaf with rfl | free
        · exact Or.inr rfl
        · exact Or.inl ((isDir_iff.mp is).resolve_right free)
      · rw [AList.lookup_insert_ne same]
        exact isDir_iff.mp is
    by_cases same : other = path
    · subst same
      exact ⟨below, kept _ parent⟩
    · rw [AList.lookup_insert_ne same] at there
      exact ⟨(files.rooted other there).1, kept _ (isDir_dropLast there)⟩

/-- Without a path that is no directory, or an empty one. -/
def remove (files : FileSystem) (path : Path)
    (leaf : files.lookup path ≠ some .dir ∨ files.isEmpty path = true) : FileSystem where
  nodes := files.nodes.erase path
  rooted other there := by
    have different : other ≠ path := by
      rintro rfl
      simp at there
    rw [AList.lookup_erase_ne different] at there
    refine ⟨(files.rooted other there).1, ?_⟩
    rcases (files.rooted other there).2 with top | parent
    · exact Or.inl top
    · by_cases same : other.dropLast = path
      · rcases leaf with file | bare
        · exact absurd (same ▸ parent) file
        · have absent := isEmpty_iff.mp bare (other.getLast (files.rooted other there).1)
          rw [← same, List.dropLast_append_getLast] at absent
          rw [show files.nodes.lookup other = none from absent] at there
          cases there
      · rw [AList.lookup_erase_ne same]
        exact Or.inr parent

section

variable {node : Node} {other : Path}

theorem lookup_put {below : path ≠ []} {parent : files.isDir path.dropLast = true}
    {leaf : node = .dir ∨ files.lookup path ≠ some .dir} :
    (files.put path node below parent leaf).lookup other =
      if other = path then some node else files.lookup other := by
  by_cases same : other = path
  · subst same
    simp [put, lookup]
  · rw [if_neg same]
    exact AList.lookup_insert_ne same

theorem lookup_remove {leaf : files.lookup path ≠ some .dir ∨ files.isEmpty path = true} :
    (files.remove path leaf).lookup other = if other = path then none else files.lookup other := by
  by_cases same : other = path
  · subst same
    simp [remove, lookup]
  · rw [if_neg same]
    exact AList.lookup_erase_ne same

theorem isDir_remove_of_ne {leaf : files.lookup path ≠ some .dir ∨ files.isEmpty path = true}
    (different : other ≠ path) : (files.remove path leaf).isDir other = files.isDir other := by
  rw [isDir, isDir, lookup_remove, if_neg different]

end

/-- Other contents in a file. -/
def rewrite (files : FileSystem) (path : Path) (contents : Bytes) {before : Bytes}
    (file : files.lookup path = some (.file before)) : FileSystem :=
  have there : (files.lookup path).isSome := by simp [file]
  files.put path (.file contents) (files.rooted path there).1 (isDir_dropLast there)
    (Or.inr (by simp [file]))

/-- A file at another path. -/
def rename (files : FileSystem) (source target : Path) (contents : Bytes)
    (file : files.lookup source = some (.file contents))
    (fits : target ≠ [] ∧ files.isDir target.dropLast = true ∧ files.lookup target ≠ some .dir) :
    FileSystem :=
  (files.remove source (Or.inl (by simp [file]))).put target (.file contents) fits.1
    (by
      rw [isDir_remove_of_ne]
      · exact fits.2.1
      · intro same
        have directory := fits.2.1
        rw [same, isDir_iff, file] at directory
        exact (files.rooted source (by rw [← lookup, file]; rfl)).1
          (directory.resolve_right nofun))
    (Or.inr (by
      rw [lookup_remove]
      split
      · simp
      · exact fits.2.2))

section

variable {contents before : Bytes} {source target other : Path}

theorem lookup_rewrite {file : files.lookup path = some (.file before)} :
    (files.rewrite path contents file).lookup other =
      if other = path then some (.file contents) else files.lookup other := by
  rw [rewrite, lookup_put]

theorem lookup_rename {file : files.lookup source = some (.file contents)}
    {fits : target ≠ [] ∧ files.isDir target.dropLast = true ∧
      files.lookup target ≠ some .dir} :
    (files.rename source target contents file fits).lookup other =
      if other = target then some (.file contents)
      else if other = source then none else files.lookup other := by
  rw [rename, lookup_put, lookup_remove]

end

/-- The files and directories of a list, without those that have no place. -/
def ofList : List (Path × Node) → FileSystem
  | [] => empty
  | (path, node) :: rest =>
      let files := ofList rest
      if fits : path ≠ [] ∧ files.isDir path.dropLast = true ∧ files.lookup path ≠ some .dir then
        files.put path node fits.1 fits.2.1 (Or.inr fits.2.2)
      else files

end FileSystem

/-! ## System calls -/

/-- What an `OSError` says. -/
inductive OsError
  | fileNotFound
  | fileExists
  | isADirectory
  | notADirectory
  | notEmpty
  deriving DecidableEq, Repr

/-- What a program reads from its host that the files do not determine: the clock, new
identifiers and the names of temporary files.  Each is taken at a tick of its own. -/
structure Entropy where
  now : ℕ → Text
  uuid : ℕ → Text
  /-- The random part of a temporary name. -/
  temporary : ℕ → FileSystem → Path → Text → Text
  /-- A temporary file is a new one. -/
  temporary_fresh : ∀ (tick : ℕ) (files : FileSystem) (directory : Path) (stem : Text),
    files.lookup (directory ++ [stem ++ temporary tick files directory stem ++ text ".tmp"]) = none

/-- The files and the ticks that were taken. -/
structure Disk where
  files : FileSystem
  ticks : ℕ

/-- The system calls. -/
inductive FileCall
  /-- The files as they are now; a program reads one path of them at a time. -/
  | look
  | mkdir (path : Path)
  | rmdir (path : Path)
  | unlink (path : Path)
  /-- `tempfile.mkstemp(prefix=stem, suffix=".tmp", dir=directory)` -/
  | mkstemp (directory : Path) (stem : Text)
  /-- `os.open` with `O_CREAT`, and with `O_EXCL` or not. -/
  | create (path : Path) (exclusive : Bool)
  /-- One byte at the end of an open file. -/
  | append (path : Path) (byte : UInt8)
  /-- The contents of an open file that was just created. -/
  | write (path : Path) (contents : Bytes)
  /-- `os.replace` -/
  | replace (source target : Path)
  | now
  | uuid

/-- What a system call returns. -/
def FileCall.Reply : FileCall → Type
  | .look => FileSystem
  | .mkstemp _ _ => Except OsError Path
  | .now | .uuid => Text
  | _ => Except OsError Unit

namespace Disk

variable (entropy : Entropy)

/-- What does not exist is not the root. -/
theorem ne_root {files : FileSystem} {path : Path} (absent : ¬ files.exists? path = true) :
    path ≠ [] := by
  rintro rfl
  exact absent rfl

/-- The disk with other files. -/
def withFiles (disk : Disk) (files : FileSystem) : Disk := { disk with files }

/-- The disk at the next tick. -/
def tick (disk : Disk) : Disk := { disk with ticks := disk.ticks + 1 }

/-- The error of a path whose directory is not there. -/
def missing (disk : Disk) (path : Path) : OsError :=
  if disk.files.underFile path then .notADirectory else .fileNotFound

/-- Serve a system call. -/
def serve : (call : FileCall) → Disk → call.Reply × Disk
  | .look, disk => (disk.files, disk)
  | .mkdir path, disk =>
      if there : disk.files.exists? path = true then (.error .fileExists, disk)
      else if parent : disk.files.isDir path.dropLast = true then
        (.ok (), disk.withFiles (disk.files.put path .dir (ne_root there) parent (Or.inl rfl)))
      else (.error (disk.missing path), disk)
  | .rmdir path, disk =>
      match disk.files.lookup path with
      | some .dir =>
          if bare : disk.files.isEmpty path = true then
            (.ok (), disk.withFiles (disk.files.remove path (Or.inr bare)))
          else (.error .notEmpty, disk)
      | some (.file _) => (.error .notADirectory, disk)
      | none => (.error (disk.missing path), disk)
  | .unlink path, disk =>
      match file : disk.files.lookup path with
      | some (.file _) =>
          (.ok (), disk.withFiles (disk.files.remove path (Or.inl (by simp [file]))))
      | some .dir => (.error .isADirectory, disk)
      | none => (.error (disk.missing path), disk)
  | .mkstemp directory stem, disk =>
      let path := directory ++
        [stem ++ entropy.temporary disk.ticks disk.files directory stem ++ text ".tmp"]
      if parent : disk.files.isDir directory = true then
        (.ok path, (disk.withFiles (disk.files.put path (.file []) (by simp [path])
          (by simpa [path] using parent)
          (Or.inr (by rw [entropy.temporary_fresh]; nofun)))).tick)
      else (.error (disk.missing path), disk)
  | .create path exclusive, disk =>
      match absent : disk.files.lookup path with
      | some (.file _) => if exclusive then (.error .fileExists, disk) else (.ok (), disk)
      | some .dir => (.error .isADirectory, disk)
      | none =>
          if fits : path ≠ [] ∧ disk.files.isDir path.dropLast = true then
            (.ok (), disk.withFiles (disk.files.put path (.file []) fits.1 fits.2
              (Or.inr (by simp [absent]))))
          else (.error (disk.missing path), disk)
  | .append path byte, disk =>
      match file : disk.files.lookup path with
      | some (.file contents) =>
          (.ok (), disk.withFiles (disk.files.rewrite path (contents ++ [byte]) file))
      | some .dir => (.error .isADirectory, disk)
      | none => (.error (disk.missing path), disk)
  | .write path contents, disk =>
      match file : disk.files.lookup path with
      | some (.file _) => (.ok (), disk.withFiles (disk.files.rewrite path contents file))
      | some .dir => (.error .isADirectory, disk)
      | none => (.error (disk.missing path), disk)
  | .replace source target, disk =>
      match file : disk.files.lookup source with
      | some (.file contents) =>
          if fits : target ≠ [] ∧ disk.files.isDir target.dropLast = true ∧
              disk.files.lookup target ≠ some .dir then
            (.ok (), disk.withFiles (disk.files.rename source target contents file fits))
          else if disk.files.isDir target then (.error .isADirectory, disk)
          else (.error (disk.missing target), disk)
      | some .dir => (.error .isADirectory, disk)
      | none => (.error (disk.missing source), disk)
  | .now, disk => (entropy.now disk.ticks, disk.tick)
  | .uuid, disk => (entropy.uuid disk.ticks, disk.tick)

end Disk

end CarbonLab
