import CarbonLab.Aegis.Dynamic
import CarbonLab.Aegis.WriteScope

/-!
# Writing control files

`atomic.py` with the checks of `security.py` and `governance.py` that it makes: paths
confined to the project, a temporary file that takes the place of its target, and durable
removal.  Paths are the parts below the resolved project root; permission bits are left
out, but for what `os.chmod` does not take.
-/

namespace CarbonLab.Aegis

/-- `raise SecurityError(message)` -/
def securityError (message : Text) : Raised := ⟨.securityError, message⟩

/-- `raise AtomicWriteError(message)` -/
def atomicWriteError (message : Text) : Raised := ⟨.atomicWriteError, message⟩

/-- A name that no file can have. -/
def embeddedNull : Raised := valueError "embedded null byte"

/-! ## Paths -/

/-- A name that the file system encodes: without a null, and without surrogates but for
those that stand for bytes. -/
def encodable (name : Text) : Bool :=
  name.all fun letter => letter.val ≠ 0 &&
    (letter.val < 0xd800 || 0xdfff < letter.val || (0xdc80 ≤ letter.val && letter.val ≤ 0xdcff))

/-- What `assert_mutation_allowed` denies: the deployed governance and the files that
instruct agents. -/
def governed (path : Path) : Bool :=
  path.head? = some (text ".agents") || path.getLast? = some (text "AGENTS.md")

/-- Paths that Aegis may change. -/
def Writable (path : Path) : Prop :=
  path ≠ [] ∧ governed path = false ∧ ∀ name ∈ path, encodable name = true

instance : DecidablePred Writable := fun path =>
  inferInstanceAs (Decidable (path ≠ [] ∧ governed path = false ∧
    ∀ name ∈ path, encodable name = true))

/-- A project and the process that works on it. -/
structure Project where
  host : Host
  /-- The parts of the resolved root. -/
  root : Path
  /-- The parts of the working directory. -/
  cwd : Path

namespace Project

variable (project : Project)

/-- `str(path)` of a path below the root. -/
def pathText (path : Path) : Text := text "/" ++ joinParts (project.root ++ path)

/-- `Path(value).resolve()`, where no link stands. -/
def resolve (value : Text) : Except Raised Path := do
  let parts := pathParts value
  require (∀ part ∈ parts, encodable part = true) embeddedNull
  let start := if value.head? = some (code '/') then [] else project.cwd
  return parts.foldl
    (fun path part => if part = text ".." then path.dropLast else path ++ [part]) start

/-- `confined_path`, as a path below the root. -/
def confinedPath (value : Text) : Except Raised Path := do
  let parts := pathParts value
  require (text ".." ∉ parts)
    (securityError (text "parent traversal is not allowed: " ++ value))
  require (∀ part ∈ parts.dropLast, encodable part = true) embeddedNull
  let absolute := value.head? = some (code '/')
  require (absolute → project.root <+: parts) (securityError
    (text "path escapes root " ++ project.pathText [] ++ text ": " ++ value))
  let relative := if absolute then parts.drop project.root.length else parts
  require (relative ≠ []) (securityError "root itself is not a valid confined child path")
  return relative

/-- `assert_mutation_allowed` -/
def assertMutationAllowed (path : Path) : Except Raised Unit := do
  require (path.head? ≠ some (text ".agents")) (runtimeError
    (text "AEGIS-I001: deployed .agents governance is immutable: " ++ project.pathText path))
  require (path.getLast? ≠ some (text "AGENTS.md")) (runtimeError
    (text "AEGIS-I001: governing instruction file is immutable: " ++ project.pathText path))
  require (∀ name ∈ path, encodable name = true) embeddedNull

/-- `_assert_confined` -/
def assertConfined (path : Path) : Except Raised Unit := do
  require (∀ name ∈ path.dropLast, encodable name = true) embeddedNull
  match project.assertMutationAllowed path with
  | .error ⟨.runtimeError, message⟩ => .error (atomicWriteError message)
  | outcome => outcome

variable {project} {path : Path}

/-- A path that Aegis may change is let through. -/
theorem assertConfined_ok (writable : Writable path) :
    project.assertConfined path = .ok () := by
  obtain ⟨_, free, names⟩ := writable
  simp only [governed, Bool.or_eq_false_iff, decide_eq_false_iff_not] at free
  have allowed : project.assertMutationAllowed path = .ok () := by
    unfold assertMutationAllowed
    rw [require, if_pos free.1, ok_bind, require, if_pos free.2, ok_bind, require, if_pos names]
  have parents : ∀ name ∈ path.dropLast, encodable name = true :=
    fun name member => names name (List.dropLast_subset path member)
  rw [assertConfined, require, if_pos parents, ok_bind, allowed]

end Project

/-! ## Programs -/

/-- A program that makes system calls. -/
abbrev FileProgram (α : Type) := Program FileCall FileCall.Reply Raised α

namespace FileProgram

variable {α : Type}

/-- A step that reads nothing. -/
def ofExcept : Except Raised α → FileProgram α
  | .ok value => .pure value
  | .error raised => .raise raised

/-- What a system call gives. -/
def reply : Except OsError α → FileProgram α
  | .ok value => .pure value
  | .error error => .raise (osError error)

/-- The files as they are now. -/
def look : FileProgram FileSystem := .act .look .pure

/-- `path.exists()`; what cannot be named is not there. -/
def pathExists (path : Path) : FileProgram Bool :=
  .act .look fun files => .pure (path.all encodable && files.exists? path)

/-- `path.is_dir()` -/
def isDir (path : Path) : FileProgram Bool := .act .look fun files => .pure (files.isDir path)

/-- `path.read_bytes()` -/
def readBytes (path : Path) : FileProgram Bytes :=
  .act .look fun files =>
    match files.contents? path with
    | some contents => .pure contents
    | none => .raise (osError (if files.isDir path then .isADirectory
        else if files.underFile path then .notADirectory else .fileNotFound))

/-- `_read` -/
def read (path : Path) : FileProgram (Option Bytes) := do
  if ← pathExists path then some <$> readBytes path else return none

/-- `datetime.now(timezone.utc).isoformat()` -/
def now : FileProgram Text := .act .now .pure

/-- `os.unlink` -/
def unlink (path : Path) : FileProgram Unit := .act (.unlink path) reply

/-- `path.unlink(missing_ok=True)` -/
def unlinkMissing (path : Path) : FileProgram Unit :=
  .act (.unlink path) fun answer =>
    match answer with
    | .error .fileNotFound => .pure ()
    | answer => reply answer

/-- `path.rmdir()` -/
def rmdir (path : Path) : FileProgram Unit := .act (.rmdir path) reply

/-- `path.mkdir(exist_ok=True)` -/
def mkdirExisting (path : Path) : FileProgram Unit :=
  .act (.mkdir path) fun answer =>
    match answer with
    | .ok () => .pure ()
    | .error .fileNotFound => .raise (osError .fileNotFound)
    | .error error => do if ← isDir path then .pure () else .raise (osError error)

/-- `path.mkdir(parents=True, exist_ok=True)` of a path's names, the last one first. -/
def mkdirUp : List Text → FileProgram Unit
  | [] => mkdirExisting []
  | name :: above =>
      .act (.mkdir (name :: above).reverse) fun answer =>
        match answer with
        | .ok () => .pure ()
        | .error .fileNotFound => do
            mkdirUp above
            mkdirExisting (name :: above).reverse
        | .error error => do
            if ← isDir (name :: above).reverse then .pure () else .raise (osError error)

/-- `path.mkdir(parents=True, exist_ok=True)` -/
def mkdirParents (path : Path) : FileProgram Unit := mkdirUp path.reverse

end FileProgram

/-- `os.chmod(path, mode)` takes an integer that a C `int` holds; `None` stands for the
bits that are kept. -/
def checkMode : Json → Except Raised Unit
  | .null | .bool _ => .ok ()
  | .int mode =>
      if mode < -2147483648 then
        .error ⟨.overflowError, "signed integer is less than minimum"⟩
      else if 2147483647 < mode then
        .error ⟨.overflowError, "signed integer is greater than maximum"⟩
      else .ok ()
  | .float _ => .error ⟨.typeError, "'float' object cannot be interpreted as an integer"⟩
  | .str _ => .error ⟨.typeError, "'str' object cannot be interpreted as an integer"⟩
  | .arr _ => .error ⟨.typeError, "'list' object cannot be interpreted as an integer"⟩
  | .obj _ => .error ⟨.typeError, "'dict' object cannot be interpreted as an integer"⟩

namespace Project

open FileProgram

variable (project : Project)

/-- The temporary file of `atomic_write_bytes`, from `os.chmod` on. -/
def fillTemporary (temporary path : Path) (data : Bytes) (mode : Json) : FileProgram Unit := do
  FileProgram.ofExcept (checkMode mode)
  .act (.write temporary data) reply
  .act (.replace temporary path) reply

/-- `atomic_write_bytes` -/
def atomicWriteBytes (path : Path) (data : Bytes) (mode : Json) : FileProgram Unit := do
  FileProgram.ofExcept (project.assertConfined path)
  mkdirParents path.dropLast
  FileProgram.ofExcept (project.assertConfined path)
  let temporary ← .act
    (.mkstemp path.dropLast (text "." ++ path.getLast?.getD [] ++ text ".")) reply
  (fillTemporary temporary path data mode).tryCatch fun raised => do
    unlinkMissing temporary
    unlinkMissing temporary
    .raise raised

/-- `atomic_write_json` with mode `0o600` -/
def atomicWriteJson (path : Path) (value : Json) : FileProgram Unit :=
  project.atomicWriteBytes path (jsonLine project.host.floats .indented value) (.int 0o600)

/-- `durable_unlink` -/
def durableUnlink (path : Path) (missingOk : Bool) : FileProgram Unit := do
  FileProgram.ofExcept (project.assertConfined path)
  if missingOk then unlinkMissing path else unlink path

end Project

/-! ## What the programs leave -/

/-- The files after one of them is written, with the directories above it. -/
def Written (before : FileSystem) (path : Path) (data : Bytes) (after : FileSystem) : Prop :=
  ∀ other, after.lookup other =
    if other = path then some (.file data)
    else if other ≠ [] ∧ other <+: path.dropLast then some .dir
    else before.lookup other

/-- The files after one of them is removed. -/
def Removed (before : FileSystem) (path : Path) (after : FileSystem) : Prop :=
  ∀ other, after.lookup other = if other = path then none else before.lookup other

section

variable (entropy : Entropy) {disk : Disk} {path : Path}

open FileProgram

theorem run_ofExcept {α : Type} (value : α) :
    (FileProgram.ofExcept (.ok value)).run (Disk.serve entropy) disk = (.ok value, disk) := rfl

theorem run_look {α : Type} (next : FileSystem → FileProgram α) :
    (Program.act .look next : FileProgram α).run (Disk.serve entropy) disk =
      (next disk.files).run (Disk.serve entropy) disk := rfl

/-- What `_read` gives. -/
def readOutcome (files : FileSystem) (path : Path) : Except Raised (Option Bytes) :=
  if path.all encodable && files.exists? path then
    match files.contents? path with
    | some contents => .ok (some contents)
    | none => .error (osError (if files.isDir path then .isADirectory
        else if files.underFile path then .notADirectory else .fileNotFound))
  else .ok none

theorem run_read : (FileProgram.read path).run (Disk.serve entropy) disk =
    (readOutcome disk.files path, disk) := by
  have looked : (pathExists path).run (Disk.serve entropy) disk =
      (.ok (path.all encodable && disk.files.exists? path), disk) := rfl
  unfold FileProgram.read readOutcome
  refine (Program.run_bind_ok looked).trans ?_
  split
  · cases is : disk.files.contents? path with
    | some contents =>
        have given : (readBytes path).run (Disk.serve entropy) disk = (.ok contents, disk) := by
          refine (run_look entropy _).trans ?_
          rw [is]
          rfl
        exact Program.run_bind_ok given
    | none =>
        refine Program.run_bind_error ?_
        refine (run_look entropy _).trans ?_
        rw [is]
        rfl
  · rfl

/-- A directory that is there, or whose directory is there, is made. -/
theorem run_mkdirExisting (file : disk.files.isFile path = false)
    (parent : disk.files.isDir path.dropLast = true) :
    ∃ after, (mkdirExisting path).run (Disk.serve entropy) disk = (.ok (), after) ∧
      ∀ other, after.files.lookup other =
        if other ≠ [] ∧ other = path then some .dir else disk.files.lookup other := by
  by_cases there : disk.files.exists? path = true
  · have directory : disk.files.isDir path = true := by
      rw [FileSystem.isDir_iff]
      simp only [FileSystem.exists?, Bool.or_eq_true, decide_eq_true_eq] at there
      rcases there with root | named
      · exact Or.inl root
      · rcases FileSystem.isFile_eq_false.mp file with absent | directory
        · rw [absent] at named
          cases named
        · exact Or.inr directory
    refine ⟨disk, ?_, fun other => ?_⟩
    · unfold mkdirExisting
      rw [Program.run, Disk.serve, dif_pos there]
      dsimp only
      have looked : (isDir path).run (Disk.serve entropy) disk =
        (.ok (disk.files.isDir path), disk) := rfl
      rw [directory] at looked
      exact Program.run_bind_ok looked
    · split
      · next same =>
          obtain ⟨below, rfl⟩ := same
          exact (FileSystem.isDir_iff.mp directory).resolve_left below
      · rfl
  · refine ⟨disk.withFiles (disk.files.put path .dir (Disk.ne_root there) parent (Or.inl rfl)),
      ?_, fun other => ?_⟩
    · unfold mkdirExisting
      rw [Program.run, Disk.serve, dif_neg there, dif_pos parent]
      rfl
    · rw [Disk.withFiles, FileSystem.lookup_put]
      have below := Disk.ne_root there
      by_cases same : other = path
      · rw [if_pos same, if_pos ⟨same ▸ below, same⟩]
      · rw [if_neg same, if_neg (fun both => same both.2)]

/-- A directory and all that is above it are made. -/
theorem run_mkdirUp (names : List Text)
    (clear : ∀ above, above <+: names.reverse → disk.files.isFile above = false) :
    ∃ after, (mkdirUp names).run (Disk.serve entropy) disk = (.ok (), after) ∧
      ∀ other, after.files.lookup other =
        if other ≠ [] ∧ other <+: names.reverse then some .dir
        else disk.files.lookup other := by
  induction names with
  | nil =>
      obtain ⟨after, ran, files⟩ :=
        run_mkdirExisting entropy (clear [] List.prefix_rfl) rfl
      refine ⟨after, ran, fun other => (files other).trans ?_⟩
      simp only [List.reverse_nil, List.prefix_nil]
  | cons name above ih =>
      rw [List.reverse_cons] at clear ⊢
      have parentOf : (above.reverse ++ [name]).dropLast = above.reverse := List.dropLast_concat
      by_cases parent : disk.files.isDir above.reverse = true
      · obtain ⟨after, ran, files⟩ := run_mkdirExisting entropy
          (clear _ List.prefix_rfl) (parentOf.symm ▸ parent)
        refine ⟨after, ?_, fun other => (files other).trans ?_⟩
        · -- The outcomes differ for a missing parent only.
          rw [← ran]
          unfold mkdirUp mkdirExisting
          rw [Program.run, Program.run, List.reverse_cons]
          have answer : (Disk.serve entropy (.mkdir (above.reverse ++ [name])) disk).1 =
                .error .fileExists ∨
              (Disk.serve entropy (.mkdir (above.reverse ++ [name])) disk).1 = .ok () := by
            rw [Disk.serve]
            by_cases there : disk.files.exists? (above.reverse ++ [name]) = true
            · rw [dif_pos there]
              exact Or.inl rfl
            · rw [dif_neg there, dif_pos (parentOf.symm ▸ parent)]
              exact Or.inr rfl
          rcases answer with answer | answer
          · rw [answer]
          · rw [answer]
        · by_cases named : other ≠ [] ∧ other <+: above.reverse ++ [name]
          · rw [if_pos named]
            split
            · rfl
            · next different =>
                rcases List.prefix_concat_iff.mp named.2 with same | shorter
                · exact absurd ⟨named.1, same⟩ different
                · exact (FileSystem.isDir_iff.mp
                    (FileSystem.isDir_of_prefix parent shorter)).resolve_left named.1
          · rw [if_neg named, if_neg]
            rintro ⟨below, rfl⟩
            exact named ⟨below, List.prefix_rfl⟩
      · have absent : ¬ disk.files.exists? (above.reverse ++ [name]) = true := by
          intro there
          apply parent
          rw [← parentOf]
          apply FileSystem.isDir_dropLast
          simpa [FileSystem.exists?] using there
        have shorter (first : Path) (prefixed : first <+: above.reverse) :
            first <+: above.reverse ++ [name] := prefixed.trans (List.prefix_append _ _)
        have notUnder : disk.files.underFile (above.reverse ++ [name]) = false := by
          apply FileSystem.Clear.underFile
          intro first prefixed
          rw [parentOf] at prefixed
          exact clear first (shorter first prefixed)
        obtain ⟨middle, made, between⟩ := ih fun first prefixed => clear first (shorter first prefixed)
        have longer : ¬ above.reverse ++ [name] <+: above.reverse := by
          intro prefixed
          have length := prefixed.length_le
          rw [List.length_append, List.length_singleton] at length
          omega
        have stillAbsent : middle.files.lookup (above.reverse ++ [name]) =
            disk.files.lookup (above.reverse ++ [name]) := by
          rw [between, if_neg fun both => longer both.2]
        have parentThere : middle.files.isDir (above.reverse ++ [name]).dropLast = true := by
          rw [parentOf, FileSystem.isDir_iff, between]
          by_cases top : above.reverse = []
          · exact Or.inl top
          · rw [if_pos ⟨top, List.prefix_rfl⟩]
            exact Or.inr rfl
        have notFile : middle.files.isFile (above.reverse ++ [name]) = false := by
          rw [FileSystem.isFile, FileSystem.contents?, stillAbsent]
          exact clear _ List.prefix_rfl
        obtain ⟨after, ran, files⟩ :=
          run_mkdirExisting entropy notFile parentThere
        refine ⟨after, ?_, fun other => (files other).trans ?_⟩
        · unfold mkdirUp
          rw [Program.run, Disk.serve, List.reverse_cons, dif_neg absent,
            dif_neg (parentOf.symm ▸ parent), Disk.missing, notUnder]
          exact (Program.run_bind_ok made).trans ran
        · rw [between]
          simp only [List.prefix_concat_iff]
          by_cases same : other = above.reverse ++ [name]
          · subst same
            simp
          · simp [same]

/-- A directory and all that is above it are made. -/
theorem run_mkdirParents (clear : ∀ above, above <+: path → disk.files.isFile above = false) :
    ∃ after, (mkdirParents path).run (Disk.serve entropy) disk = (.ok (), after) ∧
      ∀ other, after.files.lookup other =
        if other ≠ [] ∧ other <+: path then some .dir else disk.files.lookup other := by
  have made := run_mkdirUp entropy path.reverse (by rwa [List.reverse_reverse])
  rwa [List.reverse_reverse] at made

/-- A temporary file takes the place of its target. -/
theorem run_fillTemporary (data : Bytes) {temporary : Path} {before : Bytes} {mode : Json}
    (bits : checkMode mode = .ok ())
    (file : disk.files.lookup temporary = some (.file before))
    (fits : path ≠ [] ∧ disk.files.isDir path.dropLast = true ∧
      disk.files.lookup path ≠ some .dir) :
    ∃ after, (Project.fillTemporary temporary path data mode).run (Disk.serve entropy) disk =
        (.ok (), after) ∧
      ∀ other, after.files.lookup other =
        if other = path then some (.file data)
        else if other = temporary then none else disk.files.lookup other := by
  have filled : (disk.files.rewrite temporary data file).lookup temporary =
      some (.file data) := by
    rw [FileSystem.lookup_rewrite, if_pos rfl]
  have fitsStill : path ≠ [] ∧
      (disk.files.rewrite temporary data file).isDir path.dropLast = true ∧
      (disk.files.rewrite temporary data file).lookup path ≠ some .dir := by
    refine ⟨fits.1, ?_, ?_⟩
    · rw [FileSystem.isDir_iff, FileSystem.lookup_rewrite]
      split
      · next same =>
          have directory := FileSystem.isDir_iff.mp fits.2.1
          rw [same, file] at directory
          exact Or.inl (same.trans (directory.resolve_right (by simp)))
      · exact FileSystem.isDir_iff.mp fits.2.1
    · rw [FileSystem.lookup_rewrite]
      split
      · simp
      · exact fits.2.2
  refine ⟨disk.withFiles
    ((disk.files.rewrite temporary data file).rename temporary path data filled fitsStill),
    ?_, fun other => ?_⟩
  · have wrote : Disk.serve entropy (.write temporary data) disk =
        (.ok (), disk.withFiles (disk.files.rewrite temporary data file)) := by
      rw [Disk.serve]
      split
      · rfl
      · next is => cases file.symm.trans is
      · next is => cases file.symm.trans is
    have renamed : Disk.serve entropy (.replace temporary path)
          (disk.withFiles (disk.files.rewrite temporary data file)) =
        (.ok (), disk.withFiles
          ((disk.files.rewrite temporary data file).rename temporary path data filled
            fitsStill)) := by
      rw [Disk.serve]
      split
      · next contents is =>
          cases filled.symm.trans is
          exact dif_pos fitsStill
      · next is => cases filled.symm.trans is
      · next is => cases filled.symm.trans is
    unfold Project.fillTemporary
    rw [bits]
    refine (Program.run_bind_ok (run_ofExcept entropy ())).trans ?_
    refine (Program.run_bind_ok (Program.run_act wrote)).trans ?_
    exact Program.run_act renamed
  · rw [Disk.withFiles, FileSystem.lookup_rename, FileSystem.lookup_rewrite]
    split
    · rfl
    · split
      · rfl
      · rfl

/-- A file is written where no directory stands, under no file. -/
theorem run_atomicWriteBytes (project : Project) (data : Bytes) {mode : Json}
    (writable : Writable path) (bits : checkMode mode = .ok ())
    (clear : disk.files.Clear path) (free : disk.files.lookup path ≠ some .dir) :
    ∃ after, (project.atomicWriteBytes path data mode).run (Disk.serve entropy) disk =
        (.ok (), after) ∧ Written disk.files path data after.files := by
  obtain ⟨middle, made, between⟩ := run_mkdirParents entropy clear
  have parent : middle.files.isDir path.dropLast = true := by
    rw [FileSystem.isDir_iff, between]
    by_cases top : path.dropLast = []
    · exact Or.inl top
    · rw [if_pos ⟨top, List.prefix_rfl⟩]
      exact Or.inr rfl
  have notAbove : ¬ (path ≠ [] ∧ path <+: path.dropLast) := by
    rintro ⟨below, prefixed⟩
    have length := prefixed.length_le
    rw [List.length_dropLast] at length
    have long : 0 < path.length := List.length_pos_iff.mpr below
    omega
  have same : middle.files.lookup path = disk.files.lookup path := by
    rw [between, if_neg notAbove]
  generalize is : text "." ++ path.getLast?.getD [] ++ text "." = stem
  generalize named : path.dropLast ++
    [stem ++ entropy.temporary middle.ticks middle.files path.dropLast stem ++ text ".tmp"] =
      temporary
  have fresh : middle.files.lookup temporary = none := by
    rw [← named]
    exact entropy.temporary_fresh _ _ _ _
  have created : ∃ opened : Disk,
      Disk.serve entropy (.mkstemp path.dropLast stem) middle = (.ok temporary, opened) ∧
        ∀ other, opened.files.lookup other =
          if other = temporary then some (.file []) else middle.files.lookup other := by
    refine ⟨_, (dif_pos parent).trans (congrArg (fun path => (Except.ok path, _)) named),
      fun other => ?_⟩
    rw [Disk.tick, Disk.withFiles, FileSystem.lookup_put]
    simp only [named]
  obtain ⟨opened, created, opens⟩ := created
  have different : path ≠ temporary := by
    intro same
    have last := congrArg (fun path => (path.getLast?.getD []).length) named
    simp only [List.getLast?_append, List.getLast?_singleton, Option.some_or, Option.getD_some,
      ← same, ← is, List.length_append, text] at last
    simp at last
    omega
  have fits : path ≠ [] ∧ opened.files.isDir path.dropLast = true ∧
      opened.files.lookup path ≠ some .dir := by
    refine ⟨writable.1, ?_, ?_⟩
    · rw [FileSystem.isDir_iff, opens]
      split
      · next top =>
          rw [FileSystem.isDir_iff, top, fresh] at parent
          exact Or.inl (top.trans (parent.resolve_right (by simp)))
      · exact FileSystem.isDir_iff.mp parent
    · rw [opens, if_neg different, same]
      exact free
  obtain ⟨after, ran, files⟩ := run_fillTemporary entropy data bits
    (by rw [opens, if_pos rfl]) fits
  refine ⟨after, ?_, fun other => ?_⟩
  · unfold Project.atomicWriteBytes
    rw [Project.assertConfined_ok writable]
    refine (Program.run_bind_ok (run_ofExcept entropy ())).trans ?_
    refine (Program.run_bind_ok made).trans ?_
    refine (Program.run_bind_ok (run_ofExcept entropy ())).trans ?_
    rw [is]
    refine (Program.run_bind_ok (Program.run_act created)).trans ?_
    refine (Program.run_tryCatch _ _).trans ?_
    rw [ran]
  · rw [files, opens, between]
    by_cases target : other = path
    · rw [if_pos target, if_pos target]
    · rw [if_neg target, if_neg target]
      by_cases temp : other = temporary
      · rw [if_pos temp]
        exact (temp ▸ fresh).symm.trans (between other)
      · rw [if_neg temp, if_neg temp]

/-- A file is removed, or it was not there. -/
theorem run_durableUnlink (project : Project) (writable : Writable path)
    (clear : disk.files.Clear path) (free : disk.files.lookup path ≠ some .dir) :
    ∃ after, (project.durableUnlink path true).run (Disk.serve entropy) disk = (.ok (), after) ∧
      Removed disk.files path after.files := by
  have start : (project.durableUnlink path true).run (Disk.serve entropy) disk =
      (unlinkMissing path).run (Disk.serve entropy) disk := by
    unfold Project.durableUnlink
    rw [Project.assertConfined_ok writable]
    exact Program.run_bind_ok (run_ofExcept entropy ())
  rw [start]
  cases there : disk.files.lookup path with
  | none =>
      have served : Disk.serve entropy (.unlink path) disk = (.error .fileNotFound, disk) := by
        rw [Disk.serve]
        split
        · next is => cases there.symm.trans is
        · next is => cases there.symm.trans is
        · rw [Disk.missing, clear.underFile]
          rfl
      refine ⟨disk, Program.run_act served, fun other => ?_⟩
      split
      · next same => rw [same, there]
      · rfl
  | some node =>
      cases node with
      | dir => exact absurd there free
      | file contents =>
          have leaf : disk.files.lookup path ≠ some .dir ∨ disk.files.isEmpty path = true :=
            Or.inl free
          have served : Disk.serve entropy (.unlink path) disk =
              (.ok (), disk.withFiles (disk.files.remove path leaf)) := by
            rw [Disk.serve]
            split
            · rfl
            · next is => cases there.symm.trans is
            · next is => cases there.symm.trans is
          refine ⟨_, Program.run_act served, fun other => ?_⟩
          rw [Disk.withFiles, FileSystem.lookup_remove]

end

end CarbonLab.Aegis
