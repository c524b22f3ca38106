import CarbonLab.Aegis.AtomicCuts
import CarbonLab.Aegis.TransactionJournal

/-!
# Recovery of a torn transaction

Whenever a transaction, its rollback or its recovery is cut short, every destination holds
what it held before or what the transaction writes, and the journal describes them all.  A
recovery keeps that, and a recovery that returns leaves the destinations all as they were or
all written.
-/

namespace CarbonLab.Aegis

open FileProgram

/-- A transaction that started on some files with no other one in its state directory. -/
structure Attempt (project : Project) where
  start : FileSystem
  stateDir : Path
  txid : Text
  name : Text
  prepared : List PreparedFile
  rooted : project.Rooted
  reads : project.host.ReadsDigits
  destined : Destined prepared
  /-- Its journal can be written. -/
  writable : Writable (stateDir ++ [txid, text "journal.json"])
  /-- No destination is the state directory, above it or in it. -/
  outside : ∀ one ∈ prepared, ¬ stateDir <+: one.path ∧ ¬ one.path <+: stateDir
  /-- No destination is above another one. -/
  apart : ∀ one ∈ prepared, ∀ other ∈ prepared, ¬ one.path <+: other.path.dropLast
  /-- No destination has or is under the name of a temporary file. -/
  lasting : ∀ one ∈ prepared, ∀ above, above <+: one.path → ¬ Temporary above
  /-- No destination is under a file. -/
  clear : ∀ one ∈ prepared, start.Clear one.path
  before : ∀ one ∈ prepared, start.lookup one.path = one.before.map .file
  mode : ∀ one ∈ prepared, one.before.isSome → checkMode one.mode = .ok ()
  /-- The state directory is one or can be made. -/
  home : start.isFile stateDir = false ∧ ¬ Temporary stateDir
  /-- No transaction is pending. -/
  settled : ∀ name, start.isDir (stateDir ++ [name]) = false

namespace Attempt

variable {project : Project} (attempt : Attempt project)

/-- The directory of the transaction. -/
def txDir : Path := attempt.stateDir ++ [attempt.txid]

/-- Its journal. -/
def journalPath : Path := attempt.txDir ++ [text "journal.json"]

/-- The destinations and what is in the directory of the transaction. -/
def Own (path : Path) : Prop :=
  path ∈ attempt.prepared.map PreparedFile.path ∨ attempt.txDir <+: path

/-- All destinations hold what they held. -/
def Before (files : FileSystem) : Prop :=
  ∀ one ∈ attempt.prepared, files.lookup one.path = one.before.map .file

/-- All destinations hold what the transaction writes. -/
def After (files : FileSystem) : Prop :=
  ∀ one ∈ attempt.prepared, files.lookup one.path = one.data.map .file

/-- The files when something was cut short. -/
structure Torn (files : FileSystem) : Prop where
  grown : Grown attempt.Own attempt.start files
  either : ∀ one ∈ attempt.prepared, files.lookup one.path = one.before.map .file ∨
    files.lookup one.path = one.data.map .file
  /-- No other transaction is pending. -/
  only : ∀ name, files.isDir (attempt.stateDir ++ [name]) = true → name = attempt.txid
  journal : files.isFile attempt.journalPath = true → ∃ phase ∈ Project.phases, ∃ journal,
    Described project attempt.name attempt.prepared phase journal ∧
      files.lookup attempt.journalPath =
        some (.file (jsonLine project.host.floats .indented journal))
  absent : files.isDir attempt.txDir = false → attempt.Before files ∨ attempt.After files

variable {attempt} {files after : FileSystem} {one other : PreparedFile} {path : Path}

theorem lookup_of_not_isDir (unopened : files.isDir attempt.txDir = false) (name : Text) :
    files.lookup (attempt.txDir ++ [name]) = none := by
  by_contra there
  have parent := FileSystem.isDir_dropLast (Option.isSome_iff_ne_none.mpr there)
  rw [List.dropLast_concat, unopened] at parent
  cases parent

theorem torn_start : attempt.Torn attempt.start where
  grown := Grown.refl _
  either one member := Or.inl (attempt.before one member)
  only name directory := by
    rw [attempt.settled name] at directory
    cases directory
  journal file := by
    have unopened : attempt.start.isDir attempt.txDir = false := attempt.settled _
    rw [FileSystem.isFile, FileSystem.contents?, journalPath,
      lookup_of_not_isDir unopened] at file
    cases file
  absent _ := Or.inl attempt.before

theorem journalPath_eq : attempt.journalPath =
    attempt.stateDir ++ [attempt.txid, text "journal.json"] := by
  rw [journalPath, txDir, List.append_assoc]
  rfl

theorem stateDir_prefix_txDir : attempt.stateDir <+: attempt.txDir := List.prefix_append _ _

theorem stateDir_prefix_journalPath : attempt.stateDir <+: attempt.journalPath :=
  stateDir_prefix_txDir.trans (List.prefix_append _ _)

theorem not_temporary_journalPath : ¬ Temporary attempt.journalPath := by
  rintro ⟨stem, middle, is⟩
  rw [journalPath, List.getLast?_concat, Option.some.injEq] at is
  have first := congrArg List.head? is
  simp [text] at first

theorem txDir_ne_nil : attempt.txDir ≠ [] := by simp [txDir]

/-- What is in the state directory is no destination and not above one. -/
theorem not_prefix_destination (member : one ∈ attempt.prepared)
    (inside : attempt.stateDir <+: path) : ¬ path <+: one.path :=
  fun prefixed => (attempt.outside one member).1 (inside.trans prefixed)

/-- A destination is not above what is in the directory of the transaction. -/
theorem destination_not_prefix (member : one ∈ attempt.prepared)
    (inside : path <+: attempt.journalPath) : ¬ one.path <+: path := by
  intro prefixed
  have there : attempt.stateDir <+: attempt.journalPath := stateDir_prefix_journalPath
  rcases List.prefix_or_prefix_of_prefix (prefixed.trans inside) there with above | under
  · exact (attempt.outside one member).2 above
  · exact (attempt.outside one member).1 under

/-- A change in the state directory leaves the destinations as they are. -/
theorem lookup_of_inside (around : Around files path after) (inside : path <+: attempt.journalPath)
    (under : attempt.stateDir <+: path) (member : one ∈ attempt.prepared) :
    after.lookup one.path = files.lookup one.path := by
  refine around.kept ?_ ?_ (attempt.lasting one member _ List.prefix_rfl)
  · rintro rfl
    exact destination_not_prefix member inside List.prefix_rfl
  · exact fun above => destination_not_prefix member inside (above.trans (List.dropLast_prefix _))

/-- A change of a destination leaves the other ones as they are. -/
theorem lookup_of_destination (around : Around files one.path after)
    (member : one ∈ attempt.prepared) (member' : other ∈ attempt.prepared)
    (different : other.path ≠ one.path) :
    after.lookup other.path = files.lookup other.path :=
  around.kept different (attempt.apart other member' one member)
    (attempt.lasting other member' _ List.prefix_rfl)

/-- A change of a destination leaves the state directory as it is, but for files in it. -/
theorem lookup_inside_of_destination (around : Around files one.path after)
    (member : one ∈ attempt.prepared) (inside : attempt.stateDir <+: path)
    (lasting : ¬ Temporary path) : after.lookup path = files.lookup path := by
  refine around.kept ?_ ?_ lasting
  · rintro rfl
    exact (attempt.outside one member).1 inside
  · exact fun above => not_prefix_destination member inside (above.trans (List.dropLast_prefix _))

/-- A directory in the state directory was there before a destination was changed. -/
theorem isDir_of_destination (around : Around files one.path after)
    (member : one ∈ attempt.prepared) (inside : attempt.stateDir <+: path) (below : path ≠ []) :
    after.isDir path = files.isDir path := by
  have different : path ≠ one.path := by
    rintro rfl
    exact (attempt.outside one member).1 inside
  rw [Bool.eq_iff_iff, FileSystem.isDir_iff, FileSystem.isDir_iff]
  rcases around path different with same | ⟨absent, ⟨_, prefixed⟩ | ⟨_, _, contents, file⟩⟩
  · rw [same]
  · exact absurd (prefixed.trans (List.dropLast_prefix _)) (not_prefix_destination member inside)
  · simp [below, absent, file]

/-- No destination comes to lie under a file. -/
theorem Torn.clear (torn : attempt.Torn files) (member : one ∈ attempt.prepared) :
    files.Clear one.path := by
  intro above prefixed
  have under : above <+: one.path := prefixed.trans (List.dropLast_prefix _)
  have foreign : ¬ attempt.Own above := by
    rintro (destination | inside)
    · obtain ⟨other, member', rfl⟩ := List.mem_map.mp destination
      exact attempt.apart other member' one member prefixed
    · exact not_prefix_destination member (stateDir_prefix_txDir.trans inside) under
  rw [FileSystem.isFile_eq_false]
  rcases torn.grown above foreign with same | ⟨_, directory | temporary⟩
  · rw [same]
    exact FileSystem.isFile_eq_false.mp (attempt.clear one member above prefixed)
  · exact Or.inr directory
  · exact absurd temporary (attempt.lasting one member above under)

theorem Torn.free (torn : attempt.Torn files) (member : one ∈ attempt.prepared) :
    files.lookup one.path ≠ some .dir := by
  rcases torn.either one member with is | is
  · rw [is]
    cases one.before <;> simp
  · rw [is]
    cases one.data <;> simp

theorem txDir_not_prefix_stateDir : ¬ attempt.txDir <+: attempt.stateDir := by
  intro prefixed
  have length := prefixed.length_le
  rw [txDir, List.length_append, List.length_singleton] at length
  omega

/-- The state directory is one or is missing. -/
theorem Torn.home (torn : attempt.Torn files) (missing : files.isDir attempt.stateDir = false) :
    files.exists? attempt.stateDir = false := by
  obtain ⟨file, lasting⟩ := attempt.home
  rw [← Bool.not_eq_true, FileSystem.isDir_iff, not_or] at missing
  have foreign : ¬ attempt.Own attempt.stateDir := by
    rintro (destination | inside)
    · obtain ⟨one, member, same⟩ := List.mem_map.mp destination
      exact (attempt.outside one member).1 (same ▸ List.prefix_rfl)
    · exact txDir_not_prefix_stateDir inside
  have absent : files.lookup attempt.stateDir = none := by
    rcases torn.grown _ foreign with same | ⟨_, directory | temporary⟩
    · rw [same] at missing ⊢
      exact (FileSystem.isFile_eq_false.mp file).resolve_right missing.2
    · exact absurd directory missing.2
    · exact absurd temporary lasting
  simp [FileSystem.exists?, missing.1, absent]

/-- A destination is given what it held or what the transaction writes. -/
theorem Torn.destination (torn : attempt.Torn files) (member : one ∈ attempt.prepared)
    (around : Around files one.path after) (pending : files.isDir attempt.txDir = true)
    (either : after.lookup one.path = one.before.map .file ∨
      after.lookup one.path = one.data.map .file) :
    attempt.Torn after ∧ after.isDir attempt.txDir = true := by
  have still : after.isDir attempt.txDir = true :=
    (isDir_of_destination around member stateDir_prefix_txDir txDir_ne_nil).trans pending
  have journal : after.lookup attempt.journalPath = files.lookup attempt.journalPath :=
    lookup_inside_of_destination around member stateDir_prefix_journalPath
      not_temporary_journalPath
  refine ⟨{ grown := ?_, either := ?_, only := ?_, journal := ?_, absent := ?_ }, still⟩
  · refine torn.grown.trans (around.grown.mono ?_)
    rintro path rfl
    exact Or.inl (List.mem_map.mpr ⟨one, member, rfl⟩)
  · intro other member'
    by_cases same : other.path = one.path
    · rw [List.inj_on_of_nodup_map attempt.destined.distinct member' member same]
      exact either
    · rw [lookup_of_destination around member member' same]
      exact torn.either other member'
  · intro name directory
    rw [isDir_of_destination around member (List.prefix_append _ _) (by simp)] at directory
    exact torn.only name directory
  · rw [FileSystem.isFile, FileSystem.contents?, journal]
    exact torn.journal
  · intro gone
    exact absurd gone (ne_false_of_eq_true still)

/-- Directories in the state directory when a path of the transaction was changed. -/
theorem Torn.only_of_inside (torn : attempt.Torn files) (around : Around files path after)
    (inside : path <+: attempt.journalPath) (longer : attempt.txDir <+: path) (name : Text)
    (directory : after.isDir (attempt.stateDir ++ [name]) = true) : name = attempt.txid := by
  by_cases same : attempt.stateDir ++ [name] = path
  · rw [← same, txDir] at longer
    simpa using (longer.eq_of_length (by simp)).symm
  rcases around _ same with kept | ⟨_, ⟨_, prefixed⟩ | ⟨_, _, contents, file⟩⟩
  · apply torn.only name
    rw [FileSystem.isDir_iff] at directory ⊢
    rwa [kept] at directory
  · have here : attempt.stateDir ++ [name] <+: attempt.journalPath :=
      (prefixed.trans (List.dropLast_prefix _)).trans inside
    have there : attempt.txDir <+: attempt.journalPath := List.prefix_append _ _
    have both := List.prefix_of_prefix_length_le here there (by simp [txDir])
    simpa [txDir] using both.eq_of_length (by simp [txDir])
  · rw [FileSystem.isDir_iff, file] at directory
    simp at directory

/-- A change of the journal or of its directory. -/
theorem Torn.inside (torn : attempt.Torn files) (around : Around files path after)
    (inside : path <+: attempt.journalPath) (longer : attempt.txDir <+: path)
    (journal : after.isFile attempt.journalPath = true → ∃ phase ∈ Project.phases, ∃ journal,
      Described project attempt.name attempt.prepared phase journal ∧
        after.lookup attempt.journalPath =
          some (.file (jsonLine project.host.floats .indented journal)))
    (absent : after.isDir attempt.txDir = false → attempt.Before files ∨ attempt.After files) :
    attempt.Torn after := by
  have under : attempt.stateDir <+: path := stateDir_prefix_txDir.trans longer
  have kept {one : PreparedFile} (member : one ∈ attempt.prepared) :
      after.lookup one.path = files.lookup one.path := lookup_of_inside around inside under member
  refine { grown := ?_, either := ?_, only := ?_, journal := journal, absent := ?_ }
  · refine torn.grown.trans (around.grown.mono ?_)
    rintro path rfl
    exact Or.inr longer
  · intro one member
    rw [kept member]
    exact torn.either one member
  · exact torn.only_of_inside around inside longer
  · intro gone
    refine (absent gone).imp ?_ ?_
    · exact fun all one member => (kept member).trans (all one member)
    · exact fun all one member => (kept member).trans (all one member)

/-- The journal is written, as far as it came. -/
theorem Torn.writeJournal (torn : attempt.Torn files) (pending : files.isDir attempt.txDir = true)
    {phase : Text} {journal : Json} (known : phase ∈ Project.phases)
    (described : Described project attempt.name attempt.prepared phase journal)
    (writing : Writing files attempt.journalPath
      (jsonLine project.host.floats .indented journal) after) :
    attempt.Torn after ∧ after.isDir attempt.txDir = true := by
  have different : attempt.txDir ≠ attempt.journalPath := by simp [journalPath]
  have still := writing.2.isDir different pending
  refine ⟨torn.inside writing.2 List.prefix_rfl (List.prefix_append _ _) ?_ ?_, still⟩
  · intro file
    rcases writing.1 with same | written
    · rw [FileSystem.isFile, FileSystem.contents?, same] at file
      rw [same]
      exact torn.journal file
    · exact ⟨phase, known, journal, described, written⟩
  · intro gone
    exact absurd gone (ne_false_of_eq_true still)

/-- The journal is removed. -/
theorem Torn.unlinkJournal (torn : attempt.Torn files) (pending : files.isDir attempt.txDir = true)
    (removed : Removed files attempt.journalPath after) :
    attempt.Torn after ∧ after.isDir attempt.txDir = true := by
  have different : attempt.txDir ≠ attempt.journalPath := by simp [journalPath]
  have still := removed.around.isDir different pending
  refine ⟨torn.inside removed.around List.prefix_rfl (List.prefix_append _ _) ?_ ?_, still⟩
  · intro file
    rw [FileSystem.isFile, FileSystem.contents?, removed, if_pos rfl] at file
    cases file
  · intro gone
    exact absurd gone (ne_false_of_eq_true still)

/-- The directory of the transaction is removed. -/
theorem Torn.rmdir (torn : attempt.Torn files) (removed : Removed files attempt.txDir after)
    (all : attempt.Before files ∨ attempt.After files) : attempt.Torn after := by
  refine torn.inside removed.around (List.prefix_append _ _) List.prefix_rfl ?_ fun _ => all
  intro file
  have there : (after.lookup attempt.journalPath).isSome := by
    cases is : after.lookup attempt.journalPath with
    | none =>
        rw [FileSystem.isFile, FileSystem.contents?, is] at file
        cases file
    | some node => rfl
  have parent := FileSystem.isDir_dropLast there
  rw [journalPath, List.dropLast_concat, FileSystem.isDir_iff, removed, if_pos rfl] at parent
  exact absurd parent (by simp [txDir_ne_nil])

/-! ## Destinations -/

variable {entropy : Entropy} {disk : Disk}

variable (attempt) in
/-- Of the transaction, only one destination was changed. -/
structure Moved (one : PreparedFile) (before after : FileSystem) : Prop where
  torn : attempt.Torn after
  inside : ∀ path, attempt.txDir <+: path → after.lookup path = before.lookup path
  others : ∀ other ∈ attempt.prepared, other.path ≠ one.path →
    after.lookup other.path = before.lookup other.path

theorem Moved.isDir (moved : attempt.Moved one files after)
    (pending : files.isDir attempt.txDir = true) : after.isDir attempt.txDir = true := by
  rw [FileSystem.isDir_iff] at pending ⊢
  rwa [moved.inside _ List.prefix_rfl]

theorem Torn.moved (torn : attempt.Torn files) (member : one ∈ attempt.prepared)
    (around : Around files one.path after) (pending : files.isDir attempt.txDir = true)
    (either : after.lookup one.path = one.before.map .file ∨
      after.lookup one.path = one.data.map .file) : attempt.Moved one files after where
  torn := (torn.destination member around pending either).1
  inside path inside := by
    have under : attempt.stateDir <+: path := stateDir_prefix_txDir.trans inside
    have outside := (attempt.outside one member).1
    rcases around path (fun same => outside (same ▸ under)) with
      same | ⟨_, ⟨_, above⟩ | ⟨_, beside, _⟩⟩
    · exact same
    · exact absurd (above.trans (List.dropLast_prefix _)) (not_prefix_destination member under)
    · refine absurd ?_ outside
      obtain ⟨rest, is⟩ := inside
      have home : attempt.stateDir <+: path.dropLast := by
        rw [← is, txDir, List.append_assoc, List.dropLast_append_of_ne_nil (by simp)]
        exact List.prefix_append _ _
      exact home.trans (beside ▸ List.dropLast_prefix _)
  others other member' different := lookup_of_destination around member member' different

/-- A destination is deleted or written, as far as it came. -/
theorem meets_restore (torn : attempt.Torn disk.files)
    (pending : disk.files.isDir attempt.txDir = true) (member : one ∈ attempt.prepared)
    {destination : Destination} (path : destination.path = one.path)
    (either : destination.before = one.before ∨ destination.before = one.data) :
    Program.Meets (Disk.serve entropy) (project.restore destination)
      (fun cut => attempt.Moved one disk.files cut.files)
      (fun outcome final => outcome = .ok () →
        final.files.lookup one.path = destination.before.map .file) disk := by
  have below : one.path ≠ [] := (attempt.destined.writable one member).1
  have start : attempt.Moved one disk.files disk.files :=
    torn.moved member (Around.refl _ _) pending (torn.either one member)
  unfold Project.restore
  rw [path]
  cases is : destination.before with
  | none =>
      rw [is] at either
      dsimp only
      unfold Project.durableUnlink
      cases project.assertConfined one.path with
      | error raised => exact Program.meets_raise.mpr ⟨start, nofun⟩
      | ok done =>
          refine Program.Meets.bind (Program.meets_pure.mpr ⟨start, ?_⟩)
          dsimp only
          rw [if_pos rfl]
          refine Program.meets_act.mpr ⟨start, ?_⟩
          rcases serve_unlink one.path disk with ⟨after, served, removed⟩ | ⟨error, served, absent⟩
          · rw [served]
            have gone : after.files.lookup one.path = none := by rw [removed, if_pos rfl]
            refine Program.meets_pure.mpr ⟨torn.moved member removed.around pending ?_,
              fun _ => gone⟩
            rw [gone]
            exact either.imp (fun is => by rw [← is]; rfl) fun is => by rw [← is]; rfl
          · rw [served]
            cases error with
            | fileNotFound =>
                exact Program.meets_pure.mpr ⟨start, fun _ => absent rfl⟩
            | _ => exact Program.meets_raise.mpr ⟨start, nofun⟩
  | some data =>
      rw [is] at either
      refine (meets_atomicWriteBytes project one.path data destination.mode below disk).mono ?_ ?_
      · intro cut writing
        refine torn.moved member writing.2 pending ?_
        rcases writing.1 with same | written
        · rw [same]
          exact torn.either one member
        · rw [written]
          exact either.imp (fun is => by rw [← is]; rfl) fun is => by rw [← is]; rfl
      · rintro outcome final _ ends rfl
        exact ends

/-! ## Application -/

variable {phase : Text} {journal : Json}

variable (attempt) in
/-- A journal of the transaction stands in its directory. -/
structure Found (files : FileSystem) (phase : Text) (journal : Json) : Prop where
  pending : files.isDir attempt.txDir = true
  known : phase ∈ Project.phases
  described : Described project attempt.name attempt.prepared phase journal
  lookup : files.lookup attempt.journalPath =
    some (.file (jsonLine project.host.floats .indented journal))

/-- The application of the plan keeps the transaction recoverable, and marks its journal. -/
theorem meets_applyRecovery (torn : attempt.Torn disk.files)
    (pending : disk.files.isDir attempt.txDir = true) (forceRollback : Bool)
    (described : Described project attempt.name attempt.prepared phase journal)
    {plan : RecoveryPlan} (is : planFor project attempt.journalPath phase forceRollback
      attempt.prepared journal = plan) :
    Program.Meets (Disk.serve project.host.entropy) (project.applyRecovery plan)
      (fun cut => attempt.Torn cut.files ∧ cut.files.isDir attempt.txDir = true)
      (fun outcome final => ∀ recovered, outcome = .ok recovered → plan.rollback = true →
        attempt.Found final.files "ROLLED_BACK" recovered) disk := by
  unfold Project.applyRecovery
  split
  · next settled =>
      refine Program.meets_pure.mpr ⟨⟨torn, pending⟩, fun _ _ rollback => ?_⟩
      rw [rollback] at settled
      cases settled
  · have restores : Program.Keeps (Disk.serve project.host.entropy)
        (Program.each project.restore plan.destinations.reverse)
        (fun cut => attempt.Torn cut.files ∧ cut.files.isDir attempt.txDir = true) disk := by
      refine Program.Keeps.each ?_ ⟨torn, pending⟩
      rintro destination inside state ⟨torn, pending⟩
      rw [← is, List.mem_reverse] at inside
      obtain ⟨one, member, rfl⟩ := List.mem_map.mp inside
      exact (meets_restore torn pending member rfl (Or.inl rfl)).mono
        (fun _ moved => ⟨moved.torn, moved.isDir pending⟩) fun _ _ _ _ => trivial
    refine Program.Meets.bind (restores.mono (fun _ held => held) ?_)
    rintro (raised | restored) middle held -
    · nofun
    refine Program.Meets.bind (Program.meets_act.mpr
      ⟨held, Program.meets_pure.mpr ⟨held, ?_⟩⟩)
    have plain := mergeSurrogates_now project middle.ticks
    obtain ⟨torn, pending⟩ := held
    have marks := described.rolledBack plain
    have known : text "ROLLED_BACK" ∈ Project.phases := by simp [Project.phases]
    have journals : plan.journalPath = attempt.journalPath ∧ plan.journal = journal := by
      rw [← is]
      exact ⟨rfl, rfl⟩
    rw [journals.1, journals.2]
    have written := @meets_atomicWriteBytes project.host.entropy project
      attempt.journalPath (jsonLine project.host.floats .indented
        (Project.rolledBack journal (project.host.entropy.now middle.ticks))) (.int 0o600)
      (by simp [journalPath]) middle.tick
    refine Program.Meets.bind (written.mono (fun cut writing =>
      torn.writeJournal pending known marks writing) ?_)
    rintro (raised | done) final writing ends
    · nofun
    refine Program.meets_pure.mpr ⟨torn.writeJournal pending known marks writing, ?_⟩
    rintro recovered same -
    cases same
    exact ⟨(torn.writeJournal pending known marks writing).2, known, marks, ends⟩

/-- The destinations of the transaction are restored. -/
theorem run_applyRecovery (torn : attempt.Torn disk.files)
    (journalFile : disk.files.isFile attempt.journalPath = true) {phase : Text} {journal : Json}
    {forceRollback : Bool}
    (rollback : (planFor project attempt.journalPath phase forceRollback attempt.prepared
      journal).rollback = true) :
    ∃ recovered after, (project.applyRecovery
        (planFor project attempt.journalPath phase forceRollback attempt.prepared journal)).run
          (Disk.serve project.host.entropy) disk = (.ok recovered, after) ∧
      attempt.Before after.files ∧ after.files.isFile attempt.journalPath = true ∧
      ∀ path, attempt.txDir <+: path → path ≠ attempt.journalPath →
        after.files.lookup path = disk.files.lookup path := by
  generalize is : planFor project attempt.journalPath phase forceRollback attempt.prepared
    journal = plan at rollback
  have destinations : plan.destinations =
      attempt.prepared.map (PreparedFile.destination project phase forceRollback) := by
    rw [← is]
    rfl
  have journalIs : plan.journalPath = attempt.journalPath := by
    rw [← is]
    rfl
  have from_ {destination : Destination} (inside : destination ∈ plan.destinations) :
      ∃ one ∈ attempt.prepared, destination.path = one.path ∧ destination.before = one.before ∧
        destination.mode = one.mode := by
    rw [destinations] at inside
    obtain ⟨one, member, rfl⟩ := List.mem_map.mp inside
    exact ⟨one, member, rfl, rfl, rfl⟩
  have apart {first second : Destination} (here : first ∈ plan.destinations)
      (there : second ∈ plan.destinations) : ¬ first.path <+: second.path.dropLast := by
    obtain ⟨one, member, path, _⟩ := from_ here
    obtain ⟨other, member', path', _⟩ := from_ there
    rw [path, path']
    exact attempt.apart one member other member'
  have restorable : Restorable disk.files plan := by
    constructor
    · intro destination inside
      obtain ⟨one, member, path, _⟩ := from_ inside
      rw [path]
      exact attempt.destined.writable one member
    · rw [journalIs, journalPath_eq]
      exact attempt.writable
    · intro destination inside
      obtain ⟨one, member, _, before, mode⟩ := from_ inside
      rw [before, mode]
      exact attempt.mode one member
    · intro front destination back split above prefixed file
      obtain ⟨one, member, path, _⟩ := @from_ destination (by simp [split])
      rw [path] at prefixed
      rw [torn.clear member above prefixed] at file
      cases file
    · refine List.pairwise_of_forall_mem_list fun later here earlier there nested => ?_
      exact (nested.elim (apart here there) (apart there here)).elim
    · intro destination inside _ above
      obtain ⟨one, member, path, _⟩ := from_ inside
      rw [path, journalIs] at above
      exact not_prefix_destination member stateDir_prefix_journalPath
        (above.trans (List.dropLast_prefix _))
  have ready : Ready project disk.files [plan] := by
    refine ⟨⟨?_, ?_, ?_⟩, ?_, ?_⟩
    · intro plan' here
      rw [List.mem_singleton.mp here]
      exact restorable
    · intro first here second there different
      rw [List.mem_singleton.mp here, List.mem_singleton.mp there] at different
      exact absurd rfl different
    · intro first here second there different
      rw [List.mem_singleton.mp here, List.mem_singleton.mp there] at different
      exact absurd rfl different
    · intro plan' here destination inside
      rw [List.mem_singleton.mp here] at inside
      obtain ⟨one, member, path, _⟩ := from_ inside
      rw [path, ← Bool.not_eq_true, FileSystem.isDir_iff, not_or]
      exact ⟨(attempt.destined.writable one member).1, torn.free member⟩
    · intro plan' here
      rw [List.mem_singleton.mp here, journalIs]
      exact journalFile
  have once : (plan.destinations.map Destination.path).Nodup := by
    rw [destinations, List.map_map]
    exact attempt.destined.distinct
  obtain ⟨recovered, after, ran, restored⟩ := (Restored.start disk.files).apply ready
    ⟨List.mem_singleton_self plan, by simp, by simp, by simp⟩ rollback (by simp) once (by simp)
  rw [List.append_nil] at restored
  refine ⟨recovered, after, ran, ?_, ?_, ?_⟩
  · intro one member
    have inside : one.destination project phase forceRollback ∈ plan.destinations := by
      rw [destinations]
      exact List.mem_map.mpr ⟨one, member, rfl⟩
    have unmarked : ∀ other ∈ [plan], other.journalPath ≠ one.path := by
      intro other here same
      rw [List.mem_singleton.mp here, journalIs] at same
      refine destination_not_prefix member List.prefix_rfl ?_
      rw [same]
    cases is : one.before with
    | none =>
        refine restored.cleared _ inside is ?_ unmarked
        rintro ⟨_, below, here, _, above⟩
        exact apart inside here above
    | some bytes => exact restored.written _ inside bytes is unmarked
  · obtain ⟨time, lookup⟩ := restored.journals plan (List.mem_singleton_self plan)
    rw [journalIs] at lookup
    exact FileSystem.isFile_of_lookup lookup
  · intro path inside different
    have under : attempt.stateDir <+: path := stateDir_prefix_txDir.trans inside
    refine restored.kept path ⟨?_, ?_⟩ ?_
    · intro other here same
      rw [List.mem_singleton.mp here, journalIs] at same
      exact different same.symm
    · intro destination here same
      obtain ⟨one, member, is, _⟩ := from_ here
      rw [← same, is] at under
      exact (attempt.outside one member).1 under
    · rintro ⟨_, destination, here, _, above⟩
      obtain ⟨one, member, is, _⟩ := from_ here
      rw [is] at above
      exact not_prefix_destination member under (above.trans (List.dropLast_prefix _))

/-! ## The decision -/

variable (attempt) in
/-- Nothing else is in the directory of the transaction. -/
def Sole (files : FileSystem) : Prop :=
  ∀ name ∈ files.names attempt.txDir, name = text "journal.json"

/-- The phases in which nothing is rolled back. -/
def settledPhases : List Text := ["COMMITTED", "ROLLED_BACK"]

variable (attempt) in
/-- The destinations have digests that a recovery expects. -/
def Expected (files : FileSystem) (phase : Text) (forceRollback : Bool) : Prop :=
  ∀ one ∈ attempt.prepared, project.host.sha (files.contents? one.path) ∈
    expectedHashes project phase forceRollback one

variable (attempt) in
/-- The destinations have digests that the recovery by name expects. -/
def Accepted (files : FileSystem) (phase : Text) : Prop :=
  attempt.Expected files phase (!decide (phase ∈ settledPhases))

variable (attempt) in
/-- The plan of the recovery. -/
def plan (phase : Text) (journal : Json) : RecoveryPlan :=
  planFor project attempt.journalPath phase (!decide (phase ∈ settledPhases)) attempt.prepared
    journal

theorem Found.isFile (found : attempt.Found files phase journal) :
    files.isFile attempt.journalPath = true := FileSystem.isFile_of_lookup found.lookup

theorem run_isDir (path : Path) : (isDir path).run (Disk.serve entropy) disk =
    (.ok (disk.files.isDir path), disk) := rfl

theorem run_look_ : look.run (Disk.serve entropy) disk = (.ok disk.files, disk) := rfl

/-- What is no directory is no candidate. -/
theorem run_scanDirectory_other {names : Option (List Text)} {removeRecovered : Bool}
    (other : disk.files.isDir path = false) :
    (project.scanDirectory names removeRecovered path).run (Disk.serve entropy) disk =
      (.ok [], disk) := by
  unfold Project.scanDirectory
  refine (Program.run_bind_ok (run_isDir path)).trans ?_
  rw [other]
  rfl

/-- A directory without a journal stops the recovery. -/
theorem run_scanDirectory_bare (pending : disk.files.isDir attempt.txDir = true)
    (bare : disk.files.isFile attempt.journalPath = false) :
    ∃ raised, (project.scanDirectory (some [attempt.name]) true attempt.txDir).run
      (Disk.serve entropy) disk = (.error raised, disk) := by
  refine ⟨transactionError (text "transaction directory has no real journal: " ++
    project.pathText attempt.txDir), ?_⟩
  unfold Project.scanDirectory
  refine (Program.run_bind_ok (run_isDir _)).trans ?_
  rw [pending, if_pos rfl]
  refine (Program.run_bind_ok run_look_).trans ?_
  rw [if_pos (show disk.files.isFile (attempt.txDir ++ [text "journal.json"]) = false from bare)]
  rfl

/-- The journal of the transaction is a candidate where nothing stands beside it, and stops
the recovery where something does. -/
theorem run_scanDirectory_found (found : attempt.Found disk.files phase journal) :
    (attempt.Sole disk.files → (project.scanDirectory (some [attempt.name]) true
        attempt.txDir).run (Disk.serve entropy) disk = (.ok [⟨attempt.txDir, journal⟩], disk)) ∧
      (¬ attempt.Sole disk.files → ∃ raised, (project.scanDirectory (some [attempt.name]) true
        attempt.txDir).run (Disk.serve entropy) disk = (.error raised, disk)) := by
  have file := found.isFile
  have contents : disk.files.contents? attempt.journalPath =
      some (jsonLine project.host.floats .indented journal) := by
    rw [FileSystem.contents?, found.lookup]
  have read : (FileProgram.ofExcept (project.readRecoveryJournal attempt.journalPath
      (disk.files.contents? attempt.journalPath))).run (Disk.serve entropy) disk =
        (.ok journal, disk) := by
    rw [contents, readRecoveryJournal_jsonLine found.described]
    rfl
  have selected : inSet (journal.get "name") [attempt.name] = .ok true := by
    rw [found.described.name]
    simp [inSet]
  have upTo {crowded : Bool} (is : (disk.files.names attempt.txDir).any
      (· ≠ text "journal.json") = crowded) :
      (project.scanDirectory (some [attempt.name]) true attempt.txDir).run (Disk.serve entropy)
        disk = (if crowded then .raise (transactionError
          (text "recovered transaction directory is not empty: " ++
            project.pathText attempt.txDir)) else .pure [⟨attempt.txDir, journal⟩] :
              FileProgram (List Project.Candidate)).run (Disk.serve entropy) disk := by
    unfold Project.scanDirectory
    refine (Program.run_bind_ok (run_isDir _)).trans ?_
    rw [found.pending, if_pos rfl]
    refine (Program.run_bind_ok run_look_).trans ?_
    rw [if_neg (show ¬ disk.files.isFile (attempt.txDir ++ [text "journal.json"]) = false from
      ne_false_of_eq_true file)]
    refine (Program.run_bind_ok run_look_).trans ?_
    refine (Program.run_bind_ok read).trans ?_
    dsimp only
    rw [selected]
    refine (Program.run_bind_ok (run_ofExcept entropy true)).trans ?_
    rw [if_pos rfl, if_pos rfl]
    refine (Program.run_bind_ok run_look_).trans ?_
    rw [is]
  have crowded : (disk.files.names attempt.txDir).any (· ≠ text "journal.json") = true ↔
      ¬ attempt.Sole disk.files := by
    simp [Sole]
  constructor
  · intro sole
    have bare : (disk.files.names attempt.txDir).any (· ≠ text "journal.json") = false := by
      rw [← Bool.not_eq_true, crowded]
      exact fun not => not sole
    rw [upTo bare]
    rfl
  · intro notSole
    rw [upTo (crowded.mpr notSole)]
    exact ⟨_, rfl⟩

/-- The plans of distinct destinations do not stand in each other's way. -/
theorem claimPlans_one (plan : RecoveryPlan)
    (once : (plan.destinations.map Destination.path).Nodup) :
    ∃ owners, project.claimPlans [plan] [] = .ok owners := by
  have claims (destinations : List Destination) (owners : Project.Owners)
      (once : (destinations.map Destination.path).Nodup)
      (fresh : ∀ destination ∈ destinations, owners.lookup destination.path = none) :
      ∃ after, project.claimDestinations plan.journalPath plan.rollback destinations owners =
        .ok after := by
    induction destinations generalizing owners with
    | nil => exact ⟨owners, rfl⟩
    | cons destination rest ih =>
        obtain ⟨different, once⟩ := List.nodup_cons.mp once
        obtain ⟨here, later⟩ := List.forall_mem_cons.mp fresh
        obtain ⟨after, claimed⟩ := ih
          ((destination.path, plan.journalPath, plan.rollback) :: owners) once
          (fun other member => by
            have apart : other.path ≠ destination.path := fun same =>
              different (List.mem_map.mpr ⟨other, member, same⟩)
            rw [List.lookup_cons, beq_false_of_ne apart]
            exact later other member)
        refine ⟨after, ?_⟩
        rw [Project.claimDestinations, here]
        exact claimed
  obtain ⟨owners, claimed⟩ := claims plan.destinations [] once (fun _ _ => rfl)
  refine ⟨owners, ?_⟩
  rw [Project.claimPlans, claimed, ok_bind, Project.claimPlans]

/-- A destination is read. -/
theorem readOutcome_destination (torn : attempt.Torn files) (member : one ∈ attempt.prepared) :
    readOutcome files one.path = .ok (files.contents? one.path) := by
  obtain ⟨below, _, names⟩ := attempt.destined.writable one member
  have encodes : one.path.all encodable = true := List.all_eq_true.mpr names
  unfold readOutcome
  rcases is : files.lookup one.path with _ | contents | _
  · have absent : files.exists? one.path = false := by
      simp [FileSystem.exists?, below, is]
    rw [absent, Bool.and_false, if_neg Bool.false_ne_true, FileSystem.contents?, is]
  · have there : files.exists? one.path = true := by
      simp [FileSystem.exists?, is]
    rw [encodes, there, FileSystem.contents?, is]
    rfl
  · exact absurd is (torn.free member)

/-- A destination is compared with the plan. -/
theorem run_checkDestination (torn : attempt.Torn disk.files) (member : one ∈ attempt.prepared)
    {forceRollback : Bool} :
    (project.checkDestination (one.destination project phase forceRollback)).run
        (Disk.serve entropy) disk =
      (if project.host.sha (disk.files.contents? one.path) ∈
          expectedHashes project phase forceRollback one then .ok ()
        else .error (transactionError (text "ambiguous destination drift during recovery: " ++
          joinParts one.path)), disk) := by
  unfold Project.checkDestination
  have read : (FileProgram.read one.path).run (Disk.serve entropy) disk =
      (.ok (disk.files.contents? one.path), disk) := by
    rw [run_read, readOutcome_destination torn member]
  refine (Program.run_bind_ok read).trans ?_
  by_cases expected : project.host.sha (disk.files.contents? one.path) ∈
      expectedHashes project phase forceRollback one
  · rw [if_pos expected, if_pos (show _ ∈ (one.destination project phase
      forceRollback).expectedHashes from expected)]
    rfl
  · rw [if_neg expected, if_neg (show ¬ _ ∈ (one.destination project phase
      forceRollback).expectedHashes from expected)]
    rfl

/-- The plan passes its preflight if all destinations are accepted, and else it raises. -/
theorem run_preflightRecoveryBatch (torn : attempt.Torn disk.files) (forceRollback : Bool)
    {plan : RecoveryPlan} (is : planFor project attempt.journalPath phase forceRollback
      attempt.prepared journal = plan) :
    (attempt.Expected disk.files phase forceRollback →
      (project.preflightRecoveryBatch [plan]).run (Disk.serve entropy) disk = (.ok (), disk)) ∧
    (¬ attempt.Expected disk.files phase forceRollback → ∃ raised,
      (project.preflightRecoveryBatch [plan]).run (Disk.serve entropy) disk =
        (.error raised, disk)) := by
  have once : (plan.destinations.map Destination.path).Nodup := by
    rw [← is, planFor, List.map_map]
    exact attempt.destined.distinct
  obtain ⟨owners, claimed⟩ := @claimPlans_one project _ once
  have claims : (FileProgram.ofExcept (project.claimPlans [plan] [])).run
      (Disk.serve entropy) disk = (.ok owners, disk) := by
    rw [claimed]
    rfl
  have checks (destination : Destination) (inside : destination ∈ plan.destinations) :
      ∃ one ∈ attempt.prepared, destination = one.destination project phase forceRollback := by
    rw [← is] at inside
    obtain ⟨one, member, rfl⟩ := List.mem_map.mp inside
    exact ⟨one, member, rfl⟩
  unfold Project.preflightRecoveryBatch
  constructor
  · intro expected
    refine (Program.run_bind_ok claims).trans ?_
    have passes : (Program.each project.checkDestination
        plan.destinations).run (Disk.serve entropy) disk =
          (.ok (plan.destinations.map fun _ => ()), disk) := by
      refine Program.run_each_same fun destination inside => ?_
      obtain ⟨one, member, rfl⟩ := checks destination inside
      rw [run_checkDestination torn member, if_pos (expected one member)]
    exact Program.run_bind_ok (Program.run_bind_ok passes)
  · intro refused
    have fails : ∃ raised, (Program.each project.checkDestination
        plan.destinations).run (Disk.serve entropy) disk = (.error raised, disk) := by
      refine (Program.run_each_or (fun _ => ()) fun destination inside => ?_).resolve_left ?_
      · obtain ⟨one, member, rfl⟩ := checks destination inside
        rw [run_checkDestination torn member]
        split
        · exact Or.inl rfl
        · exact Or.inr ⟨_, rfl⟩
      · intro all
        refine refused fun one member => ?_
        have here := all _ (by rw [← is]; exact List.mem_map.mpr ⟨one, member, rfl⟩)
        rw [run_checkDestination torn member] at here
        by_contra unexpected
        rw [if_neg unexpected] at here
        cases here
    obtain ⟨raised, ran⟩ := fails
    refine ⟨raised, (Program.run_bind_ok claims).trans ?_⟩
    exact Program.run_bind_error (Program.run_bind_error ran)

/-- The entries of the state directory. -/
theorem run_listDirectory (there : disk.files.isDir path = true) :
    (Project.listDirectory path).run (Disk.serve entropy) disk =
      (.ok (((disk.files.names path).insertionSort (· ≤ ·)).map fun name => path ++ [name]),
        disk) := by
  unfold Project.listDirectory
  refine (Program.run_bind_ok run_look_).trans ?_
  rw [if_pos there]
  rfl

/-- The plan of the journal that was found. -/
theorem mapM_planOf (found : attempt.Found files phase journal) :
    [Project.Candidate.mk attempt.txDir journal].mapM project.planOf =
      .ok [attempt.plan phase journal] := by
  have settled : inSet (journal.get "phase") [text "COMMITTED", text "ROLLED_BACK"] =
      .ok (decide (phase ∈ settledPhases)) := by
    rw [found.described.phase]
    rfl
  have planned : project.planOf ⟨attempt.txDir, journal⟩ = .ok (attempt.plan phase journal) := by
    unfold Project.planOf
    dsimp only
    rw [settled, ok_bind]
    exact prepareRecovery_described attempt.reads attempt.rooted attempt.destined found.known
      found.described _ _
  rw [List.mapM_cons, planned, ok_bind, List.mapM_nil]
  rfl

theorem flatten_map_ite {α β : Type} [DecidableEq α] {items : List α} {item : α} (value : β)
    (once : items.Nodup) (member : item ∈ items) :
    (items.map fun other => if other = item then [value] else []).flatten = [value] := by
  induction items with
  | nil => cases member
  | cons first items ih =>
      obtain ⟨fresh, once⟩ := List.nodup_cons.mp once
      rw [List.map_cons, List.flatten_cons]
      rcases List.mem_cons.mp member with rfl | later
      · have rest : (items.map fun other => if other = item then [value] else []).flatten = [] := by
          rw [List.flatten_eq_nil_iff]
          intro group inside
          obtain ⟨other, there, rfl⟩ := List.mem_map.mp inside
          have apart : other ≠ item := by
            rintro rfl
            exact fresh there
          rw [if_neg apart]
        rw [if_pos rfl, rest, List.append_nil]
      · have apart : first ≠ item := by
          rintro rfl
          exact fresh later
        rw [if_neg apart, ih once later]
        rfl

/-- What a recovery decides: nothing where no transaction is pending, the plan of the pending
one where its journal stands alone and its destinations are accepted, and else it raises. -/
theorem run_decideRecovery (torn : attempt.Torn disk.files)
    (there : disk.files.isDir attempt.stateDir = true) :
    (disk.files.isDir attempt.txDir = false →
      (project.decideRecovery attempt.stateDir (some [attempt.name]) true).run
        (Disk.serve entropy) disk = (.ok ([], []), disk)) ∧
    (∀ phase journal, attempt.Found disk.files phase journal → attempt.Sole disk.files →
      attempt.Accepted disk.files phase →
      (project.decideRecovery attempt.stateDir (some [attempt.name]) true).run
        (Disk.serve entropy) disk =
          (.ok ([⟨attempt.txDir, journal⟩], [attempt.plan phase journal]), disk)) ∧
    (disk.files.isDir attempt.txDir = true →
      (∀ phase journal, attempt.Found disk.files phase journal →
        ¬ (attempt.Sole disk.files ∧ attempt.Accepted disk.files phase)) →
      ∃ raised, (project.decideRecovery attempt.stateDir (some [attempt.name]) true).run
        (Disk.serve entropy) disk = (.error raised, disk)) := by
  have listed : (Project.listDirectory attempt.stateDir).run (Disk.serve entropy) disk = _ :=
    run_listDirectory there
  generalize entries : ((disk.files.names attempt.stateDir).insertionSort (· ≤ ·)).map
    (fun name => attempt.stateDir ++ [name]) = directories at listed
  have others (directory : Path) (inside : directory ∈ directories)
      (different : directory ≠ attempt.txDir) : disk.files.isDir directory = false := by
    rw [← entries] at inside
    obtain ⟨name, _, rfl⟩ := List.mem_map.mp inside
    rw [← Bool.not_eq_true]
    intro directory
    exact different (by rw [txDir, torn.only name directory])
  have once : directories.Nodup := by
    rw [← entries]
    refine List.Nodup.map (fun first second same => by simpa using same) ?_
    exact ((List.perm_insertionSort _ _).nodup_iff).mpr (FileSystem.nodup_names _ _)
  have inside (pending : disk.files.isDir attempt.txDir = true) :
      attempt.txDir ∈ directories := by
    rw [← entries, List.mem_map]
    refine ⟨attempt.txid, ?_, rfl⟩
    rw [List.mem_insertionSort, FileSystem.mem_names]
    have directory := (FileSystem.isDir_iff.mp pending).resolve_left txDir_ne_nil
    rw [show attempt.stateDir ++ [attempt.txid] = attempt.txDir from rfl, directory]
    rfl
  have scans {phase : Text} {journal : Json} (found : attempt.Found disk.files phase journal)
      (sole : attempt.Sole disk.files) :
      (Program.each (project.scanDirectory (some [attempt.name]) true) directories).run
        (Disk.serve entropy) disk =
          (.ok (directories.map fun directory => if directory = attempt.txDir
            then [Project.Candidate.mk attempt.txDir journal] else []), disk) := by
    refine Program.run_each_same fun directory member => ?_
    by_cases same : directory = attempt.txDir
    · rw [same, if_pos rfl]
      exact (run_scanDirectory_found found).1 sole
    · rw [if_neg same]
      exact run_scanDirectory_other (others directory member same)
  refine ⟨fun gone => ?_, fun phase journal found sole accepted => ?_, fun pending refused => ?_⟩
  · have scanned : (Program.each (project.scanDirectory (some [attempt.name]) true)
        directories).run (Disk.serve entropy) disk =
          (.ok (directories.map fun _ => []), disk) := by
      refine Program.run_each_same fun directory member => ?_
      refine run_scanDirectory_other ?_
      by_cases same : directory = attempt.txDir
      · rw [same, gone]
      · exact others directory member same
    unfold Project.decideRecovery
    refine (Program.run_bind_ok listed).trans ?_
    refine (Program.run_bind_ok scanned).trans ?_
    have empty : (directories.map fun _ => ([] : List Project.Candidate)).flatten = [] := by
      simp
    dsimp only
    rw [empty]
    rfl
  · unfold Project.decideRecovery
    refine (Program.run_bind_ok listed).trans ?_
    refine (Program.run_bind_ok (scans found sole)).trans ?_
    dsimp only
    rw [flatten_map_ite _ once (inside found.pending), mapM_planOf found]
    refine (Program.run_bind_ok (run_ofExcept entropy _)).trans ?_
    exact Program.run_bind_ok ((run_preflightRecoveryBatch torn _ rfl).1 accepted)
  · have stops (fails : ∃ raised, (project.scanDirectory (some [attempt.name]) true
        attempt.txDir).run (Disk.serve entropy) disk = (.error raised, disk)) :
        ∃ raised, (project.decideRecovery attempt.stateDir (some [attempt.name]) true).run
          (Disk.serve entropy) disk = (.error raised, disk) := by
      have scanned : ∃ raised, (Program.each (project.scanDirectory (some [attempt.name]) true)
          directories).run (Disk.serve entropy) disk = (.error raised, disk) := by
        refine (Program.run_each_or (fun _ => []) fun directory member => ?_).resolve_left ?_
        · by_cases same : directory = attempt.txDir
          · rw [same]
            exact Or.inr fails
          · exact Or.inl (run_scanDirectory_other (others directory member same))
        · intro all
          obtain ⟨raised, ran⟩ := fails
          rw [all _ (inside pending)] at ran
          cases ran
      obtain ⟨raised, ran⟩ := scanned
      refine ⟨raised, ?_⟩
      unfold Project.decideRecovery
      refine (Program.run_bind_ok listed).trans ?_
      exact Program.run_bind_error ran
    cases bare : disk.files.isFile attempt.journalPath with
    | false => exact stops (run_scanDirectory_bare pending bare)
    | true =>
        obtain ⟨phase, known, journal, described, lookup⟩ := torn.journal bare
        have found : attempt.Found disk.files phase journal := ⟨pending, known, described, lookup⟩
        by_cases sole : attempt.Sole disk.files
        · have unaccepted : ¬ attempt.Accepted disk.files phase :=
            fun accepted => refused phase journal found ⟨sole, accepted⟩
          have fails : ∃ raised, (project.preflightRecoveryBatch
              [attempt.plan phase journal]).run (Disk.serve entropy) disk = (.error raised, disk) :=
            (run_preflightRecoveryBatch torn _ rfl).2 unaccepted
          obtain ⟨raised, ran⟩ := fails
          refine ⟨raised, ?_⟩
          unfold Project.decideRecovery
          refine (Program.run_bind_ok listed).trans ?_
          refine (Program.run_bind_ok (scans found sole)).trans ?_
          dsimp only
          rw [flatten_map_ite _ once (inside pending), mapM_planOf found]
          refine (Program.run_bind_ok (run_ofExcept entropy _)).trans ?_
          exact Program.run_bind_error ran
        · exact stops ((run_scanDirectory_found found).2 sole)

/-! ## Removal -/

/-- The journal can be removed, and then its directory. -/
theorem serve_removal (entropy : Entropy) (file : disk.files.isFile attempt.journalPath = true)
    (pending : disk.files.isDir attempt.txDir = true) (sole : attempt.Sole disk.files) :
    ∃ middle after, Disk.serve entropy (.unlink attempt.journalPath) disk = (.ok (), middle) ∧
      Removed disk.files attempt.journalPath middle.files ∧
      Disk.serve entropy (.rmdir attempt.txDir) middle = (.ok (), after) ∧
      Removed middle.files attempt.txDir after.files := by
  obtain ⟨contents, there⟩ : ∃ contents,
      disk.files.lookup attempt.journalPath = some (.file contents) := by
    rw [FileSystem.isFile, FileSystem.contents?] at file
    rcases is : disk.files.lookup attempt.journalPath with _ | contents | _
    · rw [is] at file
      cases file
    · exact ⟨contents, rfl⟩
    · rw [is] at file
      cases file
  obtain ⟨middle, unlinked, removed⟩ := @serve_unlink_file entropy _ _ _ there
  have different : attempt.txDir ≠ attempt.journalPath := by simp [journalPath]
  have directory : middle.files.lookup attempt.txDir = some .dir := by
    rw [removed, if_neg different]
    exact (FileSystem.isDir_iff.mp pending).resolve_left txDir_ne_nil
  have empty (name : Text) : middle.files.lookup (attempt.txDir ++ [name]) = none := by
    rw [removed]
    split
    · rfl
    · next apart =>
        by_contra filled
        have inside : name ∈ disk.files.names attempt.txDir := by
          rw [FileSystem.mem_names, Option.isSome_iff_ne_none]
          exact filled
        exact apart (by rw [sole name inside]; rfl)
  obtain ⟨after, gone, cleared⟩ := @serve_rmdir_empty entropy _ _ directory empty
  exact ⟨middle, after, unlinked, removed, gone, cleared⟩

/-- The journal and its directory are removed. -/
theorem run_removeCandidate (entropy : Entropy) (journal : Json)
    (file : disk.files.isFile attempt.journalPath = true)
    (pending : disk.files.isDir attempt.txDir = true) (sole : attempt.Sole disk.files) :
    ∃ after, (project.removeCandidate ⟨attempt.txDir, journal⟩).run (Disk.serve entropy) disk =
        (.ok (), after) ∧
      ∀ other, after.files.lookup other = if other = attempt.txDir then none
        else if other = attempt.journalPath then none else disk.files.lookup other := by
  have writable : Writable attempt.journalPath := by
    rw [journalPath_eq]
    exact attempt.writable
  obtain ⟨middle, after, unlinked, removed, gone, cleared⟩ :=
    serve_removal entropy file pending sole
  refine ⟨after, ?_, fun other => ?_⟩
  · have unlinks : (project.durableUnlink attempt.journalPath false).run (Disk.serve entropy) disk =
        (.ok (), middle) := by
      unfold Project.durableUnlink
      rw [Project.assertConfined_ok writable]
      refine (Program.run_bind_ok (run_ofExcept entropy ())).trans ?_
      exact Program.run_act unlinked
    unfold Project.removeCandidate
    refine (Program.run_bind_ok unlinks).trans ?_
    exact Program.run_act gone
  · rw [cleared, removed]

variable (attempt) in
/-- The journal of the transaction was removed, or nothing was. -/
structure Removing (before after : FileSystem) : Prop where
  torn : attempt.Torn after
  kept : ∀ one ∈ attempt.prepared, after.lookup one.path = before.lookup one.path
  journal : after.lookup attempt.journalPath = before.lookup attempt.journalPath ∨
    after.lookup attempt.journalPath = none

/-- The removal keeps a transaction recoverable that is all undone or all done. -/
theorem keeps_removeCandidate (torn : attempt.Torn disk.files)
    (pending : disk.files.isDir attempt.txDir = true)
    (all : attempt.Before disk.files ∨ attempt.After disk.files) :
    Program.Keeps (Disk.serve entropy) (project.removeCandidate ⟨attempt.txDir, journal⟩)
      (fun cut => attempt.Removing disk.files cut.files) disk := by
  have start : attempt.Removing disk.files disk.files := ⟨torn, fun _ _ => rfl, Or.inl rfl⟩
  have unlinks : Program.Keeps (Disk.serve entropy)
      (project.durableUnlink attempt.journalPath false)
      (fun cut => attempt.Removing disk.files cut.files) disk := by
    refine keeps_durableUnlink project start (fun after removed => ?_) false
    refine ⟨(torn.unlinkJournal pending removed).1, fun one member => ?_, Or.inr ?_⟩
    · exact lookup_of_inside removed.around List.prefix_rfl stateDir_prefix_journalPath member
    · rw [removed, if_pos rfl]
  unfold Project.removeCandidate
  refine Program.Keeps.bind unlinks fun _ middle ran removing => ?_
  refine Program.meets_act.mpr ⟨removing, ?_⟩
  rcases serve_rmdir attempt.txDir middle with ⟨after, served, removed⟩ | ⟨error, served⟩
  · rw [served]
    have same {one : PreparedFile} (member : one ∈ attempt.prepared) :
        after.files.lookup one.path = middle.files.lookup one.path :=
      lookup_of_inside removed.around (List.prefix_append _ _) stateDir_prefix_txDir member
    have different : attempt.journalPath ≠ attempt.txDir := by simp [journalPath]
    have settled : attempt.Before middle.files ∨ attempt.After middle.files := by
      refine all.imp ?_ ?_
      · exact fun all one member => (removing.kept one member).trans (all one member)
      · exact fun all one member => (removing.kept one member).trans (all one member)
    refine Program.meets_pure.mpr ⟨⟨removing.torn.rmdir removed settled, fun one member =>
      (same member).trans (removing.kept one member), ?_⟩, trivial⟩
    rw [removed, if_neg different]
    exact removing.journal
  · rw [served]
    exact Program.meets_raise.mpr ⟨removing, trivial⟩

/-! ## Recovery -/

variable (attempt) in
/-- Different bytes of a destination have different digests. -/
def Distinguished : Prop :=
  ∀ one ∈ attempt.prepared, project.host.sha one.before = project.host.sha one.data →
    one.before = one.data

variable (attempt) in
/-- The recovery of the transaction by its name. -/
def recovery : FileProgram (List Json) :=
  project.recoverPending attempt.stateDir (some attempt.name) true

theorem contents?_of_lookup {contents : Option Bytes}
    (is : files.lookup path = contents.map .file) : files.contents? path = contents := by
  rw [FileSystem.contents?, is]
  cases contents <;> rfl

/-- Digests tell whether a settled transaction was undone or done. -/
theorem Torn.settled (torn : attempt.Torn files) (distinguished : attempt.Distinguished)
    (accepted : attempt.Accepted files phase) (settled : phase ∈ settledPhases) :
    if phase = text "COMMITTED" then attempt.After files else attempt.Before files := by
  have expected (one : PreparedFile) (member : one ∈ attempt.prepared) :
      project.host.sha (files.contents? one.path) =
        if phase = text "COMMITTED" then project.host.sha one.data
        else project.host.sha one.before := by
    have here := accepted one member
    rw [decide_eq_true settled, Bool.not_true] at here
    simp only [settledPhases, List.mem_cons, List.not_mem_nil, or_false] at settled
    rcases settled with rfl | rfl
    · simpa [expectedHashes] using here
    · simpa [expectedHashes] using here
  split
  · next committed =>
      intro one member
      have here := expected one member
      rw [if_pos committed] at here
      rcases torn.either one member with is | is
      · rw [contents?_of_lookup is] at here
        rw [is, distinguished one member here]
      · exact is
  · next open_ =>
      intro one member
      have here := expected one member
      rw [if_neg open_] at here
      rcases torn.either one member with is | is
      · exact is
      · rw [contents?_of_lookup is] at here
        rw [is, distinguished one member here.symm]

theorem rollback_plan (known : phase ∈ Project.phases) :
    (attempt.plan phase journal).rollback = !decide (phase ∈ settledPhases) := by
  simp only [Project.phases, List.mem_cons, List.not_mem_nil, or_false] at known
  rcases known with rfl | rfl | rfl | rfl <;> simp [plan, planFor, settledPhases]

/-- The plan is applied, and its destinations are all undone or all done. -/
theorem run_plan (torn : attempt.Torn disk.files) (distinguished : attempt.Distinguished)
    (found : attempt.Found disk.files phase journal)
    (accepted : attempt.Accepted disk.files phase) :
    ∃ recovered after, (project.applyRecovery (attempt.plan phase journal)).run
        (Disk.serve project.host.entropy) disk = (.ok recovered, after) ∧
      (if phase = text "COMMITTED" then attempt.After after.files
        else attempt.Before after.files) ∧
      after.files.isFile attempt.journalPath = true ∧
      ∀ path, attempt.txDir <+: path → path ≠ attempt.journalPath →
        after.files.lookup path = disk.files.lookup path := by
  by_cases settled : phase ∈ settledPhases
  · have rollback : (attempt.plan phase journal).rollback = false := by
      rw [rollback_plan found.known, decide_eq_true settled]
      rfl
    refine ⟨(attempt.plan phase journal).journal, disk, ?_,
      torn.settled distinguished accepted settled, found.isFile, fun _ _ _ => rfl⟩
    unfold Project.applyRecovery
    rw [if_pos rollback]
    rfl
  · have rollback : (attempt.plan phase journal).rollback = true := by
      rw [rollback_plan found.known, decide_eq_false settled]
      rfl
    obtain ⟨recovered, after, ran, before, file, kept⟩ :=
      run_applyRecovery torn found.isFile rollback
    refine ⟨recovered, after, ran, ?_, file, kept⟩
    rw [if_neg]
    · exact before
    · rintro rfl
      exact settled (by simp [settledPhases])

theorem encodes_stateDir : attempt.stateDir.all encodable = true := by
  rw [List.all_eq_true]
  intro name member
  exact attempt.writable.2.2 name (List.mem_append_left _ member)

theorem run_pathExists (path : Path) : (pathExists path).run (Disk.serve entropy) disk =
    (.ok (path.all encodable && disk.files.exists? path), disk) := rfl

theorem exists_of_isDir (there : files.isDir path = true) : files.exists? path = true := by
  rw [FileSystem.isDir, Bool.or_eq_true] at there
  rw [FileSystem.exists?, Bool.or_eq_true]
  refine there.imp id fun directory => ?_
  rw [of_decide_eq_true directory]
  rfl

/-- A recovery that finds the journal alone and accepts the destinations returns, and leaves
them all done where the transaction was committed, and else all undone. -/
theorem run_recovery (torn : attempt.Torn disk.files) (distinguished : attempt.Distinguished)
    (found : attempt.Found disk.files phase journal) (sole : attempt.Sole disk.files)
    (accepted : attempt.Accepted disk.files phase) :
    ∃ recovered final, attempt.recovery.run (Disk.serve project.host.entropy) disk =
        (.ok recovered, final) ∧
      (if phase = text "COMMITTED" then attempt.After final.files
        else attempt.Before final.files) ∧
      final.files.isDir attempt.txDir = false := by
  have there : disk.files.isDir attempt.stateDir = true :=
    FileSystem.isDir_of_prefix found.pending stateDir_prefix_txDir
  have decided : (project.decideRecovery attempt.stateDir (some [attempt.name]) true).run
      (Disk.serve project.host.entropy) disk = _ :=
    (run_decideRecovery torn there).2.1 phase journal found sole accepted
  obtain ⟨recovered, middle, applied, outcome, file, kept⟩ :=
    run_plan torn distinguished found accepted
  have different : attempt.txDir ≠ attempt.journalPath := by simp [journalPath]
  have pending : middle.files.isDir attempt.txDir = true := by
    rw [FileSystem.isDir, kept _ List.prefix_rfl different]
    exact found.pending
  have soleStill : attempt.Sole middle.files := by
    intro name inside
    by_contra other
    rw [FileSystem.mem_names, kept _ (List.prefix_append _ _)
      (fun same => other (by simpa [journalPath] using same)), ← FileSystem.mem_names] at inside
    exact other (sole name inside)
  obtain ⟨final, removes, lookups⟩ := run_removeCandidate project.host.entropy journal file
    pending soleStill
  have destinations {one : PreparedFile} (member : one ∈ attempt.prepared) :
      final.files.lookup one.path = middle.files.lookup one.path := by
    have apart (inside : Path) (below : inside <+: attempt.journalPath) : one.path ≠ inside := by
      rintro rfl
      exact destination_not_prefix member below List.prefix_rfl
    rw [lookups, if_neg (apart _ (List.prefix_append _ _)), if_neg (apart _ List.prefix_rfl)]
  refine ⟨[recovered], final, ?_, ?_, ?_⟩
  · have exists_ : (attempt.stateDir.all encodable &&
        disk.files.exists? attempt.stateDir) = true := by
      rw [encodes_stateDir, exists_of_isDir there]
      rfl
    have applies : (project.applyPlans [attempt.plan phase journal]).run
        (Disk.serve project.host.entropy) disk = (.ok [recovered], middle) :=
      Program.run_bind_ok applied
    have removal : (Program.each project.removeCandidate [⟨attempt.txDir, journal⟩]).run
        (Disk.serve project.host.entropy) middle = (.ok [()], final) :=
      Program.run_bind_ok removes
    unfold recovery Project.recoverPending
    refine (Program.run_bind_ok (run_pathExists _)).trans ?_
    rw [exists_, if_pos rfl]
    unfold Project.recoverCandidates
    refine (Program.run_bind_ok decided).trans ?_
    refine (Program.run_bind_ok applies).trans ?_
    rw [if_pos rfl]
    exact Program.run_bind_ok removal
  · split
    · next committed =>
        rw [if_pos committed] at outcome
        exact fun one member => (destinations member).trans (outcome one member)
    · next open_ =>
        rw [if_neg open_] at outcome
        exact fun one member => (destinations member).trans (outcome one member)
  · rw [← Bool.not_eq_true, FileSystem.isDir_iff, lookups, if_pos rfl]
    simp [txDir_ne_nil]

theorem Torn.isDir_stateDir (torn : attempt.Torn files)
    (there : files.exists? attempt.stateDir = true) : files.isDir attempt.stateDir = true := by
  by_contra missing
  rw [torn.home (Bool.eq_false_iff.mpr missing)] at there
  cases there

/-- The plan is applied and its journal removed. -/
theorem Torn.keeps_applied (torn : attempt.Torn disk.files)
    (distinguished : attempt.Distinguished) (found : attempt.Found disk.files phase journal)
    (accepted : attempt.Accepted disk.files phase) :
    Program.Keeps (Disk.serve project.host.entropy)
      (do
        let recovered ← project.applyPlans [attempt.plan phase journal]
        if true then
          let _ ← Program.each project.removeCandidate [⟨attempt.txDir, journal⟩]
          .pure recovered
        else .pure recovered)
      (fun cut => attempt.Torn cut.files) disk := by
  obtain ⟨recovered, middle, applied, outcome, _, _⟩ := run_plan torn distinguished found accepted
  have applying := (meets_applyRecovery torn found.pending (!decide (phase ∈ settledPhases))
    found.described rfl).keeps
  obtain ⟨torn', pending⟩ := Program.Keeps.of_run applying applied
  have all : attempt.Before middle.files ∨ attempt.After middle.files := by
    split at outcome
    · exact Or.inr outcome
    · exact Or.inl outcome
  have plans : (project.applyPlans [attempt.plan phase journal]).run
      (Disk.serve project.host.entropy) disk = (.ok [recovered], middle) :=
    Program.run_bind_ok applied
  refine Program.Keeps.bind (Program.Keeps.bind (applying.mono (fun _ held => held.1)
    fun _ _ _ _ => trivial) fun _ _ _ torn => Program.meets_pure.mpr ⟨torn, trivial⟩) ?_
  rintro value final ran -
  rw [plans] at ran
  cases ran
  rw [if_pos rfl]
  refine Program.Keeps.bind (Program.Keeps.bind ((keeps_removeCandidate torn' pending all).mono
    (fun _ removing => removing.torn) fun _ _ _ _ => trivial)
    fun _ _ _ torn => Program.meets_pure.mpr ⟨torn, trivial⟩) ?_
  exact fun _ _ _ torn => Program.meets_pure.mpr ⟨torn, trivial⟩

theorem Torn.run_nothing (torn : attempt.Torn disk.files)
    (nothing : disk.files.isDir attempt.txDir = false) :
    attempt.recovery.run (Disk.serve project.host.entropy) disk = (.ok [], disk) := by
  unfold recovery Project.recoverPending
  refine (Program.run_bind_ok (run_pathExists _)).trans ?_
  split
  · next here =>
      have there := torn.isDir_stateDir (Bool.and_eq_true_iff.mp here).2
      unfold Project.recoverCandidates
      exact Program.run_bind_ok ((run_decideRecovery torn there).1 nothing)
  · rfl

/-- What a recovery keeps: what holds at its start, and while its plan is carried out. -/
theorem Torn.keeps_recovery_of {kept : Disk → Prop} (torn : attempt.Torn disk.files)
    (start : kept disk)
    (applied : ∀ phase journal, attempt.Found disk.files phase journal →
      attempt.Accepted disk.files phase →
      Program.Keeps (Disk.serve project.host.entropy)
        (do
          let recovered ← project.applyPlans [attempt.plan phase journal]
          if true then
            let _ ← Program.each project.removeCandidate [⟨attempt.txDir, journal⟩]
            .pure recovered
          else .pure recovered) kept disk) :
    Program.Keeps (Disk.serve project.host.entropy) attempt.recovery kept disk := by
  unfold recovery Project.recoverPending
  refine Program.Keeps.bind (Program.meets_act.mpr
    ⟨start, Program.meets_pure.mpr ⟨start, trivial⟩⟩) ?_
  rintro exists_ state ran -
  rw [run_pathExists, Prod.mk.injEq, Except.ok.injEq] at ran
  obtain ⟨rfl, rfl⟩ := ran
  split
  · next here =>
      have there := torn.isDir_stateDir (Bool.and_eq_true_iff.mp here).2
      obtain ⟨nothing, pendings, stops⟩ := @run_decideRecovery project attempt
        project.host.entropy disk torn there
      have reading : Program.Keeps (Disk.serve project.host.entropy)
          (project.decideRecovery attempt.stateDir (some [attempt.name]) true) kept disk := by
        refine (reads_decideRecovery _ _ _).keeps ?_ start
        rintro request rfl state held
        exact held
      unfold Project.recoverCandidates
      refine Program.Keeps.bind reading ?_
      rintro ⟨candidates, plans⟩ middle decided -
      rw [Option.map_some] at decided
      cases pending : disk.files.isDir attempt.txDir with
      | false =>
          rw [nothing pending] at decided
          cases decided
          exact Program.meets_pure.mpr ⟨start, trivial⟩
      | true =>
          by_cases ready : ∃ phase journal, attempt.Found disk.files phase journal ∧
            attempt.Sole disk.files ∧ attempt.Accepted disk.files phase
          · obtain ⟨phase, journal, found, sole, accepted⟩ := ready
            rw [pendings phase journal found sole accepted] at decided
            cases decided
            exact applied phase journal found accepted
          · obtain ⟨raised, ran⟩ := stops pending fun phase journal found both =>
              ready ⟨phase, journal, found, both⟩
            rw [ran] at decided
            cases decided
  · exact Program.meets_pure.mpr ⟨start, trivial⟩

/-- Every state that a recovery visits can be recovered again. -/
theorem keeps_recovery (torn : attempt.Torn disk.files) (distinguished : attempt.Distinguished) :
    Program.Keeps (Disk.serve project.host.entropy) attempt.recovery
      (fun cut => attempt.Torn cut.files) disk :=
  torn.keeps_recovery_of torn fun _ _ found accepted =>
    torn.keeps_applied distinguished found accepted

variable (attempt) in
/-- The transaction is over: its destinations are settled, and no journal says otherwise. -/
structure Kept (phase : Text) (files : FileSystem) : Prop where
  torn : attempt.Torn files
  settled : if phase = text "COMMITTED" then attempt.After files else attempt.Before files
  found : ∀ other journal, attempt.Found files other journal → other = phase

/-- A recovery leaves a transaction that is over as it is. -/
theorem Kept.keeps_recovery (member : phase ∈ settledPhases)
    (kept : attempt.Kept phase disk.files) :
    Program.Keeps (Disk.serve project.host.entropy) attempt.recovery
      (fun cut => attempt.Kept phase cut.files) disk := by
  refine kept.torn.keeps_recovery_of kept fun other journal found accepted => ?_
  obtain rfl := kept.found other journal found
  have rollback : (attempt.plan other journal).rollback = false := by
    rw [rollback_plan found.known, decide_eq_true member]
    rfl
  have applies : project.applyPlans [attempt.plan other journal] =
      .pure [(attempt.plan other journal).journal] := by
    unfold Project.applyPlans
    rw [Program.each, Project.applyRecovery, if_pos rollback]
    rfl
  have all : attempt.Before disk.files ∨ attempt.After disk.files := by
    have settled := kept.settled
    split at settled
    · exact Or.inr settled
    · exact Or.inl settled
  rw [applies]
  refine Program.Keeps.bind (Program.meets_pure.mpr ⟨kept, trivial⟩) ?_
  rintro _ _ ⟨⟩ -
  rw [if_pos rfl]
  have removing {cut : Disk} (removing : attempt.Removing disk.files cut.files) :
      attempt.Kept other cut.files := by
    refine ⟨removing.torn, ?_, fun next journal' found' => ?_⟩
    · have settled := kept.settled
      split at settled
      · next committed =>
          rw [if_pos committed]
          exact fun one member => (removing.kept one member).trans (settled one member)
      · next open_ =>
          rw [if_neg open_]
          exact fun one member => (removing.kept one member).trans (settled one member)
    · rcases removing.journal with same | gone
      · exact kept.found next journal' ⟨found.pending, found'.known, found'.described,
          same.symm.trans found'.lookup⟩
      · have there := found'.lookup
        rw [gone] at there
        cases there
  refine Program.Keeps.bind (Program.Keeps.bind ((keeps_removeCandidate kept.torn found.pending
    all).mono (fun _ => removing) fun _ _ _ _ => trivial)
    fun _ _ _ kept => Program.meets_pure.mpr ⟨kept, trivial⟩) ?_
  exact fun _ _ _ kept => Program.meets_pure.mpr ⟨kept, trivial⟩

/-- The journal of a transaction is in one phase. -/
theorem Found.phase_unique {other : Text} {journal' : Json}
    (found : attempt.Found files phase journal) (found' : attempt.Found files other journal') :
    other = phase := by
  have same := found.lookup.symm.trans found'.lookup
  simp only [Option.some.injEq, Node.file.injEq] at same
  have journals : some journal = some journal' := by
    have read : readJson project.host.floats (jsonLine project.host.floats .indented journal) =
        some journal.normalize := readJson_jsonLine journal
    rw [same, readJson_jsonLine, found.described.plain, found'.described.plain] at read
    exact read.symm
  cases journals
  have phases := found.described.phase.symm.trans found'.described.phase
  rw [Json.str.injEq] at phases
  exact phases.symm

/-- A recovery returns where no transaction is pending, or where the journal of the pending one
stands alone and its destinations have digests that its phase allows. -/
theorem returns_iff_accepted (torn : attempt.Torn disk.files)
    (distinguished : attempt.Distinguished) :
    (∃ recovered final, attempt.recovery.run (Disk.serve project.host.entropy) disk =
        (.ok recovered, final)) ↔
      disk.files.isDir attempt.txDir = false ∨ ∃ phase journal,
        attempt.Found disk.files phase journal ∧ attempt.Sole disk.files ∧
          attempt.Accepted disk.files phase := by
  constructor
  · rintro ⟨recovered, final, ran⟩
    by_contra neither
    rw [not_or, Bool.not_eq_false] at neither
    obtain ⟨pending, unready⟩ := neither
    have there : disk.files.isDir attempt.stateDir = true :=
      FileSystem.isDir_of_prefix pending stateDir_prefix_txDir
    obtain ⟨raised, stopped⟩ := (@run_decideRecovery project attempt project.host.entropy disk
      torn there).2.2 pending fun phase journal found both => unready ⟨phase, journal, found, both⟩
    rw [recovery, Project.recoverPending, Program.run_bind_ok (run_pathExists _),
      if_pos (by rw [encodes_stateDir, exists_of_isDir there]; rfl), Project.recoverCandidates,
      Option.map_some, Program.run_bind_error stopped] at ran
    cases ran
  · rintro (nothing | ⟨phase, journal, found, sole, accepted⟩)
    · exact ⟨[], disk, torn.run_nothing nothing⟩
    · obtain ⟨recovered, final, ran, _⟩ := run_recovery torn distinguished found sole accepted
      exact ⟨recovered, final, ran⟩

/-- In its phase a transaction may be as it is: a settled one is all done or all undone. -/
def Consistent (attempt : Attempt project) (files : FileSystem) (phase : Text) : Prop :=
  (phase = text "COMMITTED" → attempt.After files) ∧
    (phase = text "ROLLED_BACK" → attempt.Before files)

theorem accepted_iff_consistent (torn : attempt.Torn files)
    (distinguished : attempt.Distinguished) (known : phase ∈ Project.phases) :
    attempt.Accepted files phase ↔ attempt.Consistent files phase := by
  constructor
  · intro accepted
    refine ⟨?_, ?_⟩
    · rintro rfl
      have settled := torn.settled distinguished accepted (by simp [settledPhases])
      rwa [if_pos rfl] at settled
    · rintro rfl
      have settled := torn.settled distinguished accepted (by simp [settledPhases])
      rwa [if_neg (by simp)] at settled
  · rintro ⟨done, undone⟩ one member
    simp only [Project.phases, List.mem_cons, List.not_mem_nil, or_false] at known
    have either : project.host.sha (files.contents? one.path) ∈
        [project.host.sha one.before, project.host.sha one.data] := by
      rcases torn.either one member with is | is
      · rw [contents?_of_lookup is]
        exact List.mem_cons_self
      · rw [contents?_of_lookup is]
        exact List.mem_cons_of_mem _ List.mem_cons_self
    rcases known with rfl | rfl | rfl | rfl
    · simpa [expectedHashes] using either
    · simpa [expectedHashes] using either
    · have here := done rfl one member
      rw [contents?_of_lookup here]
      simp [expectedHashes, settledPhases]
    · have here := undone rfl one member
      rw [contents?_of_lookup here]
      simp [expectedHashes]

/-- A recovery that returned left the destinations all as they were or all written, and no
transaction pending. -/
theorem recovery_settles {recovered : List Json} {final : Disk} (torn : attempt.Torn disk.files)
    (distinguished : attempt.Distinguished)
    (ran : attempt.recovery.run (Disk.serve project.host.entropy) disk = (.ok recovered, final)) :
    (attempt.Before final.files ∨ attempt.After final.files) ∧
      final.files.isDir attempt.txDir = false := by
  rcases (returns_iff_accepted torn distinguished).mp ⟨recovered, final, ran⟩ with
    nothing | ⟨phase, journal, found, sole, accepted⟩
  · rw [torn.run_nothing nothing] at ran
    cases ran
    exact ⟨torn.absent nothing, nothing⟩
  · obtain ⟨_, _, ran', outcome, gone⟩ := run_recovery torn distinguished found sole accepted
    rw [ran'] at ran
    cases ran
    refine ⟨?_, gone⟩
    split at outcome
    · exact Or.inr outcome
    · exact Or.inl outcome

end Attempt

end CarbonLab.Aegis
