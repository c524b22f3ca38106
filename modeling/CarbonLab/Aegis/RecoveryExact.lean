import CarbonLab.Aegis.AtomicCuts
import CarbonLab.Aegis.RecoveryOrder

/-!
# When the order of a recovery matters

A plan that was applied has found every one of its destinations writable.  So plans that are
all applied, and leave the same files in every order, can be applied whatever others were
applied before them.
-/

namespace CarbonLab.Aegis

open Project FileProgram

variable {project : Project} {entropy : Entropy} {disk after : Disk} {path : Path}

/-! ## Writes that returned -/

theorem writable_of_assertConfined (below : path ≠ [])
    (confined : project.assertConfined path = .ok ()) : Writable path := by
  unfold assertConfined at confined
  obtain ⟨_, _, allowed⟩ := bind_eq_ok.mp confined
  have allowed : project.assertMutationAllowed path = .ok () := by
    split at allowed
    · cases allowed
    · exact allowed
  simp only [assertMutationAllowed, bind_eq_ok, require_eq_ok, exists_const] at allowed
  obtain ⟨deployed, instructions, names⟩ := allowed
  refine ⟨below, ?_, names⟩
  simp only [governed, Bool.or_eq_false_iff, decide_eq_false_iff_not]
  exact ⟨deployed, instructions⟩

theorem isDir_of_serve_mkdir
    (served : Disk.serve entropy (.mkdir path) disk = (.ok (), after)) :
    after.files.isDir path = true := by
  rw [Disk.serve] at served
  split at served
  · cases served
  · split at served
    · cases served
      rw [FileSystem.isDir_iff, Disk.withFiles, FileSystem.lookup_put, if_pos rfl]
      exact Or.inr rfl
    · cases served

theorem isDir_of_run_isDir {error : OsError}
    (ran : (do if ← FileProgram.isDir path then .pure () else .raise (osError error) :
      FileProgram Unit).run (Disk.serve entropy) disk = (.ok (), after)) :
    after.files.isDir path = true := by
  obtain ⟨there, middle, looked, ran⟩ := Program.exists_of_run_bind ran
  cases looked
  split at ran
  · next directory =>
      cases ran
      exact directory
  · cases ran

theorem isDir_of_mkdirExisting
    (ran : (mkdirExisting path).run (Disk.serve entropy) disk = (.ok (), after)) :
    after.files.isDir path = true := by
  unfold mkdirExisting at ran
  rw [Program.run] at ran
  rcases served : Disk.serve entropy (.mkdir path) disk with ⟨error | _, middle⟩
  · rw [served] at ran
    cases error with
    | fileNotFound => cases ran
    | _ => exact isDir_of_run_isDir ran
  · rw [served] at ran
    cases ran
    exact isDir_of_serve_mkdir served

theorem isDir_of_mkdirUp {names : List Text}
    (ran : (mkdirUp names).run (Disk.serve entropy) disk = (.ok (), after)) :
    after.files.isDir names.reverse = true := by
  cases names with
  | nil => rfl
  | cons name above =>
      unfold mkdirUp at ran
      rw [Program.run] at ran
      rcases served : Disk.serve entropy (.mkdir (name :: above).reverse) disk with
        ⟨error | _, middle⟩
      · rw [served] at ran
        cases error with
        | fileNotFound =>
            obtain ⟨_, _, _, ran⟩ := Program.exists_of_run_bind ran
            exact isDir_of_mkdirExisting ran
        | _ => exact isDir_of_run_isDir ran
      · rw [served] at ran
        cases ran
        exact isDir_of_serve_mkdir served

/-- Directories are made under no file. -/
theorem clear_of_mkdirParents
    (ran : (mkdirParents path.dropLast).run (Disk.serve entropy) disk = (.ok (), after)) :
    disk.files.Clear path ∧ Sprouted path.dropLast disk.files after.files := by
  have keeps : Program.Keeps (Disk.serve entropy) (mkdirParents path.dropLast)
      (fun cut => Sprouted path.dropLast disk.files cut.files) disk :=
    keeps_mkdirParents (Sprouted.refl _)
  have sprouted : Sprouted path.dropLast disk.files after.files := keeps.of_run ran
  refine ⟨fun above prefixed => ?_, sprouted⟩
  have directory := isDir_of_mkdirUp ran
  rw [List.reverse_reverse] at directory
  rw [FileSystem.isFile_eq_false]
  rcases FileSystem.isDir_iff.mp (FileSystem.isDir_of_prefix directory prefixed) with rfl | there
  · exact Or.inl FileSystem.lookup_root
  · rcases sprouted above with same | ⟨absent, _⟩
    · exact Or.inr (same.symm.trans there)
    · exact Or.inl absent

theorem free_of_serve_replace {source : Path}
    (served : Disk.serve entropy (.replace source path) disk = (.ok (), after)) :
    disk.files.lookup path ≠ some .dir := by
  rw [Disk.serve] at served
  split at served
  · split at served
    · next fits => exact fits.2.2
    · split at served
      · cases served
      · cases served
  · cases served
  · cases served

/-- A temporary file took the place of no directory. -/
theorem free_of_fillTemporary {temporary : Path} {data : Bytes} {mode : Json}
    (file : disk.files.lookup temporary ≠ some .dir)
    (ran : (fillTemporary temporary path data mode).run (Disk.serve entropy) disk =
      (.ok (), after)) : checkMode mode = .ok () ∧ disk.files.lookup path ≠ some .dir := by
  unfold fillTemporary at ran
  obtain ⟨_, middle, checked, ran⟩ := Program.exists_of_run_bind ran
  obtain ⟨bits, same⟩ := ok_of_ofExcept checked
  rw [same] at ran
  refine ⟨bits, ?_⟩
  obtain ⟨_, written, wrote, ran⟩ := Program.exists_of_run_bind ran
  unfold Program.run at wrote ran
  rcases @serve_write entropy temporary data disk with ⟨last, served, files⟩ |
    ⟨error, served⟩
  · rw [served] at wrote
    cases wrote
    rcases replaced : Disk.serve entropy (.replace temporary path) last with ⟨error | _, final⟩
    · rw [replaced] at ran
      cases ran
    · intro directory
      refine free_of_serve_replace replaced ?_
      rw [files, if_neg, directory]
      rintro rfl
      exact file directory
  · rw [served] at wrote
    cases wrote

/-- A write that returned: where it wrote and what it left. -/
theorem written_of_atomicWriteBytes {data : Bytes} {mode : Json} (below : path ≠ [])
    (ran : (project.atomicWriteBytes path data mode).run (Disk.serve entropy) disk =
      (.ok (), after)) :
    Writable path ∧ checkMode mode = .ok () ∧ disk.files.Clear path ∧
      disk.files.lookup path ≠ some .dir ∧ Written disk.files path data after.files := by
  have whole := ran
  unfold atomicWriteBytes at ran
  obtain ⟨_, first, checked, ran⟩ := Program.exists_of_run_bind ran
  obtain ⟨confined, same⟩ := ok_of_ofExcept checked
  rw [same] at ran
  obtain ⟨_, middle, made, ran⟩ := Program.exists_of_run_bind ran
  obtain ⟨_, second, again, ran⟩ := Program.exists_of_run_bind ran
  obtain ⟨-, same⟩ := ok_of_ofExcept again
  rw [same] at ran
  obtain ⟨temporary, opened, created, ran⟩ := Program.exists_of_run_bind ran
  rw [Program.run_tryCatch] at ran
  obtain ⟨clear, sprouted⟩ := clear_of_mkdirParents made
  have writable := writable_of_assertConfined below confined
  unfold Program.run at created
  rcases @serve_mkstemp entropy path.dropLast
      (text "." ++ path.getLast?.getD [] ++ text ".") middle with
    ⟨_, last, served, fresh, files⟩ | ⟨error, served⟩
  · rw [served] at created
    cases created
    rcases filled : (fillTemporary _ path data mode).run (Disk.serve entropy) last with
      ⟨error | _, final⟩
    · rw [filled] at ran
      obtain ⟨_, _, _, ran⟩ := Program.exists_of_run_bind ran
      obtain ⟨_, _, _, ran⟩ := Program.exists_of_run_bind ran
      cases ran
    · obtain ⟨bits, free⟩ := free_of_fillTemporary (by rw [files, if_pos rfl]; simp) filled
      have free : disk.files.lookup path ≠ some .dir := by
        intro directory
        have between : middle.files.lookup path = some .dir :=
          (sprouted.unchanged below).trans directory
        refine free ?_
        rw [files, if_neg, between]
        intro same
        rw [same, fresh] at between
        cases between
      obtain ⟨last, ran, written⟩ := run_atomicWriteBytes entropy project data writable bits clear free
      rw [whole] at ran
      cases ran
      exact ⟨writable, bits, clear, free, written⟩
  · rw [served] at created
    cases created

/-- A removal that returned: where it removed and what it left. -/
theorem removed_of_durableUnlink (below : path ≠ [])
    (ran : (project.durableUnlink path true).run (Disk.serve entropy) disk = (.ok (), after)) :
    Writable path ∧ disk.files.Clear path ∧ disk.files.lookup path ≠ some .dir ∧
      Removed disk.files path after.files := by
  have whole := ran
  unfold durableUnlink at ran
  obtain ⟨_, first, checked, ran⟩ := Program.exists_of_run_bind ran
  obtain ⟨confined, same⟩ := ok_of_ofExcept checked
  rw [same] at ran
  have writable := writable_of_assertConfined below confined
  rw [if_pos rfl] at ran
  unfold unlinkMissing Program.run at ran
  have facts : disk.files.Clear path ∧ disk.files.lookup path ≠ some .dir := by
    rw [Disk.serve] at ran
    split at ran
    · next contents file =>
        have directory := FileSystem.isDir_dropLast
          (show (disk.files.lookup path).isSome by rw [file]; rfl)
        refine ⟨fun above prefixed => ?_, by rw [file]; simp⟩
        rw [FileSystem.isFile_eq_false]
        rcases FileSystem.isDir_iff.mp (FileSystem.isDir_of_prefix directory prefixed) with rfl |
          there
        · exact Or.inl FileSystem.lookup_root
        · exact Or.inr there
    · cases ran
    · next absent =>
        rw [Disk.missing] at ran
        split at ran
        · cases ran
        · next clear =>
            rw [Bool.not_eq_true, FileSystem.underFile_eq_false] at clear
            exact ⟨clear, by rw [absent]; simp⟩
  obtain ⟨last, ran', removed⟩ := run_durableUnlink entropy project writable facts.1 facts.2
  rw [whole] at ran'
  cases ran'
  exact ⟨writable, facts.1, facts.2, removed⟩

/-! ## Paths that are no destination -/

/-- A path was left alone, or became a directory that something was written below. -/
def Steady (path : Path) (before after : FileSystem) : Prop :=
  after.lookup path = before.lookup path ∨
    before.isFile path = false ∧ after.lookup path = some .dir

section

variable {first second third : FileSystem} {destination : Destination}
  {items front back : List Destination} {values : List Unit}

theorem Steady.refl (path : Path) (files : FileSystem) : Steady path files files := Or.inl rfl

theorem Steady.trans (left : Steady path first second) (right : Steady path second third) :
    Steady path first third := by
  rcases left with same | ⟨nofile, directory⟩
  · rwa [Steady, ← same, FileSystem.isFile, FileSystem.contents?, ← same]
  · refine Or.inr ⟨nofile, ?_⟩
    rcases right with same | ⟨_, directory'⟩
    · exact same.trans directory
    · exact directory'

theorem Steady.file {bytes : Bytes} (steady : Steady path first second)
    (file : first.lookup path = some (.file bytes)) : second.lookup path = some (.file bytes) := by
  rcases steady with same | ⟨nofile, _⟩
  · exact same.trans file
  · rw [FileSystem.isFile_of_lookup file] at nofile
    cases nofile

theorem Steady.isFile (steady : Steady path first second) (file : first.isFile path = true) :
    second.isFile path = true := by
  rcases steady with same | ⟨nofile, _⟩
  · rwa [FileSystem.isFile, FileSystem.contents?, same]
  · rw [file] at nofile
    cases nofile

/-- A path holds what stood there, or nothing did and it became a directory. -/
def HoldsAgain (before : Option Bytes) (path : Path) (files : FileSystem) : Prop :=
  files.lookup path = before.map .file ∨ before = none ∧ files.lookup path = some .dir

theorem HoldsAgain.steady {before : Option Bytes} (holds : HoldsAgain before path first)
    (steady : Steady path first second) : HoldsAgain before path second := by
  rcases steady with same | ⟨nofile, directory⟩
  · rwa [HoldsAgain, same]
  · refine Or.inr ⟨?_, directory⟩
    rcases holds with holds | ⟨absent, _⟩
    · cases before with
      | none => rfl
      | some bytes =>
          rw [FileSystem.isFile_of_lookup holds] at nofile
          cases nofile
    · exact absent

theorem HoldsAgain.file {bytes : Bytes} (holds : HoldsAgain (some bytes) path first) :
    first.isFile path = true := FileSystem.isFile_of_lookup (holds.resolve_right (by simp))

theorem Written.steady {target : Path} {data : Bytes} (written : Written first target data second)
    (clear : first.Clear target) (different : path ≠ target) : Steady path first second := by
  rw [Steady, written, if_neg different]
  split
  · next above => exact Or.inr ⟨clear path above.2, rfl⟩
  · exact Or.inl rfl

/-- A destination can be restored on some files. -/
structure Fits (destination : Destination) (files : FileSystem) : Prop where
  writable : Writable destination.path
  mode : destination.before.isSome → checkMode destination.mode = .ok ()
  clear : files.Clear destination.path
  free : files.lookup destination.path ≠ some .dir

/-- A destination that fits is not nested with a file. -/
theorem Fits.not_nested {files : FileSystem} (fits : Fits destination files)
    (file : files.isFile path = true) :
    ¬ (path <+: destination.path.dropLast ∨ destination.path <+: path.dropLast) := by
  rintro (above | below)
  · rw [fits.clear path above] at file
    cases file
  · have directory := isDir_above_journal file below
    exact fits.free ((FileSystem.isDir_iff.mp directory).resolve_left fits.writable.1)

/-- A restoration that returned. -/
theorem fits_of_restore {done : Unit} (below : destination.path ≠ [])
    (ran : (project.restore destination).run (Disk.serve entropy) disk = (.ok done, after)) :
    Fits destination disk.files ∧
      after.files.lookup destination.path = destination.before.map .file ∧
      ∀ path, path ≠ destination.path → Steady path disk.files after.files := by
  unfold restore at ran
  cases is : destination.before with
  | none =>
      rw [is] at ran
      obtain ⟨writable, clear, free, removed⟩ := removed_of_durableUnlink below ran
      refine ⟨⟨writable, fun restored => ?_, clear, free⟩, ?_, fun path different => ?_⟩
      · rw [is] at restored
        cases restored
      · rw [removed, if_pos rfl]
        rfl
      · exact Or.inl (by rw [removed, if_neg different])
  | some bytes =>
      rw [is] at ran
      obtain ⟨writable, bits, clear, free, written⟩ := written_of_atomicWriteBytes below ran
      refine ⟨⟨writable, fun _ => bits, clear, free⟩, ?_, fun path different =>
        written.steady clear different⟩
      rw [written, if_pos rfl]
      rfl

/-- What is no destination is left alone. -/
theorem steady_of_restores (named : ∀ one ∈ items, one.path ≠ [])
    (apart : ∀ one ∈ items, one.path ≠ path)
    (ran : (Program.each project.restore items).run (Disk.serve entropy) disk =
      (.ok values, after)) : Steady path disk.files after.files := by
  induction items generalizing disk values with
  | nil =>
      cases ran
      exact Steady.refl _ _
  | cons destination items ih =>
      obtain ⟨below, named⟩ := List.forall_mem_cons.mp named
      obtain ⟨different, apart⟩ := List.forall_mem_cons.mp apart
      obtain ⟨_, middle, restored, ran⟩ := Program.exists_of_run_bind ran
      obtain ⟨_, last, ran, ends⟩ := Program.exists_of_run_bind ran
      cases ends
      exact ((fits_of_restore below restored).2.2 path different.symm).trans (ih named apart ran)

end

/-! ## Restorations that returned -/

section

variable {destination earlier : Destination} {items front between back : List Destination}
  {values : List Unit}

/-- The turn of a destination. -/
theorem turn_of_restores (below : destination.path ≠ [])
    (ran : (Program.each project.restore (front ++ destination :: back)).run (Disk.serve entropy)
      disk = (.ok values, after)) :
    ∃ before middle done rest,
      (Program.each project.restore front).run (Disk.serve entropy) disk = (.ok done, before) ∧
      Fits destination before.files ∧
      middle.files.lookup destination.path = destination.before.map .file ∧
      (Program.each project.restore back).run (Disk.serve entropy) middle = (.ok rest, after) := by
  obtain ⟨done, before, _, middle, rest, ranFront, here, ranBack⟩ := Program.exists_of_run_each ran
  obtain ⟨fits, left, _⟩ := fits_of_restore below here
  exact ⟨before, middle, done, rest, ranFront, fits, left, ranBack⟩

/-- A file above a destination was removed before. -/
theorem clear_of_restores (named : ∀ one ∈ front ++ destination :: back, one.path ≠ [])
    (ran : (Program.each project.restore (front ++ destination :: back)).run (Disk.serve entropy)
      disk = (.ok values, after)) {above : Path} (prefixed : above <+: destination.path.dropLast)
    (file : disk.files.isFile above = true) : ∃ one ∈ front, one.path = above := by
  obtain ⟨namedFront, namedBack⟩ := List.forall_mem_append.mp named
  obtain ⟨before, _, _, _, ranFront, fits, _, _⟩ :=
    turn_of_restores (namedBack destination List.mem_cons_self) ran
  by_contra other
  have steady : Steady above disk.files before.files :=
    steady_of_restores namedFront (fun one inside same => other ⟨one, inside, same⟩) ranFront
  exact fits.not_nested (steady.isFile file) (Or.inl prefixed)

/-- Destinations that are restored behind a file are not nested with it. -/
theorem not_nested_of_restores {file : Path} {items : List Destination}
    (named : ∀ one ∈ items, one.path ≠ []) (apart : ∀ one ∈ items, one.path ≠ file)
    (ran : (Program.each project.restore items).run (Disk.serve entropy) disk =
      (.ok values, after)) (there : disk.files.isFile file = true) (inside : destination ∈ items) :
    ¬ (file <+: destination.path.dropLast ∨ destination.path <+: file.dropLast) := by
  obtain ⟨front, back, rfl⟩ := List.append_of_mem inside
  obtain ⟨before, _, _, _, ranFront, fits, _, _⟩ := turn_of_restores (named destination inside) ran
  have steady : Steady file disk.files before.files :=
    steady_of_restores (fun one member => named one (List.mem_append_left _ member))
      (fun one member => apart one (List.mem_append_left _ member)) ranFront
  exact fits.not_nested (steady.isFile there)

/-- Of two nested destinations the one that was restored first was absent. -/
theorem nested_of_restores (named : ∀ one ∈ items, one.path ≠ [])
    (once : (items.map Destination.path).Nodup)
    (ran : (Program.each project.restore items).run (Disk.serve entropy) disk =
      (.ok values, after)) :
    items.Pairwise fun earlier later => Nested later earlier → earlier.before = none := by
  induction items generalizing disk values with
  | nil => exact List.Pairwise.nil
  | cons destination items ih =>
      obtain ⟨below, named⟩ := List.forall_mem_cons.mp named
      rw [List.map_cons, List.nodup_cons] at once
      obtain ⟨before, middle, _, rest, ranFront, _, left, ran⟩ :=
        @turn_of_restores _ _ _ _ destination [] items _ below ran
      refine List.pairwise_cons.mpr ⟨fun later inside nested => ?_, ih named once.2 ran⟩
      by_contra present
      obtain ⟨bytes, is⟩ := Option.ne_none_iff_exists'.mp present
      rw [is] at left
      refine not_nested_of_restores named (fun one member same => once.1 ?_) ran
        (FileSystem.isFile_of_lookup left) inside nested.symm
      rw [← same]
      exact List.mem_map_of_mem member

/-- A destination that was restored is as it was, or has become a directory. -/
theorem restored_of_restores (named : ∀ one ∈ items, one.path ≠ [])
    (once : (items.map Destination.path).Nodup)
    (ran : (Program.each project.restore items).run (Disk.serve entropy) disk =
      (.ok values, after)) (inside : destination ∈ items) :
    HoldsAgain destination.before destination.path after.files := by
  obtain ⟨front, back, rfl⟩ := List.append_of_mem inside
  obtain ⟨_, middle, _, _, _, _, left, ranBack⟩ := turn_of_restores (named destination inside) ran
  rw [List.map_append, List.map_cons, List.nodup_append, List.nodup_cons] at once
  exact HoldsAgain.steady (Or.inl left) (steady_of_restores
    (fun one member => named one (List.mem_append_right _ (List.mem_cons_of_mem _ member)))
    (fun one member same => once.2.1.1 (same ▸ List.mem_map_of_mem member)) ranBack)

end

/-! ## Plans that were applied -/

section

variable {plan : RecoveryPlan} {plans : List RecoveryPlan} {journal : Json}
  {destination : Destination}

/-- The destinations of a plan and its journal are below the root. -/
structure RecoveryPlan.Named (plan : RecoveryPlan) : Prop where
  destinations : ∀ destination ∈ plan.destinations, destination.path ≠ []
  journal : plan.journalPath ≠ []

theorem RecoveryPlan.Named.reverse (named : plan.Named) :
    ∀ destination ∈ plan.destinations.reverse, destination.path ≠ [] :=
  fun destination inside => named.destinations destination (List.mem_reverse.mp inside)

/-- The two parts of the application of a plan. -/
theorem exists_of_applyRecovery (rollback : plan.rollback = true)
    (ran : (project.applyRecovery plan).run (Disk.serve entropy) disk = (.ok journal, after)) :
    ∃ values middle time,
      (Program.each project.restore plan.destinations.reverse).run (Disk.serve entropy) disk =
        (.ok values, middle) ∧
      (project.atomicWriteBytes plan.journalPath (plan.marked project time) (.int 0o600)).run
        (Disk.serve entropy) middle.tick = (.ok (), after) := by
  unfold applyRecovery at ran
  rw [if_neg (by simp [rollback])] at ran
  obtain ⟨values, middle, restored, ran⟩ := Program.exists_of_run_bind ran
  obtain ⟨time, ticked, clock, ran⟩ := Program.exists_of_run_bind ran
  obtain ⟨_, last, wrote, ran⟩ := Program.exists_of_run_bind ran
  cases ran
  cases clock
  exact ⟨values, middle, _, restored, wrote⟩

/-- What is neither a destination of a plan nor its journal is left alone. -/
theorem steady_of_applyRecovery (named : plan.Named)
    (apart : ∀ one ∈ plan.destinations, one.path ≠ path) (other : path ≠ plan.journalPath)
    (ran : (project.applyRecovery plan).run (Disk.serve entropy) disk = (.ok journal, after)) :
    Steady path disk.files after.files := by
  cases rollback : plan.rollback with
  | false =>
      unfold applyRecovery at ran
      rw [if_pos rollback] at ran
      cases ran
      exact Steady.refl _ _
  | true =>
      obtain ⟨_, middle, _, restored, wrote⟩ := exists_of_applyRecovery rollback ran
      obtain ⟨_, _, clear, _, written⟩ := written_of_atomicWriteBytes named.journal wrote
      exact (steady_of_restores named.reverse
        (fun one inside => apart one (List.mem_reverse.mp inside)) restored).trans
          (written.steady clear other)

/-- A plan that was applied could be applied. -/
theorem restorable_of_applyRecovery (named : plan.Named) (rollback : plan.rollback = true)
    (once : (plan.destinations.map Destination.path).Nodup)
    (ran : (project.applyRecovery plan).run (Disk.serve entropy) disk = (.ok journal, after)) :
    Restorable disk.files plan := by
  obtain ⟨_, middle, _, restored, wrote⟩ := exists_of_applyRecovery rollback ran
  obtain ⟨writable, _, clear, free, _⟩ := written_of_atomicWriteBytes named.journal wrote
  have once' : (plan.destinations.reverse.map Destination.path).Nodup := by
    rwa [List.map_reverse, List.nodup_reverse]
  have fits (destination : Destination) (inside : destination ∈ plan.destinations) :
      ∃ files, Fits destination files := by
    obtain ⟨front, back, split⟩ := List.append_of_mem (List.mem_reverse.mpr inside)
    rw [split] at restored
    obtain ⟨before, _, _, _, _, fits, _⟩ :=
      turn_of_restores (named.destinations destination inside) restored
    exact ⟨before.files, fits⟩
  constructor
  · intro destination inside
    obtain ⟨_, fits⟩ := fits destination inside
    exact fits.writable
  · exact writable
  · intro destination inside
    obtain ⟨_, fits⟩ := fits destination inside
    exact fits.mode
  · intro front destination back split above prefixed file
    have named := named.reverse
    rw [split, List.reverse_append, List.reverse_cons, List.append_assoc,
      List.singleton_append] at restored named
    obtain ⟨earlier, inside, same⟩ := clear_of_restores named restored prefixed file
    exact ⟨earlier, List.mem_reverse.mp inside, same⟩
  · exact List.pairwise_reverse.mp (nested_of_restores named.reverse once' restored)
  · intro destination inside present above
    obtain ⟨bytes, is⟩ := Option.isSome_iff_exists.mp present
    have left := restored_of_restores named.reverse once' restored (List.mem_reverse.mpr inside)
    rw [is] at left
    have directory : middle.tick.files.isDir plan.journalPath = true :=
      isDir_above_journal left.file above
    exact free ((FileSystem.isDir_iff.mp directory).resolve_left named.journal)

/-- What a plan left of a destination that is not its journal. -/
theorem left_of_applyRecovery (named : plan.Named) (rollback : plan.rollback = true)
    (once : (plan.destinations.map Destination.path).Nodup) (inside : destination ∈ plan.destinations)
    (other : destination.path ≠ plan.journalPath)
    (ran : (project.applyRecovery plan).run (Disk.serve entropy) disk = (.ok journal, after)) :
    HoldsAgain destination.before destination.path after.files := by
  obtain ⟨_, middle, _, restored, wrote⟩ := exists_of_applyRecovery rollback ran
  obtain ⟨_, _, clear, _, written⟩ := written_of_atomicWriteBytes named.journal wrote
  have once' : (plan.destinations.reverse.map Destination.path).Nodup := by
    rwa [List.map_reverse, List.nodup_reverse]
  exact (restored_of_restores named.reverse once' restored
    (List.mem_reverse.mpr inside)).steady (written.steady clear other)

/-- What a plan left of its journal. -/
theorem marked_of_applyRecovery (named : plan.Named) (rollback : plan.rollback = true)
    (ran : (project.applyRecovery plan).run (Disk.serve entropy) disk = (.ok journal, after)) :
    ∃ time, after.files.lookup plan.journalPath = some (.file (plan.marked project time)) := by
  obtain ⟨_, middle, time, _, wrote⟩ := exists_of_applyRecovery rollback ran
  obtain ⟨_, _, _, _, written⟩ := written_of_atomicWriteBytes named.journal wrote
  exact ⟨time, by rw [written, if_pos rfl]⟩

end

/-! ## Orders that return -/

section

variable {plan first second : RecoveryPlan} {plans : List RecoveryPlan} {journal : Json}
  {destination one other : Destination}

theorem file_of_applyRecovery (named : plan.Named) (rollback : plan.rollback = true)
    (once : (plan.destinations.map Destination.path).Nodup) (inside : destination ∈ plan.destinations)
    (present : destination.before ≠ none)
    (ran : (project.applyRecovery plan).run (Disk.serve entropy) disk = (.ok journal, after)) :
    after.files.isFile destination.path = true := by
  by_cases own : destination.path = plan.journalPath
  · obtain ⟨time, marked⟩ := marked_of_applyRecovery named rollback ran
    rw [own]
    exact FileSystem.isFile_of_lookup marked
  · have left := left_of_applyRecovery named rollback once inside own ran
    obtain ⟨bytes, is⟩ := Option.ne_none_iff_exists'.mp present
    rw [is] at left
    exact left.file

theorem exists_of_ending_cons (returns : (project.ending (plan :: plans) disk).1 = .ok ()) :
    ∃ journal middle, (project.applyRecovery plan).run (Disk.serve project.host.entropy) disk =
        (.ok journal, middle) ∧
      project.ending (plan :: plans) disk = project.ending plans middle := by
  rw [ending_cons] at returns ⊢
  rcases ran : (project.applyRecovery plan).run (Disk.serve project.host.entropy) disk with
    ⟨raised | journal, middle⟩
  · rw [ran] at returns
    cases returns
  · exact ⟨journal, middle, rfl, rfl⟩

/-- What belongs to none of the plans is left alone. -/
theorem steady_of_ending (named : ∀ plan ∈ plans, plan.Named)
    (apart : ∀ plan ∈ plans, ∀ one ∈ plan.destinations, one.path ≠ path)
    (journals : ∀ plan ∈ plans, path ≠ plan.journalPath)
    (returns : (project.ending plans disk).1 = .ok ()) :
    Steady path disk.files (project.ending plans disk).2.files := by
  induction plans generalizing disk with
  | nil => exact Steady.refl _ _
  | cons plan plans ih =>
      obtain ⟨_, middle, ran, is⟩ := exists_of_ending_cons returns
      obtain ⟨here, named⟩ := List.forall_mem_cons.mp named
      obtain ⟨apartHere, apart⟩ := List.forall_mem_cons.mp apart
      obtain ⟨journalHere, journals⟩ := List.forall_mem_cons.mp journals
      rw [is] at returns ⊢
      exact (steady_of_applyRecovery here apartHere journalHere ran).trans
        (ih named apart journals returns)

/-- Nested destinations of two plans, of which the first one is applied first. -/
theorem crossed_of_ending (named : ∀ plan ∈ [first, second], plan.Named)
    (rollback : ∀ plan ∈ [first, second], plan.rollback = true)
    (once : ∀ plan ∈ [first, second], (plan.destinations.map Destination.path).Nodup)
    (apart : Apart first second)
    (returns : (project.ending (first :: second :: plans) disk).1 = .ok ())
    (mine : one ∈ first.destinations) (yours : other ∈ second.destinations)
    (nested : Nested one other) : one.before = none := by
  simp only [List.forall_mem_cons] at named rollback once
  obtain ⟨_, middle, ran, is⟩ := exists_of_ending_cons returns
  rw [is] at returns
  obtain ⟨_, last, ran', _⟩ := exists_of_ending_cons returns
  by_contra present
  have file := file_of_applyRecovery named.1 rollback.1 once.1 mine present ran
  obtain ⟨_, _, _, restored, _⟩ := exists_of_applyRecovery rollback.2.1 ran'
  exact not_nested_of_restores named.2.1.reverse
    (fun there inside same => apart (Or.inl rollback.1) one mine there
      (List.mem_reverse.mp inside) same.symm) restored file (List.mem_reverse.mpr yours) nested

/-- What a plan restores of the journal of another one, where the order does not matter. -/
theorem foreign_of_orders {others : List RecoveryPlan}
    (named : ∀ plan ∈ first :: second :: others, plan.Named)
    (rollback : ∀ plan ∈ [first, second], plan.rollback = true)
    (once : (first.destinations.map Destination.path).Nodup)
    (apart : ∀ plan ∈ others, Apart first plan)
    (journals : ∀ plan ∈ first :: others, second.journalPath ≠ plan.journalPath)
    (mine : one ∈ first.destinations) (same : one.path = second.journalPath)
    (marks : ∀ plan ∈ plans, plan.journalPath = second.journalPath → plan = second)
    (early : (project.ending (first :: second :: others) disk).1 = .ok ())
    (late : (project.ending (second :: first :: others) disk).1 = .ok ())
    (times : SameUpToTimes project plans (project.ending (first :: second :: others) disk).2.files
      (project.ending (second :: first :: others) disk).2.files) :
    ∃ time, one.before = some (second.marked project time) := by
  simp only [List.forall_mem_cons] at named rollback journals
  obtain ⟨namedFirst, namedSecond, namedOthers⟩ := named
  obtain ⟨journalFirst, journalOthers⟩ := journals
  have besides (plan : RecoveryPlan) (member : plan ∈ others) (there : Destination)
      (inside : there ∈ plan.destinations) : there.path ≠ second.journalPath := fun is =>
    apart plan member (Or.inl rollback.1) one mine there inside (same.trans is.symm)
  -- Applied second, the other plan has marked its journal.
  obtain ⟨_, _, _, is⟩ := exists_of_ending_cons early
  rw [is] at early times
  obtain ⟨_, middle, ranSecond, is⟩ := exists_of_ending_cons early
  rw [is] at early times
  obtain ⟨time, marked⟩ := marked_of_applyRecovery namedSecond rollback.2.1 ranSecond
  have marked := (steady_of_ending namedOthers besides journalOthers early).file marked
  -- Applied first, its journal is what the plan restored.
  obtain ⟨_, _, _, is⟩ := exists_of_ending_cons late
  rw [is] at late times
  obtain ⟨_, last, ranFirst, is⟩ := exists_of_ending_cons late
  rw [is] at late times
  have left := left_of_applyRecovery namedFirst rollback.1 once mine
    (same.trans_ne journalFirst) ranFirst
  rw [same] at left
  have restored := left.steady (steady_of_ending namedOthers besides journalOthers late)
  have ends : ∃ time, (project.ending others last).2.files.lookup second.journalPath =
      some (.file (second.marked project time)) := by
    rcases times second.journalPath with equal | ⟨plan, member, _, is, _, there, _, lookup⟩
    · exact ⟨time, equal.symm.trans marked⟩
    · rw [marks plan member is.symm] at lookup
      exact ⟨there, lookup⟩
  obtain ⟨time, ends⟩ := ends
  refine ⟨time, ?_⟩
  rcases restored with restored | ⟨_, directory⟩
  · rw [ends] at restored
    cases before : one.before with
    | none =>
        rw [before] at restored
        cases restored
    | some bytes =>
        rw [before, Option.map_some, Option.some.injEq, Node.file.injEq] at restored
        rw [restored]
  · rw [directory] at ends
    cases ends

end

/-- Plans that return in one order and leave the same files in every order can all be applied
before each other. -/
theorem recoverable_of_orderFree {plans : List RecoveryPlan}
    (decided : Decided project disk.files plans) (free : OrderFree project plans disk)
    (returns : (project.ending plans disk).1 = .ok ()) :
    Recoverable project disk.files (plans.filter RecoveryPlan.rollback) := by
  have selected {plan : RecoveryPlan} (member : plan ∈ plans.filter RecoveryPlan.rollback) :
      plan ∈ plans ∧ plan.rollback = true := List.mem_filter.mp member
  have all {order : List RecoveryPlan} (perm : plans.Perm order) :
      (project.ending order disk).1 = .ok () :=
    (free order plans perm.symm (List.Perm.refl _)).1.trans returns
  have named (plan : RecoveryPlan) (member : plan ∈ plans) : plan.Named := by
    refine ⟨fun destination inside root => ?_, fun root => ?_⟩
    · have expected := (decided.expected plan member destination inside).2
      rw [root] at expected
      exact absurd (expected rfl) (by simp [FileSystem.isDir])
    · have file := decided.journal plan member
      rw [root, FileSystem.isFile, FileSystem.contents?, FileSystem.lookup_root] at file
      cases file
  have nodup : plans.Nodup := decided.journals.imp fun different same =>
    different (congrArg RecoveryPlan.journalPath same)
  have pair {first second : RecoveryPlan} (here : first ∈ plans) (there : second ∈ plans)
      (different : first ≠ second) : ∃ others, plans.Perm (first :: second :: others) ∧
        ∀ plan ∈ others, plan ∈ plans ∧ plan ≠ first ∧ plan ≠ second := by
    have behind : second ∈ plans.erase first := (nodup.mem_erase_iff).mpr ⟨different.symm, there⟩
    refine ⟨(plans.erase first).erase second, (List.perm_cons_erase here).trans
      ((List.perm_cons_erase behind).cons first), fun plan member => ?_⟩
    obtain ⟨apart, member⟩ := (nodup.erase first).mem_erase_iff.mp member
    obtain ⟨apart', member⟩ := nodup.mem_erase_iff.mp member
    exact ⟨member, apart', apart⟩
  have apart {first second : RecoveryPlan} (here : first ∈ plans) (there : second ∈ plans)
      (different : first ≠ second) : Apart first second := by
    have : Std.Symm Apart := ⟨fun _ _ => Apart.symm⟩
    exact decided.apart.forall here there different
  have journals {first second : RecoveryPlan} (here : first ∈ plans) (there : second ∈ plans)
      (different : first ≠ second) : first.journalPath ≠ second.journalPath := by
    have : Std.Symm fun first second : RecoveryPlan => first.journalPath ≠ second.journalPath :=
      ⟨fun _ _ => Ne.symm⟩
    exact decided.journals.forall here there different
  constructor
  · intro plan member
    obtain ⟨member, rollback⟩ := selected member
    obtain ⟨_, _, ran, _⟩ := exists_of_ending_cons (all (List.perm_cons_erase member))
    exact restorable_of_applyRecovery (named plan member) rollback
      (decided.once plan member rollback) ran
  · intro first here second there different one mine other yours nested
    obtain ⟨here, rollback⟩ := selected here
    obtain ⟨there, rollback'⟩ := selected there
    obtain ⟨others, perm, _⟩ := pair here there different
    exact crossed_of_ending
      (List.forall_mem_cons.mpr ⟨named first here, by simpa using named second there⟩)
      (List.forall_mem_cons.mpr ⟨rollback, by simpa using rollback'⟩)
      (List.forall_mem_cons.mpr ⟨decided.once first here rollback,
        by simpa using decided.once second there rollback'⟩)
      (apart here there different) (all perm) mine yours nested
  · intro first here second there different one mine same
    obtain ⟨here, rollback⟩ := selected here
    obtain ⟨there, rollback'⟩ := selected there
    obtain ⟨others, perm, behind⟩ := pair here there different
    have swapped := perm.trans (List.Perm.swap second first others)
    refine foreign_of_orders
      (List.forall_mem_cons.mpr ⟨named first here, List.forall_mem_cons.mpr
        ⟨named second there, fun plan member => named plan (behind plan member).1⟩⟩)
      (List.forall_mem_cons.mpr ⟨rollback, by simpa using rollback'⟩)
      (decided.once first here rollback)
      (fun plan member => apart here (behind plan member).1 (behind plan member).2.1.symm)
      (List.forall_mem_cons.mpr ⟨journals there here different.symm, fun plan member =>
        journals there (behind plan member).1 (behind plan member).2.2.symm⟩)
      mine same (fun plan member is => ?_) (all perm) (all swapped)
      (free _ _ perm.symm swapped.symm).2
    by_contra other
    exact journals member there other is

/-! ## The decision -/

/-- A recovery that raises before the first plan is applied changed nothing.  If it does not
raise, the plans that are rolled back share no destination with other plans, every
destination has a hash that is expected, and the order of the plans does not matter when
one of them at most is rolled back or all of those can be applied; where all plans are
applied, it matters in every other case. -/
theorem recoverCandidates_decides (project : Project) (stateDir : Path)
    (names : Option (List Text)) (removeRecovered : Bool) (disk : Disk) :
    (∀ raised after,
      (project.decideRecovery stateDir names removeRecovered).run
          (Disk.serve project.host.entropy) disk = (.error raised, after) →
        (project.recoverCandidates stateDir names removeRecovered).run
          (Disk.serve project.host.entropy) disk = (.error raised, disk)) ∧
    ∀ candidates plans after,
      (project.decideRecovery stateDir names removeRecovered).run
          (Disk.serve project.host.entropy) disk = (.ok (candidates, plans), after) →
        after = disk ∧ plans.Pairwise Apart ∧
        (∀ plan ∈ plans, ∀ destination ∈ plan.destinations,
          project.host.sha (readable disk.files destination.path) ∈
            destination.expectedHashes) ∧
        ((plans.filter RecoveryPlan.rollback).length ≤ 1 ∨
            Recoverable project disk.files (plans.filter RecoveryPlan.rollback) →
          OrderFree project plans disk) ∧
        ((project.ending plans disk).1 = .ok () →
          (OrderFree project plans disk ↔
            Recoverable project disk.files (plans.filter RecoveryPlan.rollback))) := by
  have still := (@reads_decideRecovery project stateDir names
    removeRecovered).run_disk project.host.entropy disk
  constructor
  · intro raised after ran
    rw [ran] at still
    obtain rfl : after = disk := still
    exact Program.run_bind_error ran
  · intro candidates plans after ran
    rw [ran] at still
    have decided := decided_of_decideRecovery ran
    refine ⟨still, decided.apart, fun plan member destination inside =>
      (decided.expected plan member destination inside).1, ?_, fun returns =>
        ⟨fun free => recoverable_of_orderFree decided free returns,
          orderFree_of_recoverable decided⟩⟩
    rintro (one | recoverable)
    · exact orderFree_of_length_le one disk
    · exact orderFree_of_recoverable decided recoverable

/-- A project whose host knows the digests of `x`, `y` and `z`. -/
def labProject : Project where
  host := tableHost
    [(120, 0x2d711642b726b04401627ca9fbac32f5c8530fb1903cc4db02258717921a4881),
      (121, 0xa1fce4363854ff888cff4b8e7875d600c2682390412a8cf79b37d0b11148b0fa),
      (122, 0x594e519ae499312b29433b7dd8a97ff068defcba9755b6d5d00e84c524d67b06)]
  root := [text "r"]
  cwd := []

/-- The record of a file that held `x` or was not there, and is not there now. -/
def labRecord (path : Text) (held : Bool) : Json := .obj (Fields.ofPairs [("path", .str path),
  ("before_base64", if held then .str "eA==" else .null),
  ("before_sha256", digestJson (labProject.host.sha (if held then some [120] else none))),
  ("after_sha256", .null), ("mode", .int 420)])

/-- The journal of a transaction that was cut short. -/
def labJournal (name : Text) (records : List Json) : Json :=
  .obj (Fields.ofPairs [("schema", .int 1), ("name", .str name), ("root", .str "/r"),
    ("phase", .str "APPLYING"), ("records", .arr records)])

/-- Two transactions that were cut short. -/
def labDisk (first second : List Json) (others : List (Path × Node)) : Disk where
  files := FileSystem.ofList ([
    ([text "s", text "A-1", text "journal.json"],
      .file (jsonLine bitFloats .indented (labJournal "A" first))),
    ([text "s", text "B-1", text "journal.json"],
      .file (jsonLine bitFloats .indented (labJournal "B" second))),
    ([text "s", text "A-1"], .dir), ([text "s", text "B-1"], .dir), ([text "s"], .dir)] ++ others)
  ticks := 0

/-- What a recovery decides. -/
def labDecision (disk : Disk) : Except Raised (List Candidate × List RecoveryPlan) × Disk :=
  (labProject.decideRecovery [text "s"] none true).run (Disk.serve labProject.host.entropy) disk

/-- `A` deleted `d/e` and had made room for `d`, and `B` deleted `z`. -/
def labPending : Disk :=
  labDisk [labRecord "d/e" true, labRecord "d" false] [labRecord "z" true] []

/-- The plans of their recovery. -/
def labPlans : List RecoveryPlan :=
  [⟨[text "s", text "A-1", text "journal.json"],
      labJournal "A" [labRecord "d/e" true, labRecord "d" false], true,
      [⟨text "d/e", [text "d", text "e"], some [120], [labProject.host.sha (some [120]), none],
        .int 420⟩, ⟨text "d", [text "d"], none, [none, none], .int 420⟩]⟩,
    ⟨[text "s", text "B-1", text "journal.json"], labJournal "B" [labRecord "z" true], true,
      [⟨text "z", [text "z"], some [120], [labProject.host.sha (some [120]), none], .int 420⟩]⟩]

theorem labPlans_recoverable : Recoverable labProject labPending.files labPlans := by
  have clear : ∀ plan ∈ labPlans, ∀ destination ∈ plan.destinations,
      labPending.files.underFile destination.path = false := by decide +kernel
  constructor
  · intro plan member
    refine ⟨?_, ?_, ?_, fun front destination back split above prefixed file => ?_, ?_, ?_⟩
    · revert plan
      decide +kernel
    · revert plan
      decide +kernel
    · revert plan
      decide +kernel
    · have under := clear plan member destination (by simp [split])
      rw [FileSystem.underFile_eq_false.mp under above prefixed] at file
      cases file
    · unfold Nested
      revert plan
      decide +kernel
    · revert plan
      decide +kernel
  · unfold Nested
    decide +kernel
  · intro first here second there different destination inside same
    have apart : ∀ first ∈ labPlans, ∀ second ∈ labPlans, ∀ destination ∈ first.destinations,
        destination.path ≠ second.journalPath := by decide +kernel
    exact absurd same (apart first here second there destination inside)

/-- Two plans are rolled back, one of them with a destination above another one. -/
theorem recoverCandidates_decides_lab : ∃ candidates,
    labDecision labPending = (.ok (candidates, labPlans), labPending) ∧
      (labPlans.filter RecoveryPlan.rollback).length = 2 ∧
      OrderFree labProject labPlans labPending := by
  have plans : (labDecision labPending).1.toOption.map (·.2) = some labPlans := by decide +kernel
  rcases is : labDecision labPending with ⟨raised | ⟨candidates, plans'⟩, after⟩
  · rw [is] at plans
    cases plans
  · rw [is] at plans
    obtain rfl : plans' = labPlans := Option.some.inj plans
    have decided := (recoverCandidates_decides labProject [text "s"] none true labPending).2
      candidates labPlans after is
    rw [decided.1] at is ⊢
    exact ⟨candidates, rfl, by decide +kernel, decided.2.2.2.1 (Or.inr labPlans_recoverable)⟩

/-! ## A plan in the way -/

/-- `A` deleted `a` and `B` deleted `d/e`, and `d` became a file since then. -/
def labBlocked : Disk :=
  labDisk [labRecord "a" true] [labRecord "d/e" true] [([text "d"], .file [])]

/-- What the plans in two orders leave of `a`. -/
def labDiffers (disk : Disk) (plans : List RecoveryPlan) : Bool :=
  (labProject.ending plans disk).2.files.lookup [text "a"] ≠
      (labProject.ending plans.reverse disk).2.files.lookup [text "a"] &&
    plans.all fun plan => [text "a"] ≠ plan.journalPath

/-- The recovery of `A` restores `a`, and that of `B` fails behind it: nothing asked whether
`d/e` can be written.  In the other order it fails first, and `a` stays deleted. -/
theorem recovery_order_matters : ∃ candidates plans,
    labDecision labBlocked = (.ok (candidates, plans), labBlocked) ∧
      ¬ OrderFree labProject plans labBlocked := by
  have differs : (labDecision labBlocked).1.toOption.any
      (fun decided => labDiffers labBlocked decided.2) = true := by decide +kernel
  have still := (@reads_decideRecovery labProject [text "s"] none true).run_disk
    labProject.host.entropy labBlocked
  rcases is : labDecision labBlocked with ⟨raised | ⟨candidates, plans⟩, after⟩
  · rw [is] at differs
    cases differs
  · rw [show after = labBlocked from (congrArg Prod.snd is).symm.trans still]
    refine ⟨candidates, plans, rfl, fun free => ?_⟩
    rw [is] at differs
    obtain ⟨lookups, journals⟩ := Bool.and_eq_true_iff.mp differs
    rcases (free plans plans.reverse (List.Perm.refl _) (List.reverse_perm _)).2 [text "a"] with
      same | ⟨plan, member, _, named, _⟩
    · exact of_decide_eq_true lookups same
    · exact of_decide_eq_true (List.all_eq_true.mp journals plan member) named

end CarbonLab.Aegis
