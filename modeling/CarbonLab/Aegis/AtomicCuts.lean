import CarbonLab.Lib.Cuts
import CarbonLab.Aegis.AtomicFiles

/-!
# Atomic writes that are cut short

Between the system calls of an atomic write its target holds the old contents or the new
ones.  All that may appear besides are directories above it and a temporary file.
-/

namespace CarbonLab.Aegis

open FileProgram

/-- The name of a temporary file, with a dot before and behind the name of its target. -/
def Temporary (path : Path) : Prop :=
  ∃ stem middle, path.getLast? = some (text "." ++ stem ++ text "." ++ middle ++ text ".tmp")

theorem not_temporary {path : Path}
    (plain : ∀ name ∈ path.getLast?, name.head? ≠ some (code '.')) : ¬ Temporary path := by
  rintro ⟨stem, middle, is⟩
  exact plain _ is rfl

/-- Files to which directories and temporary files were added, but for some paths. -/
def Grown (besides : Path → Prop) (before after : FileSystem) : Prop :=
  ∀ path, ¬ besides path → after.lookup path = before.lookup path ∨
    before.lookup path = none ∧ (after.lookup path = some .dir ∨ Temporary path)

section

variable {besides : Path → Prop} {first second third : FileSystem} {path : Path}

theorem Grown.refl (files : FileSystem) : Grown besides files files :=
  fun _ _ => Or.inl rfl

theorem Grown.trans (left : Grown besides first second) (right : Grown besides second third) :
    Grown besides first third := by
  intro path outside
  rcases left path outside with same | ⟨absent, grown⟩
  · rw [← same]
    exact right path outside
  · refine Or.inr ⟨absent, ?_⟩
    rcases right path outside with same | ⟨missing, grown'⟩
    · rwa [same]
    · exact grown'

theorem Grown.mono {others : Path → Prop} (grown : Grown besides first second)
    (wider : ∀ path, besides path → others path) : Grown others first second :=
  fun path outside => grown path fun inside => outside (wider path inside)

/-- What is not besides and no temporary file has the contents it had. -/
theorem Grown.contents? (grown : Grown besides first second) (outside : ¬ besides path)
    (lasting : Temporary path → first.lookup path ≠ none) :
    second.contents? path = first.contents? path := by
  rcases grown path outside with same | ⟨absent, directory | temporary⟩
  · rw [FileSystem.contents?, FileSystem.contents?, same]
  · rw [FileSystem.contents?, FileSystem.contents?, directory, absent]
  · exact absurd absent (lasting temporary)

end

/-- Directories were made on the way to one of them. -/
def Sprouted (directory : Path) (before after : FileSystem) : Prop :=
  ∀ path, after.lookup path = before.lookup path ∨
    before.lookup path = none ∧ after.lookup path = some .dir ∧ path <+: directory

/-- Only one path was changed, but for directories above it and temporary files. -/
def Around (before : FileSystem) (path : Path) (after : FileSystem) : Prop :=
  ∀ other, other ≠ path → after.lookup other = before.lookup other ∨
    before.lookup other = none ∧ (after.lookup other = some .dir ∧ other <+: path.dropLast ∨
      Temporary other ∧ other.dropLast = path.dropLast ∧
        ∃ contents, after.lookup other = some (.file contents))

/-- One write, as far as it came. -/
def Writing (before : FileSystem) (path : Path) (data : Bytes) (after : FileSystem) : Prop :=
  (after.lookup path = before.lookup path ∨ after.lookup path = some (.file data)) ∧
    Around before path after

theorem Around.grown {before after : FileSystem} {path : Path}
    (around : Around before path after) : Grown (· = path) before after := by
  intro other different
  rcases around other different with same | ⟨absent, ⟨directory, _⟩ | ⟨temporary, _⟩⟩
  · exact Or.inl same
  · exact Or.inr ⟨absent, Or.inl directory⟩
  · exact Or.inr ⟨absent, Or.inr temporary⟩

theorem Removed.around {before after : FileSystem} {path : Path}
    (removed : Removed before path after) : Around before path after := by
  intro other different
  rw [removed, if_neg different]
  exact Or.inl rfl

/-- What is not the path, not above it and no temporary file is as it was. -/
theorem Around.kept {before after : FileSystem} {path other : Path}
    (around : Around before path after) (different : other ≠ path)
    (above : ¬ other <+: path.dropLast) (lasting : ¬ Temporary other) :
    after.lookup other = before.lookup other := by
  rcases around other different with same | ⟨_, ⟨_, prefixed⟩ | ⟨temporary, _⟩⟩
  · exact same
  · exact absurd prefixed above
  · exact absurd temporary lasting

/-- A directory stays one. -/
theorem Around.isDir {before after : FileSystem} {path other : Path}
    (around : Around before path after) (different : other ≠ path)
    (directory : before.isDir other = true) : after.isDir other = true := by
  rw [FileSystem.isDir_iff] at directory ⊢
  refine directory.imp id fun there => ?_
  rcases around other different with same | ⟨absent, _⟩
  · rw [same, there]
  · rw [there] at absent
    cases absent

theorem Around.refl (files : FileSystem) (path : Path) : Around files path files :=
  fun _ _ => Or.inl rfl

section

variable {entropy : Entropy} {directory path : Path} {start : FileSystem}

theorem Sprouted.refl (files : FileSystem) : Sprouted directory files files :=
  fun _ => Or.inl rfl

theorem Sprouted.lookup_eq {after : FileSystem} (sprouted : Sprouted directory start after)
    (aside : ¬ path <+: directory) : after.lookup path = start.lookup path := by
  rcases sprouted path with same | ⟨_, _, prefixed⟩
  · exact same
  · exact absurd prefixed aside

theorem Sprouted.lookup_eq_of_length {after : FileSystem}
    (sprouted : Sprouted directory start after) (longer : directory.length < path.length) :
    after.lookup path = start.lookup path :=
  sprouted.lookup_eq fun prefixed => absurd prefixed.length_le (by omega)

/-- A directory on the way is made, or the call failed. -/
theorem Sprouted.mkdir {disk : Disk} (sprouted : Sprouted directory start disk.files)
    (prefixed : path <+: directory) :
    Sprouted directory start (Disk.serve entropy (.mkdir path) disk).2.files := by
  rw [Disk.serve]
  by_cases there : disk.files.exists? path = true
  · rw [dif_pos there]
    exact sprouted
  rw [dif_neg there]
  by_cases parent : disk.files.isDir path.dropLast = true
  · rw [dif_pos parent]
    intro other
    rw [Disk.withFiles, FileSystem.lookup_put]
    by_cases same : other = path
    · rw [if_pos same]
      have missing : disk.files.lookup path = none := by
        simp only [FileSystem.exists?, Bool.or_eq_true, decide_eq_true_eq, not_or] at there
        simpa using there.2
      subst same
      rcases sprouted other with kept | ⟨absent, made, _⟩
      · exact Or.inr ⟨kept.symm.trans missing, rfl, prefixed⟩
      · rw [missing] at made
        cases made
    · rw [if_neg same]
      exact sprouted other
  · rw [dif_neg parent]
    exact sprouted

theorem asks_mkdirUp (names : List Text) :
    (mkdirUp names).Asks fun request => request = .look ∨
      ∃ path, path <+: names.reverse ∧ request = .mkdir path := by
  have existing (path : Path) : (mkdirExisting path).Asks fun request => request = .look ∨
      ∃ above, above <+: path ∧ request = .mkdir above := by
    refine ⟨Or.inr ⟨path, List.prefix_rfl, rfl⟩, fun answer => ?_⟩
    rcases answer with error | done
    · cases error <;> try trivial
      all_goals
        refine Program.Asks.bind ⟨Or.inl rfl, fun _ => trivial⟩ fun there => ?_
        split <;> trivial
    · trivial
  induction names with
  | nil => exact existing []
  | cons name above ih =>
      refine ⟨Or.inr ⟨_, List.prefix_rfl, rfl⟩, fun answer => ?_⟩
      have wider {request : FileCall} (asked : request = .look ∨
          ∃ path, path <+: above.reverse ∧ request = .mkdir path) : request = .look ∨
            ∃ path, path <+: (name :: above).reverse ∧ request = .mkdir path := by
        rcases asked with look | ⟨path, prefixed, is⟩
        · exact Or.inl look
        · rw [List.reverse_cons]
          exact Or.inr ⟨path, prefixed.trans (List.prefix_append _ _), is⟩
      rcases answer with error | done
      · cases error with
        | fileNotFound =>
            exact Program.Asks.bind (ih.mono fun _ => wider) fun _ => existing _
        | _ =>
            refine Program.Asks.bind ⟨Or.inl rfl, fun _ => trivial⟩ fun there => ?_
            split <;> trivial
      · trivial

/-- The directories above a path are made, as far as it came. -/
theorem keeps_mkdirParents {disk : Disk} (sprouted : Sprouted directory start disk.files) :
    Program.Keeps (Disk.serve entropy) (mkdirParents directory)
      (fun cut => Sprouted directory start cut.files) disk := by
  have asks := asks_mkdirUp directory.reverse
  rw [List.reverse_reverse] at asks
  refine Program.Asks.keeps asks ?_ sprouted
  rintro request (rfl | ⟨path, prefixed, rfl⟩) state held
  · exact held
  · exact held.mkdir prefixed

/-! ## Calls -/

variable {disk : Disk}

theorem serve_write (path : Path) (contents : Bytes) (disk : Disk) :
    (∃ after, Disk.serve entropy (.write path contents) disk = (.ok (), after) ∧
      ∀ other, after.files.lookup other =
        if other = path then some (.file contents) else disk.files.lookup other) ∨
    ∃ error, Disk.serve entropy (.write path contents) disk = (.error error, disk) := by
  rw [Disk.serve]
  split
  · refine Or.inl ⟨_, rfl, fun other => ?_⟩
    rw [Disk.withFiles, FileSystem.lookup_rewrite]
  · exact Or.inr ⟨_, rfl⟩
  · exact Or.inr ⟨_, rfl⟩

theorem serve_unlink (path : Path) (disk : Disk) :
    (∃ after, Disk.serve entropy (.unlink path) disk = (.ok (), after) ∧
      Removed disk.files path after.files) ∨
    ∃ error, Disk.serve entropy (.unlink path) disk = (.error error, disk) ∧
      (error = .fileNotFound → disk.files.lookup path = none) := by
  rw [Disk.serve]
  split
  · refine Or.inl ⟨_, rfl, fun other => ?_⟩
    rw [Disk.withFiles, FileSystem.lookup_remove]
  · refine Or.inr ⟨_, rfl, fun missing => ?_⟩
    cases missing
  · next absent => exact Or.inr ⟨_, rfl, fun _ => absent⟩

theorem serve_unlink_file {contents : Bytes} {disk : Disk}
    (file : disk.files.lookup path = some (.file contents)) :
    ∃ after, Disk.serve entropy (.unlink path) disk = (.ok (), after) ∧
      Removed disk.files path after.files := by
  rw [Disk.serve]
  split
  · refine ⟨_, rfl, fun other => ?_⟩
    rw [Disk.withFiles, FileSystem.lookup_remove]
  · next directory => cases file.symm.trans directory
  · next absent => cases file.symm.trans absent

theorem serve_rmdir_empty {disk : Disk} (directory : disk.files.lookup path = some .dir)
    (empty : ∀ name, disk.files.lookup (path ++ [name]) = none) :
    ∃ after, Disk.serve entropy (.rmdir path) disk = (.ok (), after) ∧
      Removed disk.files path after.files := by
  have bare : disk.files.isEmpty path = true := FileSystem.isEmpty_iff.mpr empty
  rw [Disk.serve]
  split
  · rw [dif_pos bare]
    refine ⟨_, rfl, fun other => ?_⟩
    rw [Disk.withFiles, FileSystem.lookup_remove]
  · next file => cases directory.symm.trans file
  · next absent => cases directory.symm.trans absent

theorem serve_rmdir (path : Path) (disk : Disk) :
    (∃ after, Disk.serve entropy (.rmdir path) disk = (.ok (), after) ∧
      Removed disk.files path after.files) ∨
    ∃ error, Disk.serve entropy (.rmdir path) disk = (.error error, disk) := by
  rw [Disk.serve]
  split
  · split
    · refine Or.inl ⟨_, rfl, fun other => ?_⟩
      rw [Disk.withFiles, FileSystem.lookup_remove]
    · exact Or.inr ⟨_, rfl⟩
  · exact Or.inr ⟨_, rfl⟩
  · exact Or.inr ⟨_, rfl⟩

theorem serve_replace (source target : Path) (disk : Disk) :
    (∃ contents after, disk.files.lookup source = some (.file contents) ∧
      Disk.serve entropy (.replace source target) disk = (.ok (), after) ∧
      ∀ other, after.files.lookup other = if other = target then some (.file contents)
        else if other = source then none else disk.files.lookup other) ∨
    ∃ error, Disk.serve entropy (.replace source target) disk = (.error error, disk) := by
  rw [Disk.serve]
  split
  · next contents file =>
      split
      · refine Or.inl ⟨contents, _, file, rfl, fun other => ?_⟩
        rw [Disk.withFiles, FileSystem.lookup_rename]
      · split
        · exact Or.inr ⟨_, rfl⟩
        · exact Or.inr ⟨_, rfl⟩
  · exact Or.inr ⟨_, rfl⟩
  · exact Or.inr ⟨_, rfl⟩

theorem serve_mkstemp (directory : Path) (stem : Text) (disk : Disk) :
    (∃ middle after, Disk.serve entropy (.mkstemp directory stem) disk =
        (.ok (directory ++ [stem ++ middle ++ text ".tmp"]), after) ∧
      disk.files.lookup (directory ++ [stem ++ middle ++ text ".tmp"]) = none ∧
      ∀ other, after.files.lookup other =
        if other = directory ++ [stem ++ middle ++ text ".tmp"] then some (.file [])
        else disk.files.lookup other) ∨
    ∃ error, Disk.serve entropy (.mkstemp directory stem) disk = (.error error, disk) := by
  rw [Disk.serve]
  split
  · refine Or.inl ⟨_, _, rfl, entropy.temporary_fresh _ _ _ _, fun other => ?_⟩
    rw [Disk.tick, Disk.withFiles, FileSystem.lookup_put]
  · exact Or.inr ⟨_, rfl⟩

/-! ## Writes -/

variable {data : Bytes} {temporary : Path}

theorem Sprouted.unchanged (sprouted : Sprouted path.dropLast start disk.files)
    (below : path ≠ []) : disk.files.lookup path = start.lookup path := by
  have long : 0 < path.length := List.length_pos_iff.mpr below
  exact sprouted.lookup_eq_of_length (by rw [List.length_dropLast]; omega)

theorem Sprouted.writing (sprouted : Sprouted path.dropLast start disk.files) (below : path ≠ []) :
    Writing start path data disk.files := by
  refine ⟨Or.inl (sprouted.unchanged below), fun other _ => ?_⟩
  rcases sprouted other with same | ⟨absent, made, prefixed⟩
  · exact Or.inl same
  · exact Or.inr ⟨absent, Or.inl ⟨made, prefixed⟩⟩

/-- What happens to the temporary file does not matter. -/
theorem Writing.beside {before after : FileSystem} (writing : Writing start path data before)
    (fresh : start.lookup temporary = none) (named : Temporary temporary)
    (beside : temporary.dropLast = path.dropLast) (different : temporary ≠ path)
    (leaf : after.lookup temporary ≠ some .dir)
    (rest : ∀ other, other ≠ temporary → after.lookup other = before.lookup other) :
    Writing start path data after := by
  refine ⟨?_, fun other apart => ?_⟩
  · rw [rest path different.symm]
    exact writing.1
  · by_cases same : other = temporary
    · subst same
      rcases is : after.lookup other with _ | _ | _
      · exact Or.inl fresh.symm
      · exact Or.inr ⟨fresh, Or.inr ⟨named, beside, _, rfl⟩⟩
      · exact absurd is leaf
    · rw [rest other same]
      exact writing.2 other apart

/-- A temporary file takes the place of its target, or the target is as it was. -/
theorem meets_fillTemporary (mode : Json) (writing : Writing start path data disk.files)
    (unchanged : disk.files.lookup path = start.lookup path)
    (fresh : start.lookup temporary = none) (named : Temporary temporary)
    (beside : temporary.dropLast = path.dropLast) (different : temporary ≠ path) :
    Program.Meets (Disk.serve entropy) (Project.fillTemporary temporary path data mode)
      (fun cut => Writing start path data cut.files)
      (fun outcome final => match outcome with
        | .ok _ => final.files.lookup path = some (.file data)
        | .error _ => final.files.lookup path = start.lookup path) disk := by
  unfold Project.fillTemporary
  cases checkMode mode with
  | error raised => exact Program.meets_raise.mpr ⟨writing, unchanged⟩
  | ok bits =>
      refine Program.meets_act.mpr ⟨writing, ?_⟩
      rcases serve_write temporary data disk with ⟨filled, served, files⟩ | ⟨error, served⟩
      · rw [served]
        have kept : Writing start path data filled.files :=
          writing.beside fresh named beside different (by simp [files])
            fun other apart => by rw [files, if_neg apart]
        have same : filled.files.lookup path = start.lookup path := by
          rw [files, if_neg different.symm, unchanged]
        refine Program.meets_act.mpr ⟨kept, ?_⟩
        rcases serve_replace temporary path filled with
          ⟨contents, replaced, found, served, files'⟩ | ⟨error, served⟩
        · rw [served]
          rw [files, if_pos rfl, Option.some.injEq, Node.file.injEq] at found
          subst found
          have target : replaced.files.lookup path = some (.file data) := by
            rw [files', if_pos rfl]
          refine Program.meets_pure.mpr ⟨⟨Or.inr target, fun other apart => ?_⟩, target⟩
          by_cases temp : other = temporary
          · subst temp
            rw [files', if_neg apart, if_pos rfl]
            exact Or.inl fresh.symm
          · rw [files', if_neg apart, if_neg temp]
            exact kept.2 other apart
        · rw [served]
          exact Program.meets_raise.mpr ⟨kept, same⟩
      · rw [served]
        exact Program.meets_raise.mpr ⟨writing, unchanged⟩

/-- The removal of the temporary file leaves the rest. -/
theorem meets_unlinkTemporary {raised : Raised} (writing : Writing start path data disk.files)
    (unchanged : disk.files.lookup path = start.lookup path)
    (fresh : start.lookup temporary = none) (named : Temporary temporary)
    (beside : temporary.dropLast = path.dropLast) (different : temporary ≠ path) :
    Program.Meets (Disk.serve entropy)
      (do
        unlinkMissing temporary
        unlinkMissing temporary
        (.raise raised : FileProgram Unit))
      (fun cut => Writing start path data cut.files)
      (fun outcome final => (∃ raised, outcome = .error raised) ∧
        final.files.lookup path = start.lookup path) disk := by
  have step {state : Disk} (held : Writing start path data state.files ∧
      state.files.lookup path = start.lookup path) :
      Program.Meets (Disk.serve entropy) (unlinkMissing temporary)
        (fun cut => Writing start path data cut.files)
        (fun _ final => Writing start path data final.files ∧
          final.files.lookup path = start.lookup path) state := by
    refine Program.meets_act.mpr ⟨held.1, ?_⟩
    rcases serve_unlink temporary state with ⟨after, served, removed⟩ | ⟨error, served, _⟩
    · rw [served]
      have kept : Writing start path data after.files :=
        held.1.beside fresh named beside different (by rw [removed, if_pos rfl]; simp)
          fun other apart => by rw [removed, if_neg apart]
      exact Program.meets_pure.mpr ⟨kept, kept, by rw [removed, if_neg different.symm, held.2]⟩
    · rw [served]
      cases error <;> first
        | exact Program.meets_pure.mpr ⟨held.1, held⟩
        | exact Program.meets_raise.mpr ⟨held.1, held⟩
  refine Program.Meets.bind ((step ⟨writing, unchanged⟩).mono (fun _ here => here) ?_)
  intro outcome middle _ held
  cases outcome with
  | error other => exact ⟨⟨other, rfl⟩, held.2⟩
  | ok done =>
      refine Program.Meets.bind ((step held).mono (fun _ here => here) ?_)
      intro outcome last _ held
      cases outcome with
      | error other => exact ⟨⟨other, rfl⟩, held.2⟩
      | ok done => exact Program.meets_raise.mpr ⟨held.1, ⟨raised, rfl⟩, held.2⟩

/-- An atomic write that is cut short left the old contents or the new ones; if it returned
it left the new ones, and if it raised the old ones. -/
theorem meets_atomicWriteBytes (project : Project) (path : Path) (data : Bytes) (mode : Json)
    (below : path ≠ []) (disk : Disk) :
    Program.Meets (Disk.serve entropy) (project.atomicWriteBytes path data mode)
      (fun cut => Writing disk.files path data cut.files)
      (fun outcome final => match outcome with
        | .ok _ => final.files.lookup path = some (.file data)
        | .error _ => final.files.lookup path = disk.files.lookup path) disk := by
  have writing {cut : Disk} (sprouted : Sprouted path.dropLast disk.files cut.files) :
      Writing disk.files path data cut.files := sprouted.writing below
  have unchanged {cut : Disk} (sprouted : Sprouted path.dropLast disk.files cut.files) :
      cut.files.lookup path = disk.files.lookup path := sprouted.unchanged below
  have start : Sprouted path.dropLast disk.files disk.files := Sprouted.refl _
  unfold Project.atomicWriteBytes
  cases confined : project.assertConfined path with
  | error raised => exact Program.meets_raise.mpr ⟨writing start, rfl⟩
  | ok done =>
      have made := @keeps_mkdirParents entropy path.dropLast disk.files disk start
      refine Program.Meets.bind (Program.meets_pure.mpr ⟨writing start, ?_⟩)
      refine Program.Meets.bind (made.mono (fun _ held => writing held) ?_)
      intro outcome middle sprouted _
      cases outcome with
      | error raised => exact unchanged sprouted
      | ok done =>
          refine Program.meets_act.mpr ⟨writing sprouted, ?_⟩
          rcases serve_mkstemp path.dropLast (text "." ++ path.getLast?.getD [] ++ text ".")
            middle with ⟨random, opened, served, absent, files⟩ | ⟨error, served⟩
          · rw [served]
            generalize is : path.dropLast ++ [text "." ++ path.getLast?.getD [] ++ text "." ++
              random ++ text ".tmp"] = temporary at absent files
            have named : Temporary temporary :=
              ⟨path.getLast?.getD [], random, by rw [← is, List.getLast?_concat]⟩
            have beside : temporary.dropLast = path.dropLast := by
              rw [← is, List.dropLast_concat]
            have different : temporary ≠ path := by
              intro same
              have last := congrArg (fun path => (path.getLast?.getD []).length) is
              simp only [List.getLast?_concat, Option.getD_some, same, List.length_append,
                text] at last
              simp at last
              omega
            have fresh : disk.files.lookup temporary = none := by
              rcases sprouted temporary with kept | ⟨missing, _⟩
              · exact kept.symm.trans absent
              · exact missing
            have kept : Writing disk.files path data opened.files :=
              (writing sprouted).beside fresh named beside different
                (by rw [files, if_pos rfl]; nofun) fun other apart => by rw [files, if_neg apart]
            have same : opened.files.lookup path = disk.files.lookup path := by
              rw [files, if_neg different.symm, unchanged sprouted]
            refine Program.Meets.tryCatch
              ((meets_fillTemporary mode kept same fresh named beside different).mono
                (fun _ held => held) ?_)
            intro outcome last held ends
            cases outcome with
            | ok done => exact ends
            | error raised =>
                refine (meets_unlinkTemporary held ends fresh named beside different).mono
                  (fun _ held => held) ?_
                rintro outcome final _ ⟨⟨raised, rfl⟩, ends⟩
                exact ends
          · rw [served]
            exact Program.meets_raise.mpr ⟨writing sprouted, unchanged sprouted⟩

/-- A removal that is cut short removed the path or nothing. -/
theorem keeps_durableUnlink (project : Project) {kept : Disk → Prop} (start : kept disk)
    (removes : ∀ after : Disk, Removed disk.files path after.files → kept after)
    (missingOk : Bool) :
    Program.Keeps (Disk.serve entropy) (project.durableUnlink path missingOk) kept disk := by
  unfold Project.durableUnlink
  cases project.assertConfined path with
  | error raised => exact Program.meets_raise.mpr ⟨start, trivial⟩
  | ok done =>
      refine Program.Keeps.bind (Program.meets_pure.mpr ⟨start, trivial⟩) ?_
      rintro _ _ ⟨⟩ _
      have served := @serve_unlink entropy path disk
      cases missingOk with
      | true =>
          refine Program.meets_act.mpr ⟨start, ?_⟩
          rcases served with ⟨after, served, removed⟩ | ⟨error, served, _⟩
          · rw [served]
            exact Program.meets_pure.mpr ⟨removes after removed, trivial⟩
          · rw [served]
            cases error with
            | fileNotFound => exact Program.meets_pure.mpr ⟨start, trivial⟩
            | _ => exact Program.meets_raise.mpr ⟨start, trivial⟩
      | false =>
          refine Program.meets_act.mpr ⟨start, ?_⟩
          rcases served with ⟨after, served, removed⟩ | ⟨error, served, _⟩
          · rw [served]
            exact Program.meets_pure.mpr ⟨removes after removed, trivial⟩
          · rw [served]
            exact Program.meets_raise.mpr ⟨start, trivial⟩

end

end CarbonLab.Aegis
